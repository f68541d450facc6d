import Mathlib.Data.List.TakeWhile
import Xv6.Dir.Syscall

/-!
# 名前の層の仕様の補題

表の書き換えの欄ごとの補題、`iput` が何もしない場合、ディレクトリの探索と末尾への追加、
道のりの一歩。`create` と `sys_link` の成功する道筋は、これらを順に使って書く。
-/

namespace Xv6.Dir

open Xv6.Lib Xv6.Fs

variable {fs fs' : DirFs} {i j : Nat} {f : Inode → Inode}

/-! ## 表の書き換え -/

@[simp] theorem DirFs.setInode_inode (fs : DirFs) (i : Nat) (f : Inode → Inode) (j : Nat) :
    (fs.setInode i f).inode j = if j = i then f (fs.inode i) else fs.inode j := by
  simp only [DirFs.setInode, Function.update_apply]

@[simp] theorem DirFs.setInode_cwd : (fs.setInode i f).cwd = fs.cwd := rfl

@[simp] theorem DirFs.setInode_ofile : (fs.setInode i f).ofile = fs.ofile := rfl

@[simp] theorem DirFs.setInode_held : (fs.setInode i f).held = fs.held := rfl

@[simp] theorem DirFs.setInode_ninodes : (fs.setInode i f).ninodes = fs.ninodes := rfl

@[simp] theorem DirFs.refs_setInode : (fs.setInode i f).refs j = fs.refs j := rfl

@[simp] theorem DirFs.setInode_setInode (g : Inode → Inode) :
    (fs.setInode i f).setInode i g = fs.setInode i (g ∘ f) := by
  simp only [DirFs.setInode, Function.update_self, Function.update_idem, Function.comp_apply]

/-- `nlink` が 0 でなければ、`iput` は何もしない。 -/
theorem iput_of_nlink_ne {hold : List Nat} (h : (fs.inode i).nlink ≠ 0) : iput fs i hold = fs := by
  unfold iput
  rw [if_neg]
  rintro ⟨-, h'⟩
  exact h h'

theorem wrap16_ne_zero {x : Int} (h1 : 0 < x) (h2 : x < 2 ^ 16) : wrap16 x ≠ 0 := by
  intro h
  -- 丸めは 2^16 を法として値を変えない
  have hm : wrap16 x % 65536 = x % 65536 := Int.bmod_emod
  rw [h] at hm
  omega

/-! ## ディレクトリ -/

theorem dirlookupLoop_eq_none {name : List UInt8} :
    ∀ {des : List Dirent} {off : Nat}, (∀ de ∈ des, (de.inum != 0 && namecmp name de.name) = false) →
      dirlookupLoop name des off = none
  | [], _, _ => rfl
  | de :: des, off, h => by
    rw [dirlookupLoop, if_neg (by simp [h de (by simp)])]
    exact dirlookupLoop_eq_none fun d hd => h d (List.mem_cons_of_mem _ hd)

/-- 前の部分に合う項目がなければ、探索は後ろの部分の位置から続く。 -/
theorem dirlookupLoop_append {name : List UInt8} {l₂ : List Dirent} :
    ∀ {l₁ : List Dirent} {off : Nat}, dirlookupLoop name l₁ off = none →
      dirlookupLoop name (l₁ ++ l₂) off = dirlookupLoop name l₂ (off + l₁.length * direntSize)
  | [], off, _ => by simp
  | de :: des, off, h => by
    rw [dirlookupLoop] at h
    split at h
    · cases h
    · rename_i hne
      rw [List.cons_append, dirlookupLoop, if_neg hne, dirlookupLoop_append h]
      congr 1
      simp only [List.length_cons]
      ring

/-- どの項目も生きていれば、空きの位置は末尾。 -/
theorem dirlinkOff_of_live : ∀ {des : List Dirent} {off : Nat}, (∀ de ∈ des, de.inum ≠ 0) →
    dirlinkOff des off = off + des.length * direntSize
  | [], off, _ => by simp [dirlinkOff]
  | de :: des, off, h => by
    rw [dirlinkOff, if_neg (h de (by simp)),
      dirlinkOff_of_live fun d hd => h d (List.mem_cons_of_mem _ hd)]
    simp only [List.length_cons]
    ring

/-- 末尾に足す書き込みは、`MAXFILE` ブロックに収まり、要るブロックが取れれば成功する。 -/
theorem writeDirent_append {des : List Dirent} {de : Dirent} {alloc : Bool}
    (hsz : des.length * direntSize + direntSize ≤ MAXFILE * BSIZE)
    (ha : des.length * direntSize % BSIZE = 0 → alloc = true) :
    writeDirent des (des.length * direntSize) de alloc = some (des ++ [de]) := by
  unfold writeDirent
  rw [if_neg (by omega), if_pos rfl, if_neg]
  rintro ⟨h₁, h₂⟩
  rw [ha h₁] at h₂
  cases h₂

/-- 名前がなく、どの項目も生きていれば、`dirlink` は末尾に項目を足す。 -/
theorem dirlink_append {dp inum : Nat} {name : List UInt8} {alloc : Bool}
    (hd : (fs.inode dp).type = .dir)
    (hn : ∀ de ∈ (fs.inode dp).dirents, (de.inum != 0 && namecmp name de.name) = false)
    (hl : ∀ de ∈ (fs.inode dp).dirents, de.inum ≠ 0)
    (hsz : (fs.inode dp).dirents.length * direntSize + direntSize ≤ MAXFILE * BSIZE)
    (ha : (fs.inode dp).dirents.length * direntSize % BSIZE = 0 → alloc = true) :
    dirlink fs dp name inum alloc =
      some (0, fs.setInode dp fun ip => { ip with dirents := ip.dirents ++ [⟨inum, name.take DIRSIZ⟩] }) := by
  have hw : writeDirent _ _ ⟨inum, name.take DIRSIZ⟩ alloc = _ := writeDirent_append hsz ha
  rw [← Nat.zero_add ((fs.inode dp).dirents.length * direntSize), ← dirlinkOff_of_live hl] at hw
  simp only [dirlink, dirlookup, if_pos hd, dirlookupLoop_eq_none hn, Option.bind_eq_bind,
    Option.bind_some, hw]
  rfl

/-! ## 道のり -/

theorem skipelem_nil (name : List UInt8) : skipelem [] name = none := rfl

/-- NUL を含まない列から読む名前は、先頭の `DIRSIZ` バイト。 -/
theorem cname_of_noNul {elem : List UInt8} (h0 : 0 ∉ elem) : cname elem = elem.take DIRSIZ := by
  rw [cname, List.takeWhile_eq_self_iff]
  intro x hx
  simpa using fun he : x = 0 => h0 (he ▸ List.mem_of_mem_take hx)

/-- `name` から読む名前は、写した要素から読む名前と同じで、`name` の前の中身にはよらない。 -/
theorem cname_nameBuf (old elem : List UInt8) : cname (nameBuf old elem) = cname elem := by
  unfold nameBuf cname
  split_ifs with h
  · rw [List.take_take, Nat.min_self]
  · -- 短い要素の後には NUL があり、takeWhile はそこで止まる
    have hle : elem.length ≤ DIRSIZ := by omega
    have hk : DIRSIZ - elem.length = DIRSIZ - elem.length - 1 + 1 := by omega
    rw [List.take_append, List.take_of_length_le hle, hk, List.take_succ_cons,
      List.takeWhile_append]
    split
    · next he =>
      rw [List.takeWhile_cons_of_neg (by simp), List.append_nil]
      exact ((List.takeWhile_prefix _).eq_of_length he).symm
    · rfl

theorem cname_nameBuf_of_noNul {old elem : List UInt8} (h0 : 0 ∉ elem) :
    cname (nameBuf old elem) = elem.take DIRSIZ := by
  rw [cname_nameBuf, cname_of_noNul h0]

/-- '/' を含まない名前だけの道のり。 -/
theorem skipelem_name {elem : List UInt8} (name : List UInt8) (hne : elem ≠ [])
    (hs : ∀ c ∈ elem, isSlash c = false) : skipelem elem name = some (nameBuf name elem, []) := by
  obtain ⟨c, p, rfl⟩ := List.exists_cons_of_ne_nil hne
  have hc : isSlash c = false := hs c (by simp)
  have hw : (c :: p).dropWhile isSlash = c :: p := by simp [hc]
  have ht : (c :: p).takeWhile (!isSlash ·) = c :: p := List.takeWhile_eq_self_iff.mpr (by simpa using hs)
  have hd : (c :: p).dropWhile (!isSlash ·) = [] := List.dropWhile_eq_nil_iff.mpr (by simpa using hs)
  simp only [skipelem, hw, ht, hd, List.dropWhile_nil]

/-- `elem/rest` の形の道のりは、要素と rest に分かれる。 -/
theorem skipelem_name_slash {elem rest : List UInt8} (name : List UInt8) (hne : elem ≠ [])
    (hs : ∀ c ∈ elem, isSlash c = false) (hr : ∀ c ∈ rest.head?, isSlash c = false) :
    skipelem (elem ++ '/'.toUInt8 :: rest) name = some (nameBuf name elem, rest) := by
  obtain ⟨c, p, rfl⟩ := List.exists_cons_of_ne_nil hne
  have hc : isSlash c = false := hs c (by simp)
  have hp : ∀ a ∈ p, (!isSlash a) = true := fun a ha => by simp [hs a (by simp [ha])]
  have hsl : isSlash '/'.toUInt8 = true := rfl
  have ht : (c :: (p ++ '/'.toUInt8 :: rest)).takeWhile (!isSlash ·) = c :: p := by
    rw [List.takeWhile_cons_of_pos (by simp [hc]), List.takeWhile_append_of_pos hp]
    simp [hsl]
  have hd : (c :: (p ++ '/'.toUInt8 :: rest)).dropWhile (!isSlash ·) = '/'.toUInt8 :: rest := by
    rw [List.dropWhile_cons_of_pos (by simp [hc]), List.dropWhile_append_of_pos hp]
    simp [hsl]
  have hr' : rest.dropWhile isSlash = rest := by
    cases rest with
    | nil => rfl
    | cons r rs => simp [hr r (by simp)]
  simp only [skipelem, List.cons_append, List.dropWhile_cons, hc, Bool.false_eq_true, ↓reduceIte,
    ht, hd, hsl, hr']

/-- 要素がなければ、ループはすぐ終わる。 -/
theorem namexLoop_of_none {np : Bool} {hold : List Nat} {ip : Nat} {path name : List UInt8}
    (h : skipelem path name = none) :
    namexLoop fs np hold ip path name = some (if np then none else some (ip, []), fs) := by
  rw [namexLoop]
  split
  · rfl
  · rename_i h'
    rw [h] at h'
    cases h'

/-- nameiparent で最後の要素なら、その手前のディレクトリと、`name` から読む最後の名前を返す。 -/
theorem namexLoop_parent_last {hold : List Nat} {ip : Nat} {path name buf : List UInt8}
    (h : skipelem path name = some (buf, [])) (hd : (fs.inode ip).type = .dir) :
    namexLoop fs true hold ip path name = some (some (ip, cname buf), fs) := by
  rw [namexLoop]
  split
  · rename_i h'
    rw [h] at h'
    cases h'
  · rename_i buf' rest' h'
    rw [h] at h'
    obtain ⟨rfl, rfl⟩ := Prod.mk.inj (Option.some.inj h')
    simp [hd]

/-- 途中の要素: 次の inode に進み、今の inode の参照を `iput` で落とす。 -/
theorem namexLoop_next {np : Bool} {hold : List Nat} {ip next off : Nat} {path name buf rest : List UInt8}
    (h : skipelem path name = some (buf, rest)) (hd : (fs.inode ip).type = .dir)
    (hl : ¬(np = true ∧ rest = [])) (hf : dirlookup fs ip (cname buf) = some (some (next, off))) :
    namexLoop fs np hold ip path name = namexLoop (iput fs ip (next :: hold)) np hold next rest buf := by
  rw [namexLoop]
  split
  · rename_i h'
    rw [h] at h'
    cases h'
  · rename_i buf' rest' h'
    rw [h] at h'
    obtain ⟨rfl, rfl⟩ := Prod.mk.inj (Option.some.inj h')
    simp only [hd, reduceCtorEq, ↓reduceIte, ne_eq, not_true_eq_false, hl, hf]

/-! ## 成功する道筋 -/

/-- 空いた番号 i より前がどれも使われていれば、`ialloc` は i を取る。 -/
theorem ialloc_eq {type : IType} (hi : 1 ≤ i) (hn : i < fs.ninodes) (hf : (fs.inode i).type = .free)
    (hu : ∀ j, 1 ≤ j → j < i → (fs.inode j).type ≠ .free) :
    ialloc fs type = some (i, fs.setInode i fun _ => Inode.empty type) := by
  -- 探す範囲を、i より前、i、i より後に分ける
  have hsplit : List.range' 1 (fs.ninodes - 1) =
      List.range' 1 (i - 1) ++ i :: List.range' (i + 1) (fs.ninodes - 1 - i) := by
    have e : fs.ninodes - 1 = (i - 1) + (fs.ninodes - 1 - i + 1) := by omega
    have e' : 1 + (i - 1) = i := by omega
    rw [e, ← List.range'_append_1, e', List.range'_succ]
    congr 3
    omega
  have hfind : (List.range' 1 (fs.ninodes - 1)).find? (fun j => (fs.inode j).type == .free) = some i := by
    rw [List.find?_eq_some_iff_append]
    refine ⟨by simpa using hf, _, _, hsplit, fun j hj => ?_⟩
    rw [List.mem_range'_1] at hj
    simpa using hu j hj.1 (by omega)
  simp only [ialloc, hfind]

/-- sys_link が成功する道筋: old が指す ip はディレクトリでなく、new の親 dp に項目を足せる。 -/
theorem sysLink_ok {old new name : List UInt8} {ip dp : Nat} {oc : Outcome} {fs₂ : DirFs}
    (hlen : old.length < MAXPATH) (hlen' : new.length < MAXPATH)
    (hfind : namex fs old false [] localName = some (some (ip, []), fs))
    (hip : (fs.inode ip).type ≠ .free ∧ (fs.inode ip).type ≠ .dir)
    (hnew : namex (fs.setInode ip fun q => { q with nlink := wrap16 (q.nlink + 1) }) new true [ip] localName =
      some (some (dp, name), fs.setInode ip fun q => { q with nlink := wrap16 (q.nlink + 1) }))
    (hdp : (fs.inode dp).type = .dir) (hne : dp ≠ ip)
    (hl : dirlink (fs.setInode ip fun q => { q with nlink := wrap16 (q.nlink + 1) }) dp name ip
      oc.parent = some (0, fs₂))
    (hn : (fs₂.inode dp).nlink ≠ 0) (hn' : (fs₂.inode ip).nlink ≠ 0) :
    sysLink fs old new oc = some (0, fs₂) := by
  have hdp' : ((fs.setInode ip fun q => { q with nlink := wrap16 (q.nlink + 1) }).inode dp).type = .dir := by
    simp [hne, hdp]
  simp only [sysLink, Nat.not_le.mpr hlen, Nat.not_le.mpr hlen', or_self, ↓reduceIte, hfind,
    Option.bind_eq_bind, Option.bind_some, hip.1, hip.2, hnew, hdp', reduceCtorEq, hl]
  rw [iput_of_nlink_ne hn, iput_of_nlink_ne hn']
  rfl

/-- 空の新しいディレクトリに "." と ".." を書く。 -/
theorem createDots_fresh {ip dp : Nat} (hd : (fs.inode ip).type = .dir) (he : (fs.inode ip).dirents = [])
    (hip : ip ≠ 0) :
    createDots fs ip dp true =
      some (0, fs.setInode ip fun q => { q with dirents := [⟨ip, dotName⟩, ⟨dp, dotdotName⟩] }) := by
  have h₁ : dirlink fs ip dotName ip true =
      some (0, fs.setInode ip fun q => { q with dirents := q.dirents ++ [⟨ip, dotName⟩] }) :=
    dirlink_append hd (by simp [he]) (by simp [he]) (by rw [he]; decide) (fun _ => rfl)
  have h₂ : dirlink (fs.setInode ip fun q => { q with dirents := q.dirents ++ [⟨ip, dotName⟩] }) ip
      dotdotName dp true = some (0, (fs.setInode ip fun q => { q with dirents := q.dirents ++ [⟨ip, dotName⟩] }).setInode ip
        fun q => { q with dirents := q.dirents ++ [⟨dp, dotdotName⟩] }) :=
    dirlink_append (by simp [hd]) (by simp [he, hip]; decide) (by simp [he, hip])
      (by simp only [DirFs.setInode_inode, ↓reduceIte, he, List.nil_append, List.length_singleton]; decide)
      (fun h => by simp [he] at h)
  simp only [createDots, h₁, Option.bind_eq_bind, Option.bind_some, h₂, Int.reduceLT, ↓reduceIte,
    DirFs.setInode_setInode]
  -- 二つの書き込みを合わせると、空だった中身が "." と ".." になる
  simp only [DirFs.setInode, Function.comp_apply, he, List.nil_append, List.singleton_append]

/-- create が新しいファイル（T_DIR でない inode）を作る道筋。 -/
theorem create_new_file {path name : List UInt8} {type : IType} {major minor : Int} {oc : Outcome}
    {dp ip : Nat} {fs₁ fs₂ : DirFs} (hty : type ≠ .dir)
    (hpar : namex fs path true [] localName = some (some (dp, name), fs)) (hdp : (fs.inode dp).type = .dir)
    (hnot : dirlookupLoop name (fs.inode dp).dirents 0 = none)
    (hal : ialloc fs type = some (ip, fs₁))
    (hl : dirlink (fs₁.setInode ip fun q => { q with major := major, minor := minor, nlink := 1 }) dp
      name ip oc.parent = some (0, fs₂))
    (hn : (fs₂.inode dp).nlink ≠ 0) :
    create fs path type major minor oc = some (some ip, fs₂) := by
  simp only [create, hpar, Option.bind_eq_bind, Option.bind_some, hdp, reduceCtorEq, ↓reduceIte,
    dirlookup, hnot, hal, hty, hl, Int.reduceLT]
  rw [iput_of_nlink_ne hn]

/-- create が新しいディレクトリを作る道筋: "." と ".." を書き、親に項目を足してから親の
`nlink` を増やす。 -/
theorem create_new_dir {path name : List UInt8} {major minor : Int} {oc : Outcome}
    {dp ip : Nat} {fs₁ fs₂ fs₃ : DirFs}
    (hpar : namex fs path true [] localName = some (some (dp, name), fs)) (hdp : (fs.inode dp).type = .dir)
    (hnot : dirlookupLoop name (fs.inode dp).dirents 0 = none)
    (hal : ialloc fs .dir = some (ip, fs₁))
    (hdots : createDots (fs₁.setInode ip fun q => { q with major := major, minor := minor, nlink := 1 })
      ip dp oc.child = some (0, fs₂))
    (hl : dirlink fs₂ dp name ip oc.parent = some (0, fs₃))
    (hn : wrap16 ((fs₃.inode dp).nlink + 1) ≠ 0) :
    create fs path .dir major minor oc =
      some (some ip, fs₃.setInode dp fun q => { q with nlink := wrap16 (q.nlink + 1) }) := by
  simp only [create, hpar, Option.bind_eq_bind, Option.bind_some, hdp, reduceCtorEq, ↓reduceIte,
    dirlookup, hnot, hal, hdots, hl, Int.reduceLT]
  rw [iput_of_nlink_ne (by simpa using hn)]

/-- O_CREATE の sys_open が、作ったか見つけたファイルを最小の空き fd に開く道筋。 -/
theorem sysOpen_create_ok {path : List UInt8} {omode : Int} {oc : Outcome} {ip : Nat} {fd : Fin NOFILE}
    {fs₁ : DirFs} (hlen : path.length < MAXPATH) (hc : Int.land omode O_CREATE ≠ 0)
    (hcr : create fs path .file 0 0 oc = some (some ip, fs₁)) (hdev : (fs₁.inode ip).type ≠ .device)
    (hf : oc.file = true) (hfd : fdalloc fs₁ = some fd) :
    sysOpen fs path omode oc =
      some ((fd.val : Int), { fs₁ with ofile := Function.update fs₁.ofile fd (some ip) }) := by
  rw [sysOpen, if_neg (Nat.not_le.mpr hlen)]
  simp only [if_pos hc, hcr, Option.bind_eq_bind, Option.bind_some, hdev, false_and, ↓reduceIte,
    hf, Bool.true_eq_false, hfd]

theorem sysMkdir_ok {path : List UInt8} {oc : Outcome} {ip : Nat} {fs₁ : DirFs}
    (hlen : path.length < MAXPATH) (hcr : create fs path .dir 0 0 oc = some (some ip, fs₁))
    (hn : (fs₁.inode ip).nlink ≠ 0) :
    sysMkdir fs path oc = some (0, fs₁) := by
  simp only [sysMkdir, Nat.not_le.mpr hlen, ↓reduceIte, hcr, Option.bind_eq_bind, Option.bind_some]
  rw [iput_of_nlink_ne hn]

end Xv6.Dir
