import Mathlib.Tactic.SplitIfs
import Xv6.Dir.Wrap

/-!
# 道のりの解決（`kernel/fs.c` の skipelem、namex、namei、nameiparent）

`skipelem` を 0 を返すまで繰り返すと、呼び出し元の `name` には、道のりの '/' を含まない空でない
区切りが順に写される（`skipelems_eq_nameBufs`）。そこから読む名前は区切りを `DIRSIZ` バイトに
切り詰めたもので、区切りが `DIRSIZ` バイトより短ければ、`name` の中の名前は NUL で終わる
（`nameBufs_spec`）。namex が読むのは `name` の中の名前だけなので、その前の中身にはよらない
（`namex_name_irrelevant`）。

表が `LookupOK` なら、`namei` は名前の列に沿って `dirlookup` をたどった inode を返し
（`namexLoop_lookupPath`）、`nameiparent` は最後の名前の手前までたどったディレクトリと最後の
名前を返す（`namexLoop_lookupParent`）。途中の `iput` は何も解放しない。

`namex` が `iget` と `idup` で取る参照は、返す inode の一つを除いて、どの出口でも `iput` で
落とされる（`namexLoopOps_rel`）。
-/

namespace Xv6.Dir

open Xv6.Lib Xv6.Fs

/-! ## 名前の列 -/

/-- `skipelem` を 0 を返すまで繰り返したときの、各回の後の `name` の中身。 -/
def skipelems (path name : List UInt8) : List (List UInt8) :=
  match h : skipelem path name with
  | none => []
  | some (buf, rest) =>
    have : rest.length < path.length := skipelem_length h
    buf :: skipelems rest buf
termination_by path.length

/-- 要素を順に `name` に写したときの、各回の後の `name` の中身。 -/
def nameBufs (old : List UInt8) : List (List UInt8) → List (List UInt8)
  | [] => []
  | elem :: elems => nameBuf old elem :: nameBufs (nameBuf old elem) elems

/-- 道のりの、'/' を含まない空でない区切りを順に。 -/
def segments (path : List UInt8) : List (List UInt8) := (path.splitOnP isSlash).filter (· ≠ [])

theorem skipelems_of_none {path name : List UInt8} (h : skipelem path name = none) :
    skipelems path name = [] := by
  rw [skipelems]
  split <;> simp_all

theorem skipelems_of_some {path name buf rest : List UInt8} (h : skipelem path name = some (buf, rest)) :
    skipelems path name = buf :: skipelems rest buf := by
  rw [skipelems]
  split <;> simp_all

@[simp] theorem segments_nil : segments [] = [] := rfl

theorem segments_append_slash {c : UInt8} (hc : isSlash c = true) (x y : List UInt8) :
    segments (x ++ c :: y) = segments x ++ segments y := by
  unfold segments
  rw [List.splitOnP_append_cons x y hc, List.filter_append]

theorem segments_cons_slash {c : UInt8} (hc : isSlash c = true) (y : List UInt8) :
    segments (c :: y) = segments y := by
  simpa using segments_append_slash hc [] y

theorem segments_slashes_append :
    ∀ {pre : List UInt8}, (∀ c ∈ pre, isSlash c = true) → ∀ s, segments (pre ++ s) = segments s
  | [], _, _ => rfl
  | c :: pre, h, s => by
    rw [List.cons_append, segments_cons_slash (h c List.mem_cons_self)]
    exact segments_slashes_append (fun c hc => h c (List.mem_cons_of_mem _ hc)) s

theorem segments_dropWhile (s : List UInt8) : segments (s.dropWhile isSlash) = segments s := by
  calc segments (s.dropWhile isSlash)
      = segments (s.takeWhile isSlash ++ s.dropWhile isSlash) :=
        (segments_slashes_append (fun _ hc => List.mem_takeWhile_imp hc) _).symm
    _ = segments s := by rw [List.takeWhile_append_dropWhile]

theorem segments_of_noSlash {w : List UInt8} (hne : w ≠ []) (hs : ∀ c ∈ w, isSlash c = false) :
    segments w = [w] := by
  unfold segments
  rw [List.splitOnP_eq_singleton hs]
  simp [hne]

/-- splitOnP で切った列の要素は、元の列の要素。 -/
theorem mem_of_mem_splitOnP {α : Type} {p : α → Bool} :
    ∀ {t w : List α}, w ∈ t.splitOnP p → ∀ c ∈ w, c ∈ t
  | [], w, hw => by
    rw [List.splitOnP_nil, List.mem_singleton] at hw
    subst hw
    simp
  | x :: xs, w, hw => by
    rw [List.splitOnP_cons_eq_if_modifyHead] at hw
    split_ifs at hw
    · rcases List.mem_cons.1 hw with rfl | hw
      · simp
      · exact fun c hc => List.mem_cons_of_mem _ (mem_of_mem_splitOnP hw c hc)
    · -- x は最初の切れ端の先頭に付く
      obtain ⟨r, rs, hr⟩ := List.exists_cons_of_ne_nil (List.splitOnP_ne_nil p xs)
      rw [hr, List.modifyHead_cons] at hw
      rcases List.mem_cons.1 hw with rfl | hw
      · intro c hc
        rcases List.mem_cons.1 hc with rfl | hc
        · exact List.mem_cons_self
        · exact List.mem_cons_of_mem _ (mem_of_mem_splitOnP (hr ▸ List.mem_cons_self) c hc)
      · exact fun c hc => List.mem_cons_of_mem _ (mem_of_mem_splitOnP (hr ▸ List.mem_cons_of_mem _ hw) c hc)

theorem mem_of_mem_segments {path w : List UInt8} (hw : w ∈ segments path) : ∀ c ∈ w, c ∈ path :=
  mem_of_mem_splitOnP (List.mem_filter.mp hw).1

theorem segments_of_skipelem_none {path name : List UInt8} (h : skipelem path name = none) :
    segments path = [] := by
  unfold skipelem at h
  split at h
  · rename_i hp
    rw [← segments_dropWhile, hp, segments_nil]
  · cases h

/-- skipelem は次の区切りを `name` に写し、残りの区切りが後に続く。残りは '/' で始まらない。 -/
theorem segments_of_skipelem {path name buf rest : List UInt8} (h : skipelem path name = some (buf, rest)) :
    ∃ elem, buf = nameBuf name elem ∧ segments path = elem :: segments rest ∧
      ∀ c ∈ rest.head?, isSlash c = false := by
  unfold skipelem at h
  split at h
  · cases h
  · rename_i c p hp
    simp only [Option.some.injEq, Prod.mk.injEq] at h
    obtain ⟨rfl, rfl⟩ := h
    have hc : isSlash c = false := by
      have := List.head?_dropWhile_not isSlash path
      rwa [hp, List.head?_cons] at this
    -- 要素は '/' を含まない空でない列で、その後ろは空か '/' で始まる
    have helem : (c :: p).takeWhile (!isSlash ·) ≠ [] := by
      simp [hc]
    have hnos : ∀ x ∈ (c :: p).takeWhile (!isSlash ·), isSlash x = false := fun x hx => by
      simpa using List.mem_takeWhile_imp hx
    have htail := List.head?_dropWhile_not (!isSlash ·) (c :: p)
    have hrest := List.head?_dropWhile_not isSlash ((c :: p).dropWhile (!isSlash ·))
    refine ⟨(c :: p).takeWhile (!isSlash ·), rfl, ?_, ?_⟩
    · rw [← segments_dropWhile path, hp, segments_dropWhile]
      have hsplit := @List.takeWhile_append_dropWhile _ (!isSlash ·) (c :: p)
      generalize (c :: p).takeWhile (!isSlash ·) = elem at hsplit helem hnos ⊢
      generalize (c :: p).dropWhile (!isSlash ·) = tail at hsplit htail ⊢
      rw [← hsplit]
      cases tail with
      | nil => rw [List.append_nil, segments_of_noSlash helem hnos, segments_nil]
      | cons t ts =>
        have ht : isSlash t = true := by simpa using htail
        rw [segments_append_slash ht, segments_of_noSlash helem hnos, segments_cons_slash ht]
        rfl
    · intro x hx
      revert hrest
      rw [hx]
      exact id

/-- skipelem を繰り返すと、`name` には道のりの区切りが順に写される。 -/
theorem skipelems_eq_nameBufs (path name : List UInt8) :
    skipelems path name = nameBufs name (segments path) := by
  cases h : skipelem path name with
  | none => rw [skipelems_of_none h, segments_of_skipelem_none h, nameBufs]
  | some p =>
    obtain ⟨buf, rest⟩ := p
    obtain ⟨elem, rfl, hs, -⟩ := segments_of_skipelem h
    have := skipelem_length h
    rw [skipelems_of_some h, hs, nameBufs, skipelems_eq_nameBufs rest]
termination_by path.length

/-- skipelem の残りは '/' で始まらないので、名前が尽きるのは残りが空のとき。 -/
theorem skipelems_eq_nil_iff {rest name : List UInt8} (hr : ∀ c ∈ rest.head?, isSlash c = false) :
    skipelems rest name = [] ↔ rest = [] := by
  cases rest with
  | nil => exact ⟨fun _ => rfl, fun _ => skipelems_of_none (skipelem_nil _)⟩
  | cons c r =>
    have hc : isSlash c = false := hr c rfl
    have hs : skipelem (c :: r) name ≠ none := by
      simp [skipelem, hc]
    obtain ⟨⟨buf, rest'⟩, hsome⟩ := Option.ne_none_iff_exists'.mp hs
    rw [skipelems_of_some hsome]
    simp

/-- skipelem が写す要素と残りは `name` の前の中身によらない。 -/
theorem skipelem_rename {path name buf rest : List UInt8} (name' : List UInt8)
    (h : skipelem path name = some (buf, rest)) :
    ∃ elem, buf = nameBuf name elem ∧ skipelem path name' = some (nameBuf name' elem, rest) := by
  unfold skipelem at h ⊢
  split at h
  · cases h
  · rename_i c p hp
    simp only [Option.some.injEq, Prod.mk.injEq] at h
    obtain ⟨rfl, rfl⟩ := h
    exact ⟨_, rfl, rfl⟩

theorem skipelem_none_rename {path name : List UInt8} (name' : List UInt8) (h : skipelem path name = none) :
    skipelem path name' = none := by
  unfold skipelem at h ⊢
  split at h
  · rfl
  · cases h

/-! ## `name` に書かれる名前 -/

/-- NUL を含まない要素を写した `name` は `DIRSIZ` バイトのままで、そこから読む名前は要素を
切り詰めたもの。短い要素の後には NUL がある。 -/
theorem nameBuf_spec {old elem : List UInt8} (hold : old.length = DIRSIZ) (h0 : 0 ∉ elem) :
    (nameBuf old elem).length = DIRSIZ ∧ cname (nameBuf old elem) = elem.take DIRSIZ ∧
      (elem.length < DIRSIZ → (nameBuf old elem)[elem.length]? = some 0) := by
  refine ⟨?_, cname_nameBuf_of_noNul h0, ?_⟩
  · unfold nameBuf
    split_ifs <;> simp [hold] <;> omega
  · intro hlt
    unfold nameBuf
    rw [if_neg (by omega)]
    simp

/-- NUL を含まない要素を順に写すと、`name` はどの回の後も `DIRSIZ` バイトで、そこから読む名前は
その回の要素を切り詰めたもの。短い要素の後には NUL がある。 -/
theorem nameBufs_spec : ∀ {old : List UInt8} {elems : List (List UInt8)}, old.length = DIRSIZ →
    (∀ elem ∈ elems, 0 ∉ elem) → ∀ p ∈ elems.zip (nameBufs old elems),
      p.2.length = DIRSIZ ∧ cname p.2 = p.1.take DIRSIZ ∧ (p.1.length < DIRSIZ → p.2[p.1.length]? = some 0)
  | _, [], _, _, p, hp => by simp [nameBufs] at hp
  | old, elem :: elems, hold, h0, p, hp => by
    have hs := nameBuf_spec hold (h0 elem List.mem_cons_self)
    rw [nameBufs, List.zip_cons_cons, List.mem_cons] at hp
    rcases hp with rfl | hp
    · exact hs
    · exact nameBufs_spec hs.1 (fun e he => h0 e (List.mem_cons_of_mem _ he)) p hp

/-- `name` の各回から読む名前は、写した要素から読む名前。 -/
theorem nameBufs_map_cname : ∀ (old : List UInt8) (elems : List (List UInt8)),
    (nameBufs old elems).map cname = elems.map cname
  | _, [] => rfl
  | old, elem :: elems => by
    rw [nameBufs, List.map_cons, List.map_cons, cname_nameBuf, nameBufs_map_cname]

/-- NUL を含まない道のりで skipelem を繰り返すと、`name` から読む名前は区切りを `DIRSIZ` バイトに
切り詰めたもの。 -/
theorem skipelems_map_cname {path : List UInt8} (name : List UInt8) (h0 : 0 ∉ path) :
    (skipelems path name).map cname = (segments path).map (·.take DIRSIZ) := by
  rw [skipelems_eq_nameBufs, nameBufs_map_cname]
  refine List.map_congr_left fun elem helem => cname_of_noNul ?_
  -- 区切りは道のりのバイトからなるので NUL を含まない
  exact fun h => h0 (mem_of_mem_segments helem 0 h)

/-! ## 名前の列に沿ってたどる -/

/-- dirlookup の一歩: ip がディレクトリで、name の生きた項目があれば、それが指す inode。 -/
def lookupStep (fs : DirFs) (ip : Nat) (name : List UInt8) : Option Nat :=
  (dirlookup fs ip name).bind fun r => r.map Prod.fst

/-- namei がするはずのこと: ip から名前の列に沿って dirlookup をたどる。 -/
def lookupPath (fs : DirFs) (ip : Nat) (names : List (List UInt8)) : Option Nat :=
  names.foldlM (lookupStep fs) ip

/-- nameiparent がするはずのこと: 最後の名前の手前までたどり、着いたのがディレクトリなら、それと
最後の名前。名前がなければ none。 -/
def lookupParent (fs : DirFs) (ip : Nat) (names : List (List UInt8)) : Option (Nat × List UInt8) := do
  let last ← names.getLast?
  let d ← lookupPath fs ip names.dropLast
  if (fs.inode d).type = .dir then some (d, last) else none

variable {fs : DirFs} {ip : Nat} {name : List UInt8} {names : List (List UInt8)}

theorem lookupPath_cons :
    lookupPath fs ip (name :: names) = (lookupStep fs ip name).bind fun n => lookupPath fs n names := by
  simp only [lookupPath, List.foldlM_cons]
  rfl

theorem lookupParent_single :
    lookupParent fs ip [name] = if (fs.inode ip).type = .dir then some (ip, name) else none := by
  simp [lookupParent, lookupPath]

theorem lookupParent_cons (hn : names ≠ []) :
    lookupParent fs ip (name :: names) = (lookupStep fs ip name).bind fun n => lookupParent fs n names := by
  obtain ⟨n₂, ns, rfl⟩ := List.exists_cons_of_ne_nil hn
  cases hs : lookupStep fs ip name with
  | none => simp [lookupParent, List.getLast?_cons_cons, List.dropLast_cons_cons, lookupPath_cons, hs]
  | some n => simp [lookupParent, List.getLast?_cons_cons, List.dropLast_cons_cons, lookupPath_cons, hs]

theorem lookupStep_of_not_dir (hd : (fs.inode ip).type ≠ .dir) : lookupStep fs ip name = none := by
  simp [lookupStep, dirlookup, hd]

theorem lookupStep_of_dir (hd : (fs.inode ip).type = .dir) :
    lookupStep fs ip name = (dirlookupLoop name (fs.inode ip).dirents 0).map Prod.fst := by
  simp only [lookupStep, dirlookup, if_pos hd, Option.bind_some]

/-! ## panic せず何も解放しない表 -/

/-- 道のりをたどっても panic せず、`iput` が何も解放しない表: ディレクトリの生きた項目は使われて
いる inode を指し、`nlink` が 0 の使われている inode には参照がある。 -/
structure LookupOK (fs : DirFs) : Prop where
  alloc : ∀ d < fs.ninodes, (fs.inode d).type = .dir → ∀ de ∈ (fs.inode d).dirents, de.inum ≠ 0 →
    de.inum < fs.ninodes ∧ (fs.inode de.inum).type ≠ .free
  freed : ∀ i < fs.ninodes, (fs.inode i).type ≠ .free → (fs.inode i).nlink = 0 → 0 < fs.refs i

theorem DirTreeOK.lookupOK (h : DirTreeOK fs) : LookupOK fs := ⟨h.alloc, h.freed⟩

theorem dirlookupLoop_mem :
    ∀ {des : List Dirent} {off next o : Nat}, dirlookupLoop name des off = some (next, o) →
      ∃ de ∈ des, de.inum = next ∧ next ≠ 0
  | [], _, _, _, h => by cases h
  | de :: des, off, next, o, h => by
    rw [dirlookupLoop] at h
    split_ifs at h with hde
    · cases h
      simp only [Bool.and_eq_true, bne_iff_ne, ne_eq] at hde
      exact ⟨de, List.mem_cons_self, rfl, hde.1⟩
    · obtain ⟨d, hd, rfl, hne⟩ := dirlookupLoop_mem h
      exact ⟨d, List.mem_cons_of_mem _ hd, rfl, hne⟩

/-- 使われている inode の `iput` は何も解放しない。 -/
theorem LookupOK.iput_eq (h : LookupOK fs) {i : Nat} (hi : i < fs.ninodes) (ha : (fs.inode i).type ≠ .free)
    (hold : List Nat) : iput fs i hold = fs := by
  unfold iput
  rw [if_neg]
  rintro ⟨hz, hn⟩
  have := h.freed i hi ha hn
  omega

/-- たどった先は使われている inode。 -/
theorem LookupOK.lookupStep (h : LookupOK fs) (hi : ip < fs.ninodes) {next : Nat}
    (hs : lookupStep fs ip name = some next) : next < fs.ninodes ∧ (fs.inode next).type ≠ .free := by
  by_cases hd : (fs.inode ip).type = .dir
  · rw [lookupStep_of_dir hd] at hs
    obtain ⟨⟨n, o⟩, hl, rfl⟩ := Option.map_eq_some_iff.mp hs
    obtain ⟨de, hde, rfl, hne⟩ := dirlookupLoop_mem hl
    exact h.alloc ip hi hd de hde hne
  · rw [lookupStep_of_not_dir hd] at hs
    cases hs

/-! ## namex のループ -/

/-- 要素があるときのループの一回り。 -/
theorem namexLoop_of_some {np : Bool} {hold : List Nat} {path buf rest : List UInt8}
    (h : skipelem path name = some (buf, rest)) :
    namexLoop fs np hold ip path name =
      if (fs.inode ip).type = .free then none
      else if (fs.inode ip).type ≠ .dir then some (none, iput fs ip hold)
      else if np = true ∧ rest = [] then some (some (ip, cname buf), fs)
      else
        match dirlookup fs ip (cname buf) with
        | none => none
        | some none => some (none, iput fs ip hold)
        | some (some (next, _)) => namexLoop (iput fs ip (next :: hold)) np hold next rest buf := by
  rw [namexLoop]
  split
  · rename_i h'
    rw [h] at h'
    cases h'
  · rename_i buf' rest' h'
    rw [h] at h'
    obtain ⟨rfl, rfl⟩ := Prod.mk.inj (Option.some.inj h')
    rfl

/-- namex のループは `name` から名前を読むだけなので、その前の中身によらない。 -/
theorem namexLoop_name_irrelevant (np : Bool) (hold : List Nat) (name' : List UInt8) (fs : DirFs) (ip : Nat)
    (path name : List UInt8) : namexLoop fs np hold ip path name = namexLoop fs np hold ip path name' := by
  cases h : skipelem path name with
  | none => rw [namexLoop_of_none h, namexLoop_of_none (skipelem_none_rename name' h)]
  | some p =>
    obtain ⟨buf, rest⟩ := p
    obtain ⟨elem, rfl, h'⟩ := skipelem_rename name' h
    have := skipelem_length h
    rw [namexLoop_of_some h, namexLoop_of_some h', cname_nameBuf, cname_nameBuf]
    -- 違いは次の回に渡す `name` だけ
    split_ifs
    · rfl
    · rfl
    · rfl
    · rcases dirlookup fs ip (cname elem) with _ | _ | ⟨next, off⟩
      · rfl
      · rfl
      · exact namexLoop_name_irrelevant np hold _ _ next rest _
termination_by path.length

/-- `LookupOK` の表で使われている inode から始めると、namei のループは名前の列に沿って
dirlookup をたどった inode を返し、表を変えない。 -/
theorem namexLoop_lookupPath (hfs : LookupOK fs) (hold : List Nat) (ip : Nat) (path name : List UInt8)
    (hi : ip < fs.ninodes) (ha : (fs.inode ip).type ≠ .free) :
    namexLoop fs false hold ip path name =
      some ((lookupPath fs ip ((skipelems path name).map cname)).map (·, []), fs) := by
  cases h : skipelem path name with
  | none =>
    rw [namexLoop_of_none h, skipelems_of_none h]
    rfl
  | some p =>
    obtain ⟨buf, rest⟩ := p
    rw [namexLoop_of_some h, if_neg ha, skipelems_of_some h, List.map_cons, lookupPath_cons]
    by_cases hd : (fs.inode ip).type = .dir
    · rw [if_neg (not_not.mpr hd), if_neg (by simp), lookupStep_of_dir hd]
      simp only [dirlookup, if_pos hd]
      cases hl : dirlookupLoop (cname buf) (fs.inode ip).dirents 0 with
      | none => simp [hfs.iput_eq hi ha]
      | some r =>
        obtain ⟨next, off⟩ := r
        -- 次の inode も使われている
        have hn := hfs.lookupStep hi (by rw [lookupStep_of_dir hd, hl]; rfl)
        have := skipelem_length h
        dsimp only
        rw [hfs.iput_eq hi ha, namexLoop_lookupPath hfs hold next rest buf hn.1 hn.2]
        rfl
    · rw [if_pos hd, hfs.iput_eq hi ha, lookupStep_of_not_dir hd]
      rfl
termination_by path.length

/-- `LookupOK` の表で使われている inode から始めると、nameiparent のループは最後の名前の手前まで
たどったディレクトリと最後の名前を返し、表を変えない。 -/
theorem namexLoop_lookupParent (hfs : LookupOK fs) (hold : List Nat) (ip : Nat) (path name : List UInt8)
    (hi : ip < fs.ninodes) (ha : (fs.inode ip).type ≠ .free) :
    namexLoop fs true hold ip path name = some (lookupParent fs ip ((skipelems path name).map cname), fs) := by
  cases h : skipelem path name with
  | none =>
    rw [namexLoop_of_none h, skipelems_of_none h]
    rfl
  | some p =>
    obtain ⟨buf, rest⟩ := p
    obtain ⟨-, -, -, hr⟩ := segments_of_skipelem h
    rw [namexLoop_of_some h, if_neg ha, skipelems_of_some h, List.map_cons]
    by_cases hlast : rest = []
    · -- 最後の名前: その手前のディレクトリで止まる
      rw [hlast, skipelems_of_none (skipelem_nil _), List.map_nil, lookupParent_single]
      by_cases hd : (fs.inode ip).type = .dir
      · simp [hd]
      · simp [hd, hfs.iput_eq hi ha]
    · have hne : (skipelems rest buf).map cname ≠ [] := by
        rw [Ne, List.map_eq_nil_iff, skipelems_eq_nil_iff hr]
        exact hlast
      rw [lookupParent_cons hne]
      by_cases hd : (fs.inode ip).type = .dir
      · rw [if_neg (not_not.mpr hd), if_neg (by simp [hlast]), lookupStep_of_dir hd]
        simp only [dirlookup, if_pos hd]
        cases hl : dirlookupLoop (cname buf) (fs.inode ip).dirents 0 with
        | none => simp [hfs.iput_eq hi ha]
        | some r =>
          obtain ⟨next, off⟩ := r
          have hn := hfs.lookupStep hi (by rw [lookupStep_of_dir hd, hl]; rfl)
          have := skipelem_length h
          dsimp only
          rw [hfs.iput_eq hi ha, namexLoop_lookupParent hfs hold next rest buf hn.1 hn.2]
          rfl
      · rw [if_pos hd, hfs.iput_eq hi ha, lookupStep_of_not_dir hd]
        rfl
termination_by path.length

/-! ## 参照の取り外し -/

/-- namex が参照にすること: `iget` と `idup` で i の参照を取り、`iput` で落とす。 -/
inductive RefOp where
  | get (i : Nat)
  | put (i : Nat)
  deriving DecidableEq, Repr

/-- 参照の操作を順に行う。held は持っている参照で、持っていない参照を落とせば none。 -/
def replay : List Nat → List RefOp → Option (List Nat)
  | held, [] => some held
  | held, .get i :: ops => replay (i :: held) ops
  | held, .put i :: ops => if i ∈ held then replay (held.erase i) ops else none

/-- namex のループと、その参照の操作。ループの出口の `iunlockput(ip)` と `iput(ip)` は ip を
落とし、`dirlookup` の `iget` は次の inode を取る。 -/
def namexLoopOps (fs : DirFs) (nameiparent : Bool) (hold : List Nat) (ip : Nat) (path name : List UInt8) :
    Option (Option (Nat × List UInt8) × DirFs × List RefOp) :=
  match h : skipelem path name with
  | none => some (if nameiparent then (none, fs, [.put ip]) else (some (ip, []), fs, []))
  | some (name, rest) =>
    if (fs.inode ip).type = .free then none
    else if (fs.inode ip).type ≠ .dir then some (none, iput fs ip hold, [.put ip])
    else if nameiparent ∧ rest = [] then some (some (ip, cname name), fs, [])
    else
      match dirlookup fs ip (cname name) with
      | none => none
      | some none => some (none, iput fs ip hold, [.put ip])
      | some (some (next, _)) =>
        have : rest.length < path.length := skipelem_length h
        (namexLoopOps (iput fs ip (next :: hold)) nameiparent hold next rest name).map
          fun r => (r.1, r.2.1, .get next :: .put ip :: r.2.2)
termination_by path.length

/-- namex が始める inode: '/' で始まれば根、そうでなければ cwd。 -/
def startInode (fs : DirFs) (path : List UInt8) : Nat :=
  if path.head? = some '/'.toUInt8 then ROOTINO else fs.cwd

theorem namex_eq_namexLoop (fs : DirFs) (path : List UInt8) (np : Bool) (hold : List Nat) (name : List UInt8) :
    namex fs path np hold name = namexLoop fs np hold (startInode fs path) path name := rfl

/-- namex は `name` の前の中身によらない。 -/
theorem namex_name_irrelevant (fs : DirFs) (path : List UInt8) (np : Bool) (hold : List Nat)
    (name name' : List UInt8) : namex fs path np hold name = namex fs path np hold name' :=
  namexLoop_name_irrelevant np hold name' fs _ path name

/-- namex と、その参照の操作。始めに根を `iget` するか cwd を `idup` する。 -/
def namexOps (fs : DirFs) (path : List UInt8) (nameiparent : Bool) (hold : List Nat) (name : List UInt8) :
    Option (Option (Nat × List UInt8) × DirFs × List RefOp) :=
  (namexLoopOps fs nameiparent hold (startInode fs path) path name).map
    fun r => (r.1, r.2.1, .get (startInode fs path) :: r.2.2)

theorem namexLoopOps_of_none {np : Bool} {hold : List Nat} {path : List UInt8} (h : skipelem path name = none) :
    namexLoopOps fs np hold ip path name =
      some (if np then (none, fs, [.put ip]) else (some (ip, []), fs, [])) := by
  rw [namexLoopOps]
  split
  · rfl
  · rename_i h'
    rw [h] at h'
    cases h'

theorem namexLoopOps_of_some {np : Bool} {hold : List Nat} {path buf rest : List UInt8}
    (h : skipelem path name = some (buf, rest)) :
    namexLoopOps fs np hold ip path name =
      if (fs.inode ip).type = .free then none
      else if (fs.inode ip).type ≠ .dir then some (none, iput fs ip hold, [.put ip])
      else if np = true ∧ rest = [] then some (some (ip, cname buf), fs, [])
      else
        match dirlookup fs ip (cname buf) with
        | none => none
        | some none => some (none, iput fs ip hold, [.put ip])
        | some (some (next, _)) =>
          (namexLoopOps (iput fs ip (next :: hold)) np hold next rest buf).map
            fun r => (r.1, r.2.1, .get next :: .put ip :: r.2.2) := by
  rw [namexLoopOps]
  split
  · rename_i h'
    rw [h] at h'
    cases h'
  · rename_i buf' rest' h'
    rw [h] at h'
    obtain ⟨rfl, rfl⟩ := Prod.mk.inj (Option.some.inj h')
    rfl

/-- 操作の列が namex と同じ結果を返し、持っている参照を held から始めて落とすと、返す inode だけが
残る。 -/
def OpsAgree (held : List Nat) (x : Option (Nat × List UInt8) × DirFs × List RefOp)
    (y : Option (Nat × List UInt8) × DirFs) : Prop :=
  (x.1, x.2.1) = y ∧ replay held x.2.2 = some (x.1.map Prod.fst).toList

theorem rel_map_left {α β : Type} {r s : α → β → Prop} {f : α → α} (hf : ∀ x y, r x y → s (f x) y) :
    ∀ {a : Option α} {b : Option β}, Option.Rel r a b → Option.Rel s (a.map f) b
  | _, _, .none => .none
  | _, _, .some h => .some (hf _ _ h)

theorem replay_get_put (next ip : Nat) (ops : List RefOp) :
    replay [ip] (.get next :: .put ip :: ops) = replay [next] ops := by
  have he : [next, ip].erase ip = [next] := by
    by_cases hn : next = ip
    · subst hn
      simp
    · simp [hn]
  simp only [replay, List.mem_cons, List.not_mem_nil, or_false, or_true, ↓reduceIte, he]

/-- namex のループは、その参照の操作を数えた版と、同じときに同じ結果を返す（panic も同じ）。ip の
参照から始めて操作を順に行うと、どの出口でも、返す inode の参照だけが残る。 -/
theorem namexLoopOps_rel (np : Bool) (hold : List Nat) (fs : DirFs) (ip : Nat) (path name : List UInt8) :
    Option.Rel (OpsAgree [ip]) (namexLoopOps fs np hold ip path name) (namexLoop fs np hold ip path name) := by
  cases h : skipelem path name with
  | none =>
    rw [namexLoopOps_of_none h, namexLoop_of_none h]
    cases np with
    | false => exact .some ⟨rfl, rfl⟩
    | true => exact .some ⟨rfl, by simp [replay]⟩
  | some p =>
    obtain ⟨buf, rest⟩ := p
    rw [namexLoopOps_of_some h, namexLoop_of_some h]
    split_ifs with hf hd hl
    · exact .none
    · exact .some ⟨rfl, by simp [replay]⟩
    · exact .some ⟨rfl, rfl⟩
    · cases dirlookup fs ip (cname buf) with
      | none => exact .none
      | some r =>
        cases r with
        | none => exact .some ⟨rfl, by simp [replay]⟩
        | some r =>
          obtain ⟨next, off⟩ := r
          have := skipelem_length h
          -- 次の inode から先のループの関係に、next を取って ip を落とす二つの操作を足す
          dsimp only
          exact rel_map_left (fun _ _ hr => ⟨hr.1, by rw [replay_get_put]; exact hr.2⟩)
            (namexLoopOps_rel np hold (iput fs ip (next :: hold)) next rest buf)
termination_by path.length

/-- namex は、その参照の操作を数えた版と、同じときに同じ結果を返す。参照のない所から操作を
順に行うと、返す inode の参照だけが残る。 -/
theorem namexOps_rel (fs : DirFs) (path : List UInt8) (np : Bool) (hold : List Nat) (name : List UInt8) :
    Option.Rel (OpsAgree []) (namexOps fs path np hold name) (namex fs path np hold name) := by
  rw [namexOps, namex_eq_namexLoop]
  exact rel_map_left (fun _ _ hr => ⟨hr.1, by simpa [replay] using hr.2⟩)
    (namexLoopOps_rel np hold fs (startInode fs path) path name)

/-! ## namei と nameiparent -/

/-- skipelem を繰り返すと、呼び出し元の `name` には道のりの '/' を含まない空でない区切りが順に写され、
そこから読む名前は区切りを `DIRSIZ` バイトに切り詰めたもので、短ければ `name` の中で NUL で終わる。
始める inode が使われていて表が `LookupOK` なら、namei はその名前の列に沿って dirlookup をたどった
inode を、nameiparent は最後の名前の手前のディレクトリと最後の名前を返し、表を変えない。namex が
取る参照は、返す inode のものを除いてどの出口でも落とされる。 -/
theorem namex_resolves (fs : DirFs) (path name : List UInt8) (hold : List Nat) (hfs : LookupOK fs)
    (hs : startInode fs path < fs.ninodes ∧ (fs.inode (startInode fs path)).type ≠ .free)
    (h0 : 0 ∉ path) (hn : name.length = DIRSIZ) :
    skipelems path name = nameBufs name (segments path) ∧
    (skipelems path name).map cname = (segments path).map (·.take DIRSIZ) ∧
    (∀ p ∈ (segments path).zip (skipelems path name),
      p.2.length = DIRSIZ ∧ (p.1.length < DIRSIZ → p.2[p.1.length]? = some 0)) ∧
    namex fs path false hold name =
      some ((lookupPath fs (startInode fs path) ((skipelems path name).map cname)).map (·, []), fs) ∧
    namex fs path true hold name =
      some (lookupParent fs (startInode fs path) ((skipelems path name).map cname), fs) ∧
    ∀ np, Option.Rel (OpsAgree []) (namexOps fs path np hold name) (namex fs path np hold name) := by
  have hbufs := skipelems_eq_nameBufs path name
  refine ⟨hbufs, skipelems_map_cname name h0, ?_, ?_, ?_, fun np => namexOps_rel fs path np hold name⟩
  · intro p hp
    rw [hbufs] at hp
    -- 区切りは道のりのバイトからなるので NUL を含まない
    have he0 : ∀ elem ∈ segments path, 0 ∉ elem := fun elem helem h => h0 (mem_of_mem_segments helem 0 h)
    have hp' := nameBufs_spec hn he0 p hp
    exact ⟨hp'.1, hp'.2.2⟩
  · rw [namex_eq_namexLoop]
    exact namexLoop_lookupPath hfs hold _ path name hs.1 hs.2
  · rw [namex_eq_namexLoop]
    exact namexLoop_lookupParent hfs hold _ path name hs.1 hs.2

/-- `"/."`。 -/
def rootDotPath : List UInt8 := ['/'.toUInt8, '.'.toUInt8]

theorem namex_resolves_rootDot :
    LookupOK rootImage ∧
    (startInode rootImage rootDotPath < rootImage.ninodes ∧
      (rootImage.inode (startInode rootImage rootDotPath)).type ≠ .free) ∧ 0 ∉ rootDotPath ∧
    localName.length = DIRSIZ ∧
    (skipelems rootDotPath localName = nameBufs localName (segments rootDotPath) ∧
    (skipelems rootDotPath localName).map cname = (segments rootDotPath).map (·.take DIRSIZ) ∧
    (∀ p ∈ (segments rootDotPath).zip (skipelems rootDotPath localName),
      p.2.length = DIRSIZ ∧ (p.1.length < DIRSIZ → p.2[p.1.length]? = some 0)) ∧
    namex rootImage rootDotPath false [] localName =
      some ((lookupPath rootImage (startInode rootImage rootDotPath)
        ((skipelems rootDotPath localName).map cname)).map (·, []), rootImage) ∧
    namex rootImage rootDotPath true [] localName =
      some (lookupParent rootImage (startInode rootImage rootDotPath)
        ((skipelems rootDotPath localName).map cname), rootImage) ∧
    ∀ np, Option.Rel (OpsAgree []) (namexOps rootImage rootDotPath np [] localName)
      (namex rootImage rootDotPath np [] localName)) :=
  ⟨rootImage_dirTreeOK.lookupOK, by decide, by decide, rfl,
    namex_resolves rootImage rootDotPath localName [] rootImage_dirTreeOK.lookupOK (by decide) (by decide) rfl⟩

end Xv6.Dir
