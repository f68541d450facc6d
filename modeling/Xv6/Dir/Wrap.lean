import Xv6.Dir.Lemmas
import Xv6.Dir.Spec

/-!
# `nlink` の桁あふれ

`sys_link` は `ip->nlink++` に上限を置かない。`nlink` は `short` なので、一つのファイルへの
リンクが 32767 個を越えると負になる。一つのディレクトリには `MAXFILE*BSIZE / sizeof(de)` = 17152
個までしか項目を置けないが、二つのディレクトリに分ければ届く。根だけの像から、ファイル f と
ディレクトリ d を作り、根に 17148 個、d に 15619 個のリンクを作ると、f を指す生きた項目は
32768 個で、f の `nlink` は -32768 になり、f の `unlink` は `panic("unlink: nlink < 1")` で止まる
（`link_wrap_run`）。

長い呼び出しの列は、一つのリンクが形 `LinkShape` を一段進めること（`LinkShape.link_root`、
`LinkShape.link_sub`）から、リンクの数についての帰納法で扱う。
-/

namespace Xv6.Dir

open Xv6.Lib Xv6.Fs

/-! ## 名前 -/

/-- ファイル "f"。 -/
def fName : List UInt8 := ['f'.toUInt8]

/-- ディレクトリ "d"。 -/
def dName : List UInt8 := ['d'.toUInt8]

/-- i 番目のリンクの名前: i を 64 進の 3 桁にし、各桁に 64 を足したバイトにする。 -/
def linkName (i : Nat) : List UInt8 :=
  [(64 + i / 4096 % 64).toUInt8, (64 + i / 64 % 64).toUInt8, (64 + i % 64).toUInt8]

/-- d の中の i 番目のリンクの道のり "d/…"。 -/
def subPath (i : Nat) : List UInt8 := dName ++ '/'.toUInt8 :: linkName i

theorem toNat_digit (x : Nat) : ((64 + x % 64 : Nat).toUInt8).toNat = 64 + x % 64 := by
  simp only [Nat.toUInt8_eq, UInt8.toNat_ofNat']
  omega

theorem linkName_inj {i j : Nat} (hi : i < 2 ^ 18) (hj : j < 2 ^ 18) (h : linkName i = linkName j) :
    i = j := by
  simp only [linkName, List.cons.injEq, and_true] at h
  obtain ⟨h₁, h₂, h₃⟩ := h
  -- 3 桁のそれぞれが等しい
  have e₁ := congrArg UInt8.toNat h₁
  have e₂ := congrArg UInt8.toNat h₂
  have e₃ := congrArg UInt8.toNat h₃
  rw [toNat_digit, toNat_digit] at e₁ e₂ e₃
  omega

theorem linkName_noSlash (i : Nat) : ∀ c ∈ linkName i, isSlash c = false := by
  -- どの桁も 64 以上のバイトで、'/' (47) ではない
  have hd : ∀ x : Nat, isSlash (64 + x % 64 : Nat).toUInt8 = false := by
    intro x
    have hx := toNat_digit x
    simp only [isSlash, beq_eq_false_iff_ne, ne_eq]
    intro e
    rw [e] at hx
    have : ('/'.toUInt8).toNat = 47 := rfl
    omega
  simp only [linkName, List.mem_cons, List.not_mem_nil, or_false]
  rintro c (rfl | rfl | rfl) <;> exact hd _

theorem linkName_length (i : Nat) : (linkName i).length = 3 := rfl

theorem linkName_take (i : Nat) : (linkName i).take DIRSIZ = linkName i := rfl

/-- どの桁も 64 以上のバイトで、NUL ではない。 -/
theorem linkName_noNul (i : Nat) : 0 ∉ linkName i := by
  have hd : ∀ x : Nat, (64 + x % 64 : Nat).toUInt8 ≠ 0 := by
    intro x e
    have hx := toNat_digit x
    rw [e, UInt8.toNat_zero] at hx
    omega
  simp only [linkName, List.mem_cons, List.not_mem_nil, or_false, not_or]
  exact ⟨(hd _).symm, (hd _).symm, (hd _).symm⟩

/-- skipelem が `name` に写した名前は、どの名前もそのまま読める。 -/
theorem cname_linkName (name : List UInt8) (i : Nat) : cname (nameBuf name (linkName i)) = linkName i := by
  rw [cname_nameBuf_of_noNul (linkName_noNul i), linkName_take]

theorem cname_fName (name : List UInt8) : cname (nameBuf name fName) = fName := by
  rw [cname_nameBuf_of_noNul (by decide)]
  rfl

theorem cname_dName (name : List UInt8) : cname (nameBuf name dName) = dName := by
  rw [cname_nameBuf_of_noNul (by decide)]
  rfl

/-- 長さの違う名前は `namecmp` で違う。 -/
theorem namecmp_linkName_short {t : List UInt8} (i : Nat) (ht : t.length < 3) :
    namecmp (linkName i) t = false := by
  simp only [namecmp, linkName_take, beq_eq_false_iff_ne, ne_eq]
  intro e
  have := congrArg List.length e
  rw [linkName_length, List.length_take] at this
  omega

theorem namecmp_linkName {i j : Nat} (hi : i < 2 ^ 18) (hj : j < 2 ^ 18) (h : i ≠ j) :
    namecmp (linkName i) (linkName j) = false := by
  simp only [namecmp, linkName_take, beq_eq_false_iff_ne, ne_eq]
  exact fun e => h (linkName_inj hi hj e)

/-! ## 根だけの像と、呼び出しの列 -/

/-- 根だけの像: 根は "." と ".." だけを持ち、`nlink` は 1（根の ".." が根を指す）。 -/
def rootImage : DirFs where
  inode i := if i = ROOTINO then ⟨.dir, 0, 0, 1, [⟨1, dotName⟩, ⟨1, dotdotName⟩]⟩ else Inode.empty .free
  cwd := ROOTINO
  ofile _ := none
  held _ := 0
  ninodes := 200

def okOutcome : Outcome := ⟨true, true, true⟩

def rootLinks (n : Nat) : List (Call × Outcome) :=
  (List.range n).map fun i => (.link fName (linkName i), okOutcome)

def subLinks (n : Nat) : List (Call × Outcome) :=
  (List.range n).map fun i => (.link fName (subPath i), okOutcome)

/-- f を作り、d を作り、根に 17148 個、d に 15619 個のリンクを作る。 -/
def wrapCalls : List (Call × Outcome) :=
  [(.open fName O_CREATE, okOutcome), (.mkdir dName, okOutcome)] ++ rootLinks 17148 ++ subLinks 15619

theorem run_append (l₁ l₂ : List (Call × Outcome)) (fs : DirFs) :
    run (l₁ ++ l₂) fs = (run l₁ fs).bind (run l₂) := by
  induction l₁ generalizing fs with
  | nil => rfl
  | cons c cs ih =>
    obtain ⟨c, oc⟩ := c
    simp only [List.cons_append, run]
    cases syscall fs oc c with
    | none => rfl
    | some r => exact ih r.2

/-! ## 形 -/

def links (n : Nat) : List Dirent := (List.range n).map fun i => ⟨2, linkName i⟩

def rootDirents (a : Nat) : List Dirent :=
  ⟨1, dotName⟩ :: ⟨1, dotdotName⟩ :: ⟨2, fName⟩ :: ⟨3, dName⟩ :: links a

def subDirents (b : Nat) : List Dirent := ⟨3, dotName⟩ :: ⟨1, dotdotName⟩ :: links b

/-- 根に a 個、d に b 個のリンクを作った後の形。f は inode 2、d は inode 3。 -/
structure LinkShape (a b : Nat) (n : Int) (fs : DirFs) : Prop where
  root : fs.inode 1 = ⟨.dir, 0, 0, 2, rootDirents a⟩
  file : fs.inode 2 = ⟨.file, 0, 0, n, []⟩
  sub : fs.inode 3 = ⟨.dir, 0, 0, 1, subDirents b⟩
  free : ∀ i, i ≠ 1 → i ≠ 2 → i ≠ 3 → fs.inode i = Inode.empty .free
  cwd : fs.cwd = 1
  ninodes : fs.ninodes = 200

theorem links_succ (n : Nat) : links (n + 1) = links n ++ [⟨2, linkName n⟩] := by
  simp [links, List.range_succ]

theorem mem_links {n : Nat} {de : Dirent} (h : de ∈ links n) : ∃ i < n, de = ⟨2, linkName i⟩ := by
  simp only [links, List.mem_map, List.mem_range] at h
  obtain ⟨i, hi, rfl⟩ := h
  exact ⟨i, hi, rfl⟩

/-- 名前 `linkName k` は、k より前のリンクと、".", "..", "f", "d" のどれとも違う。 -/
theorem linkName_fresh {k : Nat} (hk : k < 2 ^ 18) {base : List Dirent}
    (hb : ∀ de ∈ base, de.name.length < 3) :
    ∀ de ∈ base ++ links k, (de.inum != 0 && namecmp (linkName k) de.name) = false := by
  intro de hde
  rcases List.mem_append.mp hde with h | h
  · simp [namecmp_linkName_short k (hb de h)]
  · obtain ⟨i, hi, rfl⟩ := mem_links h
    have hne : namecmp (linkName k) (linkName i) = false :=
      namecmp_linkName hk (show i < 2 ^ 18 by omega) (show k ≠ i by omega)
    simp [hne]

theorem links_live {n : Nat} : ∀ de ∈ links n, de.inum ≠ 0 := by
  intro de h
  obtain ⟨i, -, rfl⟩ := mem_links h
  simp

/-- 一文字の名前 "f" と "d" は '/' を含まない。 -/
theorem fName_noSlash : ∀ c ∈ fName, isSlash c = false := by
  intro c hc
  rw [fName, List.mem_singleton] at hc
  rw [hc]
  rfl

theorem dName_noSlash : ∀ c ∈ dName, isSlash c = false := by
  intro c hc
  rw [dName, List.mem_singleton] at hc
  rw [hc]
  rfl

/-- 相対の道のりは cwd から探す。 -/
theorem namex_relative {fs : DirFs} {path name : List UInt8} {np : Bool} {hold : List Nat}
    (h : ∀ c ∈ path.head?, isSlash c = false) :
    namex fs path np hold name = namexLoop fs np hold fs.cwd path name := by
  unfold namex
  rw [if_neg]
  intro e
  rw [e] at h
  cases h _ rfl

/-- '/' を含まない道のりは cwd からの相対の道のり。 -/
theorem namex_of_noSlash {fs : DirFs} {path name : List UInt8} {np : Bool} {hold : List Nat}
    (h : ∀ c ∈ path, isSlash c = false) :
    namex fs path np hold name = namexLoop fs np hold fs.cwd path name :=
  namex_relative fun c hc => h c (List.mem_of_mem_head? hc)

section Shape

variable {a b : Nat} {n : Int} {fs : DirFs}

theorem LinkShape.dirlookup_f (hs : LinkShape a b n fs) :
    dirlookup fs 1 fName = some (some (2, 2 * direntSize)) := by
  rw [dirlookup, hs.root]
  rfl

theorem LinkShape.dirlookup_d (hs : LinkShape a b n fs) :
    dirlookup fs 1 dName = some (some (3, 3 * direntSize)) := by
  rw [dirlookup, hs.root]
  rfl

/-- `namei("f")` は根から f を見つける。 -/
theorem LinkShape.namei_f (hs : LinkShape a b n fs) (name : List UInt8) :
    namex fs fName false [] name = some (some (2, []), fs) := by
  rw [namex_of_noSlash fName_noSlash, hs.cwd,
    namexLoop_next (skipelem_name name (by simp [fName]) fName_noSlash) (by rw [hs.root]) (by simp)
      (by rw [cname_fName]; exact hs.dirlookup_f),
    iput_of_nlink_ne (by simp [hs.root]), namexLoop_of_none (skipelem_nil _)]
  rfl

/-- `ip->nlink++` の後も形は同じで、f の `nlink` だけが進む。 -/
theorem LinkShape.bump (hs : LinkShape a b n fs) :
    LinkShape a b (wrap16 (n + 1)) (fs.setInode 2 fun q => { q with nlink := wrap16 (q.nlink + 1) }) where
  root := by simp [hs.root]
  file := by simp [hs.file]
  sub := by simp [hs.sub]
  free i h₁ h₂ h₃ := by simp [h₂, hs.free i h₁ h₂ h₃]
  cwd := hs.cwd
  ninodes := hs.ninodes

/-- 根の末尾に a 番目のリンクを足した形。 -/
theorem LinkShape.append_root (hs : LinkShape a b n fs) :
    LinkShape (a + 1) b n
      (fs.setInode 1 fun ip => { ip with dirents := ip.dirents ++ [⟨2, (linkName a).take DIRSIZ⟩] }) where
  root := by simp [hs.root, rootDirents, links_succ, linkName_take]
  file := by simp [hs.file]
  sub := by simp [hs.sub]
  free i h₁ h₂ h₃ := by simp [h₁, hs.free i h₁ h₂ h₃]
  cwd := hs.cwd
  ninodes := hs.ninodes

/-- d の末尾に b 番目のリンクを足した形。 -/
theorem LinkShape.append_sub (hs : LinkShape a b n fs) :
    LinkShape a (b + 1) n
      (fs.setInode 3 fun ip => { ip with dirents := ip.dirents ++ [⟨2, (linkName b).take DIRSIZ⟩] }) where
  root := by simp [hs.root]
  file := by simp [hs.file]
  sub := by simp [hs.sub, subDirents, links_succ, linkName_take]
  free i h₁ h₂ h₃ := by simp [h₃, hs.free i h₁ h₂ h₃]
  cwd := hs.cwd
  ninodes := hs.ninodes

/-- `nameiparent("<linkName k>")` は根。 -/
theorem LinkShape.nameiparent_root (hs : LinkShape a b n fs) (k : Nat) {hold : List Nat} (name : List UInt8) :
    namex fs (linkName k) true hold name = some (some (1, linkName k), fs) := by
  rw [namex_of_noSlash (linkName_noSlash k), hs.cwd,
    namexLoop_parent_last (skipelem_name name (by simp [linkName]) (linkName_noSlash k)) (by rw [hs.root]),
    cname_linkName]

/-- `nameiparent("d/<linkName k>")` は d。 -/
theorem LinkShape.nameiparent_sub (hs : LinkShape a b n fs) (k : Nat) (name : List UInt8) :
    namex fs (subPath k) true [2] name = some (some (3, linkName k), fs) := by
  have hskip : skipelem (subPath k) name = some (nameBuf name dName, linkName k) :=
    skipelem_name_slash name (by simp [dName]) dName_noSlash
      (fun c hc => linkName_noSlash k c (List.mem_of_mem_head? hc))
  have hd : isSlash 'd'.toUInt8 = false := rfl
  rw [namex_relative (by simpa [subPath, dName] using hd), hs.cwd,
    namexLoop_next hskip (by rw [hs.root]) (by simp [linkName]) (by rw [cname_dName]; exact hs.dirlookup_d),
    iput_of_nlink_ne (by simp [hs.root]),
    namexLoop_parent_last (skipelem_name _ (by simp [linkName]) (linkName_noSlash k)) (by rw [hs.sub]),
    cname_linkName]

/-- 根の項目は 17152 個まで置ける。 -/
theorem LinkShape.dirlink_root (hs : LinkShape a b n fs) (ha : a < 17148) :
    dirlink fs 1 (linkName a) 2 true =
      some (0, fs.setInode 1 fun ip => { ip with dirents := ip.dirents ++ [⟨2, (linkName a).take DIRSIZ⟩] }) := by
  have hbase : ∀ de ∈ [(⟨1, dotName⟩ : Dirent), ⟨1, dotdotName⟩, ⟨2, fName⟩, ⟨3, dName⟩],
      de.name.length < 3 := by decide
  apply dirlink_append (by rw [hs.root])
  · rw [hs.root]
    exact linkName_fresh (by omega) hbase
  · have hlive : ∀ de ∈ [(⟨1, dotName⟩ : Dirent), ⟨1, dotdotName⟩, ⟨2, fName⟩, ⟨3, dName⟩],
        de.inum ≠ 0 := by decide
    rw [hs.root]
    intro de hde
    rcases List.mem_append.mp (show de ∈ [⟨1, dotName⟩, ⟨1, dotdotName⟩, ⟨2, fName⟩, ⟨3, dName⟩] ++ links a
      from hde) with h | h
    · exact hlive de h
    · exact links_live de h
  · simp only [hs.root, rootDirents, links, List.length_cons, List.length_map, List.length_range,
      direntSize, MAXFILE, NDIRECT, NINDIRECT, BSIZE]
    omega
  · intro _
    rfl

/-- d の項目は 17152 個まで置ける。 -/
theorem LinkShape.dirlink_sub (hs : LinkShape a b n fs) (hb : b < 17150) :
    dirlink fs 3 (linkName b) 2 true =
      some (0, fs.setInode 3 fun ip => { ip with dirents := ip.dirents ++ [⟨2, (linkName b).take DIRSIZ⟩] }) := by
  have hbase : ∀ de ∈ [(⟨3, dotName⟩ : Dirent), ⟨1, dotdotName⟩], de.name.length < 3 := by decide
  apply dirlink_append (by rw [hs.sub])
  · rw [hs.sub]
    exact linkName_fresh (by omega) hbase
  · have hlive : ∀ de ∈ [(⟨3, dotName⟩ : Dirent), ⟨1, dotdotName⟩], de.inum ≠ 0 := by decide
    rw [hs.sub]
    intro de hde
    rcases List.mem_append.mp (show de ∈ [⟨3, dotName⟩, ⟨1, dotdotName⟩] ++ links b from hde) with h | h
    · exact hlive de h
    · exact links_live de h
  · simp only [hs.sub, subDirents, links, List.length_cons, List.length_map, List.length_range,
      direntSize, MAXFILE, NDIRECT, NINDIRECT, BSIZE]
    omega
  · intro _
    rfl

/-- 根に a 番目のリンクを作る。 -/
theorem LinkShape.link_root (hs : LinkShape a b n fs) (ha : a < 17148) (hn : wrap16 (n + 1) ≠ 0) :
    ∃ fs', sysLink fs fName (linkName a) okOutcome = some (0, fs') ∧
      LinkShape (a + 1) b (wrap16 (n + 1)) fs' := by
  have hs₁ := hs.bump
  refine ⟨_, sysLink_ok (by decide) (by rw [linkName_length]; decide) (hs.namei_f localName)
    ⟨by simp [hs.file], by simp [hs.file]⟩ (hs₁.nameiparent_root a localName) (by rw [hs.root]) (by decide)
    (hs₁.dirlink_root ha) ?_ ?_, hs₁.append_root⟩
  · simp [hs.root]
  · simpa [hs.file] using hn

/-- d に b 番目のリンクを作る。 -/
theorem LinkShape.link_sub (hs : LinkShape a b n fs) (hb : b < 17150) (hn : wrap16 (n + 1) ≠ 0) :
    ∃ fs', sysLink fs fName (subPath b) okOutcome = some (0, fs') ∧
      LinkShape a (b + 1) (wrap16 (n + 1)) fs' := by
  have hs₁ := hs.bump
  have hlen : (subPath b).length = 5 := rfl
  refine ⟨_, sysLink_ok (by decide) (by rw [hlen]; decide) (hs.namei_f localName)
    ⟨by simp [hs.file], by simp [hs.file]⟩ (hs₁.nameiparent_sub b localName) (by rw [hs.sub]) (by decide)
    (hs₁.dirlink_sub hb) ?_ ?_, hs₁.append_sub⟩
  · simp [hs.sub]
  · simpa [hs.file] using hn

end Shape

/-! ## f と d を作る -/

/-- f を作って開いた後の形。 -/
structure OpenShape (fs : DirFs) : Prop where
  root : fs.inode 1 = ⟨.dir, 0, 0, 1, [⟨1, dotName⟩, ⟨1, dotdotName⟩, ⟨2, fName⟩]⟩
  file : fs.inode 2 = ⟨.file, 0, 0, 1, []⟩
  free : ∀ i, i ≠ 1 → i ≠ 2 → fs.inode i = Inode.empty .free
  cwd : fs.cwd = 1
  ninodes : fs.ninodes = 200

/-- `open("f", O_CREATE)`: 根に "f" を足し、f は inode 2 で、fd 0 に開く。 -/
theorem open_f : ∃ fs, sysOpen rootImage fName O_CREATE okOutcome = some (0, fs) ∧ OpenShape fs := by
  have hpar : namex rootImage fName true [] localName = some (some (1, fName), rootImage) := by
    rw [namex_of_noSlash fName_noSlash,
      namexLoop_parent_last (skipelem_name _ (by simp [fName]) fName_noSlash) rfl, cname_fName]
    rfl
  have hal : ialloc rootImage .file = some (2, rootImage.setInode 2 fun _ => Inode.empty .file) := by
    refine ialloc_eq (by omega) (by decide) rfl fun j h₁ h₂ => ?_
    obtain rfl : j = 1 := by omega
    decide
  have hl : dirlink ((rootImage.setInode 2 fun _ => Inode.empty .file).setInode 2
      fun q => { q with major := 0, minor := 0, nlink := 1 }) 1 fName 2 true = _ :=
    dirlink_append (by decide) (by decide) (by decide) (by decide) (fun _ => rfl)
  have hcr : create rootImage fName .file 0 0 okOutcome = _ :=
    create_new_file (by decide) hpar rfl rfl hal hl (by decide)
  refine ⟨_, sysOpen_create_ok (by decide) (by decide) hcr (by decide) rfl
    (show fdalloc _ = some 0 from rfl), ?_⟩
  constructor
  · simp [rootImage, fName]
  · simp [rootImage, Inode.empty]
  · intro i h₁ h₂
    simp [rootImage, h₁, h₂]
  · rfl
  · rfl

/-- `mkdir("d")`: d は inode 3 で、"." と ".." を持ち、根の `nlink` は ".." のぶん 2 になる。 -/
theorem OpenShape.mkdir_d {fs : DirFs} (hs : OpenShape fs) :
    ∃ fs', sysMkdir fs dName okOutcome = some (0, fs') ∧ LinkShape 0 0 1 fs' := by
  have hpar : namex fs dName true [] localName = some (some (1, dName), fs) := by
    rw [namex_of_noSlash dName_noSlash, hs.cwd,
      namexLoop_parent_last (skipelem_name _ (by simp [dName]) dName_noSlash) (by rw [hs.root]), cname_dName]
  have hnot : dirlookupLoop dName (fs.inode 1).dirents 0 = none := by
    rw [hs.root]
    rfl
  have hal : ialloc fs .dir = some (3, fs.setInode 3 fun _ => Inode.empty .dir) := by
    refine ialloc_eq (by omega) (by rw [hs.ninodes]; decide) (by rw [hs.free 3 (by omega) (by omega)]; rfl)
      fun j h₁ h₂ => ?_
    rcases (show j = 1 ∨ j = 2 by omega) with rfl | rfl
    · rw [hs.root]
      decide
    · rw [hs.file]
      decide
  have hdots : createDots ((fs.setInode 3 fun _ => Inode.empty .dir).setInode 3
      fun q => { q with major := 0, minor := 0, nlink := 1 }) 3 1 true = _ :=
    createDots_fresh (by simp [Inode.empty]) (by simp [Inode.empty]) (by decide)
  have hl : dirlink (((fs.setInode 3 fun _ => Inode.empty .dir).setInode 3
      fun q => { q with major := 0, minor := 0, nlink := 1 }).setInode 3
        fun q => { q with dirents := [⟨3, dotName⟩, ⟨1, dotdotName⟩] }) 1 dName 3 true = _ :=
    dirlink_append (by simp [hs.root]) (by simp [hs.root]; decide) (by simp [hs.root])
      (by simp [hs.root]; decide) (fun _ => rfl)
  have hcr : create fs dName .dir 0 0 okOutcome = _ :=
    create_new_dir hpar (by rw [hs.root]) hnot hal hdots hl (by simp [hs.root]; decide)
  refine ⟨_, sysMkdir_ok (by decide) hcr (by simp [Inode.empty]), ?_⟩
  constructor
  · simp [hs.root, rootDirents, links]
    decide
  · simp [hs.file]
  · simp [Inode.empty, subDirents, links]
  · intro i h₁ h₂ h₃
    simp [h₁, h₃, hs.free i h₁ h₂]
  · simp [hs.cwd]
  · simp [hs.ninodes]

/-! ## 呼び出しの列を流す -/

/-- 形を一段ずつ進める呼び出しを k 個続けると、形は k 段進む。 -/
theorem run_range_of_step {S : Nat → DirFs → Prop} {call : Nat → Call} {oc : Outcome} {K : Nat}
    (hstep : ∀ k < K, ∀ fs, S k fs → ∃ v fs', syscall fs oc (call k) = some (v, fs') ∧ S (k + 1) fs') :
    ∀ {k : Nat} {fs : DirFs}, k ≤ K → S 0 fs →
      ∃ fs', run ((List.range k).map fun i => (call i, oc)) fs = some fs' ∧ S k fs'
  | 0, fs, _, h => ⟨fs, rfl, h⟩
  | k + 1, fs, hk, h => by
    obtain ⟨fs₁, h₁, hs₁⟩ := run_range_of_step hstep (k := k) (by omega) h
    obtain ⟨v, fs₂, h₂, hs₂⟩ := hstep k (by omega) fs₁ hs₁
    refine ⟨fs₂, ?_, hs₂⟩
    rw [List.range_succ, List.map_append, run_append, h₁, Option.bind_some]
    simp [run, h₂]

/-- f の `nlink` は、リンクを一つ作るごとに 16 ビットで 1 進む。 -/
theorem wrap16_step (m : Int) (k : Nat) : wrap16 (wrap16 (m + k) + 1) = wrap16 (m + ↑(k + 1)) := by
  rw [wrap16_wrap16_add]
  push_cast
  ring_nf

theorem wrap16_step_ne (m : Int) (k : Nat) (h₁ : 0 ≤ m) (h₂ : m + k + 1 < 2 ^ 16) :
    wrap16 (wrap16 (m + k) + 1) ≠ 0 := by
  rw [wrap16_step]
  exact wrap16_ne_zero (by omega) (by push_cast; omega)

/-- 根に k 個のリンクを作る。 -/
theorem run_rootLinks {fs : DirFs} {k : Nat} (hk : k ≤ 17148) (hs : LinkShape 0 0 1 fs) :
    ∃ fs', run (rootLinks k) fs = some fs' ∧ LinkShape k 0 (wrap16 (1 + k)) fs' := by
  have e : wrap16 1 = 1 := by decide
  refine run_range_of_step (S := fun k fs => LinkShape k 0 (wrap16 (1 + k)) fs) ?_ hk
    (by simpa [e] using hs)
  intro k hk fs hs
  obtain ⟨fs', h, hs'⟩ := hs.link_root hk (wrap16_step_ne 1 k (by omega) (by omega))
  exact ⟨0, fs', h, by rwa [wrap16_step] at hs'⟩

/-- 根が埋まった後、d に k 個のリンクを作る。 -/
theorem run_subLinks {fs : DirFs} {k : Nat} (hk : k ≤ 15619) (hs : LinkShape 17148 0 (wrap16 17149) fs) :
    ∃ fs', run (subLinks k) fs = some fs' ∧ LinkShape 17148 k (wrap16 (17149 + k)) fs' := by
  refine run_range_of_step (S := fun k fs => LinkShape 17148 k (wrap16 (17149 + k)) fs) ?_ hk
    (by simpa using hs)
  intro k hk fs hs
  obtain ⟨fs', h, hs'⟩ := hs.link_sub (by omega) (wrap16_step_ne 17149 k (by omega) (by omega))
  exact ⟨0, fs', h, by rwa [wrap16_step] at hs'⟩

/-! ## 数と panic -/

theorem entryCount_append (l₁ l₂ : List Dirent) (i : Nat) :
    entryCount (l₁ ++ l₂) i = entryCount l₁ i + entryCount l₂ i :=
  List.countP_append

theorem entryCount_links (n : Nat) : entryCount (links n) 2 = n := by
  have hp : ∀ de ∈ links n, (de.inum != 0 && de.inum == 2 && !namecmp de.name dotName) = true := by
    intro de h
    obtain ⟨i, -, rfl⟩ := mem_links h
    simp [namecmp_linkName_short i (show dotName.length < 3 by decide)]
  rw [entryCount, List.countP_eq_length.mpr hp]
  simp [links]

/-- 形のとき、f を指す項目は、根の "f" と、根の a 個と d の b 個のリンク。 -/
theorem LinkShape.linkCount_file {a b : Nat} {n : Int} {fs : DirFs} (hs : LinkShape a b n fs) :
    linkCount fs 2 = 1 + a + b := by
  -- 根の "." ".." "f" "d" のうち f を指すのは "f" だけで、d の "." ".." はどちらも指さない
  have hr : entryCount (rootDirents a) 2 = 1 + a := by
    rw [show rootDirents a = [⟨1, dotName⟩, ⟨1, dotdotName⟩, ⟨2, fName⟩, ⟨3, dName⟩] ++ links a from rfl,
      entryCount_append, entryCount_links]
    rfl
  have hd : entryCount (subDirents b) 2 = b := by
    rw [show subDirents b = [⟨3, dotName⟩, ⟨1, dotdotName⟩] ++ links b from rfl,
      entryCount_append, entryCount_links, show entryCount [⟨3, dotName⟩, ⟨1, dotdotName⟩] 2 = 0 from rfl,
      Nat.zero_add]
  unfold linkCount
  rw [hs.ninodes, Finset.sum_eq_add 1 3 (by decide) ?_ (by simp) (by simp)]
  · simp only [hs.root, hs.sub, ↓reduceIte, hr, hd]
  · intro c _ hc
    by_cases h₂ : c = 2
    · subst h₂
      simp [hs.file]
    · simp [hs.free c hc.1 h₂ hc.2, Inode.empty]

/-- `nlink` が 1 より小さければ、f の `unlink` は `panic("unlink: nlink < 1")` で止まる。 -/
theorem LinkShape.unlink_f_panics {a b : Nat} {n : Int} {fs : DirFs} (hs : LinkShape a b n fs)
    (hn : n < 1) : sysUnlink fs fName = none := by
  have hpar : namex fs fName true [] localName = some (some (1, fName), fs) := by
    rw [namex_of_noSlash fName_noSlash, hs.cwd,
      namexLoop_parent_last (skipelem_name _ (by simp [fName]) fName_noSlash) (by rw [hs.root]), cname_fName]
  have hlen : ¬ MAXPATH ≤ fName.length := by decide
  have hdot : ¬(namecmp fName dotName = true ∨ namecmp fName dotdotName = true) := by decide
  simp only [sysUnlink, hlen, hpar, hs.dirlookup_f, hs.root, hs.file, hn, hdot, Option.bind_eq_bind,
    Option.bind_some, reduceCtorEq, ↓reduceIte]

/-! ## 根だけの像は不変条件を満たす -/

/-- 根だけの像で使われている inode は根だけ。 -/
theorem rootImage_used {i : Nat} (h : (rootImage.inode i).type ≠ .free) : i = 1 := by
  by_contra hi
  exact h (by simp [rootImage, hi, Inode.empty])

/-- 根を指す項目は、根の ".." だけ。 -/
theorem rootImage_linkCount : linkCount rootImage 1 = 1 := by
  unfold linkCount
  rw [Finset.sum_eq_single 1 ?_ (by simp [rootImage])]
  · rfl
  · intro d _ hd
    simp [rootImage, hd, Inode.empty]

theorem rootImage_dirTreeOK : DirTreeOK rootImage where
  dots d _ hd := by
    obtain rfl := rootImage_used (by rw [hd]; decide)
    exact ⟨rfl, rfl, .inl ⟨rfl, rfl⟩⟩
  names d _ hd := by
    obtain rfl := rootImage_used (by rw [hd]; decide)
    decide
  alloc d _ hd de hde hz := by
    obtain rfl := rootImage_used (by rw [hd]; decide)
    simp only [rootImage, ↓reduceIte, List.mem_cons, List.not_mem_nil, or_false] at hde
    rcases hde with rfl | rfl <;> decide
  nlink i _ hi := by
    obtain rfl := rootImage_used hi
    rw [rootImage_linkCount]
    rfl
  freed i _ hi hn := by
    obtain rfl := rootImage_used hi
    cases hn

/-! ## 桁あふれ -/

/-- 根だけの像から、f を作り、d を作り、根に 17148 個、d に 15619 個のリンクを作ると、f を指す
生きた項目は 32768 個だが、f の `nlink` は -32768 で、f の `unlink` は panic する。 -/
theorem link_wrap_run :
    ∃ fs, run wrapCalls rootImage = some fs ∧ DirTreeOK rootImage ∧
      (fs.inode 2).type = .file ∧ (fs.inode 2).nlink = -32768 ∧ linkCount fs 2 = 32768 ∧
      ¬ DirTreeOK fs ∧ sysUnlink fs fName = none := by
  obtain ⟨fs₁, ho, hs₁⟩ := open_f
  obtain ⟨fs₂, hm, hs₂⟩ := hs₁.mkdir_d
  obtain ⟨fs₃, hr, hs₃⟩ := run_rootLinks le_rfl hs₂
  obtain ⟨fs₄, hd, hs₄⟩ := run_subLinks le_rfl (by simpa using hs₃)
  have hw : wrap16 (17149 + ((15619 : Nat) : Int)) = -32768 := by decide
  rw [hw] at hs₄
  have hrun : run wrapCalls rootImage = some fs₄ := by
    rw [wrapCalls, run_append, run_append]
    simp [run, syscall, ho, hm, hr, hd]
  refine ⟨fs₄, hrun, rootImage_dirTreeOK, by rw [hs₄.file], by rw [hs₄.file], hs₄.linkCount_file,
    fun hok => ?_, hs₄.unlink_f_panics (by decide)⟩
  -- f の nlink は、f を指す項目の数と等しくない
  have h := hok.nlink 2 (by rw [hs₄.ninodes]; decide) (by rw [hs₄.file]; decide)
  rw [hs₄.file, hs₄.linkCount_file] at h
  cases h

end Xv6.Dir
