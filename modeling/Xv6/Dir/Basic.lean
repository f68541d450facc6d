import Mathlib.Data.List.FinRange
import Mathlib.Data.Int.Bitwise
import Xv6.Fs.Basic
import Xv6.Lib.CInt

/-!
# ディレクトリと名前（`kernel/fs.c` の名前の層）

ディレクトリの中身を `struct dirent` の列として持つ。ディレクトリはユーザから書けず
（`sys_open` は T_DIR を書き込みで開くことを拒む）、カーネルは `sizeof(de)` 単位の位置でだけ
読み書きするので、中身の `off` バイト目の項目は列の `off / sizeof(de)` 番目であり、`dp->size` は
列の長さの `sizeof(de)` 倍である。`writei` が新しいブロックを要るときに `balloc` が成功するかは、
呼び出しの外から与える。

inode の表は、ディスク上の inode とメモリ上の inode を一つにしたもの（`Xv6.Fs` と同じく、
ここで写す関数は `ilock` した inode の変更をその呼び出しのうちに `iupdate` で書き戻す）。
メモリ上の参照の数 `ip->ref` は、このプロセスの開いたファイル、カレントディレクトリ、ほかの
プロセスが持つ参照（`held`）、そして呼び出しの途中で持つ参照から数える。
-/

namespace Xv6.Dir

open Xv6.Lib Xv6.Fs

abbrev DIRSIZ : Nat := 14

abbrev ROOTINO : Nat := 1

abbrev NOFILE : Nat := 16

abbrev NDEV : Int := 10

abbrev MAXPATH : Nat := 128

/-- `sizeof(struct dirent)`: `ushort inum` と `char name[DIRSIZ]`。 -/
abbrev direntSize : Nat := 16

/-- inode の `type`: 空きの 0、`T_DIR`、`T_FILE`、`T_DEVICE`。 -/
inductive IType where
  | free
  | dir
  | file
  | device
  deriving DecidableEq, Repr

/-- `struct dirent`。名前は NUL を含まないバイトの列で持つ（`strncpy` で `DIRSIZ` バイトに
詰めた名前の、NUL より前）。 -/
structure Dirent where
  inum : Nat
  name : List UInt8
  deriving DecidableEq, Repr

/-- inode の、ここで読み書きする欄。`dirents` はディレクトリの中身。ファイルの中身は読まない。 -/
structure Inode where
  type : IType
  major : Int
  minor : Int
  nlink : Int
  dirents : List Dirent
  deriving DecidableEq, Repr

/-- ファイルシステムと、このプロセスの `cwd` と `ofile`。`held i` はほかのプロセスが持つ i への
参照の数で、ここで写す呼び出しは変えない。`ninodes` は `sb.ninodes`。 -/
structure DirFs where
  inode : Nat → Inode
  cwd : Nat
  ofile : Fin NOFILE → Option Nat
  held : Nat → Nat
  ninodes : Nat

/-- `ialloc` が書く空の inode（`memset(dip, 0, sizeof(*dip))` の後の欄）。 -/
def Inode.empty (type : IType) : Inode := ⟨type, 0, 0, 0, []⟩

def DirFs.setInode (fs : DirFs) (i : Nat) (f : Inode → Inode) : DirFs :=
  { fs with inode := Function.update fs.inode i (f (fs.inode i)) }

/-- 呼び出しの外の参照の数: 開いたファイル、カレントディレクトリ、ほかのプロセスの参照。 -/
def DirFs.refs (fs : DirFs) (i : Nat) : Nat :=
  (List.finRange NOFILE).countP (fun fd => fs.ofile fd = some i) +
    (if fs.cwd = i then 1 else 0) + fs.held i

/-! ## 名前 -/

def isSlash (c : UInt8) : Bool := c == '/'.toUInt8

/-- `"."`。 -/
def dotName : List UInt8 := ['.'.toUInt8]

/-- `".."`。 -/
def dotdotName : List UInt8 := ['.'.toUInt8, '.'.toUInt8]

/-- `namecmp(s, t) == 0`: `strncmp(s, t, DIRSIZ)`。名前は NUL を含まないので、先頭の `DIRSIZ`
バイトが等しいこと。 -/
def namecmp (s t : List UInt8) : Bool := s.take DIRSIZ == t.take DIRSIZ

/-- skipelem が要素 elem を `name` の `DIRSIZ` バイトに写した後の `name`。`DIRSIZ` バイト以上なら
先頭の `DIRSIZ` バイトだけを写して NUL を書かず（`memmove(name, s, DIRSIZ)`）、そうでなければ要素の
後に NUL を書く（`memmove(name, s, len); name[len] = 0`）。ほかのバイトは前のまま。 -/
def nameBuf (old elem : List UInt8) : List UInt8 :=
  if elem.length ≥ DIRSIZ then elem.take DIRSIZ
  else elem ++ 0 :: old.drop (elem.length + 1)

/-- `strncmp(s, t, DIRSIZ)` と `strncpy(de.name, name, DIRSIZ)` が `name` から読む名前: 先頭の
`DIRSIZ` バイトの、NUL より前。 -/
def cname (buf : List UInt8) : List UInt8 := (buf.take DIRSIZ).takeWhile (· ≠ 0)

/-- `skipelem(path, name)`: 先頭の '/' を飛ばして次の要素を `name` に写し、その後の '/' を飛ばした
残りを返す。戻り値は書いた後の `name` と残り。要素がなければ 0 で、`name` には書かない。 -/
def skipelem (path name : List UInt8) : Option (List UInt8 × List UInt8) :=
  match path.dropWhile isSlash with
  | [] => none
  | c :: p =>
    some (nameBuf name ((c :: p).takeWhile (!isSlash ·)),
      ((c :: p).dropWhile (!isSlash ·)).dropWhile isSlash)

theorem skipelem_length {path name buf rest : List UInt8} (h : skipelem path name = some (buf, rest)) :
    rest.length < path.length := by
  unfold skipelem at h
  split at h
  · cases h
  · rename_i c p hp
    simp only [Option.some.injEq, Prod.mk.injEq] at h
    obtain ⟨-, rfl⟩ := h
    -- 要素の最初の文字 c は '/' でないので、要素を飛ばすと少なくとも c が消える
    have hc : isSlash c = false := by
      have := List.head?_dropWhile_not isSlash path
      rwa [hp, List.head?_cons] at this
    have h₁ : (p.dropWhile (!isSlash ·)).length ≤ p.length := (List.dropWhile_suffix _).length_le
    have h₂ : (c :: p).length ≤ path.length := by
      rw [← hp]
      exact (List.dropWhile_suffix _).length_le
    calc ((((c :: p).dropWhile (!isSlash ·)).dropWhile isSlash)).length
        ≤ ((c :: p).dropWhile (!isSlash ·)).length := (List.dropWhile_suffix _).length_le
      _ = (p.dropWhile (!isSlash ·)).length := by simp [hc]
      _ < path.length := by simp only [List.length_cons] at h₂; omega

/-! ## ディレクトリ -/

/-- `dirlookup` のループ: 位置 off から、名前が合う生きた（`inum != 0`）項目を探す。 -/
def dirlookupLoop (name : List UInt8) : List Dirent → Nat → Option (Nat × Nat)
  | [], _ => none
  | de :: des, off =>
    if de.inum != 0 && namecmp name de.name then some (de.inum, off)
    else dirlookupLoop name des (off + direntSize)

/-- `dirlookup(dp, name, &off)`: 見つけた inode の番号と項目の位置。外の `none` は
`panic("dirlookup not DIR")`。 -/
def dirlookup (fs : DirFs) (dp : Nat) (name : List UInt8) : Option (Option (Nat × Nat)) :=
  if (fs.inode dp).type = .dir then some (dirlookupLoop name (fs.inode dp).dirents 0) else none

/-- `dirlink` の空きの項目を探すループ: 最初の `inum == 0` の項目の位置、なければ `dp->size`。 -/
def dirlinkOff : List Dirent → Nat → Nat
  | [], off => off
  | de :: des, off => if de.inum = 0 then off else dirlinkOff des (off + direntSize)

/-- `writei(dp, 0, &de, off, sizeof(de)) == sizeof(de)` のときの新しい中身。`off > size` と
`MAXFILE*BSIZE` を越える書き込みは -1。末尾に足す項目がブロックの境目から始まるときは `bmap` が
新しいブロックを要り、`balloc` が失敗すると（`alloc = false`）0 バイトしか書かない。 -/
def writeDirent (des : List Dirent) (off : Nat) (de : Dirent) (alloc : Bool) : Option (List Dirent) :=
  if des.length * direntSize < off ∨ MAXFILE * BSIZE < off + direntSize then none
  else if off = des.length * direntSize then
    if off % BSIZE = 0 ∧ alloc = false then none else some (des ++ [de])
  else some (des.set (off / direntSize) de)

/-- `iput(ip)`: 呼び出しが持つ i への参照を一つ落とす。`hold` は呼び出しがまだ持つほかの参照。
落とした参照が最後（`ip->ref == 1`）で `nlink` が 0 なら、中身を切り詰めて空きにする
（`itrunc`、`ip->type = 0`）。ここで写す `iput` は、どれも `ilock` した inode に対するもの
（`ip->valid`）。 -/
def iput (fs : DirFs) (i : Nat) (hold : List Nat) : DirFs :=
  if fs.refs i + hold.count i = 0 ∧ (fs.inode i).nlink = 0 then
    fs.setInode i fun ip => { ip with type := .free, dirents := [] }
  else fs

/-- `ialloc(dev, type)`: 番号 1 から `ninodes - 1` までで最初の空きの inode。 -/
def ialloc (fs : DirFs) (type : IType) : Option (Nat × DirFs) :=
  match (List.range' 1 (fs.ninodes - 1)).find? (fun i => (fs.inode i).type == .free) with
  | none => none
  | some i => some (i, fs.setInode i fun _ => Inode.empty type)

/-- `dirlink(dp, name, inum)`。名前がもうあれば -1。`dirlookup` が返した inode の `iput` は
何もしない: ほかに参照がなければ `iget` が作った項目は `valid` でなく、あれば `ref` が 2 以上。 -/
def dirlink (fs : DirFs) (dp : Nat) (name : List UInt8) (inum : Nat) (alloc : Bool) :
    Option (Int × DirFs) := do
  match ← dirlookup fs dp name with
  | some _ => some (-1, fs)
  | none =>
    let des := (fs.inode dp).dirents
    match writeDirent des (dirlinkOff des 0) ⟨inum, name.take DIRSIZ⟩ alloc with
    | none => some (-1, fs)
    | some des' => some (0, fs.setInode dp fun ip => { ip with dirents := des' })

/-! ## 道のり -/

/-- `namex` のループ。ip は namex が持つ参照、`hold` は呼び出し元が持つ参照、`name` は呼び出し元の
`char name[DIRSIZ]` の中身。外の `none` は panic（`ilock: no type`）、`some (none, _)` は 0 を返す
こと。`dirlookup` の `namecmp` も、nameiparent の呼び出し元の `dirlookup` と `dirlink` も、`name`
からは `cname name` だけを読むので、nameiparent はそれを返す。 -/
def namexLoop (fs : DirFs) (nameiparent : Bool) (hold : List Nat) (ip : Nat) (path name : List UInt8) :
    Option (Option (Nat × List UInt8) × DirFs) :=
  match h : skipelem path name with
  | none =>
    -- nameiparent なら iput(ip) して 0。この ip は根か cwd で、その iput は何もしない
    some (if nameiparent then none else some (ip, []), fs)
  | some (name, rest) =>
    if (fs.inode ip).type = .free then none
    else if (fs.inode ip).type ≠ .dir then some (none, iput fs ip hold)
    else if nameiparent ∧ rest = [] then some (some (ip, cname name), fs)
    else
      match dirlookup fs ip (cname name) with
      | none => none
      | some none => some (none, iput fs ip hold)
      | some (some (next, _)) =>
        have : rest.length < path.length := skipelem_length h
        namexLoop (iput fs ip (next :: hold)) nameiparent hold next rest name
termination_by path.length

/-- `namex(path, nameiparent, name)`: '/' で始まれば根から、そうでなければ cwd から。 -/
def namex (fs : DirFs) (path : List UInt8) (nameiparent : Bool) (hold : List Nat) (name : List UInt8) :
    Option (Option (Nat × List UInt8) × DirFs) :=
  namexLoop fs nameiparent hold (if path.head? = some '/'.toUInt8 then ROOTINO else fs.cwd) path name

end Xv6.Dir
