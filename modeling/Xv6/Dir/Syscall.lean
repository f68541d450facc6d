import Xv6.Dir.Basic
import Xv6.Lib.Reach

/-!
# 名前を変えるシステムコール（`kernel/sysfile.c`）

`create`、`sys_open`、`sys_mkdir`、`sys_mknod`、`sys_link`、`sys_unlink`、`sys_close` を写す。
どの呼び出しも一つの取引（`begin_op` から `end_op`）の中で inode を `ilock` して行うので、
一つの遷移とする。`argstr` は道のりを `MAXPATH` バイト未満の文字列として読み、長すぎれば -1。
外から与える結果（`Outcome`）は、新しいブロックの `balloc` と `filealloc` が成功するか。

返り値の外の `none` は panic。
-/

namespace Xv6.Dir

open Xv6.Lib

abbrev O_RDONLY : Int := 0x000

abbrev O_CREATE : Int := 0x200

/-- 呼び出しの中の割り当てが成功するか。 -/
structure Outcome where
  /-- 新しいディレクトリの最初のブロック（"." を書く `writei`）の `balloc` -/
  child : Bool
  /-- 親のディレクトリに項目を足す `writei` の `balloc` -/
  parent : Bool
  /-- `filealloc` が空きの `struct file` を見つける -/
  file : Bool
  deriving DecidableEq, Repr

/-- 呼び出しの局所の配列 `char name[DIRSIZ]`（namei の中のものも）。初期化されないが、namex が返す
ものはその中身によらない（`namex_name_irrelevant`）ので、0 で埋めたものとする。 -/
def localName : List UInt8 := List.replicate DIRSIZ 0

/-! ## create -/

/-- create の `fail:`: `ip->nlink = 0` にして ip を、次に dp を `iunlockput` する。 -/
def createFail (fs : DirFs) (ip dp : Nat) : Option (Option Nat × DirFs) :=
  let fs := fs.setInode ip fun q => { q with nlink := 0 }
  some (none, iput (iput fs ip [dp]) dp [])

/-- T_DIR の "." と ".." を書く（"." のぶん `nlink` は増やさない）。 -/
def createDots (fs : DirFs) (ip dp : Nat) (alloc : Bool) : Option (Int × DirFs) := do
  let (v, fs) ← dirlink fs ip dotName ip alloc
  if v < 0 then some (v, fs) else dirlink fs ip dotdotName dp alloc

/-- `create(path, type, major, minor)`: `ilock` した inode の番号、または 0。 -/
def create (fs : DirFs) (path : List UInt8) (type : IType) (major minor : Int) (oc : Outcome) :
    Option (Option Nat × DirFs) := do
  let (r, fs) ← namex fs path true [] localName
  match r with
  | none => some (none, fs)
  | some (dp, name) =>
    -- ilock(dp)
    if (fs.inode dp).type = .free then none else
    match ← dirlookup fs dp name with
    | some (ip, _) =>
      -- 名前がもうある: iunlockput(dp) の後 ilock(ip)
      let fs := iput fs dp [ip]
      if (fs.inode ip).type = .free then none
      else if type = .file ∧ ((fs.inode ip).type = .file ∨ (fs.inode ip).type = .device) then
        some (some ip, fs)
      else some (none, iput fs ip [])
    | none =>
      match ialloc fs type with
      | none => some (none, iput fs dp [])
      | some (ip, fs) =>
        let fs := fs.setInode ip fun q => { q with major := major, minor := minor, nlink := 1 }
        let (v, fs) ← if type = .dir then createDots fs ip dp oc.child else some (0, fs)
        if v < 0 then createFail fs ip dp else
        let (v, fs) ← dirlink fs dp name ip oc.parent
        if v < 0 then createFail fs ip dp else
        -- 成功が決まってから、".." のぶん dp->nlink++
        let fs := if type = .dir then fs.setInode dp fun q => { q with nlink := wrap16 (q.nlink + 1) }
          else fs
        some (some ip, iput fs dp [ip])

/-! ## システムコール -/

/-- sys_open の、O_CREATE でないときの `namei`、`ilock` と T_DIR の検査。 -/
def openLookup (fs : DirFs) (path : List UInt8) (omode : Int) : Option (Option Nat × DirFs) := do
  let (r, fs) ← namex fs path false [] localName
  match r with
  | none => some (none, fs)
  | some (ip, _) =>
    if (fs.inode ip).type = .free then none
    else if (fs.inode ip).type = .dir ∧ omode ≠ O_RDONLY then some (none, iput fs ip [])
    else some (some ip, fs)

/-- `fdalloc`: 空いている最小の fd。 -/
def fdalloc (fs : DirFs) : Option (Fin NOFILE) :=
  (List.finRange NOFILE).find? fun fd => fs.ofile fd == none

/-- `sys_open(path, omode)`。成功すると、呼び出しが持つ ip への参照は開いたファイルのものになる。
O_TRUNC の `itrunc` はファイルの中身だけを変え、ここでは何もしない。 -/
def sysOpen (fs : DirFs) (path : List UInt8) (omode : Int) (oc : Outcome) : Option (Int × DirFs) := do
  if MAXPATH ≤ path.length then some (-1, fs) else
  let (r, fs) ← if Int.land omode O_CREATE ≠ 0 then create fs path .file 0 0 oc
    else openLookup fs path omode
  match r with
  | none => some (-1, fs)
  | some ip =>
    if (fs.inode ip).type = .device ∧ ((fs.inode ip).major < 0 ∨ NDEV ≤ (fs.inode ip).major) then
      some (-1, iput fs ip [])
    -- filealloc の失敗と fdalloc の失敗: FD_NONE のファイルの fileclose は何もしない
    else if oc.file = false then some (-1, iput fs ip [])
    else match fdalloc fs with
      | none => some (-1, iput fs ip [])
      | some fd => some (fd.val, { fs with ofile := Function.update fs.ofile fd (some ip) })

def sysMkdir (fs : DirFs) (path : List UInt8) (oc : Outcome) : Option (Int × DirFs) := do
  if MAXPATH ≤ path.length then some (-1, fs) else
  let (r, fs) ← create fs path .dir 0 0 oc
  match r with
  | none => some (-1, fs)
  | some ip => some (0, iput fs ip [])

/-- `sys_mknod`: `int` の major と minor を `create` の `short` の引数に丸める。 -/
def sysMknod (fs : DirFs) (path : List UInt8) (major minor : Int) (oc : Outcome) :
    Option (Int × DirFs) := do
  if MAXPATH ≤ path.length then some (-1, fs) else
  let (r, fs) ← create fs path .device (wrap16 major) (wrap16 minor) oc
  match r with
  | none => some (-1, fs)
  | some ip => some (0, iput fs ip [])

/-- sys_link の `bad:`: `ip->nlink--` で戻して ip を `iunlockput` する。 -/
def linkBad (fs : DirFs) (ip : Nat) : Int × DirFs :=
  (-1, iput (fs.setInode ip fun q => { q with nlink := wrap16 (q.nlink - 1) }) ip [])

/-- `sys_link(old, new)`: `dirlink` の前に `ip->nlink++` を書き、失敗すれば戻す。 -/
def sysLink (fs : DirFs) (old new : List UInt8) (oc : Outcome) : Option (Int × DirFs) := do
  if MAXPATH ≤ old.length ∨ MAXPATH ≤ new.length then some (-1, fs) else
  let (r, fs) ← namex fs old false [] localName
  match r with
  | none => some (-1, fs)
  | some (ip, _) =>
    if (fs.inode ip).type = .free then none else
    if (fs.inode ip).type = .dir then some (-1, iput fs ip []) else
    let fs := fs.setInode ip fun q => { q with nlink := wrap16 (q.nlink + 1) }
    let (r, fs) ← namex fs new true [ip] localName
    match r with
    | none => some (linkBad fs ip)
    | some (dp, name) =>
      if (fs.inode dp).type = .free then none else
      let (v, fs) ← dirlink fs dp name ip oc.parent
      if v < 0 then some (linkBad (iput fs dp [ip]) ip)
      else some (0, iput (iput fs dp [ip]) ip [])

/-- `isdirempty(dp)`: "." と ".." の後の項目がどれも空き。 -/
def isdirempty (des : List Dirent) : Bool := (des.drop 2).all fun de => de.inum == 0

/-- `sys_unlink(path)`。 -/
def sysUnlink (fs : DirFs) (path : List UInt8) : Option (Int × DirFs) := do
  if MAXPATH ≤ path.length then some (-1, fs) else
  let (r, fs) ← namex fs path true [] localName
  match r with
  | none => some (-1, fs)
  | some (dp, name) =>
    if (fs.inode dp).type = .free then none else
    if namecmp name dotName ∨ namecmp name dotdotName then some (-1, iput fs dp []) else
    match ← dirlookup fs dp name with
    | none => some (-1, iput fs dp [])
    | some (ip, off) =>
      if (fs.inode ip).type = .free then none else
      -- panic("unlink: nlink < 1")
      if (fs.inode ip).nlink < 1 then none else
      if (fs.inode ip).type = .dir ∧ isdirempty (fs.inode ip).dirents = false then
        some (-1, iput (iput fs ip [dp]) dp [])
      else
      -- 項目を 0 で埋める。書けなければ panic("unlink: writei")
      let des ← writeDirent (fs.inode dp).dirents off ⟨0, []⟩ true
      let fs := fs.setInode dp fun q => { q with dirents := des }
      let fs := if (fs.inode ip).type = .dir then
          fs.setInode dp fun q => { q with nlink := wrap16 (q.nlink - 1) }
        else fs
      let fs := iput fs dp [ip]
      let fs := fs.setInode ip fun q => { q with nlink := wrap16 (q.nlink - 1) }
      some (0, iput fs ip [])

/-- `sys_close(fd)`: fd を空け、`fileclose` が ip への参照を `iput` で落とす。 -/
def sysClose (fs : DirFs) (fd : Int) : Option (Int × DirFs) :=
  if h : 0 ≤ fd ∧ fd < NOFILE then
    match fs.ofile ⟨fd.toNat, by omega⟩ with
    | none => some (-1, fs)
    | some ip => some (0, iput { fs with ofile := Function.update fs.ofile ⟨fd.toNat, by omega⟩ none } ip [])
  else some (-1, fs)

/-! ## 呼び出しの列 -/

inductive Call where
  | open (path : List UInt8) (omode : Int)
  | mkdir (path : List UInt8)
  | mknod (path : List UInt8) (major minor : Int)
  | link (old new : List UInt8)
  | unlink (path : List UInt8)
  | close (fd : Int)
  deriving DecidableEq, Repr

def syscall (fs : DirFs) (oc : Outcome) : Call → Option (Int × DirFs)
  | .open path omode => sysOpen fs path omode oc
  | .mkdir path => sysMkdir fs path oc
  | .mknod path major minor => sysMknod fs path major minor oc
  | .link old new => sysLink fs old new oc
  | .unlink path => sysUnlink fs path
  | .close fd => sysClose fs fd

/-- 呼び出しを順に行う。どれかが panic すれば `none`。 -/
def run : List (Call × Outcome) → DirFs → Option DirFs
  | [], fs => some fs
  | (c, oc) :: cs, fs => (syscall fs oc c).bind fun r => run cs r.2

/-- 一つの呼び出し（失敗して -1 を返すものも含む）。 -/
def DirStep (fs fs' : DirFs) : Prop := ∃ c oc v, syscall fs oc c = some (v, fs')

end Xv6.Dir
