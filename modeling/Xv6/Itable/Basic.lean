import Mathlib.Logic.Function.Basic
import Mathlib.Data.List.Basic
import Mathlib.Algebra.GroupWithZero.Nat
import Xv6.Lib.Reach

/-!
# inode の表（`kernel/fs.c` の iget、idup、ilock、iunlock、iput と ialloc）

`itable.inode` の各入口の ref と (dev, inum) は `itable.lock` が守り、valid、type、nlink は入口の
sleeplock が守る。`itable.lock` を持つ区間を一つの遷移とする。iput が `itable.lock` を放して
inode を切り詰めて解放する区間は、`itrunc` と `ip->type = 0`、`iupdate`、`ip->valid = 0`、
`releasesleep`、もう一度 `itable.lock` を取っての `ref--` の五つの遷移（`IOp.cont`）に分け、
その間にほかの呼び出しが入る。

inode へのポインタを持つもの（開いたファイル、プロセスの cwd、システムコールの局所変数）を
持ち主 `H` とし、生きているポインタの並び `ptrs` を記録として持つ。`IOp.pass` はポインタを
別の持ち主へ渡す（`f->ip = ip` のような代入）だけで、コードの文ではない。ディスクの inode は
type と nlink だけを持ち、`itrunc` がブロックを解放することは `Xv6.Fs` で扱う。
-/

namespace Xv6.Itable

open Function Xv6.Lib

/-- `NINODE`。 -/
abbrev NINODE : Nat := 50

instance : NeZero NINODE := ⟨by decide⟩

/-- itable の入口の番号。 -/
abbrev InodeId := Fin NINODE

/-- `struct inode` の、ここで読み書きする欄。 -/
structure Inode where
  dev : Nat
  inum : Nat
  ref : Nat
  valid : Bool
  type : Int
  nlink : Int
  deriving DecidableEq, Repr

/-- `struct dinode` の type と nlink。 -/
structure DInode where
  type : Int
  nlink : Int
  deriving DecidableEq, Repr

/-- 持ち主がいる所。`idle` のほかは、iput の解放の区間で次に行う文。 -/
inductive Pc where
  | idle
  /-- `itrunc(ip); ip->type = 0;` -/
  | trunc (ip : InodeId)
  /-- `iupdate(ip);` -/
  | update (ip : InodeId)
  /-- `ip->valid = 0;` -/
  | invalid (ip : InodeId)
  /-- `releasesleep(&ip->lock);` -/
  | unlock (ip : InodeId)
  /-- `acquire(&itable.lock); ip->ref--;` -/
  | put (ip : InodeId)
  deriving DecidableEq, Repr

/-- 表と sleeplock の持ち主、ディスクの inode（`sb.ninodes` 個）、持ち主の位置とポインタ。 -/
structure IState (H : Type) where
  inode : InodeId → Inode
  lock : InodeId → Option H
  disk : Nat → Nat → DInode
  ninodes : Nat
  pc : H → Pc
  ptrs : List (H × InodeId)

/-! ## fs.c の手続き -/

/-- iget の for で一致とみる入口: `ip->ref > 0 && ip->dev == dev && ip->inum == inum`。 -/
def Inode.matches (x : Inode) (dev inum : Nat) : Bool := 0 < x.ref && x.dev == dev && x.inum == inum

/-- iget の for。一致する入口を見つければそれを返し（`.inl`）、最後まで見れば覚えておいた最初の
空き（`.inr`）を返す。 -/
def igetLoop (t : InodeId → Inode) (dev inum : Nat) :
    List InodeId → Option InodeId → InodeId ⊕ Option InodeId
  | [], empty => .inr empty
  | ip :: ips, empty =>
    if (t ip).matches dev inum then .inl ip
    else igetLoop t dev inum ips (if empty = none ∧ (t ip).ref = 0 then some ip else empty)

/-- `iget(dev, inum)`。none は `panic("iget: no inodes")`。 -/
def iget (t : InodeId → Inode) (dev inum : Nat) : Option (InodeId × (InodeId → Inode)) :=
  match igetLoop t dev inum (List.finRange NINODE) none with
  | .inl ip => some (ip, update t ip { t ip with ref := (t ip).ref + 1 })
  | .inr (some ip) => some (ip, update t ip { t ip with dev := dev, inum := inum, ref := 1, valid := false })
  | .inr none => none

/-- ilock の、sleeplock を取った後。valid でなければディスクの inode を読む。none は
`panic("ilock: no type")`。 -/
def ilockRead (x : Inode) (d : DInode) : Option Inode :=
  if x.valid then some x
  else if d.type = 0 then none
  else some { x with type := d.type, nlink := d.nlink, valid := true }

/-- `iupdate(ip)`: 入口の type と nlink をディスクの inode へ書く。 -/
def iupdate (disk : Nat → Nat → DInode) (x : Inode) : Nat → Nat → DInode :=
  fun d n => if d = x.dev ∧ n = x.inum then ⟨x.type, x.nlink⟩ else disk d n

/-- iput が inode を切り詰めて解放する条件: `ip->ref == 1 && ip->valid && ip->nlink == 0`。 -/
def Inode.freeOnPut (x : Inode) : Bool := x.ref == 1 && x.valid && x.nlink == 0

/-- ialloc の for: 1 から `sb.ninodes - 1` までで、最初の空きのディスクの inode。 -/
def iallocScan (disk : Nat → Nat → DInode) (ninodes dev : Nat) : Option Nat :=
  (List.range' 1 (ninodes - 1)).find? fun inum => (disk dev inum).type == 0

/-- ialloc のディスクの側: `memset(dip, 0, sizeof(*dip)); dip->type = type; log_write(bp);`。
見つけた inum に続けて呼ぶ `iget` は、iget の遷移である。 -/
def ialloc (disk : Nat → Nat → DInode) (ninodes dev : Nat) (type : Int) :
    Option (Nat × (Nat → Nat → DInode)) :=
  (iallocScan disk ninodes dev).map fun inum =>
    (inum, fun d n => if d = dev ∧ n = inum then ⟨type, 0⟩ else disk d n)

/-! ## 遷移 -/

/-- 持ち主が行う呼び出しと、解放の区間の一文。 -/
inductive IOp (H : Type) where
  /-- iget（ialloc、dirlookup、namex から） -/
  | iget (h : H) (dev inum : Nat)
  | idup (h : H) (ip : InodeId)
  /-- ポインタを別の持ち主へ渡す -/
  | pass (h h' : H) (ip : InodeId)
  | ilock (h : H) (ip : InodeId)
  | iunlock (h : H) (ip : InodeId)
  /-- sleeplock を持って nlink を変え、iupdate する（link、unlink、create） -/
  | write (h : H) (ip : InodeId) (nlink : Int)
  /-- iput の `itable.lock` の最初の区間 -/
  | iput (h : H) (ip : InodeId)
  /-- 解放の区間の次の文 -/
  | cont (h : H)
  /-- ialloc のディスクの側。呼び出し元は 0 でない型を渡す -/
  | ialloc (dev : Nat) (type : Int)

variable {H : Type} [DecidableEq H]

/-- 入口 ip の欄を f で書き換える。 -/
def IState.setInode (s : IState H) (ip : InodeId) (f : Inode → Inode) : IState H :=
  { s with inode := update s.inode ip (f (s.inode ip)) }

/-- 一つの遷移。none は、その呼び出しがここで待つか panic するか、前提（持っているポインタ、
持っている sleeplock）を満たさないこと。 -/
def IOp.step : IOp H → IState H → Option (IState H)
  | .iget h dev inum, s =>
    match Itable.iget s.inode dev inum with
    | some (ip, t) => some { s with inode := t, ptrs := (h, ip) :: s.ptrs }
    | none => none
  | .idup h ip, s =>
    if s.pc h = .idle ∧ (h, ip) ∈ s.ptrs then
      some { s.setInode ip (fun x => { x with ref := x.ref + 1 }) with ptrs := (h, ip) :: s.ptrs }
    else none
  | .pass h h' ip, s =>
    if s.pc h = .idle ∧ (h, ip) ∈ s.ptrs ∧ s.lock ip ≠ some h then
      some { s with ptrs := (h', ip) :: s.ptrs.erase (h, ip) }
    else none
  | .ilock h ip, s =>
    -- `ip->ref < 1` は panic("ilock")、ほかが持つ sleeplock は acquiresleep で待つ
    if s.pc h = .idle ∧ (h, ip) ∈ s.ptrs ∧ 1 ≤ (s.inode ip).ref ∧ s.lock ip = none then
      match ilockRead (s.inode ip) (s.disk (s.inode ip).dev (s.inode ip).inum) with
      | some x => some { s with inode := update s.inode ip x, lock := update s.lock ip (some h) }
      | none => none
    else none
  | .iunlock h ip, s =>
    if s.pc h = .idle ∧ s.lock ip = some h ∧ 1 ≤ (s.inode ip).ref then
      some { s with lock := update s.lock ip none }
    else none
  | .write h ip nlink, s =>
    if s.pc h = .idle ∧ s.lock ip = some h ∧ (s.inode ip).valid then
      let x := { s.inode ip with nlink := nlink }
      some { s with inode := update s.inode ip x, disk := iupdate s.disk x }
    else none
  | .iput h ip, s =>
    -- 呼び出し元は ip の sleeplock を持たない（iunlockput）
    if s.pc h = .idle ∧ (h, ip) ∈ s.ptrs ∧ s.lock ip ≠ some h then
      if (s.inode ip).freeOnPut then
        -- acquiresleep: ほかが持っていれば itable.lock を持ったまま待つ
        if s.lock ip = none then
          some { s with lock := update s.lock ip (some h), pc := update s.pc h (.trunc ip) }
        else none
      else
        some { s.setInode ip (fun x => { x with ref := x.ref - 1 }) with ptrs := s.ptrs.erase (h, ip) }
    else none
  | .cont h, s =>
    match s.pc h with
    | .idle => none
    | .trunc ip => some { s.setInode ip (fun x => { x with type := 0 }) with pc := update s.pc h (.update ip) }
    | .update ip => some { s with disk := iupdate s.disk (s.inode ip), pc := update s.pc h (.invalid ip) }
    | .invalid ip => some { s.setInode ip (fun x => { x with valid := false }) with pc := update s.pc h (.unlock ip) }
    | .unlock ip => some { s with lock := update s.lock ip none, pc := update s.pc h (.put ip) }
    | .put ip =>
      some { s.setInode ip (fun x => { x with ref := x.ref - 1 }) with
        pc := update s.pc h .idle, ptrs := s.ptrs.erase (h, ip) }
  | .ialloc dev type, s =>
    if type ≠ 0 then
      match Itable.ialloc s.disk s.ninodes dev type with
      | some (_, d) => some { s with disk := d }
      | none => some s
    else none

/-- 起動の後: `itable` は 0 で埋まり（静的な領域）、ポインタも sleeplock の持ち主もない。
ディスクの inode は何でもよい。 -/
def IInit (s : IState H) : Prop :=
  (∀ ip, s.inode ip = ⟨0, 0, 0, false, 0, 0⟩) ∧ (∀ ip, s.lock ip = none) ∧ (∀ h, s.pc h = .idle) ∧
    s.ptrs = []

def IStep (s s' : IState H) : Prop := ∃ op : IOp H, op.step s = some s'

abbrev IReach : IState H → Prop := Reachable IInit IStep

end Xv6.Itable
