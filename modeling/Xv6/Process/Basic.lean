import Mathlib.Logic.Function.Basic
import Xv6.Lib.Table
import Xv6.Lib.CInt

/-!
# プロセス表と名前空間表（`kernel/proc.h`, `kernel/param.h`）

`struct proc` と `struct namespace` のうち、fork, clone, exit, wait, kill, getpid, getppid,
ps_list, ps_info が読み書きする欄を写す。`struct proc *` と `struct namespace *` は表
`proc[NPROC]`, `namespaces[NUMNS]` の添字で表し、null を `none` で表す。`int` の欄は `Int` で、
足し算は `Lib.wrap32` で 32 ビットに丸める。
-/

namespace Xv6.Process

open Xv6.Lib

abbrev NPROC : Nat := 64
abbrev NUMNS : Nat := 64
abbrev MAXDEPTH : Nat := 8

instance : NeZero NPROC := ⟨by decide⟩
instance : NeZero MAXDEPTH := ⟨by decide⟩

/-- `struct proc *`: プロセス表の添字。 -/
abbrev ProcId := Fin NPROC
/-- `struct namespace *`: 名前空間表の添字。 -/
abbrev NsId := Fin NUMNS

/-- `enum procstate`。 -/
inductive ProcState where
  | unused
  | used
  | sleeping
  | runnable
  | running
  | zombie
  deriving DecidableEq, Repr

/-- `void *chan`: 眠るときの目印のアドレス。wait はプロセス自身のアドレスで眠る。 -/
inductive Chan where
  | proc (p : ProcId)
  | addr (a : Nat)
  deriving DecidableEq, Repr

/-- `struct proc` の欄のうち、このモデルの関数が読み書きするもの。 -/
@[ext]
structure Proc where
  state : ProcState
  chan : Option Chan
  killed : Bool
  xstate : Int
  pid : Int
  parent : Option ProcId
  ns : Option NsId
  pids : Fin MAXDEPTH → Int

/-- `struct namespace` の欄のうち、このモデルの関数が読み書きするもの。`depth` は 0 か、
親の `depth` に 1 を足した値しか入らないので `Nat` で持つ。 -/
@[ext]
structure Namespace where
  parent : Option NsId
  head : Option ProcId
  depth : Nat
  used : Bool
  nextNsPid : Int
  numProc : Int

/-- プロセスの部分のカーネルの状態: 二つの表と大域変数。 -/
@[ext]
structure Kernel where
  proc : ProcId → Proc
  namespaces : NsId → Namespace
  initproc : Option ProcId
  initnamespace : Option NsId
  nextpid : Int

/-! ## 表の書き換え -/

namespace Kernel

def updProc (k : Kernel) (p : ProcId) (f : Proc → Proc) : Kernel :=
  { k with proc := Function.update k.proc p (f (k.proc p)) }

def updNs (k : Kernel) (n : NsId) (f : Namespace → Namespace) : Kernel :=
  { k with namespaces := Function.update k.namespaces n (f (k.namespaces n)) }

@[simp] theorem updProc_proc (k : Kernel) (p : ProcId) (f : Proc → Proc) (q : ProcId) :
    (k.updProc p f).proc q = if q = p then f (k.proc p) else k.proc q := by
  simp [updProc, Function.update_apply]

@[simp] theorem updProc_namespaces (k : Kernel) (p : ProcId) (f : Proc → Proc) :
    (k.updProc p f).namespaces = k.namespaces := rfl

@[simp] theorem updProc_initproc (k : Kernel) (p : ProcId) (f : Proc → Proc) :
    (k.updProc p f).initproc = k.initproc := rfl

@[simp] theorem updProc_initnamespace (k : Kernel) (p : ProcId) (f : Proc → Proc) :
    (k.updProc p f).initnamespace = k.initnamespace := rfl

@[simp] theorem updProc_nextpid (k : Kernel) (p : ProcId) (f : Proc → Proc) :
    (k.updProc p f).nextpid = k.nextpid := rfl

@[simp] theorem updNs_namespaces (k : Kernel) (n : NsId) (f : Namespace → Namespace) (m : NsId) :
    (k.updNs n f).namespaces m = if m = n then f (k.namespaces n) else k.namespaces m := by
  simp [updNs, Function.update_apply]

@[simp] theorem updNs_proc (k : Kernel) (n : NsId) (f : Namespace → Namespace) :
    (k.updNs n f).proc = k.proc := rfl

@[simp] theorem updNs_initproc (k : Kernel) (n : NsId) (f : Namespace → Namespace) :
    (k.updNs n f).initproc = k.initproc := rfl

@[simp] theorem updNs_initnamespace (k : Kernel) (n : NsId) (f : Namespace → Namespace) :
    (k.updNs n f).initnamespace = k.initnamespace := rfl

@[simp] theorem updNs_nextpid (k : Kernel) (n : NsId) (f : Namespace → Namespace) :
    (k.updNs n f).nextpid = k.nextpid := rfl

end Kernel

/-! ## 起動時の表（`procinit`, `namespaceinit`） -/

/-- `procinit` の後の空きのプロセス。静的な表なので、書かれない欄は 0 である。 -/
def Proc.empty : Proc where
  state := .unused
  chan := none
  killed := false
  xstate := 0
  pid := 0
  parent := none
  ns := none
  pids := fun _ => 0

/-- `namespaceinit` の後の空きの名前空間。 -/
def Namespace.empty : Namespace where
  parent := none
  head := none
  depth := 0
  used := false
  nextNsPid := 1
  numProc := 0

/-- `main` が `namespaceinit` と `procinit` を終えた時点の状態。`nextpid` の初期値は 1。 -/
def boot : Kernel where
  proc := fun _ => Proc.empty
  namespaces := fun _ => Namespace.empty
  initproc := none
  initnamespace := none
  nextpid := 1

/-- `p->pids[i]` を読む。添字が配列の外なら未定義の動作で、`none` とする。 -/
def pidAt (q : Proc) (i : Nat) : Option Int :=
  if h : i < MAXDEPTH then some (q.pids ⟨i, h⟩) else none

theorem pidAt_congr {a b : Proc} (h : a.pids = b.pids) (i : Nat) : pidAt a i = pidAt b i := by
  simp [pidAt, h]

theorem pidAt_of_lt (q : Proc) {i : Nat} (h : i < MAXDEPTH) : pidAt q i = some (q.pids ⟨i, h⟩) := by
  simp [pidAt, h]

end Xv6.Process
