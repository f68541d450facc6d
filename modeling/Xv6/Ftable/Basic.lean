import Xv6.Lib.Table
import Xv6.Lib.Reach
import Xv6.Process.Basic
import Xv6.Dir.Syscall

/-!
# ファイル表と fd の欄（`kernel/file.c`, `kernel/sysfile.c`, `kernel/pipe.c`, `kernel/proc.c`）

`ftable.file[NFILE]`、各プロセスの `ofile[NOFILE]`、管（`struct pipe`）の開いている端と、
inode の参照の数のうちファイルの層が持つぶんを写す。`struct file *` はファイル表の添字、
`struct pipe *` は kalloc が返したページの番地、`struct inode *` は inode 表の添字で表す。

カーネルは複数の CPU で走り、ロックを持たない所で割り込みによって切り替わるので、システム
コールは一度には進まない。一つの段は、`ftable.lock` か `pi->lock` の中でする一続きのことか、
プロセスが自分の `ofile` の欄に書くことで、プロセスの `pc` は次にする段を表す。`fileclose` は
`ftable.lock` の中の前半（参照を減らし、0 になれば型を `FD_NONE` にする）と、ロックを放した後の
後半（`pipeclose` か、`begin_op`、`iput`、`end_op`）の二つの段で、前半が返した後始末は
`release` に残る。

このモデルの外の部品の結果（namei と create が返す inode、kalloc、uvmcopy、copyout）は
`Env` と `Call` で外から与える。exec はファイル表も `ofile` も変えない。

返り値の `none` は panic（`filedup` と `fileclose` の `ref < 1`）か、解放された管を触ること。
-/

namespace Xv6.Ftable

open Function Xv6.Lib
open Xv6.Process (ProcId ProcState)
open Xv6.Dir (IType NOFILE NDEV O_RDONLY O_CREATE)

abbrev NFILE : Nat := 100

instance : NeZero NFILE := ⟨by decide⟩

abbrev O_WRONLY : Int := 0x001

abbrev O_RDWR : Int := 0x002

/-- `struct file` の `type`。 -/
inductive FdType where
  | none
  | pipe
  | inode
  | device
  deriving DecidableEq, Repr

/-- `struct file` の欄のうち、このモデルの関数が読み書きするもの。`off` と `major` は
読み書きの関数だけが使う。 -/
structure File where
  type : FdType
  ref : Nat
  readable : Bool
  writable : Bool
  pipe : Nat
  ip : Nat
  deriving DecidableEq, Repr

/-- `struct pipe` の、開いている端の印。 -/
structure Pipe where
  readopen : Bool
  writeopen : Bool
  deriving DecidableEq, Repr

/-- `fileclose` の後半にすること。参照が 0 になったファイルの写し `ff` の型で決まる。 -/
inductive Release where
  | pipe (pi : Nat) (writable : Bool)
  | inode (ip : Nat)
  deriving DecidableEq, Repr

/-- システムコールの中の、次にする段。引数はその点で生きている局所変数。 -/
inductive Pc where
  /-- システムコールの外 -/
  | user
  /-- ファイルを順に `fileclose` し、`put` があればその inode を `iunlockput` して返る -/
  | close (fs : List (Fin NFILE)) (put : Option Nat)
  /-- sys_dup: `fdalloc` が欄 `nfd` に `f` を書いた。`filedup(f)` がまだ -/
  | dup (f : Fin NFILE) (fd nfd : Fin NOFILE)
  /-- sys_open: 検査を通った。`filealloc` がまだ -/
  | openAlloc (ip : Nat) (omode : Int) (type : IType)
  /-- sys_open: `filealloc` が `f` を返した。`fdalloc` がまだ -/
  | openFd (ip : Nat) (omode : Int) (type : IType) (f : Fin NFILE)
  /-- sys_open: `fdalloc` が欄 `fd` を返した。`f` の欄を書くのがまだ -/
  | openInit (ip : Nat) (omode : Int) (type : IType) (f : Fin NFILE) (fd : Fin NOFILE)
  /-- pipealloc: 一つ目の `filealloc` が `f0` を返した -/
  | pipeAlloc (f0 : Fin NFILE)
  /-- pipealloc: 二つ目の `filealloc` が `f1` を返した。kalloc がまだ -/
  | pipeKalloc (f0 f1 : Fin NFILE)
  /-- sys_pipe: pipealloc が返った。`fdalloc(rf)` がまだ -/
  | pipeFd0 (rf wf : Fin NFILE)
  /-- sys_pipe: `fdalloc(wf)` がまだ -/
  | pipeFd1 (rf wf : Fin NFILE) (fd0 : Fin NOFILE)
  /-- sys_pipe: 二つの `copyout` がまだ -/
  | pipeCopy (rf wf : Fin NFILE) (fd0 fd1 : Fin NOFILE)
  /-- sys_pipe の copyout の失敗: `p->ofile[fd0] = 0` の後。`p->ofile[fd1] = 0` がまだ -/
  | pipeUndo (rf wf : Fin NFILE) (fd1 : Fin NOFILE)
  /-- fork: allocproc が np を返した。uvmcopy がまだ -/
  | forkCopy (np : ProcId)
  /-- fork の複写の繰り返し: 欄 i から -/
  | forkDup (np : ProcId) (i : Nat)
  /-- fork: `filedup(p->ofile[i])` が返った。`np->ofile[i]` に書くのがまだ -/
  | forkSet (np : ProcId) (i : Fin NOFILE) (f : Fin NFILE)
  /-- exit の閉じる繰り返し: 欄 fd から -/
  | exit (fd : Nat)
  /-- exit: 欄 fd のファイルの `fileclose` が返った。`p->ofile[fd] = 0` がまだ -/
  | exitClear (fd : Fin NOFILE)
  deriving DecidableEq, Repr

/-- `struct proc` の欄のうちファイルの層が読み書きするものと、カーネルの中の実行の位置。 -/
structure FProc where
  state : ProcState
  ofile : Fin NOFILE → Option (Fin NFILE)
  pc : Pc
  /-- `fileclose` の後半がまだなら、その後始末 -/
  release : Option Release

structure FState where
  file : Fin NFILE → File
  pipe : Nat → Option Pipe
  /-- inode の `ref` のうち、ファイルの層（開いたファイルと、sys_open と fileclose の途中）が
  持つぶん。`int` の欄。 -/
  iref : Nat → Int
  proc : ProcId → FProc

namespace FState

def setFile (s : FState) (f : Fin NFILE) (x : File) : FState := { s with file := update s.file f x }

def setProc (s : FState) (p : ProcId) (pr : FProc) : FState := { s with proc := update s.proc p pr }

def setPc (s : FState) (p : ProcId) (c : Pc) : FState := s.setProc p { s.proc p with pc := c }

def setOfile (s : FState) (p : ProcId) (fd : Fin NOFILE) (v : Option (Fin NFILE)) : FState :=
  s.setProc p { s.proc p with ofile := update (s.proc p).ofile fd v }

end FState

/-! ## file.c と pipe.c -/

/-- `filealloc`: `ref` が 0 の最初のファイル。 -/
def filealloc (s : FState) : Option (Fin NFILE × FState) :=
  match firstIdx fun f => (s.file f).ref == 0 with
  | none => none
  | some f => some (f, s.setFile f { s.file f with ref := 1 })

def filedup (s : FState) (f : Fin NFILE) : Option FState :=
  if (s.file f).ref < 1 then none
  else some (s.setFile f { s.file f with ref := (s.file f).ref + 1 })

/-- 写し `ff` の型で決まる、`fileclose` の後半。 -/
def File.release (ff : File) : Option Release :=
  match ff.type with
  | .pipe => some (.pipe ff.pipe ff.writable)
  | .inode | .device => some (.inode ff.ip)
  | .none => none

/-- `fileclose` の `ftable.lock` の中の前半: 参照が 0 になれば写しの後始末を返す。 -/
def fileclose (s : FState) (f : Fin NFILE) : Option (FState × Option Release) :=
  if (s.file f).ref < 1 then none
  else if 0 < (s.file f).ref - 1 then
    some (s.setFile f { s.file f with ref := (s.file f).ref - 1 }, none)
  else some (s.setFile f { s.file f with ref := 0, type := .none }, (s.file f).release)

/-- `pipeclose(pi, writable)`: 端を閉じ、両方閉じれば `kfree`。 -/
def pipeclose (s : FState) (pi : Nat) (writable : Bool) : Option FState :=
  match s.pipe pi with
  | none => none
  | some pp =>
    let pp := if writable then { pp with writeopen := false } else { pp with readopen := false }
    if !pp.readopen && !pp.writeopen then some { s with pipe := update s.pipe pi none }
    else some { s with pipe := update s.pipe pi (some pp) }

/-- `iput` の `ip->ref--`。 -/
def iput (s : FState) (ip : Nat) : FState := { s with iref := update s.iref ip (s.iref ip - 1) }

/-- `fileclose` の、`ftable.lock` を放した後の後半。 -/
def closeRelease (s : FState) (p : ProcId) (r : Release) : Option FState := do
  let s ← match r with
    | .pipe pi w => pipeclose s pi w
    | .inode ip => some (iput s ip)
  some (s.setProc p { s.proc p with release := none })

/-! ## sysfile.c -/

/-- `fdalloc(f)`: 空いている最小の欄に f を書く。 -/
def fdalloc (s : FState) (p : ProcId) (f : Fin NFILE) : Option (Fin NOFILE × FState) :=
  match firstIdx fun fd => (s.proc p).ofile fd == none with
  | none => none
  | some fd => some (fd, s.setOfile p fd (some f))

theorem fd_toNat_lt {fd : Int} (h : 0 ≤ fd ∧ fd < NOFILE) : fd.toNat < NOFILE := by omega

/-- `argfd`: 範囲の中で、ファイルを指す欄。 -/
def argfd (pr : FProc) (fd : Int) : Option (Fin NOFILE × Fin NFILE) :=
  if h : 0 ≤ fd ∧ fd < NOFILE then
    (pr.ofile ⟨fd.toNat, fd_toNat_lt h⟩).map fun f => (⟨fd.toNat, fd_toNat_lt h⟩, f)
  else none

/-- `sys_close`: 欄を空けてから `fileclose(f)`。 -/
def sysClose (s : FState) (p : ProcId) (fd : Int) : FState :=
  match argfd (s.proc p) fd with
  | none => s
  | some (fd, f) => (s.setOfile p fd none).setPc p (.close [f] none)

/-- `sys_dup`: `fdalloc(f)` が欄に書いてから `filedup(f)`。 -/
def sysDup (s : FState) (p : ProcId) (fd : Int) : FState :=
  match argfd (s.proc p) fd with
  | none => s
  | some (fd, f) =>
    match fdalloc s p f with
    | none => s
    | some (nfd, s) => s.setPc p (.dup f fd nfd)

def dupFinish (s : FState) (p : ProcId) (f : Fin NFILE) : Option FState := do
  let s ← filedup s f
  some (s.setPc p .user)

/-- `sys_open` の、namei か create が返った所から検査まで。r はその inode と、`ilock` して
読んだ型と major。返った inode は参照を一つ持つ。 -/
def sysOpen (s : FState) (p : ProcId) (r : Option (Nat × IType × Int)) (omode : Int) : FState :=
  match r with
  | none => s
  | some (ip, type, major) =>
    let s := { s with iref := update s.iref ip (s.iref ip + 1) }
    if Int.land omode O_CREATE = 0 ∧ type = .dir ∧ omode ≠ O_RDONLY then s.setPc p (.close [] (some ip))
    else if type = .device ∧ (major < 0 ∨ NDEV ≤ major) then s.setPc p (.close [] (some ip))
    else s.setPc p (.openAlloc ip omode type)

def openAlloc (s : FState) (p : ProcId) (ip : Nat) (omode : Int) (type : IType) : FState :=
  match filealloc s with
  | none => s.setPc p (.close [] (some ip))
  | some (f, s) => s.setPc p (.openFd ip omode type f)

/-- `fdalloc` が失敗すれば、`FD_NONE` のまま f を `fileclose` し、ip を `iunlockput` する。 -/
def openFd (s : FState) (p : ProcId) (ip : Nat) (omode : Int) (type : IType) (f : Fin NFILE) : FState :=
  match fdalloc s p f with
  | none => s.setPc p (.close [f] (some ip))
  | some (fd, s) => s.setPc p (.openInit ip omode type f fd)

/-- f の欄を書く。ip の参照は f のものになる。 -/
def openInit (s : FState) (p : ProcId) (ip : Nat) (omode : Int) (type : IType) (f : Fin NFILE) :
    FState :=
  (s.setFile f { s.file f with
      type := if type = .device then .device else .inode
      ip := ip
      readable := decide (Int.land omode O_WRONLY = 0)
      writable := decide (Int.land omode O_WRONLY ≠ 0 ∨ Int.land omode O_RDWR ≠ 0) }).setPc p .user

/-- `sys_pipe` の始め: pipealloc の一つ目の `filealloc`。 -/
def sysPipe (s : FState) (p : ProcId) : FState :=
  match filealloc s with
  | none => s
  | some (f0, s) => s.setPc p (.pipeAlloc f0)

def pipeAlloc (s : FState) (p : ProcId) (f0 : Fin NFILE) : FState :=
  match filealloc s with
  | none => s.setPc p (.close [f0] none)
  | some (f1, s) => s.setPc p (.pipeKalloc f0 f1)

/-- pipealloc の kalloc と、管と二つのファイルの欄を書くこと。kalloc が失敗すれば `bad:` で
二つのファイルを `fileclose` する。 -/
def pipeKalloc (s : FState) (p : ProcId) (f0 f1 : Fin NFILE) (pi : Option Nat) : FState :=
  match pi with
  | none => s.setPc p (.close [f0, f1] none)
  | some x =>
    let s := { s with pipe := update s.pipe x (some ⟨true, true⟩) }
    let s := s.setFile f0 { s.file f0 with type := .pipe, readable := true, writable := false, pipe := x }
    let s := s.setFile f1 { s.file f1 with type := .pipe, readable := false, writable := true, pipe := x }
    s.setPc p (.pipeFd0 f0 f1)

def pipeFd0 (s : FState) (p : ProcId) (rf wf : Fin NFILE) : FState :=
  match fdalloc s p rf with
  | none => s.setPc p (.close [rf, wf] none)
  | some (fd0, s) => s.setPc p (.pipeFd1 rf wf fd0)

/-- `fdalloc(wf)` が失敗すれば、`p->ofile[fd0] = 0` として二つを閉じる。 -/
def pipeFd1 (s : FState) (p : ProcId) (rf wf : Fin NFILE) (fd0 : Fin NOFILE) : FState :=
  match fdalloc s p wf with
  | none => (s.setOfile p fd0 none).setPc p (.close [rf, wf] none)
  | some (fd1, s) => s.setPc p (.pipeCopy rf wf fd0 fd1)

/-- ok は二つの `copyout` が成功すること。 -/
def pipeCopy (s : FState) (p : ProcId) (rf wf : Fin NFILE) (fd0 fd1 : Fin NOFILE) (ok : Bool) :
    FState :=
  if ok then s.setPc p .user
  else (s.setOfile p fd0 none).setPc p (.pipeUndo rf wf fd1)

def pipeUndo (s : FState) (p : ProcId) (rf wf : Fin NFILE) (fd1 : Fin NOFILE) : FState :=
  (s.setOfile p fd1 none).setPc p (.close [rf, wf] none)

/-- `fileclose` の前半を一つしたら、続きを `close fs put` とする。 -/
def closeStep (s : FState) (p : ProcId) : List (Fin NFILE) → Option Nat → Option FState
  | f :: fs, put => do
    let (s, r) ← fileclose s f
    some (s.setProc p { s.proc p with pc := .close fs put, release := r })
  | [], some ip => some ((iput s ip).setPc p .user)
  | [], none => some (s.setPc p .user)

/-! ## proc.c -/

/-- `allocproc`: UNUSED の最初のプロセスを USED にする。 -/
def allocproc (s : FState) : Option (ProcId × FState) :=
  match firstIdx fun q => (s.proc q).state == .unused with
  | none => none
  | some q => some (q, s.setProc q { s.proc q with state := .used })

/-- fork の `allocproc` まで。ok は trapframe とページ表の kalloc で、失敗すれば allocproc の
中の `freeproc` が np を UNUSED に戻す。 -/
def fork (s : FState) (p : ProcId) (ok : Bool) : FState :=
  match allocproc s with
  | none => s
  | some (np, s') => if ok then s'.setPc p (.forkCopy np) else s

/-- clone は、名前空間が取れて深さが足りるとき（ns）だけ fork と同じことをする。 -/
def clone (s : FState) (p : ProcId) (ns ok : Bool) : FState :=
  if ns then fork s p ok else s

/-- uvmcopy: 失敗すれば `freeproc(np)`。 -/
def forkCopy (s : FState) (p np : ProcId) (ok : Bool) : FState :=
  if ok then s.setPc p (.forkDup np 0)
  else (s.setProc np { s.proc np with state := .unused }).setPc p .user

/-- `np->ofile[i] = filedup(p->ofile[i])` の繰り返しの一回。終われば np を RUNNABLE にする。 -/
def forkDup (s : FState) (p np : ProcId) (i : Nat) : Option FState :=
  if h : i < NOFILE then
    match (s.proc p).ofile ⟨i, h⟩ with
    | none => some (s.setPc p (.forkDup np (i + 1)))
    | some f => do
      let s ← filedup s f
      some (s.setPc p (.forkSet np ⟨i, h⟩ f))
  else some ((s.setProc np { s.proc np with state := .runnable }).setPc p .user)

def forkSet (s : FState) (p np : ProcId) (i : Fin NOFILE) (f : Fin NFILE) : FState :=
  (s.setOfile np i (some f)).setPc p (.forkDup np (i.val + 1))

def exit (s : FState) (p : ProcId) : FState := s.setPc p (.exit 0)

/-- exit の繰り返しの一回: `fileclose(f)` をしてから欄を空ける。終われば ZOMBIE。 -/
def exitLoop (s : FState) (p : ProcId) (fd : Nat) : Option FState :=
  if h : fd < NOFILE then
    match (s.proc p).ofile ⟨fd, h⟩ with
    | none => some (s.setPc p (.exit (fd + 1)))
    | some f => do
      let (s, r) ← fileclose s f
      some (s.setProc p { s.proc p with pc := .exitClear ⟨fd, h⟩, release := r })
  else some (s.setProc p { s.proc p with state := .zombie, pc := .user })

def exitClear (s : FState) (p : ProcId) (fd : Fin NOFILE) : FState :=
  (s.setOfile p fd none).setPc p (.exit (fd.val + 1))

/-- wait が ZOMBIE の子 c を見つけて `freeproc` する。 -/
def wait (s : FState) (c : ProcId) : FState :=
  if (s.proc c).state = .zombie then s.setProc c { s.proc c with state := .unused } else s

/-! ## 遷移 -/

/-- システムコールの始め。 -/
inductive Call where
  | close (fd : Int)
  | dup (fd : Int)
  | open (r : Option (Nat × IType × Int)) (omode : Int)
  | pipe
  | fork (ok : Bool)
  | clone (ns ok : Bool)
  | exit
  | wait (c : ProcId)
  | exec

def call (s : FState) (p : ProcId) : Call → FState
  | .close fd => sysClose s p fd
  | .dup fd => sysDup s p fd
  | .open r omode => sysOpen s p r omode
  | .pipe => sysPipe s p
  | .fork ok => fork s p ok
  | .clone ns ok => clone s p ns ok
  | .exit => exit s p
  | .wait c => wait s c
  | .exec => s

/-- 外から決まること: 始める呼び出し、pipealloc の kalloc、uvmcopy か copyout の成否。 -/
structure Env where
  call : Call
  pi : Option Nat
  ok : Bool

/-- プロセス p が一段進める。`fileclose` の後半が残っていれば、それが先。 -/
def act (s : FState) (p : ProcId) (e : Env) : Option FState :=
  match (s.proc p).release with
  | some r => closeRelease s p r
  | none =>
    match (s.proc p).pc with
    | .user => some (call s p e.call)
    | .close fs put => closeStep s p fs put
    | .dup f _ _ => dupFinish s p f
    | .openAlloc ip omode type => some (openAlloc s p ip omode type)
    | .openFd ip omode type f => some (openFd s p ip omode type f)
    | .openInit ip omode type f _ => some (openInit s p ip omode type f)
    | .pipeAlloc f0 => some (pipeAlloc s p f0)
    | .pipeKalloc f0 f1 => some (pipeKalloc s p f0 f1 e.pi)
    | .pipeFd0 rf wf => some (pipeFd0 s p rf wf)
    | .pipeFd1 rf wf fd0 => some (pipeFd1 s p rf wf fd0)
    | .pipeCopy rf wf fd0 fd1 => some (pipeCopy s p rf wf fd0 fd1 e.ok)
    | .pipeUndo rf wf fd1 => some (pipeUndo s p rf wf fd1)
    | .forkCopy np => some (forkCopy s p np e.ok)
    | .forkDup np i => forkDup s p np i
    | .forkSet np i f => some (forkSet s p np i f)
    | .exit fd => exitLoop s p fd
    | .exitClear fd => some (exitClear s p fd)

/-- スケジューラが選べる状態: RUNNABLE、RUNNING、SLEEPING。 -/
def live : ProcState → Bool
  | .runnable | .running | .sleeping => true
  | _ => false

/-- 一つの遷移: スケジューラか sleep と wakeup が生きたプロセスの状態を変えるか、RUNNING の
プロセスが一段進める。kalloc が返すページは、使っている管のものではない。 -/
inductive FStep : FState → FState → Prop where
  | sched {s : FState} (p : ProcId) (st : ProcState) (hp : live (s.proc p).state = true)
      (hst : live st = true) : FStep s (s.setProc p { s.proc p with state := st })
  | act {s s' : FState} (p : ProcId) (e : Env) (hrun : (s.proc p).state = .running)
      (hpi : ∀ x, e.pi = some x → s.pipe x = none) (h : act s p e = some s') : FStep s s'

def File.empty : File := ⟨.none, 0, false, false, 0, 0⟩

/-- 起動の後: 最初のプロセス（userinit）だけが RUNNABLE で、どの欄も空。 -/
def FState.init : FState where
  file _ := File.empty
  pipe _ := none
  iref _ := 0
  proc p := { state := if p = 0 then .runnable else .unused, ofile := fun _ => none, pc := .user,
              release := none }

def FReach : FState → Prop := Reachable (· = FState.init) FStep

end Xv6.Ftable
