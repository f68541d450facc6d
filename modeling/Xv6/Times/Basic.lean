import Xv6.Process.Basic
import Xv6.Lib.Reach

/-!
# プロセスの CPU 時間の勘定（`kernel/proc.c`, `kernel/trap.c`）

`run_time` は走った時間、`kernel_time` はそのうちカーネルの中にいた時間で、どちらも `uint`。
`run_time` は走り始め（`last_run_start`）からの時間を yield、sleep、exit で足し、
`kernel_time` はカーネルに入った時刻（`last_kernel_time`）からの時間を、利用者の空間に戻る
とき（usertrap の終わり）と、カーネルの中で yield、sleep、exit するときに足す。ps_info は
`run_time - kernel_time` を利用者の時間として返す。

時刻 `ticks` は clockintr で一つずつ進み、二つの段の間でいつ進んでもよい。一つのプロセスの欄は
そのプロセスの段と `ticks` だけで決まるので、段はプロセスごとに、`p->lock` の中の一続きを
一つとする。
-/

namespace Xv6.Times

open Function Xv6.Lib
open Xv6.Process (ProcId ProcState)

/-- `struct proc` の、状態と時間の欄。 -/
structure TProc where
  state : ProcState
  runTime : UInt32
  lastRunStart : UInt32
  kernelTime : UInt32
  lastKernelTime : UInt32
  isKernel : Bool

structure TState where
  ticks : UInt32
  proc : ProcId → TProc

def TState.setProc (s : TState) (p : ProcId) (q : TProc) : TState := { s with proc := update s.proc p q }

namespace TProc

variable (q : TProc) (ticks : UInt32)

/-- yield、sleep、exit、freeproc に共通の勘定:
`p->run_time += sys_uptime() - p->last_run_start;` と、カーネルの中なら
`p->kernel_time += sys_uptime() - p->last_kernel_time;`。 -/
def account : TProc :=
  { q with runTime := q.runTime + (ticks - q.lastRunStart),
           kernelTime := if q.isKernel then q.kernelTime + (ticks - q.lastKernelTime) else q.kernelTime }

/-- `allocproc` の時間の欄。 -/
def allocproc : TProc :=
  { q with state := .used, lastRunStart := ticks, isKernel := false, kernelTime := 0, lastKernelTime := ticks }

/-- `fork`（と clone）: allocproc の後、`np->state = RUNNABLE; np->run_time = 0; np->kernel_time = 0;`。 -/
def fork : TProc := { q.allocproc ticks with state := .runnable, runTime := 0, kernelTime := 0 }

/-- `scheduler` が選ぶ: `p->last_run_start = sys_uptime();` と、カーネルの中なら
`p->last_kernel_time = sys_uptime();`。 -/
def scheduler : TProc :=
  { q with state := .running, lastRunStart := ticks,
           lastKernelTime := if q.isKernel then ticks else q.lastKernelTime }

/-- usertrap の始め: `p->is_kernel = 1; p->last_kernel_time = sys_uptime();`。 -/
def usertrapEnter : TProc := { q with isKernel := true, lastKernelTime := ticks }

/-- usertrap の終わり: `p->is_kernel = 0; p->kernel_time += sys_uptime() - p->last_kernel_time;`。 -/
def usertrapReturn : TProc :=
  { q with isKernel := false, kernelTime := q.kernelTime + (ticks - q.lastKernelTime) }

def yield : TProc := { q.account ticks with state := .runnable }

def sleep : TProc := { q.account ticks with state := .sleeping }

def wakeup : TProc := { q with state := .runnable }

def exit : TProc := { q.account ticks with state := .zombie }

/-- `freeproc`: `p->kernel_time = 0;` の後で勘定する。 -/
def freeproc : TProc := { ({ q with kernelTime := 0 } : TProc).account ticks with state := .unused }

/-- ps_info の `uint user_time = curr_proc->run_time - curr_proc->kernel_time;`。 -/
def userTime : UInt32 := q.runTime - q.kernelTime

end TProc

/-- 一つの段。`tick` は clockintr で、`ticks` は 32 ビットで回らずに進む。 -/
inductive TStep : TState → TState → Prop where
  | tick {s : TState} (h : s.ticks.toNat + 1 < 2 ^ 32) : TStep s { s with ticks := s.ticks + 1 }
  | fork {s : TState} (p : ProcId) (h : (s.proc p).state = .unused) :
      TStep s (s.setProc p ((s.proc p).fork s.ticks))
  | scheduler {s : TState} (p : ProcId) (h : (s.proc p).state = .runnable) :
      TStep s (s.setProc p ((s.proc p).scheduler s.ticks))
  | usertrapEnter {s : TState} (p : ProcId) (h : (s.proc p).state = .running)
      (hu : (s.proc p).isKernel = false) : TStep s (s.setProc p ((s.proc p).usertrapEnter s.ticks))
  | usertrapReturn {s : TState} (p : ProcId) (h : (s.proc p).state = .running)
      (hk : (s.proc p).isKernel = true) : TStep s (s.setProc p ((s.proc p).usertrapReturn s.ticks))
  | yield {s : TState} (p : ProcId) (h : (s.proc p).state = .running) :
      TStep s (s.setProc p ((s.proc p).yield s.ticks))
  | sleep {s : TState} (p : ProcId) (h : (s.proc p).state = .running) :
      TStep s (s.setProc p ((s.proc p).sleep s.ticks))
  | wakeup {s : TState} (p : ProcId) (h : (s.proc p).state = .sleeping) :
      TStep s (s.setProc p (s.proc p).wakeup)
  | exit {s : TState} (p : ProcId) (h : (s.proc p).state = .running) :
      TStep s (s.setProc p ((s.proc p).exit s.ticks))
  | freeproc {s : TState} (p : ProcId) (h : (s.proc p).state = .zombie) :
      TStep s (s.setProc p ((s.proc p).freeproc s.ticks))

/-- procinit の後の表（`run_time = 0`、ほかの欄も静的な 0）。 -/
def procinit : TState where
  ticks := 0
  proc _ := { state := .unused, runTime := 0, lastRunStart := 0, kernelTime := 0, lastKernelTime := 0,
              isKernel := false }

/-- userinit: 枠 0 を allocproc して RUNNABLE にする。 -/
def userinit : TState :=
  procinit.setProc 0 { (procinit.proc 0).allocproc procinit.ticks with state := .runnable }

def TReach : TState → Prop := Reachable (· = userinit) TStep

end Xv6.Times
