import Xv6.Process.Sleep

/-!
# CPU とスケジューラ

`NCPU` 個の CPU がそれぞれ `c->proc` を持つ機械を写す。プロセスは CPU の上で RUNNING のときだけ
自分の操作をする。遷移は、どの CPU も `p->lock` を持たない時点から次のそのような時点までの
一まとまりである: スケジューラが RUNNABLE のプロセスを選ぶ（`scheduler`）、走っているプロセスが
yield, sleep, exit で CPU を返す（`sched` から戻ったスケジューラの `c->proc = 0` まで）、
システムコールを一つ実行する、wakeup が起こす。

fork と clone は二つに分ける。`release(&np->lock)` までで子 np は USED になって見えるようになり
（`forkStart`, `cloneStart`）、その後で親を書いて RUNNABLE にする（`forkRelease`）。親の書き込み
と RUNNABLE の書き込みは別の一まとまりだが、その間 np は USED のままなので一つにまとめる。
二つの部分を続けたものは、`Ops.lean` の一まとまりの fork と clone である（`Lemmas/Sched.lean`）。
親が二つの部分の間にいることは、コードの実行位置であり、幽霊の欄 `forking` で持つ。
-/

namespace Xv6.Process

open Xv6.Lib

abbrev NCPU : Nat := 8

/-- `struct cpu *`。 -/
abbrev CpuId := Fin NCPU

/-- fork の `release(&np->lock)` まで。`some (none, k)` は -1 を返すこと、`some (some np, k)` は
USED の子 np を放したこと。 -/
def forkStart (p : ProcId) (o : MemOutcome) (k : Kernel) : Option (Option ProcId × Kernel) := do
  let (np, k) ← allocproc (k.proc p).ns o.trapframe o.pagetable k
  match np with
  | none => some (none, k)
  | some np => if !o.uvmcopy then some (none, freeproc np k) else some (some np, k)

/-- clone の `release(&np->lock)` まで。 -/
def cloneStart (p : ProcId) (o : MemOutcome) (k : Kernel) : Option (Option ProcId × Kernel) :=
  match allocnamespace k with
  | (none, k) => some (none, k)
  | (some ns, k) => do
    let k := k.updNs ns fun m => { m with parent := (k.proc p).ns }
    let c ← (k.proc p).ns
    if MAXDEPTH ≤ (k.namespaces c).depth + 1 then some (none, k) else do
    let k := k.updNs ns fun m => { m with depth := (k.namespaces c).depth + 1 }
    let (np, k) ← allocproc (some ns) o.trapframe o.pagetable k
    match np with
    | none => some (none, k)
    | some np =>
      let k := k.updNs ns fun m => { m with head := some np }
      if !o.uvmcopy then some (none, freeproc np k) else some (some np, k)

/-- fork と clone の `release(&np->lock)` の後: 子の pid を読み、親を p にし、RUNNABLE にする。 -/
def forkRelease (p np : ProcId) (k : Kernel) : Option (Int × Kernel) := do
  let c ← (k.proc p).ns
  let pid ← pidAt (k.proc np) (k.namespaces c).depth
  let k := k.updProc np fun q => { q with parent := some p }
  some (pid, k.updProc np fun q => { q with state := .runnable })

/-- CPU の上で一まとまりに実行するシステムコール: fork, clone, exit 以外。 -/
def Syscall.Atomic : Syscall → Prop
  | .fork _ | .clone _ | .exit _ => False
  | _ => True

/-- カーネルと CPU の状態。`forking p = some np` は、p が fork か clone の二つの部分の間にいて、
子が np であること。 -/
structure Machine where
  kernel : Kernel
  cpus : CpuId → Option ProcId
  forking : ProcId → Option ProcId

namespace Machine

/-- CPU c の上で p が走っている。 -/
def OnCpu (m : Machine) (c : CpuId) (p : ProcId) : Prop := m.cpus c = some p

/-- CPU c が p を返して、カーネルを k にする。 -/
def release (m : Machine) (c : CpuId) (k : Kernel) : Machine :=
  { m with kernel := k, cpus := Function.update m.cpus c none }

end Machine

/-- 機械の遷移。 -/
inductive MStep : Machine → Machine → Prop where
  | schedule {m : Machine} {c : CpuId} {p : ProcId} (hc : m.cpus c = none)
      (hp : (m.kernel.proc p).state = .runnable) :
      MStep m { m with kernel := m.kernel.updProc p fun q => { q with state := .running },
                       cpus := Function.update m.cpus c (some p) }
  | yield {m : Machine} {c : CpuId} {p : ProcId} (hc : m.OnCpu c p) :
      MStep m (m.release c (m.kernel.updProc p fun q => { q with state := .runnable }))
  | syscall {m : Machine} {c : CpuId} {p : ProcId} {s : Syscall} {v : Int} {k' : Kernel}
      (hc : m.OnCpu c p) (hf : m.forking p = none) (hs : s.Atomic)
      (h : syscall p s m.kernel = some (v, k')) : MStep m { m with kernel := k' }
  | exit {m : Machine} {c : CpuId} {p : ProcId} {st : Int} {k' : Kernel} (hc : m.OnCpu c p)
      (hf : m.forking p = none) (h : exit p st m.kernel = some k') : MStep m (m.release c k')
  | waitSleep {m : Machine} {c : CpuId} {p : ProcId} {b : Bool} (hc : m.OnCpu c p)
      (hf : m.forking p = none) (h : wait p b m.kernel = none) :
      MStep m (m.release c (sleep p (.proc p) m.kernel))
  | sleepAddr {m : Machine} {c : CpuId} {p : ProcId} (a : Nat) (hc : m.OnCpu c p)
      (hf : m.forking p = none) : MStep m (m.release c (sleep p (.addr a) m.kernel))
  | wakeupAddr {m : Machine} (self : ProcId) (a : Nat) :
      MStep m { m with kernel := wakeup self (some (.addr a)) m.kernel }
  | forkStart {m : Machine} {c : CpuId} {p : ProcId} {o : MemOutcome} {r : Option ProcId}
      {k' : Kernel} (hc : m.OnCpu c p) (hf : m.forking p = none)
      (h : forkStart p o m.kernel = some (r, k')) :
      MStep m { m with kernel := k', forking := Function.update m.forking p r }
  | cloneStart {m : Machine} {c : CpuId} {p : ProcId} {o : MemOutcome} {r : Option ProcId}
      {k' : Kernel} (hc : m.OnCpu c p) (hf : m.forking p = none)
      (h : cloneStart p o m.kernel = some (r, k')) :
      MStep m { m with kernel := k', forking := Function.update m.forking p r }
  | forkRelease {m : Machine} {c : CpuId} {p np : ProcId} {v : Int} {k' : Kernel}
      (hc : m.OnCpu c p) (hf : m.forking p = some np) (h : forkRelease p np m.kernel = some (v, k')) :
      MStep m { m with kernel := k', forking := Function.update m.forking p none }

/-- 起動の後: userinit が init を作り、どの CPU もスケジューラの中にいる。 -/
def MInit (m : Machine) : Prop :=
  Init m.kernel ∧ (∀ c, m.cpus c = none) ∧ ∀ p, m.forking p = none

def MReach : Machine → Prop := Reachable MInit MStep

end Xv6.Process
