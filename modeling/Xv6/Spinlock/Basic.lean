import Mathlib.Logic.Function.Basic
import Xv6.Lib.Reach

/-!
# 割り込みの許可の入れ子（`kernel/spinlock.c`, `kernel/proc.c`）

`acquire` は `push_off`、`release` は `pop_off` を呼ぶ。`push_off` は割り込みを止めて深さ `noff` を
一つ増やし、0 から 1 になるときだけ前の SIE ビットを `intena` に残す。`pop_off` は深さを一つ減らし、
0 に戻って `intena` が立っていれば割り込みを許す。

`sched` は `noff` が 1 で割り込みが止まっていることを確かめ、`intena` を局所変数に残して
スケジューラへ `swtch` し、戻ってから書き戻す。スケジューラの側は、`intr_on` の後で
`acquire(&p->lock)` してから `swtch` し、戻ったら書き戻さずに `release(&p->lock)` する。

機械は CPU `C` とプロセス `P` からなる。各 CPU の上では、スケジューラのスレッドかプロセスの
カーネルスレッドのどちらか一つが走る。プロセスのスレッドは、システムコールと割り込みの中で
`push_off`、`pop_off`、`sched` を任意の順に呼ぶ。`intr_on` を呼ぶのは、ロックを持たない所
（usertrap のシステムコールの前と、割り込みからの `sret`）だけである。

スレッドごとの `push_off` の深さ `depth` と、一番外の `push_off` の前の SIE ビット `base` は
証明のための幽霊の欄で、遷移の条件は読まない。
-/

namespace Xv6.Spinlock

open Function Xv6.Lib

/-- `struct cpu` の `noff` と `intena`、および `sstatus` の SIE ビット。 -/
structure Cpu where
  /-- `intr_get()` -/
  intr : Bool
  /-- `c->noff`: `push_off` の入れ子の深さ。`pop_off` が 1 より小さいときに panic するので負に
  ならない -/
  noff : Nat
  /-- `c->intena`: 一番外の `push_off` の前に割り込みが許されていたか -/
  intena : Bool
  deriving DecidableEq, Repr

/-- `push_off()`。 -/
def pushOff (c : Cpu) : Cpu :=
  let old := c.intr
  let c := { c with intr := false }
  let c := if c.noff = 0 then { c with intena := old } else c
  { c with noff := c.noff + 1 }

/-- `pop_off()`。`none` は `panic("pop_off - interruptible")` か `panic("pop_off")`。 -/
def popOff (c : Cpu) : Option Cpu :=
  if c.intr then none
  else if c.noff < 1 then none
  else
    let c := { c with noff := c.noff - 1 }
    if c.noff = 0 ∧ c.intena then some { c with intr := true } else some c

/-- `intr_on()`。 -/
def intrOn (c : Cpu) : Cpu := { c with intr := true }

/-- `intr_off()`。 -/
def intrOff (c : Cpu) : Cpu := { c with intr := false }

/-- `sched()` の `swtch` の前: 検査して `intena` を局所変数に残す。`none` は
`panic("sched locks")` か `panic("sched interruptible")`。`holding(&p->lock)` と
`p->state == RUNNING` の検査は、この欄を読まない。 -/
def schedSave (c : Cpu) : Option Bool :=
  if c.noff ≠ 1 then none
  else if c.intr then none
  else some c.intena

/-- `sched()` の `swtch` から戻った後: `mycpu()->intena = intena`。 -/
def schedRestore (c : Cpu) (intena : Bool) : Cpu := { c with intena := intena }

/-! ## スレッドと機械 -/

/-- カーネルのスレッド: CPU ごとのスケジューラと、プロセスごとのカーネルスレッド。 -/
inductive Thread (C P : Type) where
  | sched (c : C)
  | proc (p : P)
  deriving DecidableEq

/-- 止まっているプロセスのスレッドの位置。 -/
inductive Susp where
  /-- まだ走っていない: スケジューラの `swtch` は forkret に入る -/
  | fresh
  /-- `sched` の `swtch` の中で、局所変数の `intena` を持つ -/
  | inSched (intena : Bool)
  deriving DecidableEq

/-- `scheduler()` のループの中の位置。 -/
inductive SchedPc (P : Type) where
  /-- 外の `for(;;)` の始め: `intr_on()` の前 -/
  | top
  /-- 内の `for`: 次のプロセスの `acquire(&p->lock)` の前 -/
  | scan
  /-- `acquire(&p->lock)` の後 -/
  | held (p : P)
  /-- p への `swtch` から戻った後 -/
  | back (p : P)
  deriving DecidableEq

structure Machine (C P : Type) where
  cpu : C → Cpu
  /-- CPU の上で走っているプロセス。`none` ならスケジューラが走っている -/
  cur : C → Option P
  spc : C → SchedPc P
  /-- 走っていないプロセスのスレッドの位置 -/
  susp : P → Susp
  /-- 幽霊の欄: スレッドの `push_off` の深さ -/
  depth : Thread C P → Nat
  /-- 幽霊の欄: スレッドの一番外の `push_off` の前の SIE ビット -/
  base : Thread C P → Bool

namespace Machine

variable {C P : Type} [DecidableEq C] [DecidableEq P]

/-- CPU c で走っているスレッド。 -/
def running (m : Machine C P) (c : C) : Thread C P :=
  match m.cur c with
  | none => .sched c
  | some p => .proc p

/-- CPU c で走っているスレッド t が `push_off` する。t の深さが 0 なら、今の SIE ビットを残す。 -/
def push (m : Machine C P) (c : C) : Machine C P :=
  let t := m.running c
  { m with cpu := update m.cpu c (pushOff (m.cpu c)), depth := update m.depth t (m.depth t + 1),
           base := if m.depth t = 0 then update m.base t (m.cpu c).intr else m.base }

/-- CPU c で走っているスレッドの `pop_off` が x を返した後。 -/
def pop (m : Machine C P) (c : C) (x : Cpu) : Machine C P :=
  let t := m.running c
  { m with cpu := update m.cpu c x, depth := update m.depth t (m.depth t - 1) }

def setCpu (m : Machine C P) (c : C) (x : Cpu) : Machine C P := { m with cpu := update m.cpu c x }

/-- CPU c のスケジューラが、止まっているプロセス p へ `swtch` する。`sched` の中で止まって
いれば、p は `intena` を書き戻す。まだ走っていなければ forkret から始まり、スケジューラが
取った `p->lock` を深さ 1 として引き継ぐ。 -/
def swtchTo (m : Machine C P) (c : C) (p : P) : Machine C P :=
  let m := { m with cur := update m.cur c (some p), spc := update m.spc c (.back p) }
  match m.susp p with
  | .inSched i => m.setCpu c (schedRestore (m.cpu c) i)
  | .fresh => { m with depth := update m.depth (.proc p) 1, base := update m.base (.proc p) (m.cpu c).intena }

end Machine

/-- 機械の遷移。プロセス p の段は、p が CPU c で走っているときに p がする。 -/
inductive IStep {C P : Type} [DecidableEq C] [DecidableEq P] : Machine C P → Machine C P → Prop where
  /-- p が `acquire` の中で `push_off` する -/
  | push {m : Machine C P} {c : C} {p : P} (hc : m.cur c = some p) : IStep m (m.push c)
  /-- p が `release` の中で `pop_off` する -/
  | pop {m : Machine C P} {c : C} {p : P} {x : Cpu} (hc : m.cur c = some p) (h : popOff (m.cpu c) = some x) :
      IStep m (m.pop c x)
  /-- p がロックを持たない所で割り込みを許す -/
  | intrOn {m : Machine C P} {c : C} {p : P} (hc : m.cur c = some p) (h0 : (m.cpu c).noff = 0) :
      IStep m (m.setCpu c (intrOn (m.cpu c)))
  /-- 割り込みかトラップに入る、または p が `intr_off` を呼ぶ -/
  | intrOff {m : Machine C P} {c : C} {p : P} (hc : m.cur c = some p) :
      IStep m (m.setCpu c (intrOff (m.cpu c)))
  /-- p が `sched` でスケジューラへ `swtch` する。スケジューラは `swtch` の後から続ける -/
  | sched {m : Machine C P} {c : C} {p : P} {i : Bool} (hc : m.cur c = some p)
      (h : schedSave (m.cpu c) = some i) :
      IStep m { m with cur := update m.cur c none, susp := update m.susp p (.inSched i) }
  /-- スケジューラの外の `for` の始めの `intr_on()` -/
  | top {m : Machine C P} {c : C} (hc : m.cur c = none) (hpc : m.spc c = .top) :
      IStep m ({ m with spc := update m.spc c .scan }.setCpu c (intrOn (m.cpu c)))
  /-- スケジューラの `acquire(&p->lock)` -/
  | acquire {m : Machine C P} {c : C} (p : P) (hc : m.cur c = none) (hpc : m.spc c = .scan) :
      IStep m ({ m with spc := update m.spc c (.held p) }.push c)
  /-- スケジューラが RUNNABLE の p へ `swtch` する。p はどの CPU でも走っていない -/
  | swtch {m : Machine C P} {c : C} {p : P} (hc : m.cur c = none) (hpc : m.spc c = .held p)
      (hp : ∀ c', m.cur c' ≠ some p) : IStep m (m.swtchTo c p)
  /-- スケジューラの `release(&p->lock)`: p が RUNNABLE でなかったか、p から戻った後。次の
  プロセスへ進むか（`last = false`）、外の `for` の始めへ戻る -/
  | release {m : Machine C P} {c : C} {p : P} {x : Cpu} (last : Bool) (hc : m.cur c = none)
      (hpc : m.spc c = .held p ∨ m.spc c = .back p) (h : popOff (m.cpu c) = some x) :
      IStep m ({ m.pop c x with spc := update m.spc c (if last then .top else .scan) })
  /-- 走っていないプロセスの欄が freeproc と allocproc で使い直され、forkret から始まる -/
  | reuse {m : Machine C P} {p : P} (hp : ∀ c, m.cur c ≠ some p) :
      IStep m { m with susp := update m.susp p .fresh }

/-- 起動の後: どの CPU もスケジューラの外の `for` の始めにいて、ロックを持たない。 -/
def IInit {C P : Type} (m : Machine C P) : Prop :=
  (∀ c, m.cur c = none ∧ m.spc c = .top ∧ (m.cpu c).noff = 0 ∧ m.depth (.sched c) = 0) ∧
    ∀ p, m.susp p = .fresh

def IReach {C P : Type} [DecidableEq C] [DecidableEq P] : Machine C P → Prop := Reachable IInit IStep

end Xv6.Spinlock
