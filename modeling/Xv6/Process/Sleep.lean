import Xv6.Process.Step

/-!
# wait の中で眠る遷移

`Step` は wait が眠る場合を遷移に持たない。ここでは `sleep` を写し、起きているプロセスの
システムコールに、wait が子の ZOMBIE を待って自分のアドレスで眠る遷移と、ほかの目印での眠りと
その wakeup を足した遷移 `SleepStep` を定める。眠っているプロセスは起こされるまで何もしない。

wait の走査から `sleep` が `p->lock` を取って `wait_lock` を放すまでと、exit の reparent から
ZOMBIE にするまでは、どちらも `wait_lock` を持ったままなので、一つの遷移とする。CPU の数は
遷移の順に現れない: 起きているどのプロセスも、どの順にでも遷移できる。
-/

namespace Xv6.Process

open Xv6.Lib

/-- `sleep(chan, lk)` の眠るまでの部分: `p->chan = chan; p->state = SLEEPING;`。起こされて
走り出した後の `p->chan = 0` は写さない。wakeup と kill は SLEEPING のプロセスしか見ない。 -/
def sleep (p : ProcId) (chan : Chan) (k : Kernel) : Kernel :=
  k.updProc p fun q => { q with chan := some chan, state := .sleeping }

/-- 起きていて、システムコールを実行できるプロセス。 -/
def Awake (k : Kernel) (p : ProcId) : Prop := Live k p ∧ (k.proc p).state ≠ .sleeping

instance (k : Kernel) (p : ProcId) : Decidable (Awake k p) :=
  inferInstanceAs (Decidable (_ ∧ _))

/-- 眠りのある遷移。wait の `none` は、走査が子の ZOMBIE を見つけず、子がいて killed でない
場合で、そのとき wait は `sleep(p, &wait_lock)` で眠る。パイプ、ログ、ディスク、`sleep`
システムコールは目印 a で眠り、その wakeup は割り込みからも呼ばれるので、呼ぶ側は任意とする。 -/
inductive SleepStep : Kernel → Kernel → Prop where
  | syscall {k k' : Kernel} {p : ProcId} {c : Syscall} {v : Int} (hp : Awake k p)
      (h : syscall p c k = some (v, k')) : SleepStep k k'
  | waitSleep {k : Kernel} {p : ProcId} {b : Bool} (hp : Awake k p) (h : wait p b k = none) :
      SleepStep k (sleep p (.proc p) k)
  | sleepAddr {k : Kernel} {p : ProcId} (a : Nat) (hp : Awake k p) :
      SleepStep k (sleep p (.addr a) k)
  | wakeupAddr {k : Kernel} (self : ProcId) (a : Nat) : SleepStep k (wakeup self (some (.addr a)) k)

/-- 眠りのある遷移で、起動の後から到達できる状態。 -/
def SleepReach : Kernel → Prop := Reachable Init SleepStep

end Xv6.Process
