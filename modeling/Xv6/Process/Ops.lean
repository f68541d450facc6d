import Xv6.Process.Basic

/-!
# `kernel/proc.c` と `kernel/sysproc.c` の関数

プロセスの割り当てと解放、名前空間の割り当て、`userinit`, `fork`, `clone`, `compare_ns`,
`get_ns_head`, `reparent`, `exit`, `wait`, `wakeup`, `kill`, `sys_getpid`, `sys_getppid`,
`ps_list`, `ps_info` を写す。

関数は `Option` を返す。`none` は、C のコードが null の参照外し、配列の外への書き込み、
panic、終わらないループのどれかに当たることを表す。kalloc, `proc_pagetable`, `uvmcopy`,
`copyout` の成否はこの部分の外で決まるので、引数として与える。ファイル、cwd、メモリ、
時間の欄の操作は写さない。
-/

namespace Xv6.Process

open Xv6.Lib

/-- メモリの割り当てと複製の成否: allocproc の trapframe の kalloc と `proc_pagetable`、
fork と clone の `uvmcopy`。 -/
structure MemOutcome where
  trapframe : Bool
  pagetable : Bool
  uvmcopy : Bool

/-- すべて成功する場合。 -/
def MemOutcome.ok : MemOutcome := ⟨true, true, true⟩

/-! ## プロセスの割り当てと解放 -/

/-- `allocpid()`。 -/
def allocpid (k : Kernel) : Int × Kernel :=
  (k.nextpid, { k with nextpid := wrap32 (k.nextpid + 1) })

/-- allocproc のループの一回分:
`p->pids[i] = curr_ns->next_ns_pid; curr_ns->next_ns_pid++; curr_ns->num_proc++;` -/
def assignPid (p : ProcId) (c : NsId) (i : Fin MAXDEPTH) (k : Kernel) : Kernel :=
  (k.updProc p fun q => { q with pids := Function.update q.pids i (k.namespaces c).nextNsPid }).updNs c
    fun n => { n with nextNsPid := wrap32 (n.nextNsPid + 1), numProc := wrap32 (n.numProc + 1) }

/-- allocproc のループ `for (int i = ns->depth; i >= 0; --i)` の、添字 `i` からの残り。
`curr_ns` が null なら参照外し、`i` が `pids` の外なら範囲外の書き込みで、どちらも `none`。 -/
def fillPids (p : ProcId) : Nat → Option NsId → Kernel → Option Kernel
  | _, none, _ => none
  | 0, some c, k => if h : 0 < MAXDEPTH then some (assignPid p c ⟨0, h⟩ k) else none
  | i + 1, some c, k =>
    if h : i + 1 < MAXDEPTH then
      let k := assignPid p c ⟨i + 1, h⟩ k
      fillPids p i (k.namespaces c).parent k
    else none

/-- `freeproc(p)`: 写している欄をすべて空に戻す。 -/
def freeproc (p : ProcId) (k : Kernel) : Kernel :=
  k.updProc p fun q =>
    { q with
      pid := 0, parent := none, chan := none, killed := false, xstate := 0, state := .unused,
      ns := none, pids := fun _ => 0 }

/-- allocproc の `found:` から pids のループの前まで: pid を振り、USED にし、`p->ns = ns`。 -/
def allocInit (p : ProcId) (ns : Option NsId) (k : Kernel) : Kernel :=
  let (pid, k) := allocpid k
  k.updProc p fun q => { q with pid := pid, state := .used, ns := ns }

/-- `allocproc(ns)`。表の最初の `UNUSED` の枠を取る。`some (none, k)` は 0 を返すこと。
trapframe か page table の割り当てに失敗すると、pid を振った後で `freeproc` する。 -/
def allocproc (ns : Option NsId) (trapframe pagetable : Bool) (k : Kernel) :
    Option (Option ProcId × Kernel) :=
  match firstIdx fun i => (k.proc i).state == .unused with
  | none => some (none, k)
  | some p => do
    let k := allocInit p ns k
    -- `ns->depth` を読むので、ns が null なら参照外し
    let c ← ns
    let k ← fillPids p (k.namespaces c).depth (some c) k
    if !trapframe then some (none, freeproc p k)
    else if !pagetable then some (none, freeproc p k)
    else some (some p, k)

/-! ## 名前空間の割り当てと最初のプロセス -/

/-- `allocnamespace()`。`used == 0` の最初の枠を初期化して返す。`ns_id` は誰も読まないので写さない。 -/
def allocnamespace (k : Kernel) : Option NsId × Kernel :=
  match firstIdx fun n => !(k.namespaces n).used with
  | none => (none, k)
  | some n =>
    (some n, k.updNs n fun m =>
      { m with
        head := none, parent := none, used := true, numProc := 0, depth := 0, nextNsPid := 1 })

/-- `userinit()`。`p->pagetable` を参照するので、allocproc が 0 を返すと参照外し。 -/
def userinit (trapframe pagetable : Bool) (k : Kernel) : Option Kernel :=
  let (ns, k) := allocnamespace k
  let k := { k with initnamespace := ns }
  do
  let (p, k) ← allocproc ns trapframe pagetable k
  let k := { k with initproc := p }
  let p ← p
  let k := k.updProc p fun q => { q with state := .runnable }
  let n ← ns
  let k := k.updNs n fun m => { m with head := k.initproc, numProc := 1 }
  some (k.updProc p fun q => { q with ns := k.initnamespace })

/-! ## fork と clone -/

/-- fork と clone に共通の後半: `uvmcopy` から `return pid` まで。戻り値は親の名前空間の
深さでの子の pid `np->pids[p->ns->depth]`。 -/
def forkFinish (p np : ProcId) (uvmcopy : Bool) (k : Kernel) : Option (Int × Kernel) :=
  if !uvmcopy then some (-1, freeproc np k) else do
  let c ← (k.proc p).ns
  let pid ← pidAt (k.proc np) (k.namespaces c).depth
  let k := k.updProc np fun q => { q with parent := some p }
  some (pid, k.updProc np fun q => { q with state := .runnable })

/-- `fork()` を p が呼ぶ。 -/
def fork (p : ProcId) (o : MemOutcome) (k : Kernel) : Option (Int × Kernel) := do
  let (np, k) ← allocproc (k.proc p).ns o.trapframe o.pagetable k
  match np with
  | none => some (-1, k)
  | some np => forkFinish p np o.uvmcopy k

/-- `clone()` を p が呼ぶ。名前空間を取り、親を p の名前空間にしてから深さを調べる。
深さの検査やプロセスの割り当てに失敗しても、取った名前空間は返さない。 -/
def clone (p : ProcId) (o : MemOutcome) (k : Kernel) : Option (Int × Kernel) :=
  match allocnamespace k with
  | (none, k) => some (-1, k)
  | (some ns, k) => do
    let k := k.updNs ns fun m => { m with parent := (k.proc p).ns }
    let c ← (k.proc p).ns
    if MAXDEPTH ≤ (k.namespaces c).depth + 1 then some (-1, k) else do
    let k := k.updNs ns fun m => { m with depth := (k.namespaces c).depth + 1 }
    let (np, k) ← allocproc (some ns) o.trapframe o.pagetable k
    match np with
    | none => some (-1, k)
    | some np => forkFinish p np o.uvmcopy (k.updNs ns fun m => { m with head := some np })

/-! ## 名前空間をたどる関数 -/

/-- `compare_ns` のループ `while (ns != 0) { if (ns == ns2) return 1; ns = ns->parent; }`。
表には `NUMNS` 個の名前空間しかないので、`NUMNS` 個をたどっても終わらない鎖は同じ名前空間を
二度通り、C のループは終わらない。その場合を `none` とする。 -/
def compareNsLoop (k : Kernel) (ns2 : Option NsId) : Nat → Option NsId → Option Bool
  | _, none => some false
  | 0, some _ => none
  | fuel + 1, some n =>
    if some n = ns2 then some true else compareNsLoop k ns2 fuel (k.namespaces n).parent

/-- `compare_ns(ns1, ns2)`: ns1 から親をたどって ns2 に会うか。 -/
def compareNs (k : Kernel) (ns1 ns2 : Option NsId) : Option Bool :=
  compareNsLoop k ns2 NUMNS ns1

/-- `get_ns_head` のループ
`while (curr_ns->depth > 0 && p == 0) { curr_ns = curr_ns->parent; p = curr_ns->head; }`。
`compareNsLoop` と同じく、`NUMNS` 回で終わらなければ C のループも終わらない。 -/
def getNsHeadLoop (k : Kernel) (fuel : Nat) (c : NsId) (p : Option ProcId) :
    Option (Option ProcId) :=
  if 0 < (k.namespaces c).depth ∧ p = none then
    match fuel, (k.namespaces c).parent with
    | _, none => none
    | 0, some _ => none
    | fuel + 1, some c' => getNsHeadLoop k fuel c' (k.namespaces c').head
  else some p

/-- `get_ns_head(ns)`。 -/
def getNsHead (k : Kernel) (ns : Option NsId) : Option (Option ProcId) := do
  let c ← ns
  getNsHeadLoop k NUMNS c (k.namespaces c).head

/-! ## exit と wait -/

/-- `wakeup(chan)` を `self` が呼ぶ: `self` 以外で `chan` で眠るプロセスを RUNNABLE にする。 -/
def wakeup (self : ProcId) (chan : Option Chan) (k : Kernel) : Kernel :=
  { k with proc := fun q =>
      if q ≠ self ∧ (k.proc q).state = .sleeping ∧ (k.proc q).chan = chan then
        { k.proc q with state := .runnable }
      else k.proc q }

/-- `reparent(p)`。表の順に、親が p の子の親を `get_ns_head(pp->ns)` に付け替えて起こす。 -/
def reparent (p : ProcId) (k : Kernel) : Option Kernel :=
  (List.finRange NPROC).foldlM (fun k pp =>
    if (k.proc pp).parent = some p then do
      let np ← getNsHead k (k.proc pp).ns
      some (wakeup p (np.map .proc) (k.updProc pp fun q => { q with parent := np }))
    else some k) k

/-- `exit(status)` を p が呼ぶ。initproc なら panic。 -/
def exit (p : ProcId) (status : Int) (k : Kernel) : Option Kernel :=
  if k.initproc = some p then none else do
  let k ← reparent p k
  let k := wakeup p ((k.proc p).parent.map .proc) k
  some (k.updProc p fun q => { q with xstate := status, state := .zombie })

/-- `wait(addr)` の一回の走査を p が行う。表の順に親が p の子を見て、最初の ZOMBIE を回収し、
その大域の `pid` を返す。`copyoutFails` は addr ≠ 0 で xstate の copyout が失敗すること。
子がいて ZOMBIE がいなければ `sleep(p, &wait_lock)` で眠る。その場合を `none` とする。 -/
def wait (p : ProcId) (copyoutFails : Bool) (k : Kernel) : Option (Int × Kernel) :=
  match firstIdx fun pp => (k.proc pp).parent == some p && (k.proc pp).state == .zombie with
  | some pp => if copyoutFails then some (-1, k) else some ((k.proc pp).pid, freeproc pp k)
  | none =>
    let havekids := (List.finRange NPROC).any fun pp => (k.proc pp).parent == some p
    if !havekids || (k.proc p).killed then some (-1, k) else none

/-! ## pid で指すシステムコール -/

/-- `kill(pid)`。表の最初の `p->pid == pid` の枠に印を付ける。状態は見ない。 -/
def kill (pid : Int) (k : Kernel) : Int × Kernel :=
  match firstIdx fun q => (k.proc q).pid == pid with
  | none => (-1, k)
  | some q =>
    (0, k.updProc q fun r =>
      { r with killed := true, state := if r.state = .sleeping then .runnable else r.state })

/-- `sys_getpid()`: `p->pids[p->ns->depth]`。 -/
def sysGetpid (p : ProcId) (k : Kernel) : Option Int := do
  let c ← (k.proc p).ns
  pidAt (k.proc p) (k.namespaces c).depth

/-- `sys_getppid()`: 親と同じ名前空間なら親の `pids[p->ns->depth]`、そうでなければ 0。 -/
def sysGetppid (p : ProcId) (k : Kernel) : Option Int := do
  let pp ← (k.proc p).parent
  if (k.proc p).ns = (k.proc pp).ns then do
    let c ← (k.proc p).ns
    pidAt (k.proc pp) (k.namespaces c).depth
  else some 0

/-- ps_list の二つ目のループの途中の値: 書いた数、書いた値の列、copyout の失敗。 -/
structure PsListAcc where
  index : Nat
  written : List Int
  failed : Bool

/-- `ps_list(limit, pids, global)` を p が呼ぶ。戻り値と、利用者の配列に書いた値の列を返す。
`copyout i` は `i` 番目の書き込みの成否で、失敗すると -1 を返して走査を止める。 -/
def psList (p : ProcId) (limit : Int) (global : Bool) (copyout : Nat → Bool) (k : Kernel) :
    Option (Int × List Int) := do
  let count ← (List.finRange NPROC).foldlM (fun (n : Int) q =>
    if (k.proc q).state ≠ .unused then do
      let b ← compareNs k (k.proc q).ns (k.proc p).ns
      some (if b then n + 1 else n)
    else some n) 0
  let limit := if limit > count then count else limit
  let acc ← (List.finRange NPROC).foldlM (fun (acc : PsListAcc) q =>
    if acc.failed then some acc else
    if (k.proc q).state ≠ .unused then do
      let b ← compareNs k (k.proc q).ns (k.proc p).ns
      if b ∧ (acc.index : Int) < limit then do
        let c ← (k.proc p).ns
        let v ← pidAt (k.proc q) (k.namespaces c).depth
        let v := if global then (k.proc q).pid else v
        if copyout acc.index then some ⟨acc.index + 1, acc.written ++ [v], false⟩
        else some { acc with failed := true }
      else some acc
    else some acc) ⟨0, [], false⟩
  some (if acc.failed then -1 else count, acc.written)

/-- `ps_info(pid, psinfo)` が探すプロセス: 表を最後まで回り、`p->pid == pid` の最後の枠。
状態は見ない。 -/
def psInfoLookup (pid : Int) (k : Kernel) : Option ProcId :=
  lastIdx fun q => (k.proc q).pid == pid

/-- ps_info が書く `parent_pid`: 親が null なら 0、親と同じ名前空間なら親の
`pids[curr_proc->ns->depth]`、そうでなければ 0。 -/
def psInfoParentPid (q : ProcId) (k : Kernel) : Option Int :=
  match (k.proc q).parent with
  | none => some 0
  | some pp =>
    if (k.proc q).ns = (k.proc pp).ns then do
      let c ← (k.proc q).ns
      pidAt (k.proc pp) (k.namespaces c).depth
    else some 0

/-- `ps_info` が写す記録のうち、このモデルが持つ欄: 状態と `parent_pid`。見つからなければ
`curr_proc` は null のままで、`acquire(&curr_proc->lock)` が参照外しになる。 -/
def psInfo (pid : Int) (k : Kernel) : Option (ProcState × Int) := do
  let q ← psInfoLookup pid k
  let ppid ← psInfoParentPid q k
  some ((k.proc q).state, ppid)

end Xv6.Process
