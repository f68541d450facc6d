import Xv6.Process.Ops
import Xv6.Lib.Reach

/-!
# システムコールを一つずつ最後まで実行する遷移

各システムコールは、ロックで守られた一まとまりの操作として、呼んだプロセスの中で最後まで
実行されるとする。遷移 `Step` は、使われていて ZOMBIE でない任意のプロセスが、任意の引数と
任意のメモリの成否で、任意の順にシステムコールを呼ぶことを許す。wait が眠る場合と C のコードが
panic や未定義の動作に当たる場合は遷移を持たない。
-/

namespace Xv6.Process

open Xv6.Lib

/-- このモデルが扱うシステムコールとその引数。 -/
inductive Syscall where
  | fork (o : MemOutcome)
  | clone (o : MemOutcome)
  | exit (status : Int)
  | wait (copyoutFails : Bool)
  | kill (pid : Int)
  | getpid
  | getppid
  | psList (limit : Int) (global : Bool) (copyout : Nat → Bool)
  | psInfo (pid : Int) (copyoutOk : Bool)

/-- p がシステムコールを最後まで実行したときの戻り値と次の状態。exit は戻らないので値は 0 とする。
`syscalls[]` には `[SYS_getppid]` の欄が無く、26 番の欄は 0 のままなので、getppid の番号は
`syscall()` の else 節に行き、`unknown sys call` を印字して -1 を返す。`sys_getppid` は呼ばれない。 -/
def syscall (p : ProcId) : Syscall → Kernel → Option (Int × Kernel)
  | .fork o, k => fork p o k
  | .clone o, k => clone p o k
  | .exit status, k => (exit p status k).map fun k => (0, k)
  | .wait b, k => wait p b k
  | .kill pid, k => some (kill pid k)
  | .getpid, k => (sysGetpid p k).map fun v => (v, k)
  | .getppid, k => some (-1, k)
  | .psList limit global copyout, k => (psList p limit global copyout k).map fun r => (r.1, k)
  | .psInfo pid ok, k => (psInfo pid k).map fun _ => (if ok then 0 else -1, k)

/-- システムコールを呼べるプロセス: 使われていて、終わっていない。 -/
def Live (k : Kernel) (p : ProcId) : Prop :=
  (k.proc p).state ≠ .unused ∧ (k.proc p).state ≠ .zombie

instance (k : Kernel) (p : ProcId) : Decidable (Live k p) :=
  inferInstanceAs (Decidable (_ ∧ _))

/-- 一つのシステムコールの実行。 -/
def Step (k k' : Kernel) : Prop :=
  ∃ p c v, Live k p ∧ syscall p c k = some (v, k')

/-- 起動の後の状態: `userinit` が最初のプロセスを作った状態。 -/
def Init (k : Kernel) : Prop :=
  ∃ trapframe pagetable, userinit trapframe pagetable boot = some k

/-- 到達可能な状態。 -/
def Reach : Kernel → Prop := Reachable Init Step

/-- 呼ぶプロセスとシステムコールの列を順に実行する。呼べないプロセスが呼ぶと `none`。 -/
def run : List (ProcId × Syscall) → Kernel → Option Kernel
  | [], k => some k
  | (p, c) :: rest, k =>
    if Live k p then
      match syscall p c k with
      | some (_, k') => run rest k'
      | none => none
    else none

theorem reach_run {l : List (ProcId × Syscall)} {k k' : Kernel} (hk : Reach k)
    (h : run l k = some k') : Reach k' := by
  induction l generalizing k with
  | nil => simp only [run, Option.some.injEq] at h; exact h ▸ hk
  | cons a l ih =>
      obtain ⟨p, c⟩ := a
      simp only [run] at h
      split at h
      · rename_i hp
        split at h
        · rename_i v k₁ hs
          exact ih (Reachable.step hk ⟨p, c, v, hp, hs⟩) h
        · cases h
      · cases h

/-- 列の途中のどの状態（始めと終わりを含む）でも P が成り立てば、P の中で着いた状態から、列を
実行して着く状態にも P の中で着く。 -/
theorem reachWithin_run {P : Kernel → Prop} [DecidablePred P] {l : List (ProcId × Syscall)}
    {k k' : Kernel} (hk : ReachableWithin Init Step P k)
    (hP : ∀ j ≤ l.length, ((run (l.take j) k).all fun k => decide (P k)) = true)
    (h : run l k = some k') : ReachableWithin Init Step P k' := by
  induction l generalizing k with
  | nil => simp only [run, Option.some.injEq] at h; exact h ▸ hk
  | cons a l ih =>
      obtain ⟨p, c⟩ := a
      simp only [run] at h
      split at h
      · rename_i hp
        split at h
        · rename_i v k₁ hs
          -- 一つ目の呼び出しの後の k₁ から、残りの列の前半を数え直す
          have hrun : ∀ j, run (((p, c) :: l).take (j + 1)) k = run (l.take j) k₁ := fun j => by
            simp only [List.take_succ_cons, run, if_pos hp, hs]
          have h₁ : P k₁ := by
            have h₁ := hP 1 (by simp)
            rw [hrun 0, List.take_zero] at h₁
            simpa [run] using h₁
          exact ih (Reachable.step hk ⟨⟨p, c, v, hp, hs⟩, h₁⟩)
            (fun j hj => hrun j ▸ hP (j + 1) (by simp only [List.length_cons]; omega)) h
        · cases h
      · cases h

/-- `run` と同じ列を実行し、各システムコールの戻り値も順に返す。 -/
def runOut : List (ProcId × Syscall) → Kernel → Option (List Int × Kernel)
  | [], k => some ([], k)
  | (p, c) :: rest, k =>
    if Live k p then
      match syscall p c k with
      | some (v, k') => (runOut rest k').map fun r => (v :: r.1, r.2)
      | none => none
    else none

theorem runOut_snd (l : List (ProcId × Syscall)) (k : Kernel) :
    (runOut l k).map Prod.snd = run l k := by
  induction l generalizing k with
  | nil => rfl
  | cons a l ih =>
      obtain ⟨p, c⟩ := a
      simp only [runOut, run]
      split
      · split
        · rw [Option.map_map]; exact ih _
        · rfl
      · rfl

theorem runOut_cons {p : ProcId} {c : Syscall} {l : List (ProcId × Syscall)} {k k' : Kernel}
    {vs : List Int} (h : runOut ((p, c) :: l) k = some (vs, k')) :
    ∃ v k₁ vs', Live k p ∧ syscall p c k = some (v, k₁) ∧ runOut l k₁ = some (vs', k') ∧
      vs = v :: vs' := by
  simp only [runOut] at h
  split at h
  · rename_i hp
    split at h
    · rename_i v k₁ hs
      obtain ⟨⟨vs', k₂⟩, hr, he⟩ := Option.map_eq_some_iff.mp h
      simp only [Prod.mk.injEq] at he
      obtain ⟨rfl, rfl⟩ := he
      exact ⟨v, k₁, vs', hp, hs, hr, rfl⟩
    · cases h
  · cases h

theorem reach_runOut {l : List (ProcId × Syscall)} {k k' : Kernel} {vs : List Int} (hk : Reach k)
    (h : runOut l k = some (vs, k')) : Reach k' := by
  have := runOut_snd l k
  rw [h] at this
  exact reach_run hk this.symm

/-- 起動の後の状態。`userinit` のメモリの割り当てが成功した場合。 -/
def booted : Option Kernel := userinit true true boot

end Xv6.Process
