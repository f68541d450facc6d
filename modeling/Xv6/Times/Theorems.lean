import Xv6.Times.Basic
import Xv6.Lib.Ring

/-!
# CPU 時間の順序

`runNow` は走った時間に今の走りの分を足したもの、`kernelNow` はカーネルの中にいた時間に今
カーネルの中にいる分を足したもの。`ticks` が回らない限り、UNUSED でないプロセスでは
`kernelNow ≤ runNow ≤ ticks` がどの段でも保たれる（`treach_timeOK`）。走っていないプロセスでは
二つは欄そのものなので、`kernel_time ≤ run_time`（`treach_kernelTime_le`）。

走っているプロセスでは、そうとは限らない。`kernel_time` は利用者の空間に戻るたびに足されるが、
`run_time` は yield、sleep、exit でしか足されない（`kernel_time_exceeds_run_time`）。
-/

namespace Xv6.Times

open Function Xv6.Lib
open Xv6.Process (ProcId ProcState)

namespace TProc

variable (q : TProc) (t : UInt32)

/-- 走った時間。走っていれば、今の走りの分も足す。 -/
def runNow : Nat := q.runTime.toNat + if q.state = .running then (t - q.lastRunStart).toNat else 0

/-- カーネルの中にいた時間。走っていてカーネルの中なら、今の分も足す。 -/
def kernelNow : Nat :=
  q.kernelTime.toNat + if q.state = .running ∧ q.isKernel = true then (t - q.lastKernelTime).toNat else 0

structure OK : Prop where
  lrs : q.state = .running → q.lastRunStart.toNat ≤ t.toNat
  lkt : q.state = .running → q.isKernel = true → q.lastKernelTime.toNat ≤ t.toNat
  le : q.state ≠ .unused → q.kernelNow t ≤ q.runNow t
  bound : q.state ≠ .unused → q.runNow t ≤ t.toNat

variable {q t}

theorem runNow_of_ne (h : q.state ≠ .running) : q.runNow t = q.runTime.toNat := by
  simp [runNow, h]

theorem kernelNow_of_ne (h : q.state ≠ .running) : q.kernelNow t = q.kernelTime.toNat := by
  simp [kernelNow, h]

theorem OK.runNow_eq (h : q.OK t) (hr : q.state = .running) :
    q.runNow t = q.runTime.toNat + (t.toNat - q.lastRunStart.toNat) := by
  rw [runNow, if_pos hr, U32.toNat_sub_of_le (h.lrs hr)]

theorem OK.kernelNow_eq (h : q.OK t) (hr : q.state = .running) :
    q.kernelNow t = q.kernelTime.toNat + if q.isKernel = true then t.toNat - q.lastKernelTime.toNat else 0 := by
  rw [kernelNow]
  by_cases hk : q.isKernel = true
  · rw [if_pos ⟨hr, hk⟩, if_pos hk, U32.toNat_sub_of_le (h.lkt hr hk)]
  · rw [if_neg fun h' => hk h'.2, if_neg hk]

/-- 走っていないプロセスの勘定は、欄そのもの。 -/
theorem ok_of_ne (hr : q.state ≠ .running) (hle : q.kernelTime.toNat ≤ q.runTime.toNat)
    (hb : q.runTime.toNat ≤ t.toNat) : q.OK t :=
  ⟨fun h => absurd h hr, fun h => absurd h hr, fun _ => by rw [kernelNow_of_ne hr, runNow_of_ne hr]; exact hle,
    fun _ => by rw [runNow_of_ne hr]; exact hb⟩

/-- t より前の時刻 b からの区間を足した値が t を超えなければ、32 ビットの足し算は回らない。 -/
theorem toNat_add_interval {a b : UInt32} (hb : b.toNat ≤ t.toNat) (h : a.toNat + (t.toNat - b.toNat) ≤ t.toNat) :
    (a + (t - b)).toNat = a.toNat + (t.toNat - b.toNat) := by
  have := t.toNat_lt
  rw [U32.toNat_add_of_lt (by rw [U32.toNat_sub_of_le hb]; omega), U32.toNat_sub_of_le hb]

/-- clockintr: 走っているプロセスの二つの時間は、走りの分が一つ、カーネルの分が高々一つ進む。 -/
theorem OK.tick (h : q.OK t) (ht : t.toNat + 1 < 2 ^ 32) : q.OK (t + 1) := by
  have htn : (t + 1).toNat = t.toNat + 1 := U32.toNat_add_of_lt (by simpa using ht)
  by_cases hr : q.state = .running
  · have hlrs : q.lastRunStart.toNat ≤ (t + 1).toNat := by have := h.lrs hr; omega
    have hlkt : q.isKernel = true → q.lastKernelTime.toNat ≤ (t + 1).toNat := fun hk => by
      have := h.lkt hr hk; omega
    have hrun : q.runNow (t + 1) = q.runNow t + 1 := by
      rw [runNow, if_pos hr, U32.toNat_sub_of_le hlrs, h.runNow_eq hr, htn]
      have := h.lrs hr
      omega
    have hker : q.kernelNow (t + 1) ≤ q.kernelNow t + 1 := by
      rw [kernelNow, h.kernelNow_eq hr]
      by_cases hk : q.isKernel = true
      · rw [if_pos ⟨hr, hk⟩, if_pos hk, U32.toNat_sub_of_le (hlkt hk), htn]
        have := h.lkt hr hk
        omega
      · rw [if_neg fun h' => hk h'.2, if_neg hk]
        omega
    exact ⟨fun _ => hlrs, fun _ => hlkt, fun hu => by have := h.le hu; omega,
      fun hu => by have := h.bound hu; omega⟩
  · -- 走っていなければ、二つの時間は欄そのままで変わらない
    refine ⟨fun h' => absurd h' hr, fun h' => absurd h' hr, fun hu => ?_, fun hu => ?_⟩
    · have := h.le hu
      rwa [kernelNow_of_ne hr, runNow_of_ne hr] at this ⊢
    · have := h.bound hu
      rw [runNow_of_ne hr] at this ⊢
      omega

/-- fork の子は RUNNABLE で、二つの時間は 0。 -/
theorem ok_fork (q : TProc) (t : UInt32) : (q.fork t).OK t :=
  ok_of_ne (by simp [fork]) (by simp [fork]) (by simp [fork])

theorem OK.wakeup (h : q.OK t) (hs : q.state = .sleeping) : q.wakeup.OK t := by
  have hr : q.state ≠ .running := by rw [hs]; decide
  have hle := h.le (by rw [hs]; decide)
  have hb := h.bound (by rw [hs]; decide)
  rw [kernelNow_of_ne hr, runNow_of_ne hr] at hle
  rw [runNow_of_ne hr] at hb
  exact ok_of_ne (by simp [TProc.wakeup]) hle hb

/-- scheduler: 今の走りと、カーネルの中なら今のカーネルの分が 0 から始まる。 -/
theorem OK.scheduler (h : q.OK t) (hs : q.state = .runnable) : (q.scheduler t).OK t := by
  have hr : q.state ≠ .running := by rw [hs]; decide
  have hle := h.le (by rw [hs]; decide)
  have hb := h.bound (by rw [hs]; decide)
  rw [kernelNow_of_ne hr, runNow_of_ne hr] at hle
  rw [runNow_of_ne hr] at hb
  have hrun : (q.scheduler t).runNow t = q.runTime.toNat := by simp [runNow, TProc.scheduler]
  have hker : (q.scheduler t).kernelNow t = q.kernelTime.toNat := by
    simp only [kernelNow, TProc.scheduler, true_and]
    split_ifs <;> simp
  refine ⟨fun _ => le_refl _, fun _ hk => ?_, fun _ => by rw [hker, hrun]; exact hle,
    fun _ => by rw [hrun]; exact hb⟩
  simp only [TProc.scheduler] at hk ⊢
  simp [hk]

theorem OK.usertrapEnter (h : q.OK t) (hr : q.state = .running) (hu : q.isKernel = false) :
    (q.usertrapEnter t).OK t := by
  have hle := h.le (by rw [hr]; decide)
  have hb := h.bound (by rw [hr]; decide)
  have hker : (q.usertrapEnter t).kernelNow t = q.kernelNow t := by
    simp [kernelNow, TProc.usertrapEnter, hu]
  refine ⟨fun _ => h.lrs hr, fun _ _ => le_refl _, fun _ => ?_, fun _ => hb⟩
  rw [hker]
  exact hle

/-- usertrap の終わり: 今のカーネルの分を `kernel_time` に移す。和は PIPESIZE ではなく
`ticks` で抑えられるので回らない。 -/
theorem OK.usertrapReturn (h : q.OK t) (hr : q.state = .running) (hk : q.isKernel = true) :
    (q.usertrapReturn t).OK t := by
  have hle := h.le (by rw [hr]; decide)
  have hb := h.bound (by rw [hr]; decide)
  have hlkt := h.lkt hr hk
  rw [h.kernelNow_eq hr, if_pos hk] at hle
  rw [h.runNow_eq hr] at hle hb
  have hsum := toNat_add_interval (a := q.kernelTime) hlkt (by omega)
  have hker : (q.usertrapReturn t).kernelNow t = q.kernelTime.toNat + (t.toNat - q.lastKernelTime.toNat) := by
    simp only [kernelNow, TProc.usertrapReturn, Bool.false_eq_true, and_false, ↓reduceIte, Nat.add_zero]
    exact hsum
  have hrun : (q.usertrapReturn t).runNow t = q.runNow t := rfl
  refine ⟨fun _ => h.lrs hr, fun _ hk' => by simp [TProc.usertrapReturn] at hk', fun _ => ?_, fun _ => ?_⟩
  · rw [hker, hrun, h.runNow_eq hr]
    exact hle
  · rw [hrun, h.runNow_eq hr]
    exact hb

/-- yield、sleep、exit の勘定: 今の走りと今のカーネルの分を欄に移す。 -/
theorem OK.account (h : q.OK t) (hr : q.state = .running) {st : ProcState} (hst : st ≠ .running) :
    { q.account t with state := st }.OK t := by
  have hle := h.le (by rw [hr]; decide)
  have hb := h.bound (by rw [hr]; decide)
  have hlrs := h.lrs hr
  rw [h.kernelNow_eq hr] at hle
  rw [h.runNow_eq hr] at hle hb
  have hrun := toNat_add_interval (a := q.runTime) hlrs hb
  refine ok_of_ne hst ?_ ?_
  · simp only [TProc.account]
    split
    · next hk =>
        have hlkt := h.lkt hr hk
        rw [if_pos hk] at hle
        rw [toNat_add_interval hlkt (by omega), hrun]
        exact hle
    · next hk =>
        rw [if_neg hk] at hle
        rw [hrun]
        omega
  · simp only [TProc.account]
    rw [hrun]
    exact hb

theorem ok_freeproc (q : TProc) (t : UInt32) : (q.freeproc t).OK t := by
  have hu : (q.freeproc t).state = .unused := rfl
  exact ⟨(fun h => nomatch hu.symm.trans h), (fun h => nomatch hu.symm.trans h), fun h => absurd hu h,
    fun h => absurd hu h⟩

end TProc

/-- 表のどのプロセスの時間も `TProc.OK`。 -/
def TInv (s : TState) : Prop := ∀ p, (s.proc p).OK s.ticks

variable {s s' : TState}

theorem TInv.setProc (h : TInv s) (p : ProcId) {q : TProc} (hq : q.OK s.ticks) : TInv (s.setProc p q) := by
  intro p'
  by_cases hp : p' = p
  · subst hp
    simpa [TState.setProc] using hq
  · simpa [TState.setProc, update_of_ne hp] using h p'

theorem TInv.step (h : TInv s) (hs : TStep s s') : TInv s' := by
  cases hs with
  | tick ht => exact fun p => (h p).tick ht
  | fork p _ => exact h.setProc p (TProc.ok_fork _ _)
  | scheduler p hp => exact h.setProc p ((h p).scheduler hp)
  | usertrapEnter p hp hu => exact h.setProc p ((h p).usertrapEnter hp hu)
  | usertrapReturn p hp hk => exact h.setProc p ((h p).usertrapReturn hp hk)
  | yield p hp => exact h.setProc p ((h p).account hp (by decide))
  | sleep p hp => exact h.setProc p ((h p).account hp (by decide))
  | wakeup p hp => exact h.setProc p ((h p).wakeup hp)
  | exit p hp => exact h.setProc p ((h p).account hp (by decide))
  | freeproc p _ => exact h.setProc p (TProc.ok_freeproc _ _)

theorem TInv.init : TInv userinit := by
  intro p
  by_cases hp : p = 0
  · subst hp
    exact TProc.ok_of_ne (by decide) (by decide) (by decide)
  · -- ほかの枠は UNUSED
    have hu : (userinit.proc p).state = .unused := by simp [userinit, TState.setProc, update_of_ne hp, procinit]
    exact ⟨(fun h => nomatch hu.symm.trans h), (fun h => nomatch hu.symm.trans h), fun h => absurd hu h,
      fun h => absurd hu h⟩

/-- 到達可能なすべての状態で、どのプロセスの時間も `TProc.OK`: UNUSED でなければ、今の分を
含めたカーネルの中の時間は、今の分を含めた走った時間以下で、それは `ticks` 以下。 -/
theorem treach_timeOK (h : TReach s) (p : ProcId) : (s.proc p).OK s.ticks :=
  @Reachable.inv _ (· = userinit) TStep TInv (fun _ hs => hs ▸ TInv.init) (fun _ _ hi hs => hi.step hs) s h p

/-- 走っていない、UNUSED でないプロセスでは `kernel_time ≤ run_time` で、ps_info の利用者の
時間は回らない。 -/
theorem treach_kernelTime_le (h : TReach s) {p : ProcId} (hu : (s.proc p).state ≠ .unused)
    (hr : (s.proc p).state ≠ .running) : (s.proc p).kernelTime.toNat ≤ (s.proc p).runTime.toNat := by
  have hle := (treach_timeOK h p).le hu
  rwa [TProc.kernelNow_of_ne hr, TProc.runNow_of_ne hr] at hle

/-- userinit の後、枠 0 のプロセスが時刻 0 に選ばれてすぐにシステムコールでカーネルに入り、
時刻が 1 に進んでから利用者の空間に戻る。`kernel_time` は 1 だが、`run_time` は 0 のままで、
ps_info が返す利用者の時間 `run_time - kernel_time` は 2^32 - 1 に回る。 -/
theorem kernel_time_exceeds_run_time :
    ∃ s, TReach s ∧ (s.proc 0).state = .running ∧ (s.proc 0).runTime = 0 ∧ (s.proc 0).kernelTime = 1 ∧
      (s.proc 0).userTime = 4294967295 := by
  let s₁ := userinit.setProc 0 ((userinit.proc 0).scheduler userinit.ticks)
  let s₂ := s₁.setProc 0 ((s₁.proc 0).usertrapEnter s₁.ticks)
  -- clockintr
  let s₃ : TState := { s₂ with ticks := s₂.ticks + 1 }
  let s₄ := s₃.setProc 0 ((s₃.proc 0).usertrapReturn s₃.ticks)
  have r₁ : TReach s₁ := .step (.init rfl) (.scheduler 0 rfl)
  have r₂ : TReach s₂ := .step r₁ (.usertrapEnter 0 rfl rfl)
  have r₃ : TReach s₃ := .step r₂ (.tick (by decide))
  have r₄ : TReach s₄ := .step r₃ (.usertrapReturn 0 rfl rfl)
  exact ⟨s₄, r₄, rfl, rfl, by decide, by decide⟩

end Xv6.Times
