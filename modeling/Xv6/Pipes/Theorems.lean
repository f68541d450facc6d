import Xv6.Pipes.Basic
import Mathlib.Data.List.Infix

/-!
# 管の中のバイトの順序

`PipeInv`: 管の中のバイトの数は PIPESIZE を超えず、管から取られたバイトの列に管の中のバイトを
読まれる順に続けると、書かれたバイトの列になる。piperead が返したバイトの列は、取られたバイトの
列の部分列。段ごとに保たれるので、到達可能なすべての状態で成り立つ（`preach_pipeInv`）。

取られたバイトの列は書かれたバイトの列の頭だが、返されたバイトの列はそうとは限らない。
piperead は `nread` を進めてから copyout するので、copyout が失敗すると、取ったバイトは誰にも
返されずに失われる（`piperead_copyout_loses_byte`）。
-/

namespace Xv6.Pipes

open Function Xv6.Lib

variable {P : Type} [DecidableEq P]

namespace PState

variable (s : PState P)

@[simp] theorem setCall_pipe (p : P) (c : Call) : (s.setCall p c).pipe = s.pipe := rfl
@[simp] theorem setCall_written (p : P) (c : Call) : (s.setCall p c).written = s.written := rfl
@[simp] theorem setCall_consumed (p : P) (c : Call) : (s.setCall p c).consumed = s.consumed := rfl
@[simp] theorem setCall_delivered (p : P) (c : Call) : (s.setCall p c).delivered = s.delivered := rfl

end PState

structure PipeInv (s : PState P) : Prop where
  bound : s.pipe.count ≤ PIPESIZE
  stream : s.consumed ++ s.pipe.view = s.written
  sub : s.delivered.Sublist s.consumed

variable {s : PState P}

/-- 呼び出しの位置だけを変える段。 -/
theorem PipeInv.setCall (h : PipeInv s) (p : P) (c : Call) : PipeInv (s.setCall p c) :=
  ⟨h.bound, h.stream, h.sub⟩

omit [DecidableEq P] in
/-- 満ちていない管に一バイト書く。 -/
theorem PipeInv.push (h : PipeInv s) (hfull : s.pipe.nwrite ≠ s.pipe.nread + UInt32.ofNat PIPESIZE)
    (ch : UInt8) : PipeInv { s with pipe := s.pipe.push ch, written := s.written ++ [ch] } := by
  have hlt : s.pipe.count < PIPESIZE := by
    have := h.bound
    have hne : s.pipe.count ≠ PIPESIZE := fun e => hfull (s.pipe.full_iff.mpr e)
    omega
  refine ⟨?_, ?_, h.sub⟩
  · rw [s.pipe.count_push hlt]
    exact hlt
  · show s.consumed ++ (s.pipe.push ch).view = s.written ++ [ch]
    rw [s.pipe.view_push hlt, ← h.stream, List.append_assoc]

omit [DecidableEq P] in
/-- 空でない管から一バイト取る。返さなければ、そのバイトは返されたバイトの列に入らない。 -/
theorem PipeInv.take (h : PipeInv s) (hne : s.pipe.nread ≠ s.pipe.nwrite) :
    PipeInv { s with pipe := s.pipe.pop, consumed := s.consumed ++ [s.pipe.head] } := by
  have hc := s.pipe.count_pop hne
  refine ⟨?_, ?_, h.sub.trans (List.sublist_append_left _ _)⟩
  · show s.pipe.pop.count ≤ PIPESIZE
    have := h.bound
    omega
  · show s.consumed ++ [s.pipe.head] ++ s.pipe.pop.view = s.written
    rw [← h.stream, s.pipe.view_pop hne, List.append_assoc, List.singleton_append]

omit [DecidableEq P] in
/-- 取ったバイトを copyout して返す。 -/
theorem PipeInv.takeDeliver (h : PipeInv s) (hne : s.pipe.nread ≠ s.pipe.nwrite) :
    PipeInv { s with pipe := s.pipe.pop, consumed := s.consumed ++ [s.pipe.head],
                     delivered := s.delivered ++ [s.pipe.head] } :=
  have ht := h.take hne
  ⟨ht.bound, ht.stream, h.sub.append (List.Sublist.refl _)⟩

theorem pipewrite_inv (h : PipeInv s) (p : P) (n : Int) (i : Nat) (e : PEnv) :
    PipeInv (pipewrite s p n i e) := by
  unfold pipewrite
  split
  · split
    · exact h.setCall p _
    · split
      · -- 満ちていれば sleep
        exact h
      · rename_i hfull
        split
        · exact h.setCall p _
        · exact (h.push hfull e.ch).setCall p _
  · exact h.setCall p _

theorem pipereadWait_inv (h : PipeInv s) (p : P) (n : Int) (e : PEnv) : PipeInv (pipereadWait s p n e) := by
  unfold pipereadWait
  split
  · split
    · exact h.setCall p _
    · exact h
  · exact h.setCall p _

theorem pipereadCopy_inv (h : PipeInv s) (p : P) (n : Int) (i : Nat) (e : PEnv) :
    PipeInv (pipereadCopy s p n i e) := by
  unfold pipereadCopy
  split
  · split
    · exact h.setCall p _
    · rename_i hne
      split
      · -- copyout の失敗: 取ったバイトは返さない
        exact (h.take hne).setCall p _
      · exact (h.takeDeliver hne).setCall p _
  · exact h.setCall p _

omit [DecidableEq P] in
theorem pipeclose_inv (h : PipeInv s) (w : Bool) : PipeInv (pipeclose s w) := by
  unfold pipeclose
  split
  · exact ⟨h.bound, h.stream, h.sub⟩
  · exact ⟨h.bound, h.stream, h.sub⟩

theorem PipeInv.step {s s' : PState P} (h : PipeInv s) (hs : PStep s s') : PipeInv s' := by
  cases hs with
  | beginWrite p n _ _ => exact h.setCall p _
  | beginRead p n _ _ => exact h.setCall p _
  | write p e _ => exact pipewrite_inv h p _ _ e
  | readWait p e _ => exact pipereadWait_inv h p _ e
  | readCopy p e _ => exact pipereadCopy_inv h p _ _ e
  | close w => exact pipeclose_inv h w

omit [DecidableEq P] in
theorem PipeInv.init (h : PInit s) : PipeInv s := by
  obtain ⟨hr, hw, -, -, -, hwr, hco, hde⟩ := h
  have hcount : s.pipe.count = 0 := by simp [Pipe.count, hr, hw]
  refine ⟨by rw [hcount]; decide, ?_, by rw [hde]; exact List.nil_sublist _⟩
  rw [hco, hwr, Pipe.view, hcount]
  rfl

theorem preach_pipeInv (h : PReach s) : PipeInv s :=
  @Reachable.inv _ PInit PStep PipeInv (fun _ hs => .init hs) (fun _ _ hi hs => hi.step hs) s h

/-- 到達可能なすべての状態で、`nwrite - nread`（32 ビットの引き算）は PIPESIZE を超えず、
管から取られたバイトの列は書かれたバイトの列の頭で、返されたバイトの列はその部分列。 -/
theorem preach_pipeOrder (h : PReach s) :
    (s.pipe.nwrite - s.pipe.nread).toNat ≤ PIPESIZE ∧ s.consumed <+: s.written ∧
      s.delivered.Sublist s.written := by
  have hi := preach_pipeInv h
  refine ⟨hi.bound, ⟨s.pipe.view, hi.stream⟩, hi.sub.trans ?_⟩
  rw [← hi.stream]
  exact List.sublist_append_left _ _

/-- 管が作られた直後の状態: 読む端と書く端が開き、どのプロセスも呼び出しの外。 -/
def allocState : PState (Fin 2) where
  pipe := { data := fun _ => 0, nread := 0, nwrite := 0, readopen := true, writeopen := true }
  call _ := .idle
  written := []
  consumed := []
  delivered := []

/-- プロセス 0 が "ab" を書き終えた状態。 -/
theorem preach_written_ab : PReach (pipewrite (pipewrite (pipewrite (allocState.setCall 0 (.write 2 0))
    0 2 0 ⟨false, true, 97⟩) 0 2 1 ⟨false, true, 98⟩) 0 2 2 ⟨false, true, 0⟩) := by
  let ok (ch : UInt8) : PEnv := ⟨false, true, ch⟩
  let s₁ := allocState.setCall 0 (.write 2 0)
  let s₂ := pipewrite s₁ 0 2 0 (ok 97)
  let s₃ := pipewrite s₂ 0 2 1 (ok 98)
  have r₀ : PReach allocState := .init ⟨rfl, rfl, rfl, rfl, fun _ => rfl, rfl, rfl, rfl⟩
  have r₁ : PReach s₁ := .step r₀ (.beginWrite 0 2 (by decide) (by decide))
  have r₂ : PReach s₂ := .step r₁ (.write 0 (ok 97) (by decide))
  have r₃ : PReach s₃ := .step r₂ (.write 0 (ok 98) (by decide))
  exact .step r₃ (.write 0 (ok 0) (by decide))

/-- "ab" が書かれ、プロセス 1 が 1 バイトの piperead で 'a' を受け取った状態。 -/
theorem preach_pipeOrder_readOne :
    ∃ s : PState (Fin 2), PReach s ∧ s.written = [97, 98] ∧ s.delivered = [97] ∧
      (s.pipe.nwrite - s.pipe.nread).toNat ≤ PIPESIZE ∧ s.consumed <+: s.written ∧
        s.delivered.Sublist s.written := by
  let ok (ch : UInt8) : PEnv := ⟨false, true, ch⟩
  let s₄ := pipewrite (pipewrite (pipewrite (allocState.setCall 0 (.write 2 0))
    0 2 0 (ok 97)) 0 2 1 (ok 98)) 0 2 2 (ok 0)
  let s₅ := s₄.setCall 1 (.readWait 1)
  let s₆ := pipereadWait s₅ 1 1 (ok 0)
  let s₇ := pipereadCopy s₆ 1 1 0 (ok 0)
  have r₅ : PReach s₅ := .step preach_written_ab (.beginRead 1 1 (by decide) (by decide))
  have r₆ : PReach s₆ := .step r₅ (.readWait 1 (ok 0) (by decide))
  have r₇ : PReach s₇ := .step r₆ (.readCopy 1 (ok 0) (by decide))
  have hw : s₇.written = [97, 98] := by
    dsimp only [s₇, s₆, s₅, s₄, ok]
    decide
  have hd : s₇.delivered = [97] := by
    dsimp only [s₇, s₆, s₅, s₄, ok]
    decide
  exact ⟨s₇, r₇, hw, hd, preach_pipeOrder r₇⟩

/-- プロセス 0 が "ab" を書き、プロセス 1 が 1 バイトの piperead を二回する。一回目の copyout が
失敗すると、'a' は取られて返されず、二回目は 'b' を返す。返されたバイトの列 "b" は、書かれた
バイトの列 "ab" の頭ではない。 -/
theorem piperead_copyout_loses_byte :
    ∃ s : PState (Fin 2), PReach s ∧ s.written = [97, 98] ∧ s.delivered = [98] ∧
      ¬ s.delivered <+: s.written := by
  let ok (ch : UInt8) : PEnv := ⟨false, true, ch⟩
  let s₄ := pipewrite (pipewrite (pipewrite (allocState.setCall 0 (.write 2 0))
    0 2 0 (ok 97)) 0 2 1 (ok 98)) 0 2 2 (ok 0)
  let s₅ := s₄.setCall 1 (.readWait 1)
  let s₆ := pipereadWait s₅ 1 1 (ok 0)
  -- copyout が失敗する
  let s₇ := pipereadCopy s₆ 1 1 0 ⟨false, false, 0⟩
  let s₈ := s₇.setCall 1 (.readWait 1)
  let s₉ := pipereadWait s₈ 1 1 (ok 0)
  let s₁₀ := pipereadCopy s₉ 1 1 0 (ok 0)
  have r₅ : PReach s₅ := .step preach_written_ab (.beginRead 1 1 (by decide) (by decide))
  have r₆ : PReach s₆ := .step r₅ (.readWait 1 (ok 0) (by decide))
  have r₇ : PReach s₇ := .step r₆ (.readCopy 1 ⟨false, false, 0⟩ (by decide))
  have r₈ : PReach s₈ := .step r₇ (.beginRead 1 1 (by decide) (by decide))
  have r₉ : PReach s₉ := .step r₈ (.readWait 1 (ok 0) (by decide))
  have r₁₀ : PReach s₁₀ := .step r₉ (.readCopy 1 (ok 0) (by decide))
  -- let を開いて閉じた項にしてから評価する
  have hw : s₁₀.written = [97, 98] := by
    dsimp only [s₁₀, s₉, s₈, s₇, s₆, s₅, s₄, ok]
    decide
  have hd : s₁₀.delivered = [98] := by
    dsimp only [s₁₀, s₉, s₈, s₇, s₆, s₅, s₄, ok]
    decide
  refine ⟨s₁₀, r₁₀, hw, hd, ?_⟩
  rw [hw, hd]
  decide

end Xv6.Pipes
