import Xv6.Console.Basic
import Mathlib.Data.List.Infix

/-!
# コンソールの添字と行の順序

`Cons.Ordered`: 32 ビットの引き算で、r から w までは r から e まで以下で、r から e までは
INPUT_BUF_SIZE 以下。w は r と e の間にある。

`ConsInv`: さらに、consoleread が取ったバイトの列に、まだ読まれていない行のバイトを続けると、
行として渡されたバイトの列になり、利用者に返したバイトの列は取ったバイトの列の部分列。
段ごとに保たれるので、到達可能なすべての状態で成り立つ（`creach_consInv`）。consoleintr の
編集は行として渡されたバイトを消さない（`consoleintr_keeps_unread`）。

consoleread は `cons.r` を進めてから copyout するので、copyout が失敗すると、取ったバイトは
誰にも返されない（`consoleread_copyout_loses_byte`）。
-/

namespace Xv6.Console

open Function Xv6.Lib

theorem input_buf_dvd : INPUT_BUF_SIZE ∣ 2 ^ 32 := by decide

namespace Cons

structure Ordered (c : Cons) : Prop where
  w_le : (c.w - c.r).toNat ≤ (c.e - c.r).toNat
  e_le : (c.e - c.r).toNat ≤ INPUT_BUF_SIZE

variable {c : Cons}

/-- e が w でなければ、w は e より手前で、e は r でない。 -/
theorem Ordered.lt_of_ne (h : c.Ordered) (hne : c.e ≠ c.w) : (c.w - c.r).toNat < (c.e - c.r).toNat :=
  lt_of_le_of_ne h.w_le fun e => hne (U32.eq_of_toNat_sub_eq e).symm

/-- backspace と ^U の一回: e を一つ戻す。 -/
theorem Ordered.back (h : c.Ordered) (hne : c.e ≠ c.w) : { c with e := c.e - 1 }.Ordered := by
  have hlt := h.lt_of_ne hne
  have her : c.e ≠ c.r := by
    intro e
    rw [e, UInt32.sub_self, UInt32.toNat_zero] at hlt
    omega
  have hd := U32.toNat_sub_one_sub her
  exact ⟨by dsimp only; omega, by dsimp only; have := h.e_le; omega⟩

/-- ^U の繰り返しは、何回戻っても w を越えない。 -/
theorem Ordered.killLine (h : c.Ordered) (k : Nat) : { c with e := killLine c.buf c.w k c.e }.Ordered := by
  induction k generalizing c with
  | zero => exact h
  | succ k ih =>
      rw [Console.killLine]
      split
      · next hcond => exact ih (h.back hcond.1)
      · exact h

theorem Ordered.put (h : c.Ordered) (hlt : (c.e - c.r).toNat < INPUT_BUF_SIZE) (v : UInt8) : (c.put v).Ordered := by
  have hI : INPUT_BUF_SIZE = 128 := rfl
  have hd : (c.e + 1 - c.r).toNat = (c.e - c.r).toNat + 1 := U32.toNat_add_one_sub (by omega)
  exact ⟨by simp only [Cons.put, hd]; have := h.w_le; omega, by simp only [Cons.put, hd]; omega⟩

theorem Ordered.commit (h : c.Ordered) : { c with w := c.e }.Ordered := ⟨le_refl _, h.e_le⟩

/-- consoleread が一つ読む。 -/
theorem Ordered.read (h : c.Ordered) (hne : c.r ≠ c.w) : { c with r := c.r + 1 }.Ordered := by
  have hw := U32.toNat_sub_add_one hne
  have hre : c.r ≠ c.e := by
    intro e
    have := h.w_le
    rw [← e, UInt32.sub_self, UInt32.toNat_zero, Nat.le_zero, U32.toNat_sub_eq_zero_iff] at this
    exact hne this.symm
  have he := U32.toNat_sub_add_one hre
  exact ⟨by dsimp only; have := h.w_le; omega, by dsimp only; have := h.e_le; omega⟩

/-- e の枠に書いても、まだ読まれていない行のバイトは変わらない。 -/
theorem unread_put (h : c.Ordered) (hlt : (c.e - c.r).toNat < INPUT_BUF_SIZE) (v : UInt8) :
    (c.put v).unread = c.unread :=
  U32.ringView_update_beyond input_buf_dvd c.buf h.w_le hlt v

/-- 行を渡すと、まだ読まれていないバイトの後ろに行が加わる。 -/
theorem unread_commit (h : c.Ordered) : { c with w := c.e }.unread = c.unread ++ c.line :=
  U32.ringView_split input_buf_dvd c.buf h.w_le

/-- consoleread は、まだ読まれていないバイトの先頭を取る。 -/
theorem unread_read (hne : c.r ≠ c.w) :
    c.unread = c.buf (Fin.ofNat INPUT_BUF_SIZE c.r.toNat) :: { c with r := c.r + 1 }.unread :=
  U32.ringView_advance input_buf_dvd c.buf hne

/-- `cons.r++` の後の `cons.r--` は何も変えない。 -/
@[simp] theorem read_unread_eq : { { c with r := c.r + 1 } with r := c.r + 1 - 1 } = c := by
  simp

end Cons

/-- ^U の繰り返しは、燃料が尽きる前に条件が偽になって止まる: 燃料 `(e - w).toNat` は足りる。 -/
theorem killLine_stop (buf : Fin INPUT_BUF_SIZE → UInt8) (w : UInt32) :
    ∀ k e, (e - w).toNat ≤ k →
      killLine buf w k e = w ∨ buf (Fin.ofNat INPUT_BUF_SIZE (killLine buf w k e - 1).toNat) = byte '\n' := by
  intro k
  induction k with
  | zero =>
      intro e he
      exact .inl (U32.toNat_sub_eq_zero_iff.mp (Nat.le_zero.mp he))
  | succ k ih =>
      intro e he
      rw [killLine]
      split
      · next hcond =>
          have hd := U32.toNat_sub_one_sub hcond.1
          exact ih (e - 1) (by omega)
      · next hcond =>
          rw [not_and_or, not_not, not_not] at hcond
          exact hcond

variable {P : Type} [DecidableEq P]

namespace CState

variable (s : CState P)

@[simp] theorem setCall_cons (p : P) (c : Call) : (s.setCall p c).cons = s.cons := rfl
@[simp] theorem setCall_committed (p : P) (c : Call) : (s.setCall p c).committed = s.committed := rfl
@[simp] theorem setCall_taken (p : P) (c : Call) : (s.setCall p c).taken = s.taken := rfl
@[simp] theorem setCall_delivered (p : P) (c : Call) : (s.setCall p c).delivered = s.delivered := rfl

end CState

structure ConsInv (s : CState P) : Prop where
  ordered : s.cons.Ordered
  stream : s.taken ++ s.cons.unread = s.committed
  sub : s.delivered.Sublist s.taken

variable {s : CState P}

theorem ConsInv.setCall (h : ConsInv s) (p : P) (c : Call) : ConsInv (s.setCall p c) :=
  ⟨h.ordered, h.stream, h.sub⟩

omit [DecidableEq P] in
theorem ConsInv.put (h : ConsInv s) (hlt : (s.cons.e - s.cons.r).toNat < INPUT_BUF_SIZE) (v : UInt8) :
    ConsInv { s with cons := s.cons.put v } := by
  refine ⟨h.ordered.put hlt v, ?_, h.sub⟩
  show s.taken ++ (s.cons.put v).unread = s.committed
  rw [Cons.unread_put h.ordered hlt, h.stream]

omit [DecidableEq P] in
theorem ConsInv.commit (h : ConsInv s) : ConsInv s.commit := by
  refine ⟨h.ordered.commit, ?_, h.sub⟩
  show s.taken ++ { s.cons with w := s.cons.e }.unread = s.committed ++ s.cons.line
  rw [Cons.unread_commit h.ordered, ← List.append_assoc, h.stream]

omit [DecidableEq P] in
theorem consoleintr_inv (h : ConsInv s) (c : UInt8) : ConsInv (consoleintr s c) := by
  unfold consoleintr
  split
  · -- ^P: procdump は入力を変えない
    exact h
  split
  · exact ⟨h.ordered.killLine _, h.stream, h.sub⟩
  split
  · split
    · next hne => exact ⟨h.ordered.back hne, h.stream, h.sub⟩
    · exact h
  split
  · next hin =>
      dsimp only
      -- '\r' は '\n' に変えて書く。どの文字を書いても同じ議論
      generalize (if c = byte '\r' then byte '\n' else c) = v
      have hput := h.put hin.2 v
      split
      · exact hput.commit
      · exact hput
  · exact h

omit [DecidableEq P] in
/-- consoleread が一つ取る。 -/
theorem ConsInv.take (h : ConsInv s) (hne : s.cons.r ≠ s.cons.w) :
    ConsInv { s with cons := { s.cons with r := s.cons.r + 1 },
                     taken := s.taken ++ [s.cons.buf (Fin.ofNat INPUT_BUF_SIZE s.cons.r.toNat)] } := by
  refine ⟨h.ordered.read hne, ?_, h.sub.trans (List.sublist_append_left _ _)⟩
  show _ ++ { s.cons with r := s.cons.r + 1 }.unread = s.committed
  rw [← h.stream, Cons.unread_read hne, List.append_assoc, List.singleton_append]

omit [DecidableEq P] in
/-- 取ったバイトを copyout して返す。 -/
theorem ConsInv.takeDeliver (h : ConsInv s) (hne : s.cons.r ≠ s.cons.w) :
    ConsInv { s with cons := { s.cons with r := s.cons.r + 1 },
                     taken := s.taken ++ [s.cons.buf (Fin.ofNat INPUT_BUF_SIZE s.cons.r.toNat)],
                     delivered := s.delivered ++ [s.cons.buf (Fin.ofNat INPUT_BUF_SIZE s.cons.r.toNat)] } :=
  have ht := h.take hne
  ⟨ht.ordered, ht.stream, h.sub.append (List.Sublist.refl _)⟩

theorem consoleread_inv (h : ConsInv s) (p : P) (target n : Int) (ev : CEnv) :
    ConsInv (consoleread s p target n ev) := by
  unfold consoleread
  split
  · split
    · split
      · exact h.setCall p _
      · exact h
    · next hne =>
        dsimp only
        split
        · split
          · -- ^D を残す: `cons` は元のまま
            rw [Cons.read_unread_eq]
            exact h.setCall p _
          · exact (h.take hne).setCall p _
        · split
          · -- copyout の失敗: 取ったバイトは返さない
            exact (h.take hne).setCall p _
          · split
            · exact (h.takeDeliver hne).setCall p _
            · exact (h.takeDeliver hne).setCall p _
  · exact h.setCall p _

theorem ConsInv.step {s s' : CState P} (h : ConsInv s) (hs : CStep s s') : ConsInv s' := by
  cases hs with
  | intr c => exact consoleintr_inv h c
  | beginRead p n _ => exact h.setCall p _
  | read p ev _ => exact consoleread_inv h p _ _ ev

omit [DecidableEq P] in
theorem ConsInv.init (h : CInit s) : ConsInv s := by
  obtain ⟨hr, hw, he, -, hco, hta, hde⟩ := h
  refine ⟨⟨by simp [hr, hw, he], by simp [hr, he]⟩, ?_, by rw [hde]; exact List.nil_sublist _⟩
  rw [hco, hta, Cons.unread, hr, hw]
  rfl

theorem creach_consInv (h : CReach s) : ConsInv s :=
  @Reachable.inv _ CInit CStep ConsInv (fun _ hs => .init hs) (fun _ _ hi hs => hi.step hs) s h

/-- 到達可能なすべての状態で、32 ビットの引き算で `w - r ≤ e - r ≤ INPUT_BUF_SIZE`。
consoleread が取ったバイトの列は行として渡されたバイトの列の頭で、返したバイトの列はその
部分列。 -/
theorem creach_consOrder (h : CReach s) :
    (s.cons.w - s.cons.r).toNat ≤ (s.cons.e - s.cons.r).toNat ∧
      (s.cons.e - s.cons.r).toNat ≤ INPUT_BUF_SIZE ∧ s.taken <+: s.committed ∧
      s.delivered.Sublist s.committed := by
  have hi := creach_consInv h
  refine ⟨hi.ordered.w_le, hi.ordered.e_le, ⟨s.cons.unread, hi.stream⟩, hi.sub.trans ?_⟩
  rw [← hi.stream]
  exact List.sublist_append_left _ _

omit [DecidableEq P] in
/-- consoleintr は r と取ったバイトの列を変えず、行として渡されたバイトの列を後ろに延ばすだけ。 -/
theorem consoleintr_frame (c : UInt8) :
    (consoleintr s c).cons.r = s.cons.r ∧ (consoleintr s c).taken = s.taken ∧
      s.committed <+: (consoleintr s c).committed := by
  unfold consoleintr
  split
  · exact ⟨rfl, rfl, List.prefix_refl _⟩
  split
  · exact ⟨rfl, rfl, List.prefix_refl _⟩
  split
  · split
    · exact ⟨rfl, rfl, List.prefix_refl _⟩
    · exact ⟨rfl, rfl, List.prefix_refl _⟩
  split
  · dsimp only
    generalize (if c = byte '\r' then byte '\n' else c) = v
    split
    · exact ⟨rfl, rfl, List.prefix_append _ _⟩
    · exact ⟨rfl, rfl, List.prefix_refl _⟩
  · exact ⟨rfl, rfl, List.prefix_refl _⟩

omit [DecidableEq P] in
/-- 編集は行として渡されたバイトを消さない: consoleintr の後も r は同じで、まだ読まれていない
バイトの列は後ろに延びるだけ。 -/
theorem consoleintr_keeps_unread (h : ConsInv s) (c : UInt8) :
    (consoleintr s c).cons.r = s.cons.r ∧ s.cons.unread <+: (consoleintr s c).cons.unread := by
  obtain ⟨hr, ht, ⟨d, hd⟩⟩ := consoleintr_frame (s := s) c
  have h' := consoleintr_inv h c
  refine ⟨hr, d, ?_⟩
  have key : s.taken ++ (s.cons.unread ++ d) = s.taken ++ (consoleintr s c).cons.unread := by
    rw [← List.append_assoc, h.stream, hd, ← h'.stream, ht]
  exact (List.append_cancel_left key)

/-- 起動の後のコンソール。`cons` は静的な変数なので、すべて 0。 -/
def bootState : CState (Fin 1) where
  cons := { buf := fun _ => 0, r := 0, w := 0, e := 0 }
  call _ := .idle
  committed := []
  taken := []
  delivered := []

/-- "ab" と '\r' を打った状態。 -/
theorem creach_typed_ab :
    CReach (consoleintr (consoleintr (consoleintr bootState (byte 'a')) (byte 'b')) (byte '\r')) := by
  have r₀ : CReach bootState := .init ⟨rfl, rfl, rfl, fun _ => rfl, rfl, rfl, rfl⟩
  exact .step (.step (.step r₀ (.intr _)) (.intr _)) (.intr _)

/-- "ab" と '\r' を打ち、1 バイトの consoleread が 'a' を受け取った状態。 -/
theorem creach_consOrder_readOne :
    ∃ s : CState (Fin 1), CReach s ∧ s.committed = [97, 98, 10] ∧ s.delivered = [97] ∧
      (s.cons.w - s.cons.r).toNat ≤ (s.cons.e - s.cons.r).toNat ∧
      (s.cons.e - s.cons.r).toNat ≤ INPUT_BUF_SIZE ∧ s.taken <+: s.committed ∧
      s.delivered.Sublist s.committed := by
  let s₃ := consoleintr (consoleintr (consoleintr bootState (byte 'a')) (byte 'b')) (byte '\r')
  let s₄ := s₃.setCall 0 (.read 1 1)
  let s₅ := consoleread s₄ 0 1 1 ⟨false, true⟩
  have r₄ : CReach s₄ := .step creach_typed_ab (.beginRead 0 1 (by decide))
  have r₅ : CReach s₅ := .step r₄ (.read 0 ⟨false, true⟩ (by decide))
  have hc : s₅.committed = [97, 98, 10] := by
    dsimp only [s₅, s₄, s₃]
    decide
  have hd : s₅.delivered = [97] := by
    dsimp only [s₅, s₄, s₃]
    decide
  exact ⟨s₅, r₅, hc, hd, creach_consOrder r₅⟩

/-- "ab" と '\r' を打つと、行 "ab\n" が渡される。1 バイトの consoleread の copyout が失敗
すると、'a' は取られて返されず、次の 5 バイトの consoleread は "b\n" を返す。返されたバイトの
列は、行として渡されたバイトの列の頭ではない。 -/
theorem consoleread_copyout_loses_byte :
    ∃ s : CState (Fin 1), CReach s ∧ s.committed = [97, 98, 10] ∧ s.delivered = [98, 10] ∧
      ¬ s.delivered <+: s.committed := by
  let ok : CEnv := ⟨false, true⟩
  let s₃ := consoleintr (consoleintr (consoleintr bootState (byte 'a')) (byte 'b')) (byte '\r')
  let s₄ := s₃.setCall 0 (.read 1 1)
  -- copyout が失敗する
  let s₅ := consoleread s₄ 0 1 1 ⟨false, false⟩
  let s₆ := s₅.setCall 0 (.read 5 5)
  let s₇ := consoleread s₆ 0 5 5 ok
  let s₈ := consoleread s₇ 0 5 4 ok
  have r₄ : CReach s₄ := .step creach_typed_ab (.beginRead 0 1 (by decide))
  have r₅ : CReach s₅ := .step r₄ (.read 0 ⟨false, false⟩ (by decide))
  have r₆ : CReach s₆ := .step r₅ (.beginRead 0 5 (by decide))
  have r₇ : CReach s₇ := .step r₆ (.read 0 ok (by decide))
  have r₈ : CReach s₈ := .step r₇ (.read 0 ok (by decide))
  -- let を開いて閉じた項にしてから評価する
  have hc : s₈.committed = [97, 98, 10] := by
    dsimp only [s₈, s₇, s₆, s₅, s₄, s₃, ok]
    decide
  have hd : s₈.delivered = [98, 10] := by
    dsimp only [s₈, s₇, s₆, s₅, s₄, s₃, ok]
    decide
  refine ⟨s₈, r₈, hc, hd, ?_⟩
  rw [hc, hd]
  decide

end Xv6.Console
