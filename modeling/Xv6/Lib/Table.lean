import Mathlib.Logic.Function.Basic
import Mathlib.Order.Fin.Basic

/-!
# 固定長の表の走査

C の `for (p = t; p < &t[N]; p++)` の形の走査を、表 `Fin n → α` の添字の列 `List.finRange n`
の上の関数として書く。`firstIdx` は条件を満たす最初の添字で止まる走査（`break` や `return` で
抜ける形）、`lastIdx` は最後まで回って最後に一致した添字を残す走査である。
-/

namespace Xv6.Lib

variable {n : Nat}

/-- 添字の小さい順に見て、`p` を満たす最初の添字。 -/
def firstIdx (p : Fin n → Bool) : Option (Fin n) :=
  (List.finRange n).find? p

/-- 表の全体を回り、`p` を満たすたびに覚え直す走査。最後に覚えた添字を返す。 -/
def lastIdx (p : Fin n → Bool) : Option (Fin n) :=
  (List.finRange n).foldl (fun acc i => if p i then some i else acc) none

/-! ## `firstIdx` -/

theorem firstIdx_succ (p : Fin (n + 1) → Bool) :
    firstIdx p = if p 0 then some 0 else (firstIdx (fun i => p i.succ)).map Fin.succ := by
  unfold firstIdx
  rw [List.finRange_succ]
  cases h : p 0 <;> simp [h, List.find?_map, Function.comp_def]

theorem firstIdx_eq_some_iff {p : Fin n → Bool} {i : Fin n} :
    firstIdx p = some i ↔ p i = true ∧ ∀ j < i, p j = false := by
  induction n with
  | zero => exact i.elim0
  | succ n ih =>
      rw [firstIdx_succ]
      cases h0 : p 0
      · -- 先頭は外れ。残りの表を `Fin.succ` でずらして見る。
        cases i using Fin.cases with
        | zero => simp [h0]
        | succ i =>
            simp only [Bool.false_eq_true, ↓reduceIte, Option.map_eq_some_iff, Fin.succ_inj,
              exists_eq_right, ih, and_congr_right_iff]
            intro _
            constructor
            · intro h j hj
              cases j using Fin.cases with
              | zero => exact h0
              | succ j => exact h j (Fin.succ_lt_succ_iff.mp hj)
            · intro h j hj
              exact h j.succ (Fin.succ_lt_succ_iff.mpr hj)
      · cases i using Fin.cases with
        | zero => simp [h0]
        | succ i =>
            simp only [↓reduceIte, Option.some.injEq]
            constructor
            · intro h; exact absurd h.symm (Fin.succ_ne_zero i)
            · rintro ⟨_, h⟩
              have := h 0 (Fin.succ_pos i)
              simp [h0] at this

theorem firstIdx_eq_none_iff {p : Fin n → Bool} : firstIdx p = none ↔ ∀ i, p i = false := by
  simp [firstIdx, List.find?_eq_none, List.mem_finRange]

theorem firstIdx_spec {p : Fin n → Bool} {i : Fin n} (h : firstIdx p = some i) : p i = true :=
  (firstIdx_eq_some_iff.mp h).1

/-! ## `lastIdx` -/

/-- 覚え直す走査は、列を逆からたどって最初に一致した要素を返すのと同じ。 -/
theorem foldl_remember_eq_find?_reverse (p : Fin n → Bool) (l : List (Fin n))
    (acc : Option (Fin n)) :
    l.foldl (fun acc i => if p i then some i else acc) acc = (l.reverse.find? p).or acc := by
  induction l generalizing acc with
  | nil => simp
  | cons a l ih =>
      simp only [List.foldl_cons, ih, List.reverse_cons, List.find?_append, Option.or_assoc]
      cases hp : p a <;> simp [hp]

theorem lastIdx_eq_find?_reverse (p : Fin n → Bool) :
    lastIdx p = (List.finRange n).reverse.find? p := by
  rw [lastIdx, foldl_remember_eq_find?_reverse]
  simp

theorem lastIdx_spec {p : Fin n → Bool} {i : Fin n} (h : lastIdx p = some i) : p i = true := by
  rw [lastIdx_eq_find?_reverse] at h
  exact List.find?_some h

theorem lastIdx_eq_none_iff {p : Fin n → Bool} : lastIdx p = none ↔ ∀ i, p i = false := by
  simp [lastIdx_eq_find?_reverse, List.find?_eq_none, List.mem_finRange]

end Xv6.Lib
