import Mathlib.Algebra.BigOperators.Group.Finset.Basic
import Mathlib.Algebra.Order.BigOperators.Group.Finset

/-!
# 有限の添字の上の勘定

参照の数のような勘定は、有限の添字（プロセス、ファイル、欄）ごとの寄与の和で書く。一つの
添字の寄与だけが変わる更新では、和はその寄与の差だけ変わる（`sum_add_eq_of_eq_off`）。
寄与の和は、違う二つの添字の寄与の和より小さくない（`add_le_sum_of_ne`）。

列の上の勘定では、一つの要素のほかで条件が弱まらなければ、条件を満たす要素の数は高々一つしか
減らない（`countP_le_countP_add_one`）。
-/

namespace Xv6.Lib

open Finset

variable {ι M : Type} [Fintype ι] [DecidableEq ι]

/-- 一つの添字の外で同じ二つの寄与の和は、その添字の寄与の差だけ違う。 -/
theorem sum_add_eq_of_eq_off [AddCommMonoid M] {g g' : ι → M} (i : ι)
    (h : ∀ j, j ≠ i → g' j = g j) : (∑ j, g' j) + g i = (∑ j, g j) + g' i := by
  have hrest : ∑ j ∈ univ.erase i, g' j = ∑ j ∈ univ.erase i, g j :=
    sum_congr rfl fun j hj => h j (ne_of_mem_erase hj)
  rw [← add_sum_erase univ g' (mem_univ i), ← add_sum_erase univ g (mem_univ i), hrest]
  ac_rfl

/-- 関数の一点を書き換えると、その値を通した和は、書き換えた点の値の差だけ変わる。 -/
theorem sum_update_add [AddCommMonoid M] {α : Type} (g : ι → α) (c : α → M) (i : ι) (x : α) :
    (∑ j, c (Function.update g i x j)) + c (g i) = (∑ j, c (g j)) + c x := by
  have h := sum_add_eq_of_eq_off (M := M) i fun j hj =>
    show c (Function.update g i x j) = c (g j) by rw [Function.update_of_ne hj]
  rw [Function.update_self] at h
  exact h

omit [DecidableEq ι] in
/-- 一つの寄与は和より大きくない。 -/
theorem le_sum (g : ι → Nat) (i : ι) : g i ≤ ∑ j, g j :=
  single_le_sum (fun j _ => Nat.zero_le (g j)) (mem_univ i)

/-- 違う二つの添字の寄与の和は、全体の和より大きくない。 -/
theorem add_le_sum_of_ne (g : ι → Nat) {i j : ι} (h : i ≠ j) : g i + g j ≤ ∑ k, g k := by
  rw [← sum_pair h]
  exact sum_le_sum_of_subset (subset_univ _)

/-- 重複のない列で、x のほかでは p を満たす要素が p' も満たすなら、p を満たす要素の数は p' を
満たす要素の数より高々一つ多い。 -/
theorem countP_le_countP_add_one {α : Type} {p p' : α → Bool} (x : α) :
    ∀ {l : List α}, l.Nodup → (∀ y ∈ l, y ≠ x → p y = true → p' y = true) → l.countP p ≤ l.countP p' + 1
  | [], _, _ => Nat.zero_le _
  | a :: l, hl, h => by
    obtain ⟨ha, hl⟩ := List.nodup_cons.mp hl
    have hrest : ∀ y ∈ l, y ≠ x → p y = true → p' y = true := fun y hy => h y (List.mem_cons_of_mem _ hy)
    rw [List.countP_cons, List.countP_cons]
    by_cases hax : a = x
    · -- 残りの列に x はないので、そこでは p を満たす数は p' を満たす数を超えない
      subst hax
      have hle : l.countP p ≤ l.countP p' :=
        List.countP_mono_left fun y hy hp => hrest y hy (fun e => ha (e ▸ hy)) hp
      split <;> split <;> omega
    · have ih := countP_le_countP_add_one x hl hrest
      by_cases hp : p a = true
      · rw [if_pos hp, if_pos (h a List.mem_cons_self hax hp)]
        omega
      · rw [if_neg hp]
        split <;> omega

end Xv6.Lib
