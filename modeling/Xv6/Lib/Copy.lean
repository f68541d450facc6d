import Mathlib.Logic.Function.Basic
import Mathlib.Order.Basic

/-!
# 一つずつ写す繰り返し

メモリ `Nat → α` の上で、区間を一要素ずつ写す二つの繰り返し。`copyUp` は前から
（`*d++ = *s++`）、`copyDown` は区間の終わりから後ろへ（`*--d = *--s`）写す。

どちらも、まだ読んでいない元の要素を先に書きつぶさない向きなら、写した後のメモリは
写す前の元の区間を写し取ったもの（`Moved`）になる。前からなら `d ≤ s` か区間が離れていること、
後ろからなら `s ≤ d` か区間が離れていることが要る。
-/

namespace Xv6.Lib

open Function

variable {α : Type}

/-- 前から写す: `while(n-- > 0) *d++ = *s++;`。 -/
def copyUp (mem : Nat → α) (d s : Nat) : Nat → Nat → α
  | 0 => mem
  | n + 1 => copyUp (update mem d (mem s)) (d + 1) (s + 1) n

/-- 後ろから写す: d と s は区間の終わり。`while(n-- > 0) *--d = *--s;`。 -/
def copyDown (mem : Nat → α) (d s : Nat) : Nat → Nat → α
  | 0 => mem
  | n + 1 => copyDown (update mem (d - 1) (mem (s - 1))) (d - 1) (s - 1) n

/-- 元の `[s, s + n)` を `[d, d + n)` に写し取ったメモリ。 -/
def moved (mem : Nat → α) (d s n : Nat) : Nat → α := fun a =>
  if d ≤ a ∧ a < d + n then mem (s + (a - d)) else mem a

/-- m' は mem の `[s, s + n)` を `[d, d + n)` に写し、ほかの要素を変えていない。 -/
structure Moved (mem m' : Nat → α) (d s n : Nat) : Prop where
  copied : ∀ i < n, m' (d + i) = mem (s + i)
  frame : ∀ a, ¬ (d ≤ a ∧ a < d + n) → m' a = mem a

theorem moved_moved (mem : Nat → α) (d s n : Nat) : Moved mem (moved mem d s n) d s n where
  copied i hi := by
    rw [moved, if_pos ⟨Nat.le_add_right d i, Nat.add_lt_add_left hi d⟩, Nat.add_sub_cancel_left]
  frame _ ha := if_neg ha

/-- 区間を一つ伸ばす: 前から写して d を書いた後の残り。 -/
theorem moved_update_up {mem : Nat → α} {d s n : Nat} (h : d ≤ s ∨ s + (n + 1) ≤ d) :
    moved (update mem d (mem s)) (d + 1) (s + 1) n = moved mem d s (n + 1) := by
  funext a
  unfold moved
  by_cases ha : d + 1 ≤ a ∧ a < d + 1 + n
  · -- 残りが読む元の要素は d でない: 元が d より後ろか、区間が離れている
    have hne : s + 1 + (a - (d + 1)) ≠ d := by omega
    rw [if_pos ha, if_pos (by omega), update_of_ne hne]
    congr 1
    omega
  · rw [if_neg ha]
    by_cases had : a = d
    · subst had
      rw [update_self, if_pos (by omega), Nat.sub_self, Nat.add_zero]
    · rw [update_of_ne had, if_neg (by omega)]

/-- 区間を一つ伸ばす: 後ろから写して `d + n` を書いた後の残り。 -/
theorem moved_update_down {mem : Nat → α} {d s n : Nat} (h : s ≤ d ∨ d + (n + 1) ≤ s) :
    moved (update mem (d + n) (mem (s + n))) d s n = moved mem d s (n + 1) := by
  funext a
  unfold moved
  by_cases ha : d ≤ a ∧ a < d + n
  · -- 残りが読む元の要素は d + n でない: 元が d より前か、区間が離れている
    have hne : s + (a - d) ≠ d + n := by omega
    rw [if_pos ha, if_pos (by omega), update_of_ne hne]
  · rw [if_neg ha]
    by_cases had : a = d + n
    · subst had
      rw [update_self, if_pos (by omega), Nat.add_sub_cancel_left]
    · rw [update_of_ne had, if_neg (by omega)]

/-- 前から写すのは、元が先か区間が離れていれば、写し取りになる。 -/
theorem copyUp_eq_moved : ∀ {mem : Nat → α} {d s : Nat} (n : Nat), d ≤ s ∨ s + n ≤ d →
    copyUp mem d s n = moved mem d s n
  | mem, d, s, 0, _ => by
    funext a
    rw [copyUp, moved, if_neg (by omega)]
  | mem, d, s, n + 1, h => by
    rw [copyUp, copyUp_eq_moved n (by omega), moved_update_up h]

/-- 後ろから写すのは、元が後か区間が離れていれば、写し取りになる。 -/
theorem copyDown_eq_moved : ∀ {mem : Nat → α} {d s : Nat} (n : Nat), s ≤ d ∨ d + n ≤ s →
    copyDown mem (d + n) (s + n) n = moved mem d s n
  | mem, d, s, 0, _ => by
    funext a
    rw [Nat.add_zero, Nat.add_zero, copyDown, moved, if_neg (by omega)]
  | mem, d, s, n + 1, h => by
    rw [copyDown, show d + (n + 1) - 1 = d + n by omega, show s + (n + 1) - 1 = s + n by omega,
      copyDown_eq_moved n (by omega), moved_update_down h]

end Xv6.Lib
