import Mathlib.Tactic.SplitIfs
import Mathlib.Data.List.Basic

/-!
# strchr（`user/ulib.c`）

C の文字列は NUL より前の文字の列で表し、列の終わりは文字列の終わりの NUL にあたる。grep は行の
'\n' を、sh は空白と記号を `strchr` で探す。
-/

namespace Xv6.Ulib

/-- `strchr(s, c)`: NUL より前で最初に c がある位置。列の終わりは C の文字列の NUL にあたる。 -/
def strchr : List Char → Char → Option Nat
  | [], _ => none
  | x :: s, c => if x = '\x00' then none else if x = c then some 0 else (strchr s c).map (· + 1)

variable {s : List Char} {c : Char}

theorem strchr_eq_some {q : Nat} (h : strchr s c = some q) :
    ∃ l r, s = l ++ c :: r ∧ q = l.length ∧ c ∉ l ∧ '\x00' ∉ l := by
  induction s generalizing q with
  | nil => simp [strchr] at h
  | cons x s ih =>
    simp only [strchr] at h
    split_ifs at h with h0 hc
    · cases h
      exact ⟨[], s, by rw [hc]; rfl, rfl, by simp, by simp⟩
    · obtain ⟨q', hq', rfl⟩ := Option.map_eq_some_iff.mp h
      obtain ⟨l, r, rfl, rfl, hcl, h0l⟩ := ih hq'
      refine ⟨x :: l, r, rfl, rfl, ?_, ?_⟩
      · simp only [List.mem_cons, not_or]
        exact ⟨Ne.symm hc, hcl⟩
      · simp only [List.mem_cons, not_or]
        exact ⟨Ne.symm h0, h0l⟩

/-- c が見つからないのは、列に c も NUL もないか、c より前に NUL があるとき。 -/
theorem strchr_eq_none (h : strchr s c = none) :
    (c ∉ s ∧ '\x00' ∉ s) ∨ ∃ l r, s = l ++ '\x00' :: r ∧ c ∉ l := by
  induction s with
  | nil => exact .inl ⟨List.not_mem_nil, List.not_mem_nil⟩
  | cons x s ih =>
    simp only [strchr] at h
    split_ifs at h with h0 hc
    · exact .inr ⟨[], s, by rw [h0]; rfl, List.not_mem_nil⟩
    · rcases ih (Option.map_eq_none_iff.mp h) with ⟨hcs, h0s⟩ | ⟨l, r, rfl, hcl⟩
      · left
        simp only [List.mem_cons, not_or]
        exact ⟨⟨Ne.symm hc, hcs⟩, ⟨Ne.symm h0, h0s⟩⟩
      · right
        refine ⟨x :: l, r, rfl, ?_⟩
        simp only [List.mem_cons, not_or]
        exact ⟨Ne.symm hc, hcl⟩

/-- NUL を含まない列では、strchr が見つけるのは列にある字。 -/
theorem strchr_isSome_iff (h0 : '\x00' ∉ s) : (strchr s c).isSome ↔ c ∈ s := by
  induction s with
  | nil => simp [strchr]
  | cons x s ih =>
    have hx : x ≠ '\x00' := fun h => h0 (h ▸ List.mem_cons_self)
    have hs : '\x00' ∉ s := fun h => h0 (List.mem_cons_of_mem x h)
    simp only [strchr, if_neg hx]
    by_cases hc : x = c
    · simp [hc]
    · rw [if_neg hc, Option.isSome_map, ih hs, List.mem_cons]
      exact ⟨Or.inr, fun h => h.resolve_left (Ne.symm hc)⟩

end Xv6.Ulib
