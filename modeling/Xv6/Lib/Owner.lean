import Mathlib.Logic.Function.Basic

/-!
# 使用中の印と、持ち主の欄が指す資源

資源は番号で、`used x` が使用中の印である。持ち主 a の欄 s は資源 `R a s` を指す（0 は何も
指さない）。`Owned` は、予約された資源（`fixed`）がすべて使用中で、生きている持ち主の欄が
指す資源は使用中で、予約されておらず、`size` より小さく、二つの欄が同じ資源を指さないことで
ある。

空いた資源を一つの欄に渡す（`take`）、欄の資源を空きに戻す（`release`）、欄を空にしたり
持ち主を増減したりする（`sub`）はこの性質を保つ。空いた資源はどの欄も指していない
（`Owned.ne_of_free`）。
-/

namespace Xv6.Lib

open Function

variable {α σ : Type}

structure Owned (size : Nat) (fixed : Nat → Prop) (used : Nat → Bool) (live : α → Prop)
    (R : α → σ → Nat) : Prop where
  fixed_used : ∀ x, fixed x → used x = true
  ref_used : ∀ a s, live a → R a s ≠ 0 → used (R a s) = true
  ref_fixed : ∀ a s, live a → R a s ≠ 0 → ¬ fixed (R a s)
  ref_lt : ∀ a s, live a → R a s ≠ 0 → R a s < size
  inj : ∀ a s b t, live a → live b → R a s ≠ 0 → R a s = R b t → a = b ∧ s = t

variable {size : Nat} {fixed : Nat → Prop} {used : Nat → Bool} {live : α → Prop}
  {R : α → σ → Nat}

/-- 空いた資源は、どの欄も指していない。 -/
theorem Owned.ne_of_free (h : Owned size fixed used live R) {x : Nat} (hx : x ≠ 0)
    (hfree : used x = false) {a : α} (ha : live a) (s : σ) : R a s ≠ x := by
  intro e
  have hu := h.ref_used a s ha (e ▸ hx)
  rw [e, hfree] at hu
  cases hu

/-- 印を読むのが `size` より下と予約された資源だけなので、そこが同じ印なら性質も同じ。 -/
theorem Owned.congr_used {used' : Nat → Bool} (h : Owned size fixed used live R)
    (hfix : ∀ x, fixed x → x < size) (hu : ∀ x, x < size → used' x = used x) :
    Owned size fixed used' live R where
  fixed_used x hx := (hu x (hfix x hx)).trans (h.fixed_used x hx)
  ref_used a s ha hs := (hu _ (h.ref_lt a s ha hs)).trans (h.ref_used a s ha hs)
  ref_fixed := h.ref_fixed
  ref_lt := h.ref_lt
  inj := h.inj

/-- 欄を空にし、持ち主を減らし、欄の空な持ち主を加えても性質は保たれる: 新しい状態の空でない
欄は、元から生きている持ち主の同じ値の欄である。 -/
theorem Owned.sub {live' : α → Prop} {R' : α → σ → Nat} (h : Owned size fixed used live R)
    (hk : ∀ a s, live' a → R' a s ≠ 0 → live a ∧ R' a s = R a s) :
    Owned size fixed used live' R' := by
  refine ⟨h.fixed_used, ?_, ?_, ?_, ?_⟩
  · intro a s ha hs
    obtain ⟨ha, he⟩ := hk a s ha hs
    rw [he] at hs ⊢
    exact h.ref_used a s ha hs
  · intro a s ha hs
    obtain ⟨ha, he⟩ := hk a s ha hs
    rw [he] at hs ⊢
    exact h.ref_fixed a s ha hs
  · intro a s ha hs
    obtain ⟨ha, he⟩ := hk a s ha hs
    rw [he] at hs ⊢
    exact h.ref_lt a s ha hs
  · intro a s b t ha hb hs e
    obtain ⟨ha, hea⟩ := hk a s ha hs
    obtain ⟨hb, heb⟩ := hk b t hb (e ▸ hs)
    rw [hea] at hs e
    rw [heb] at e
    exact h.inj a s b t ha hb hs e

/-- 印を立てるだけなら性質は保たれる。 -/
theorem Owned.mark (h : Owned size fixed used live R) (x : Nat) :
    Owned size fixed (update used x true) live R := by
  have hmono : ∀ y, used y = true → update used x true y = true := by
    intro y hy
    by_cases e : y = x
    · subst e
      simp
    · rw [update_of_ne e, hy]
  exact ⟨fun y hy => hmono y (h.fixed_used y hy), fun a s ha hs => hmono _ (h.ref_used a s ha hs),
    h.ref_fixed, h.ref_lt, h.inj⟩

variable [DecidableEq α] [DecidableEq σ]

/-- 欄 `(a, s)` だけを x に書き換える。 -/
def setRef (R : α → σ → Nat) (a : α) (s : σ) (x : Nat) : α → σ → Nat :=
  update R a (update (R a) s x)

@[simp] theorem setRef_self (R : α → σ → Nat) (a : α) (s : σ) (x : Nat) : setRef R a s x a s = x := by
  simp [setRef]

theorem setRef_same (R : α → σ → Nat) (a : α) (s : σ) (x : Nat) :
    setRef R a s x a = update (R a) s x := by
  simp [setRef]

theorem setRef_of_ne (R : α → σ → Nat) {a b : α} {s t : σ} (x : Nat) (h : ¬ (b = a ∧ t = s)) :
    setRef R a s x b t = R b t := by
  by_cases hb : b = a
  · subst hb
    have ht : t ≠ s := fun e => h ⟨rfl, e⟩
    simp [setRef, ht]
  · simp [setRef, hb]

/-- 使用中の印が立ったが、まだどの欄も指していない資源 x を、空の欄 `(a, s)` に渡す。 -/
theorem Owned.take {x : Nat} {a : α} {s : σ} (h : Owned size fixed used live R)
    (hfree : ∀ b t, live b → R b t ≠ x) (hx : ¬ fixed x) (hlt : x < size) (hux : used x = true)
    (hR : R a s = 0) : Owned size fixed used live (setRef R a s x) := by
  -- 新しい欄とそれ以外の欄に分ける
  have hcase : ∀ b t, setRef R a s x b t = (if b = a ∧ t = s then x else R b t) := by
    intro b t
    by_cases hbt : b = a ∧ t = s
    · obtain ⟨rfl, rfl⟩ := hbt
      rw [if_pos ⟨rfl, rfl⟩, setRef_self]
    · rw [if_neg hbt, setRef_of_ne R x hbt]
  refine ⟨h.fixed_used, ?_, ?_, ?_, ?_⟩
  · intro b t hb hs
    rw [hcase] at hs ⊢
    by_cases hbt : b = a ∧ t = s
    · rw [if_pos hbt]
      exact hux
    · rw [if_neg hbt] at hs ⊢
      exact h.ref_used b t hb hs
  · intro b t hb hs
    rw [hcase] at hs ⊢
    by_cases hbt : b = a ∧ t = s
    · rw [if_pos hbt]
      exact hx
    · rw [if_neg hbt] at hs ⊢
      exact h.ref_fixed b t hb hs
  · intro b t hb hs
    rw [hcase] at hs ⊢
    by_cases hbt : b = a ∧ t = s
    · rw [if_pos hbt]
      exact hlt
    · rw [if_neg hbt] at hs ⊢
      exact h.ref_lt b t hb hs
  · intro b t c u hb hc hs e
    rw [hcase, hcase] at e
    rw [hcase] at hs
    by_cases hbt : b = a ∧ t = s <;> by_cases hcu : c = a ∧ u = s
    · exact ⟨hbt.1.trans hcu.1.symm, hbt.2.trans hcu.2.symm⟩
    · rw [if_pos hbt, if_neg hcu] at e
      exact absurd e.symm (hfree c u hc)
    · rw [if_neg hbt, if_pos hcu] at e
      exact absurd e (hfree b t hb)
    · rw [if_neg hbt, if_neg hcu] at e
      rw [if_neg hbt] at hs
      exact h.inj b t c u hb hc hs e

/-- 欄を空にする。資源は使用中のまま残る。 -/
theorem Owned.drop (h : Owned size fixed used live R) (a : α) (s : σ) :
    Owned size fixed used live (setRef R a s 0) := by
  refine h.sub fun b t hb hs => ⟨hb, ?_⟩
  by_cases hbt : b = a ∧ t = s
  · obtain ⟨rfl, rfl⟩ := hbt
    exact absurd (setRef_self R b t 0) hs
  · exact setRef_of_ne R 0 hbt

/-- 欄 `(a, s)` の資源を空きに戻し、欄を空にする。 -/
theorem Owned.release {a : α} {s : σ} (h : Owned size fixed used live R) (ha : live a)
    (hs : R a s ≠ 0) : Owned size fixed (update used (R a s) false) live (setRef R a s 0) := by
  have hd := h.drop a s
  -- ほかの欄の資源は `R a s` と違うので、印は変わらない
  have hne : ∀ b t, live b → setRef R a s 0 b t ≠ 0 → setRef R a s 0 b t ≠ R a s := by
    intro b t hb hbt e
    by_cases hab : b = a ∧ t = s
    · obtain ⟨rfl, rfl⟩ := hab
      exact hbt (setRef_self R b t 0)
    · rw [setRef_of_ne R 0 hab] at e hbt
      exact hab (h.inj b t a s hb ha hbt e)
  refine ⟨?_, ?_, hd.ref_fixed, hd.ref_lt, hd.inj⟩
  · intro x hx
    have hxs : x ≠ R a s := fun e => h.ref_fixed a s ha hs (e ▸ hx)
    rw [update_of_ne hxs]
    exact h.fixed_used x hx
  · intro b t hb hbt
    rw [update_of_ne (hne b t hb hbt)]
    exact hd.ref_used b t hb hbt

/-- 持ち主 a の、P を満たす欄をすべて空にする。 -/
def clearRefs (R : α → σ → Nat) (a : α) (P : σ → Bool) : α → σ → Nat := fun b t =>
  if b = a ∧ P t = true then 0 else R b t

omit [DecidableEq σ] in
theorem clearRefs_of_ne (R : α → σ → Nat) {a b : α} (P : σ → Bool) (h : b ≠ a) (t : σ) :
    clearRefs R a P b t = R b t := by
  simp [clearRefs, h]

/-- 欄を一つずつ空にしていくことは、空にする欄の集まりを一つずつ広げることである。 -/
theorem clearRefs_insert (R : α → σ → Nat) (a : α) (P Q : σ → Bool) (s : σ)
    (hQ : ∀ t, Q t = (decide (t = s) || P t)) : clearRefs R a Q = setRef (clearRefs R a P) a s 0 := by
  funext b t
  by_cases hbt : b = a ∧ t = s
  · obtain ⟨rfl, rfl⟩ := hbt
    simp [clearRefs, hQ]
  · rw [setRef_of_ne _ 0 hbt]
    by_cases hb : b = a
    · have ht : t ≠ s := fun e => hbt ⟨hb, e⟩
      simp [clearRefs, hQ, hb, ht]
    · simp [clearRefs, hb]

end Xv6.Lib
