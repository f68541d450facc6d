import Xv6.Lib.Memory

/-!
# 区画の外で変わらない書き込み

メモリを大きさ n の区画 `[b, b + n)` に分けて、書き込みの足跡を区画の頭 b の述語 P で言う。
`Within n P m m'` は、P を満たすどの区画にも入らないアドレスで m' が m と同じことである。
足跡は推移的で、述語を広げても成り立つ。一つの区画の中の memset、storeLE、storeBytes は、その
区画だけを足跡に持つ。
-/

namespace Xv6.Lib

variable {α : Type} {n : Nat} {P Q : Nat → Prop} {m m' m'' : Nat → α}

/-- m' は、P を満たす b からの区画 `[b, b + n)` のどれにも入らないアドレスで m と同じ。 -/
def Within (n : Nat) (P : Nat → Prop) (m m' : Nat → α) : Prop :=
  ∀ x, (∀ b, P b → ¬ (b ≤ x ∧ x < b + n)) → m' x = m x

theorem Within.refl (n : Nat) (P : Nat → Prop) (m : Nat → α) : Within n P m m := fun _ _ => rfl

theorem Within.trans (h₁ : Within n P m m') (h₂ : Within n P m' m'') : Within n P m m'' :=
  fun x hx => (h₂ x hx).trans (h₁ x hx)

theorem Within.mono (h : Within n P m m') (hPQ : ∀ b, P b → Q b) : Within n Q m m' :=
  fun x hx => h x fun b hb => hx b (hPQ b hb)

/-- 区画 b の外を変えない書き込みの足跡は、b を含む述語で言える。 -/
theorem Within.of_block {b : Nat} (hb : P b) (h : ∀ x, ¬ (b ≤ x ∧ x < b + n) → m' x = m x) :
    Within n P m m' :=
  fun x hx => h x (hx b hb)

/-- n に揃った二つの区画が同じアドレスを含めば、同じ区画である。 -/
theorem eq_of_aligned_overlap {b c x : Nat} (hb : b % n = 0) (hc : c % n = 0) (hbx : b ≤ x ∧ x < b + n)
    (hcx : c ≤ x ∧ x < c + n) : b = c := by
  obtain ⟨k, rfl⟩ := Nat.dvd_of_mod_eq_zero hb
  obtain ⟨j, rfl⟩ := Nat.dvd_of_mod_eq_zero hc
  rcases Nat.lt_trichotomy k j with h | rfl | h
  · have := Nat.mul_le_mul_left n (Nat.succ_le_of_lt h)
    rw [Nat.mul_succ] at this
    omega
  · rfl
  · have := Nat.mul_le_mul_left n (Nat.succ_le_of_lt h)
    rw [Nat.mul_succ] at this
    omega

/-- 足跡の区画が n に揃っていれば、足跡に入らない揃った区画 c の中は変わらない。 -/
theorem Within.eq_of_aligned {c x : Nat} (h : Within n P m m') (hP : ∀ b, P b → b % n = 0) (hc : c % n = 0)
    (hnc : ¬ P c) (hx : c ≤ x ∧ x < c + n) : m' x = m x :=
  h x fun b hb hbx => hnc (eq_of_aligned_overlap (hP b hb) hc hbx hx ▸ hb)

/-- 足跡に入らない揃った区画の中身は変わらない。 -/
theorem Within.block_eq {c j : Nat} (h : Within n P m m') (hP : ∀ b, P b → b % n = 0) (hc : c % n = 0)
    (hnc : ¬ P c) (hj : j < n) : m' (c + j) = m (c + j) :=
  h.eq_of_aligned hP hc hnc ⟨Nat.le_add_right c j, Nat.add_lt_add_left hj c⟩

variable {mem : Nat → UInt8}

/-- 二つのメモリが S の外で同じなら、同じ語を書いた後も S の外で同じ。 -/
theorem storeLE_agree {S : Nat → Prop} {m₁ m₂ : Nat → UInt8} (h : ∀ x, ¬ S x → m₁ x = m₂ x) :
    ∀ (a v k x : Nat), ¬ S x → storeLE m₁ a v k x = storeLE m₂ a v k x
  | _, _, 0, x, hx => h x hx
  | a, v, k + 1, x, hx => by
    by_cases hxa : x = a
    · subst hxa
      rw [storeLE, storeLE, Function.update_self, Function.update_self]
    · rw [storeLE, storeLE, Function.update_of_ne hxa, Function.update_of_ne hxa]
      exact storeLE_agree h (a + 1) (v / 256) k x hx

theorem within_memset {b : Nat} (hb : P b) (c : UInt8) : Within n P mem (memset mem b c n) :=
  Within.of_block hb fun _ hx => memset_of_not_mem c hx

theorem within_storeLE {b a k : Nat} (hb : P b) (hab : b ≤ a) (hak : a + k ≤ b + n) (v : Nat) :
    Within n P mem (storeLE mem a v k) :=
  Within.of_block hb fun _ hx => storeLE_of_not_mem v fun h => hx ⟨by omega, by omega⟩

end Xv6.Lib
