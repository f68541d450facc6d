import Mathlib.Logic.Function.Basic
import Mathlib.Algebra.GroupWithZero.Nat
import Mathlib.Algebra.Group.Nat.Defs
import Mathlib.Tactic.SplitIfs

/-!
# 16 ビットで回る添字の環

n 個の枠の環 `r : Fin n → α` に、書く側と読む側がそれぞれ添字を持ち、添字 x の枠は `x % n`
である。添字は m（16 ビットなら `2^16`）で回るが、n が m を割れば枠は回らない添字のときと
同じで、二つの添字の差（m を法とする引き算）は、その差が m より小さいうちは間の項目の数
である。

`ringView r start len` は、枠 `start % n` から len 個を順に読んだ列。書く側が次の枠に書けば
列の末尾に項目が加わり（`ringView_push`）、読む側が添字を進めれば先頭の項目が外れる
（`ringView_succ_start`）。
-/

namespace Xv6.Lib

open Function

variable {α : Type} {n : Nat} [NeZero n]

/-- 枠 `start % n` から len 個の項目。 -/
def ringView (r : Fin n → α) (start : Nat) : Nat → List α
  | 0 => []
  | k + 1 => ringView r start k ++ [r (Fin.ofNat n (start + k))]

@[simp] theorem ringView_length (r : Fin n → α) (start len : Nat) :
    (ringView r start len).length = len := by
  induction len with
  | zero => rfl
  | succ k ih => simp [ringView, ih]

/-- 添字の `n` を法とした値が同じなら、同じ列を読む。 -/
theorem ringView_congr (r : Fin n → α) {start start' : Nat} (h : start % n = start' % n) (len : Nat) :
    ringView r start len = ringView r start' len := by
  induction len with
  | zero => rfl
  | succ k ih =>
      have hk : Fin.ofNat n (start + k) = Fin.ofNat n (start' + k) := by
        ext
        simp only [Fin.val_ofNat, Nat.add_mod start, Nat.add_mod start', h]
      rw [ringView, ringView, ih, hk]

/-- 一周より短い範囲の枠は互いに違う。 -/
theorem ofNat_add_ne {start j k : Nat} (hj : j < k) (hk : k < n) :
    Fin.ofNat n (start + j) ≠ Fin.ofNat n (start + k) := by
  intro e
  have e' := congrArg Fin.val e
  simp only [Fin.val_ofNat] at e'
  -- 差 k - j は 0 より大きく n より小さいので、n で割り切れない
  have hd : (start + j + (k - j)) % n = (start + j) % n := by
    rw [show start + j + (k - j) = start + k by omega, e']
  rw [Nat.add_mod, Nat.mod_eq_of_lt (show k - j < n by omega)] at hd
  have hlt : (start + j) % n < n := Nat.mod_lt _ (Nat.pos_of_neZero n)
  by_cases hs : (start + j) % n + (k - j) < n
  · rw [Nat.mod_eq_of_lt hs] at hd
    omega
  · have : ((start + j) % n + (k - j)) % n = (start + j) % n + (k - j) - n := by
      rw [Nat.mod_eq_sub_mod (by omega), Nat.mod_eq_of_lt (by omega)]
    omega

/-- 読む範囲の外の枠に書いても、列は変わらない。 -/
theorem ringView_update_of_notMem (r : Fin n → α) {start len : Nat} {i : Fin n}
    (hi : ∀ k < len, i ≠ Fin.ofNat n (start + k)) (v : α) :
    ringView (update r i v) start len = ringView r start len := by
  induction len with
  | zero => rfl
  | succ k ih =>
      rw [ringView, ringView, ih fun j hj => hi j (by omega),
        update_of_ne (hi k (by omega)).symm]

/-- 書く側が範囲の次の枠に書くと、列の末尾に項目が加わる。 -/
theorem ringView_push (r : Fin n → α) {start len : Nat} (hlen : len < n) (v : α) :
    ringView (update r (Fin.ofNat n (start + len)) v) start (len + 1) =
      ringView r start len ++ [v] := by
  rw [ringView, ringView_update_of_notMem, update_self]
  intro k hk
  exact (ofNat_add_ne hk hlen).symm

/-- 範囲の後ろの、一周の中の枠に書いても、列は変わらない。 -/
theorem ringView_update_ge (r : Fin n → α) {start len k : Nat} (hk : len ≤ k) (hkn : k < n) (v : α) :
    ringView (update r (Fin.ofNat n (start + k)) v) start len = ringView r start len :=
  ringView_update_of_notMem r (fun _ hj => (ofNat_add_ne (by omega) hkn).symm) v

/-- 列は、前の len₁ 個と、その後ろから読む len₂ 個に分かれる。 -/
theorem ringView_append (r : Fin n → α) (start len₁ len₂ : Nat) :
    ringView r start (len₁ + len₂) = ringView r start len₁ ++ ringView r (start + len₁) len₂ := by
  induction len₂ with
  | zero => simp [ringView]
  | succ k ih =>
      show ringView r start (len₁ + k + 1) = _
      rw [ringView, ih, ringView, List.append_assoc, Nat.add_assoc]

/-- 読む側が添字を進めると、先頭の項目が外れる。 -/
theorem ringView_succ_start (r : Fin n → α) (start len : Nat) :
    ringView r start (len + 1) = r (Fin.ofNat n start) :: ringView r (start + 1) len := by
  induction len with
  | zero => simp [ringView]
  | succ k ih =>
      rw [ringView, ih, ringView, List.cons_append, Nat.add_assoc start 1 k, Nat.add_comm 1 k]

/-! ## 法 m で回る添字

添字は m で回る。添字 s から a までの距離は `(m - s + a) % m` で、`UInt16` や `UInt32` の
引き算の `toNat` はこの形をしている。 -/

section Mod

variable {m s a b : Nat}

/-- 距離は、a が s より前に回っていなければ a - s、回っていれば m - s + a。 -/
theorem dist_eq (hs : s < m) (ha : a < m) : (m - s + a) % m = if s ≤ a then a - s else m - s + a := by
  split
  · rw [show m - s + a = (a - s) + m by omega, Nat.add_mod_right, Nat.mod_eq_of_lt (by omega)]
  · exact Nat.mod_eq_of_lt (by omega)

/-- s から距離だけ進むと a に着く。 -/
theorem add_dist_mod (hs : s < m) (ha : a < m) : (s + (m - s + a) % m) % m = a := by
  rw [dist_eq hs ha]
  split
  · rw [show s + (a - s) = a by omega, Nat.mod_eq_of_lt ha]
  · rw [show s + (m - s + a) = a + m by omega, Nat.add_mod_right, Nat.mod_eq_of_lt ha]

/-- 書く側が進むと、距離が一つ増える（距離が回らないうち）。 -/
theorem dist_succ_right (hs : s < m) (ha : a < m) (h : (m - s + a) % m + 1 < m) :
    (m - s + (a + 1) % m) % m = (m - s + a) % m + 1 := by
  rw [dist_eq hs ha] at h ⊢
  -- a + 1 が回るかどうかで分ける
  rcases Nat.lt_or_ge (a + 1) m with h1 | h1
  · rw [Nat.mod_eq_of_lt h1, dist_eq hs h1]
    split_ifs at h ⊢ <;> omega
  · rw [show a + 1 = m by omega, Nat.mod_self, dist_eq hs (show 0 < m by omega)]
    split_ifs at h ⊢ <;> omega

/-- 読む側が進むと、距離が一つ減る。 -/
theorem dist_succ_left (hs : s < m) (ha : a < m) (hne : s ≠ a) :
    (m - (s + 1) % m + a) % m + 1 = (m - s + a) % m := by
  rw [dist_eq hs ha]
  rcases Nat.lt_or_ge (s + 1) m with h1 | h1
  · rw [Nat.mod_eq_of_lt h1, dist_eq h1 ha]
    split_ifs <;> omega
  · rw [show s + 1 = m by omega, Nat.mod_self, dist_eq (show 0 < m by omega) ha]
    split_ifs <;> omega

theorem dist_eq_zero_iff (hs : s < m) (ha : a < m) : (m - s + a) % m = 0 ↔ a = s := by
  rw [dist_eq hs ha]
  split <;> omega

/-- 書く側が一つ戻ると、距離が一つ減る。`a - 1` の `toNat` は `(m - 1 + a) % m`。 -/
theorem dist_pred_right (hs : s < m) (ha : a < m) (hne : a ≠ s) :
    (m - s + (m - 1 + a) % m) % m + 1 = (m - s + a) % m := by
  rcases Nat.eq_zero_or_pos a with rfl | h0
  · simp only [Nat.add_zero]
    rw [Nat.mod_eq_of_lt (show m - 1 < m by omega), dist_eq hs (by omega),
      Nat.mod_eq_of_lt (show m - s < m by omega)]
    split_ifs <;> omega
  · rw [show m - 1 + a = (a - 1) + m by omega, Nat.add_mod_right, Nat.mod_eq_of_lt (show a - 1 < m by omega),
      dist_eq hs (by omega), dist_eq hs ha]
    split_ifs <;> omega

/-- 距離が同じなら、行き先も同じ。 -/
theorem dist_inj (hs : s < m) (ha : a < m) (hb : b < m) (h : (m - s + a) % m = (m - s + b) % m) : a = b := by
  rw [dist_eq hs ha, dist_eq hs hb] at h
  split_ifs at h <;> omega

/-- a が s から b までの間にあれば、s から a と a から b の距離の和は s から b の距離。 -/
theorem dist_add (hs : s < m) (ha : a < m) (hb : b < m) (h : (m - s + a) % m ≤ (m - s + b) % m) :
    (m - s + a) % m + (m - a + b) % m = (m - s + b) % m := by
  rw [dist_eq hs ha, dist_eq hs hb] at h
  rw [dist_eq hs ha, dist_eq hs hb, dist_eq ha hb]
  split_ifs at h ⊢ <;> omega

variable (hn : n ∣ m)
include hn

/-- 添字 a の枠は、s から距離だけ進んだ枠。 -/
theorem ofNat_eq_add_dist (hs : s < m) (ha : a < m) : Fin.ofNat n a = Fin.ofNat n (s + (m - s + a) % m) := by
  ext
  simp only [Fin.val_ofNat]
  rw [← Nat.mod_mod_of_dvd (s + (m - s + a) % m) hn, add_dist_mod hs ha]

/-- 読む側が添字 s から a の手前までの項目を読むとき、s の枠を読んで添字を進めると残りが
読める。添字が回っても同じ。 -/
theorem ringView_advance_mod (r : Fin n → α) (hs : s < m) (ha : a < m) (h : s ≠ a) :
    ringView r s ((m - s + a) % m) =
      r (Fin.ofNat n s) :: ringView r ((s + 1) % m) ((m - (s + 1) % m + a) % m) := by
  rw [← dist_succ_left hs ha h, ringView_succ_start, ringView_congr r (Nat.mod_mod_of_dvd (s + 1) hn).symm]

/-- 書く側が添字 a の枠に書いて添字を進めると、読む側から見える列の末尾に項目が加わる。
間の項目が n より少なければ、書いた枠はまだ読まれていない項目を消さない。 -/
theorem ringView_write_mod (hsmall : n < m) (r : Fin n → α) (hs : s < m) (ha : a < m)
    (hlen : (m - s + a) % m < n) (v : α) :
    ringView (update r (Fin.ofNat n a) v) s ((m - s + (a + 1) % m) % m) =
      ringView r s ((m - s + a) % m) ++ [v] := by
  rw [dist_succ_right hs ha (by omega), ofNat_eq_add_dist hn hs ha, ringView_push r hlen]

/-- s から a までの列は、a から b までの列の前にある。 -/
theorem ringView_split_mod (r : Fin n → α) (hs : s < m) (ha : a < m) (hb : b < m)
    (h : (m - s + a) % m ≤ (m - s + b) % m) :
    ringView r s ((m - s + b) % m) = ringView r s ((m - s + a) % m) ++ ringView r a ((m - a + b) % m) := by
  rw [← dist_add hs ha hb h, ringView_append]
  congr 1
  apply ringView_congr
  rw [← Nat.mod_mod_of_dvd (s + (m - s + a) % m) hn, add_dist_mod hs ha]

/-- s から b までが一周より短ければ、b の枠に書いても、その手前の a までの列は変わらない。 -/
theorem ringView_update_beyond_mod (r : Fin n → α) (hs : s < m) (hb : b < m)
    (h : (m - s + a) % m ≤ (m - s + b) % m) (hbn : (m - s + b) % m < n) (v : α) :
    ringView (update r (Fin.ofNat n b) v) s ((m - s + a) % m) = ringView r s ((m - s + a) % m) := by
  rw [ofNat_eq_add_dist hn hs hb, ringView_update_ge r h hbn]

end Mod

/-! ## 16 ビットの添字 -/

/-- 書く側が進むと、差が一つ増える（差が回らないうち）。 -/
theorem toNat_add_one_sub (a s : UInt16) (h : (a - s).toNat + 1 < 2 ^ 16) :
    (a + 1 - s).toNat = (a - s).toNat + 1 := by
  rw [UInt16.toNat_sub, UInt16.toNat_sub, UInt16.toNat_add, UInt16.toNat_one] at *
  exact dist_succ_right s.toNat_lt a.toNat_lt h

/-- 読む側が進むと、差が一つ減る。 -/
theorem toNat_sub_add_one (a s : UInt16) (h : s ≠ a) : (a - (s + 1)).toNat + 1 = (a - s).toNat := by
  rw [UInt16.toNat_sub, UInt16.toNat_sub, UInt16.toNat_add, UInt16.toNat_one]
  exact dist_succ_left s.toNat_lt a.toNat_lt fun e => h (UInt16.toNat_inj.mp e)

theorem toNat_sub_eq_zero_iff {a s : UInt16} : (a - s).toNat = 0 ↔ a = s := by
  rw [UInt16.toNat_sub, dist_eq_zero_iff s.toNat_lt a.toNat_lt, UInt16.toNat_inj]

section Window

variable (hn : n ∣ 2 ^ 16)
include hn

theorem ringView_advance (r : Fin n → α) {a s : UInt16} (h : s ≠ a) :
    ringView r s.toNat (a - s).toNat =
      r (Fin.ofNat n s.toNat) :: ringView r (s + 1).toNat (a - (s + 1)).toNat := by
  rw [UInt16.toNat_sub, UInt16.toNat_sub, UInt16.toNat_add, UInt16.toNat_one]
  exact ringView_advance_mod hn r s.toNat_lt a.toNat_lt fun e => h (UInt16.toNat_inj.mp e)

theorem ringView_write (hsmall : n < 2 ^ 16) (r : Fin n → α) {a s : UInt16}
    (hlen : (a - s).toNat < n) (v : α) :
    ringView (update r (Fin.ofNat n a.toNat) v) s.toNat (a + 1 - s).toNat =
      ringView r s.toNat (a - s).toNat ++ [v] := by
  rw [UInt16.toNat_sub, UInt16.toNat_sub, UInt16.toNat_add, UInt16.toNat_one] at *
  exact ringView_write_mod hn hsmall r s.toNat_lt a.toNat_lt hlen v

end Window

/-! ## 32 ビットの添字 -/

namespace U32

variable {a b s : UInt32}

/-- 書く側が進むと、差が一つ増える（差が回らないうち）。 -/
theorem toNat_add_one_sub (h : (a - s).toNat + 1 < 2 ^ 32) : (a + 1 - s).toNat = (a - s).toNat + 1 := by
  simp only [UInt32.toNat_sub, UInt32.toNat_add, UInt32.toNat_one] at h ⊢
  exact dist_succ_right s.toNat_lt a.toNat_lt h

/-- 読む側が進むと、差が一つ減る。 -/
theorem toNat_sub_add_one (h : s ≠ a) : (a - (s + 1)).toNat + 1 = (a - s).toNat := by
  simp only [UInt32.toNat_sub, UInt32.toNat_add, UInt32.toNat_one]
  exact dist_succ_left s.toNat_lt a.toNat_lt fun e => h (UInt32.toNat_inj.mp e)

/-- 書く側が一つ戻ると、差が一つ減る。 -/
theorem toNat_sub_one_sub (h : a ≠ s) : (a - 1 - s).toNat + 1 = (a - s).toNat := by
  simp only [UInt32.toNat_sub, UInt32.toNat_one]
  exact dist_pred_right s.toNat_lt a.toNat_lt fun e => h (UInt32.toNat_inj.mp e)

theorem toNat_sub_eq_zero_iff : (a - s).toNat = 0 ↔ a = s := by
  rw [UInt32.toNat_sub, dist_eq_zero_iff s.toNat_lt a.toNat_lt, UInt32.toNat_inj]

/-- 回らない足し算。 -/
theorem toNat_add_of_lt (h : a.toNat + b.toNat < 2 ^ 32) : (a + b).toNat = a.toNat + b.toNat := by
  rw [UInt32.toNat_add, Nat.mod_eq_of_lt h]

/-- 回らない引き算。 -/
theorem toNat_sub_of_le (h : b.toNat ≤ a.toNat) : (a - b).toNat = a.toNat - b.toNat :=
  UInt32.toNat_sub_of_le a b (UInt32.le_iff_toNat_le.mpr h)

theorem eq_of_toNat_sub_eq (h : (a - s).toNat = (b - s).toNat) : a = b := by
  simp only [UInt32.toNat_sub] at h
  exact UInt32.toNat_inj.mp (dist_inj s.toNat_lt a.toNat_lt b.toNat_lt h)

variable (hn : n ∣ 2 ^ 32)
include hn

theorem ringView_advance (r : Fin n → α) (h : s ≠ a) :
    ringView r s.toNat (a - s).toNat = r (Fin.ofNat n s.toNat) :: ringView r (s + 1).toNat (a - (s + 1)).toNat := by
  simp only [UInt32.toNat_sub, UInt32.toNat_add, UInt32.toNat_one]
  exact ringView_advance_mod hn r s.toNat_lt a.toNat_lt fun e => h (UInt32.toNat_inj.mp e)

theorem ringView_write (hsmall : n < 2 ^ 32) (r : Fin n → α) (hlen : (a - s).toNat < n) (v : α) :
    ringView (update r (Fin.ofNat n a.toNat) v) s.toNat (a + 1 - s).toNat = ringView r s.toNat (a - s).toNat ++ [v] := by
  simp only [UInt32.toNat_sub, UInt32.toNat_add, UInt32.toNat_one] at hlen ⊢
  exact ringView_write_mod hn hsmall r s.toNat_lt a.toNat_lt hlen v

theorem ringView_split (r : Fin n → α) (h : (a - s).toNat ≤ (b - s).toNat) :
    ringView r s.toNat (b - s).toNat = ringView r s.toNat (a - s).toNat ++ ringView r a.toNat (b - a).toNat := by
  simp only [UInt32.toNat_sub] at h ⊢
  exact ringView_split_mod hn r s.toNat_lt a.toNat_lt b.toNat_lt h

theorem ringView_update_beyond (r : Fin n → α) (h : (a - s).toNat ≤ (b - s).toNat) (hbn : (b - s).toNat < n)
    (v : α) : ringView (update r (Fin.ofNat n b.toNat) v) s.toNat (a - s).toNat = ringView r s.toNat (a - s).toNat := by
  simp only [UInt32.toNat_sub] at h hbn ⊢
  exact ringView_update_beyond_mod hn r s.toNat_lt b.toNat_lt h hbn v

end U32

end Xv6.Lib
