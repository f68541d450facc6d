import Mathlib.Tactic.Ring

/-!
# C の `int` の加算

カーネルの `int` の加算 `x + 1` は、RISC-V の `addw` が計算するとおり 2 の補数の 32 ビットに
丸める。丸めは `Int.bmod` で書き、値の範囲は `[-2^31, 2^31)` である。
-/

namespace Xv6.Lib

/-- 32 ビットの `int` に丸めた値。 -/
def wrap32 (x : Int) : Int := x.bmod (2 ^ 32)

theorem wrap32_of_range {x : Int} (h1 : -2 ^ 31 ≤ x) (h2 : x < 2 ^ 31) : wrap32 x = x :=
  Int.bmod_eq_of_le (by norm_num; omega) (by norm_num; omega)

/-- 最大の `int` に 1 を足すと最小の `int` になる。 -/
theorem wrap32_max_add_one : wrap32 (2 ^ 31 - 1 + 1) = -2 ^ 31 := by decide

theorem wrap32_wrap32_add (x y : Int) : wrap32 (wrap32 x + y) = wrap32 (x + y) :=
  Int.bmod_add_bmod

/-- 範囲の中の値に 1 を足して正なら、丸めは起きていない。 -/
theorem wrap32_add_one_of_pos {x : Int} (h1 : -2 ^ 31 ≤ x) (h2 : x < 2 ^ 31)
    (h : 0 < wrap32 (x + 1)) : x + 1 < 2 ^ 31 ∧ wrap32 (x + 1) = x + 1 := by
  by_cases hx : x + 1 < 2 ^ 31
  · exact ⟨hx, wrap32_of_range (by omega) hx⟩
  · -- 最大の `int` に 1 を足すと負になる
    have e : x = 2 ^ 31 - 1 := by omega
    rw [e, wrap32_max_add_one] at h
    exact absurd h (by norm_num)

/-- `int` を `uint64` に入れると、2^64 で割った余りになる（負の値は 2^64 を足した値）。 -/
theorem toNat_uint64_ofInt (r : Int) : ((UInt64.ofInt r).toNat : Int) = r % 2 ^ 64 := by
  have h₁ : 0 ≤ r % 2 ^ 64 := Int.emod_nonneg r (by norm_num)
  have h₂ : r % 2 ^ 64 < 2 ^ 64 := Int.emod_lt_of_pos r (by decide)
  simp only [UInt64.ofInt, UInt64.toNat_ofNat']
  omega

/-! ## `short` -/

/-- 16 ビットの `short` に丸めた値。`short` の `++` と `--` は `int` で計算してから丸める。 -/
def wrap16 (x : Int) : Int := x.bmod (2 ^ 16)

theorem wrap16_wrap16_add (x y : Int) : wrap16 (wrap16 x + y) = wrap16 (x + y) :=
  Int.bmod_add_bmod

end Xv6.Lib
