import Mathlib.Algebra.Group.Nat.Defs
import Mathlib.Logic.Function.Basic

/-!
# バイトのメモリ

メモリはアドレスからバイトへの関数である。`memset` は区間を一つの値で埋め、`loadLE` と
`storeLE` は n バイトのリトルエンディアンの語を読み書きする。書き込みは区間 `[a, a + n)` の外の
バイトを変えず、読み出しは区間の中のバイトだけを読む。書いた語を読み戻すと、n バイトに収まる
下位の部分が返る（`loadLE_storeLE`）。
-/

namespace Xv6.Lib

open Function

/-- `memset(dst, c, n)`。 -/
def memset (mem : Nat → UInt8) (dst : Nat) (c : UInt8) (n : Nat) : Nat → UInt8 := fun i =>
  if dst ≤ i ∧ i < dst + n then c else mem i

/-- a から n バイトのリトルエンディアンの語を読む。 -/
def loadLE (mem : Nat → UInt8) (a : Nat) : Nat → Nat
  | 0 => 0
  | n + 1 => (mem a).toNat + 256 * loadLE mem (a + 1) n

/-- a から n バイトに v の下位 n バイトをリトルエンディアンで書く。 -/
def storeLE (mem : Nat → UInt8) (a v : Nat) : Nat → Nat → UInt8
  | 0 => mem
  | n + 1 => update (storeLE mem (a + 1) (v / 256) n) a (v % 256).toUInt8

/-- a から列 bs のバイトを書く（`memmove` の書き込み側）。 -/
def storeBytes (mem : Nat → UInt8) (a : Nat) : List UInt8 → Nat → UInt8
  | [] => mem
  | b :: bs => update (storeBytes mem (a + 1) bs) a b

/-- a から n バイトを読む（`memmove` の読み出し側）。 -/
def loadBytes (mem : Nat → UInt8) (a : Nat) : Nat → List UInt8
  | 0 => []
  | n + 1 => mem a :: loadBytes mem (a + 1) n

variable {mem mem' : Nat → UInt8}

theorem memset_of_not_mem {dst i n : Nat} (c : UInt8) (h : ¬ (dst ≤ i ∧ i < dst + n)) :
    memset mem dst c n i = mem i := if_neg h

theorem storeLE_of_not_mem : ∀ {a n i : Nat} (v : Nat), ¬ (a ≤ i ∧ i < a + n) →
    storeLE mem a v n i = mem i
  | _, 0, _, _, _ => rfl
  | a, n + 1, i, v, h => by
    have hi : i ≠ a := by omega
    rw [storeLE, update_of_ne hi]
    exact storeLE_of_not_mem _ (by omega)

theorem storeBytes_of_not_mem : ∀ {a i : Nat} (bs : List UInt8), ¬ (a ≤ i ∧ i < a + bs.length) →
    storeBytes mem a bs i = mem i
  | _, _, [], _ => rfl
  | a, i, b :: bs, h => by
    have hi : i ≠ a := by simp only [List.length_cons] at h; omega
    rw [storeBytes, update_of_ne hi]
    exact storeBytes_of_not_mem bs (by simp only [List.length_cons] at h; omega)

/-- 語の読み出しは、その n バイトだけを読む。 -/
theorem loadLE_congr : ∀ {a n : Nat}, (∀ i, a ≤ i → i < a + n → mem' i = mem i) →
    loadLE mem' a n = loadLE mem a n
  | _, 0, _ => rfl
  | a, n + 1, h => by
    rw [loadLE, loadLE, h a (Nat.le_refl a) (by omega),
      loadLE_congr fun i h₁ h₂ => h i (by omega) (by omega)]

private theorem toNat_toUInt8_mod_256 (x : Nat) : (x % 256).toUInt8.toNat = x % 256 := by
  show x % 256 % 2 ^ 8 = x % 256
  omega

/-- n バイトの語は 256^n より小さい。 -/
theorem loadLE_lt : ∀ (a n : Nat), loadLE mem a n < 256 ^ n
  | _, 0 => by simp [loadLE]
  | a, n + 1 => by
    have h₁ := (mem a).toNat_lt
    have h₂ : loadLE mem (a + 1) n < 256 ^ n := loadLE_lt (a + 1) n
    rw [loadLE, Nat.pow_succ]
    omega

/-- どのバイトも 0 のメモリの語は 0。 -/
theorem loadLE_zero : ∀ (a n : Nat), loadLE (fun _ => 0) a n = 0
  | _, 0 => rfl
  | a, n + 1 => by
    rw [loadLE, loadLE_zero (a + 1) n]
    rfl

/-- 0 で埋めた区間の中の語は 0。 -/
theorem loadLE_memset_zero {dst n : Nat} : ∀ {a k : Nat}, dst ≤ a → a + k ≤ dst + n →
    loadLE (memset mem dst 0 n) a k = 0
  | _, 0, _, _ => rfl
  | a, k + 1, h₁, h₂ => by
    rw [loadLE, loadLE_memset_zero (by omega) (by omega), memset, if_pos ⟨h₁, by omega⟩]
    rfl

/-- 書いた語を読み戻すと、下位 n バイトが返る。 -/
theorem loadLE_storeLE : ∀ (a v n : Nat), loadLE (storeLE mem a v n) a n = v % 256 ^ n
  | _, v, 0 => by rw [loadLE, Nat.pow_zero, Nat.mod_one]
  | a, v, n + 1 => by
    -- 先頭のバイトの書き込みは、残りの n バイトの読み出しに届かない
    have hrest : loadLE (storeLE mem a v (n + 1)) (a + 1) n = v / 256 % 256 ^ n := by
      rw [storeLE, loadLE_congr fun i h₁ _ => update_of_ne (by omega) _ _]
      exact loadLE_storeLE (a + 1) (v / 256) n
    rw [loadLE, hrest, storeLE, update_self, toNat_toUInt8_mod_256, Nat.pow_succ', Nat.mod_mul]

end Xv6.Lib
