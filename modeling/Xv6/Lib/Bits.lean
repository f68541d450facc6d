import Mathlib.Data.Nat.Bitwise

/-!
# バイトの中のビットと、バイトの列の中の 32 ビット語

ビットの表は、バイトの列の各バイトに 8 つの印を持つ。k 番目の印は `1 << (k % 8)` で取り出し、
`|=` で立て、`&= ~` で消す。立て消しがほかの印を変えないことを `Nat.testBit` に移して示す。

語は 4 バイトのリトルエンディアンで、`uint` の配列として読み書きするバイトの列の見方である。
-/

namespace Xv6.Lib

/-- 印 k を取り出すマスク `1 << (k % 8)`。 -/
def bitMask (k : Nat) : UInt8 := 1 <<< (k % 8).toUInt8

/-- バイト v で印 k が立っている（`(v & m) != 0`）。 -/
def testMask (v : UInt8) (k : Nat) : Bool := v &&& bitMask k != 0

theorem bitMask_toNat (k : Nat) : (bitMask k).toNat = 2 ^ (k % 8) := by
  have hk : k % 8 < 8 := Nat.mod_lt _ (by decide)
  have h₁ : (k % 8).toUInt8.toNat % 8 = k % 8 := by
    show k % 8 % 2 ^ 8 % 8 = k % 8
    omega
  rw [bitMask, UInt8.toNat_shiftLeft, h₁, show UInt8.toNat 1 = 1 from rfl, Nat.one_shiftLeft,
    Nat.mod_eq_of_lt (Nat.pow_lt_pow_right (by decide) hk)]

theorem testMask_eq (v : UInt8) (k : Nat) : testMask v k = v.toNat.testBit (k % 8) := by
  rw [Bool.eq_iff_iff, testMask, bne_iff_ne, ne_eq, ← UInt8.toNat_inj, UInt8.toNat_and,
    bitMask_toNat, Nat.and_two_pow]
  cases v.toNat.testBit (k % 8) <;> simp

/-- `~m` の 8 ビットの表。 -/
private theorem testBit_255_sub_two_pow (i j : Fin 8) :
    (255 - 2 ^ i.val).testBit j.val = (i.val != j.val) := by
  revert i j
  decide

/-- `v | m` は印 k を立て、ほかの印を変えない。 -/
@[simp] theorem testMask_or (v : UInt8) (k k' : Nat) :
    testMask (v ||| bitMask k) k' = (decide (k % 8 = k' % 8) || testMask v k') := by
  rw [testMask_eq, testMask_eq, UInt8.toNat_or, bitMask_toNat, Nat.testBit_or, Nat.testBit_two_pow]
  cases v.toNat.testBit (k' % 8) <;> simp

/-- `v & ~m` は印 k を消し、ほかの印を変えない。 -/
@[simp] theorem testMask_and_not (v : UInt8) (k k' : Nat) :
    testMask (v &&& ~~~bitMask k) k' = (k % 8 != k' % 8 && testMask v k') := by
  rw [testMask_eq, testMask_eq, UInt8.toNat_and, UInt8.toNat_not, bitMask_toNat, Nat.testBit_and]
  have h := testBit_255_sub_two_pow ⟨k % 8, Nat.mod_lt _ (by decide)⟩
    ⟨k' % 8, Nat.mod_lt _ (by decide)⟩
  simp only at h
  rw [show UInt8.size - 1 = 255 from rfl, h, Bool.and_comm]

/-- マスクで取り出した値が 0 であることは、印が立っていないことである。 -/
theorem and_bitMask_eq_zero (v : UInt8) (k : Nat) : v &&& bitMask k = 0 ↔ testMask v k = false := by
  simp [testMask]

/-! ## 32 ビット語 -/

/-- バイトの列の j 番目の語（`((uint*)data)[j]`）。 -/
def getWord (bytes : Nat → UInt8) (j : Nat) : Nat :=
  (bytes (4 * j)).toNat + 256 * (bytes (4 * j + 1)).toNat + 65536 * (bytes (4 * j + 2)).toNat +
    16777216 * (bytes (4 * j + 3)).toNat

/-- j 番目の語に v を書く。 -/
def setWord (bytes : Nat → UInt8) (j v : Nat) : Nat → UInt8 := fun i =>
  if i / 4 = j then (v / 256 ^ (i % 4) % 256).toUInt8 else bytes i

private theorem toNat_toUInt8_mod (x : Nat) : (x % 256).toUInt8.toNat = x % 256 := by
  show x % 256 % 2 ^ 8 = x % 256
  omega

@[simp] theorem getWord_setWord_self (bytes : Nat → UInt8) (j v : Nat) :
    getWord (setWord bytes j v) j = v % 2 ^ 32 := by
  have h₀ : (4 * j) / 4 = j ∧ (4 * j) % 4 = 0 := by omega
  have h₁ : (4 * j + 1) / 4 = j ∧ (4 * j + 1) % 4 = 1 := by omega
  have h₂ : (4 * j + 2) / 4 = j ∧ (4 * j + 2) % 4 = 2 := by omega
  have h₃ : (4 * j + 3) / 4 = j ∧ (4 * j + 3) % 4 = 3 := by omega
  simp only [getWord, setWord, h₀, h₁, h₂, h₃, if_true, toNat_toUInt8_mod]
  omega

theorem getWord_setWord_of_ne (bytes : Nat → UInt8) {j j' : Nat} (v : Nat) (h : j' ≠ j) :
    getWord (setWord bytes j v) j' = getWord bytes j' := by
  have h' : ∀ t < 4, (4 * j' + t) / 4 ≠ j := by omega
  simp only [getWord, setWord]
  rw [if_neg (by simpa using h' 0 (by decide)), if_neg (h' 1 (by decide)),
    if_neg (h' 2 (by decide)), if_neg (h' 3 (by decide))]

@[simp] theorem getWord_zero (j : Nat) : getWord (fun _ => 0) j = 0 := rfl

end Xv6.Lib
