import Xv6.Fs.Basic
import Xv6.Lib.Count

/-!
# 空きの表の読み書き

`balloc` は `BBLOCK(b, sb)` の `bi/8` バイト目に `1 << (bi % 8)` を立て、`bfree` は
`BBLOCK(x, sb)` の `(x % BPB)/8` バイト目から `1 << ((x % BPB) % 8)` を消す。どちらも
ブロック x の印だけを変えることを、`FsState.used` の言葉で言う（`used_setBit`、
`used_clearBit`）。`balloc` の二重のループは、空いたブロックを見つければそれを返す
（`balloc_cases`）。
-/

namespace Xv6.Fs

open Xv6.Lib Function

variable {sb : SuperBlock} {fs fs' : FsState}

/-- ブロック x の印を立てる。 -/
def FsState.setBit (sb : SuperBlock) (x : Nat) (fs : FsState) : FsState :=
  fs.writeBlock (BBLOCK x sb) (setByte (x % BPB / 8) (· ||| bitMask (x % BPB)))

/-- ブロック x の印を消す。 -/
def FsState.clearBit (sb : SuperBlock) (x : Nat) (fs : FsState) : FsState :=
  fs.writeBlock (BBLOCK x sb) (setByte (x % BPB / 8) (· &&& ~~~bitMask (x % BPB)))

@[simp] theorem FsState.setBit_inode (x : Nat) (fs : FsState) : (fs.setBit sb x).inode = fs.inode :=
  rfl

@[simp] theorem FsState.clearBit_inode (x : Nat) (fs : FsState) :
    (fs.clearBit sb x).inode = fs.inode := rfl

@[simp] theorem bzero_inode (x : Nat) (fs : FsState) : (bzero x fs).inode = fs.inode := rfl

/-- 印の位置（ビットマップのブロック、バイト、ビット）が同じなら同じブロックである。 -/
theorem eq_of_bitPos {x y : Nat} (hb : BBLOCK y sb = BBLOCK x sb) (hbyte : y % BPB / 8 = x % BPB / 8)
    (hbit : x % BPB % 8 = y % BPB % 8) : y = x := by
  unfold BBLOCK at hb
  simp only [BPB, BSIZE] at *
  omega

/-- `BPB` の倍数 b から bi 番目のブロックの印は、b の印のブロックの bi 番目にある。 -/
theorem bitPos_add (sb : SuperBlock) {b bi : Nat} (hb : b % BPB = 0) (hbi : bi < BPB) :
    BBLOCK (b + bi) sb = BBLOCK b sb ∧ (b + bi) % BPB = bi := by
  unfold BBLOCK
  simp only [BPB, BSIZE] at *
  omega

theorem FsState.used_writeBlock_of_ne {b y : Nat} (f : (Nat → UInt8) → Nat → UInt8)
    (h : BBLOCK y sb ≠ b) : (fs.writeBlock b f).used sb y = fs.used sb y := by
  unfold used
  rw [writeBlock_data_of_ne _ _ h]

@[simp] theorem FsState.used_setBit (x y : Nat) :
    (fs.setBit sb x).used sb y = (decide (y = x) || fs.used sb y) := by
  by_cases hb : BBLOCK y sb = BBLOCK x sb
  · unfold used setBit
    rw [hb, writeBlock_data_self, setByte]
    by_cases hbyte : y % BPB / 8 = x % BPB / 8
    · have key : x % BPB % 8 = y % BPB % 8 ↔ y = x := ⟨eq_of_bitPos hb hbyte, fun e => e ▸ rfl⟩
      rw [hbyte, update_self, testMask_or, decide_eq_decide.mpr key]
    · have hyx : y ≠ x := fun e => hbyte (e ▸ rfl)
      rw [update_of_ne hbyte]
      simp [hyx]
  · have hyx : y ≠ x := fun e => hb (e ▸ rfl)
    rw [setBit, used_writeBlock_of_ne _ hb]
    simp [hyx]

@[simp] theorem FsState.used_clearBit (x y : Nat) :
    (fs.clearBit sb x).used sb y = (decide (y ≠ x) && fs.used sb y) := by
  by_cases hb : BBLOCK y sb = BBLOCK x sb
  · unfold used clearBit
    rw [hb, writeBlock_data_self, setByte]
    by_cases hbyte : y % BPB / 8 = x % BPB / 8
    · have key : (x % BPB % 8 != y % BPB % 8) = decide (y ≠ x) := by
        rw [Bool.eq_iff_iff, bne_iff_ne, decide_eq_true_iff]
        exact not_congr ⟨eq_of_bitPos hb hbyte, fun e => e ▸ rfl⟩
      rw [hbyte, update_self, testMask_and_not, key]
    · have hyx : y ≠ x := fun e => hbyte (e ▸ rfl)
      rw [update_of_ne hbyte]
      simp [hyx]
  · have hyx : y ≠ x := fun e => hb (e ▸ rfl)
    rw [clearBit, used_writeBlock_of_ne _ hb]
    simp [hyx]

/-! ## balloc と bfree -/

theorem ballocBit_spec {size b : Nat} {bits : Nat → UInt8} :
    ∀ {bi fuel r : Nat}, ballocBit size b bits bi fuel = some r →
      r < BPB ∧ b + r < size ∧ testMask (bits (r / 8)) r = false
  | _, 0, _, h => by cases h
  | bi, fuel + 1, r, h => by
    unfold ballocBit at h
    split_ifs at h with hlt hz
    · cases h
      exact ⟨hlt.1, hlt.2, (and_bitMask_eq_zero _ _).mp hz⟩
    · exact ballocBit_spec h

/-- 外側のループが返す `(b, bi)` は、`b` が `BPB` の倍数で、ブロック `b + bi` が空いている。 -/
theorem ballocBlock_spec :
    ∀ {b fuel b' bi : Nat}, b % BPB = 0 → ballocBlock sb fs b fuel = some (b', bi) →
      b' % BPB = 0 ∧ bi < BPB ∧ b' + bi < sb.size ∧
        testMask (fs.data (BBLOCK b' sb) (bi / 8)) bi = false
  | _, 0, _, _, _, h => by cases h
  | b, fuel + 1, b', bi, hb, h => by
    unfold ballocBlock at h
    split_ifs at h with hlt
    split at h
    · rename_i r hr
      cases h
      exact ⟨hb, ballocBit_spec hr⟩
    · exact ballocBlock_spec (by rw [Nat.add_mod_right, hb]) h

/-- `balloc` は空きを見つけられないか、空いたブロック x の印を立てて 0 で埋める。 -/
theorem balloc_cases {x : Nat} (h : balloc sb fs = (x, fs')) :
    (x = 0 ∧ fs' = fs) ∨ (x < sb.size ∧ fs.used sb x = false ∧ fs' = bzero x (fs.setBit sb x)) := by
  unfold balloc at h
  split at h
  · rename_i b bi hbb
    obtain ⟨hb, hbi, hlt, hfree⟩ := ballocBlock_spec (by decide) hbb
    obtain ⟨rfl, rfl⟩ := Prod.mk.inj h
    obtain ⟨hblk, hmod⟩ := bitPos_add sb hb hbi
    refine .inr ⟨hlt, ?_, ?_⟩
    · rw [FsState.used, hblk, hmod, hfree]
    · rw [FsState.setBit, hblk, hmod]
  · obtain ⟨rfl, rfl⟩ := Prod.mk.inj h
    exact .inl ⟨rfl, rfl⟩

/-- `bfree` は、印が立っていれば消し、立っていなければ panic する。 -/
theorem bfree_eq (x : Nat) (fs : FsState) :
    bfree sb x fs = if fs.used sb x then some (fs.clearBit sb x) else none := by
  unfold bfree FsState.used FsState.clearBit
  by_cases h : testMask (fs.data (BBLOCK x sb) (x % BPB / 8)) (x % BPB) = true
  · have hz : ¬ fs.data (BBLOCK x sb) (x % BPB / 8) &&& bitMask (x % BPB) = 0 := by
      rw [and_bitMask_eq_zero]
      simp [h]
    simp only [hz, if_false, h, if_true]
  · have hz : fs.data (BBLOCK x sb) (x % BPB / 8) &&& bitMask (x % BPB) = 0 := by
      rw [and_bitMask_eq_zero]
      simpa using h
    simp only [hz, if_true]
    simp [h]

/-! ## 空きがないとき -/

/-- ファイルシステムのどのブロックにも使用中の印がある。 -/
def DiskFull (sb : SuperBlock) (fs : FsState) : Prop := ∀ y < sb.size, fs.used sb y = true

/-- 空きのブロックの数: `sb.size` より下で、使用中の印のないブロック。 -/
def freeCount (sb : SuperBlock) (fs : FsState) : Nat := (List.range sb.size).countP fun y => !fs.used sb y

theorem freeCount_congr (h : ∀ y < sb.size, fs'.used sb y = fs.used sb y) : freeCount sb fs' = freeCount sb fs :=
  List.countP_congr fun y hy => by rw [h y (List.mem_range.mp hy)]

theorem DiskFull.freeCount_eq (h : DiskFull sb fs) : freeCount sb fs = 0 :=
  List.countP_eq_zero.mpr fun y hy => by simp [h y (List.mem_range.mp hy)]

/-- 印を一つ立てると、空きは高々一つ減る。 -/
theorem freeCount_le_of_mark {x : Nat} (h : ∀ y < sb.size, fs'.used sb y = (decide (y = x) || fs.used sb y)) :
    freeCount sb fs ≤ freeCount sb fs' + 1 :=
  countP_le_countP_add_one x List.nodup_range fun y hy hyx hf => by
    simp only [Bool.not_eq_eq_eq_not, Bool.not_true] at hf
    simp [h y (List.mem_range.mp hy), hyx, hf]

/-- 内側のループが空きを見つけなければ、bi から燃料の分だけ調べた印はどれも立っている。 -/
theorem ballocBit_eq_none {size b : Nat} {bits : Nat → UInt8} :
    ∀ {bi fuel : Nat}, ballocBit size b bits bi fuel = none →
      ∀ bi', bi ≤ bi' → bi' < bi + fuel → bi' < BPB → b + bi' < size → testMask (bits (bi' / 8)) bi' = true
  | _, 0, _, _, h₁, h₂, _, _ => absurd h₂ (by omega)
  | bi, fuel + 1, h, bi', h₁, h₂, h₃, h₄ => by
    unfold ballocBit at h
    split_ifs at h with hlt hz
    · rcases Nat.eq_or_lt_of_le h₁ with rfl | h₁
      · -- 調べた bi の印が空きなら、そこで見つかっていた
        have hz' := (and_bitMask_eq_zero _ _).not.mp hz
        simpa using hz'
      · exact ballocBit_eq_none h bi' h₁ (by omega) h₃ h₄
    · exact absurd ⟨by omega, by omega⟩ hlt

/-- 外側のループが空きを見つけなければ、b から燃料の分のビットマップのブロックが覆う、size より
下のブロックはどれも使用中である。 -/
theorem ballocBlock_eq_none : ∀ {b fuel : Nat}, b % BPB = 0 → ballocBlock sb fs b fuel = none →
    ∀ y, b ≤ y → y < b + fuel * BPB → y < sb.size → fs.used sb y = true
  | _, 0, _, _, _, h₁, h₂, _ => absurd h₂ (by omega)
  | b, fuel + 1, hb, h, y, h₁, h₂, h₃ => by
    unfold ballocBlock at h
    split_ifs at h with hlt
    · split at h
      · cases h
      · rename_i hbit
        by_cases hy : y < b + BPB
        · obtain ⟨hblk, hmod⟩ := bitPos_add sb hb (show y - b < BPB by omega)
          have hy' : y = b + (y - b) := by omega
          rw [FsState.used, hy', hblk, hmod]
          exact ballocBit_eq_none hbit (y - b) (Nat.zero_le _) (by omega) (by omega) (by omega)
        · rw [Nat.succ_mul] at h₂
          exact ballocBlock_eq_none (by rw [Nat.add_mod_right, hb]) h y (by omega) (by omega) h₃
    · omega

/-- ブロック 0 に印があれば、`balloc` が 0 を返すのは空きがないときで、状態は変わらない。 -/
theorem balloc_eq_zero (h0 : fs.used sb 0 = true) (hB : balloc sb fs = (0, fs')) :
    fs' = fs ∧ DiskFull sb fs := by
  unfold balloc at hB
  split at hB
  · rename_i b bi hbb
    obtain ⟨hb, hbi, -, hfree⟩ := ballocBlock_spec (by decide) hbb
    -- 見つかったのはブロック 0 で、その印は立っている
    have hzero : b + bi = 0 := (Prod.mk.inj hB).1
    obtain ⟨hblk, hmod⟩ := bitPos_add sb hb hbi
    rw [FsState.used, ← hzero, hblk, hmod, hfree] at h0
    cases h0
  · refine ⟨(Prod.mk.inj hB).2.symm, fun y hy => ?_⟩
    rename_i hnone
    exact ballocBlock_eq_none (by decide) hnone y (Nat.zero_le y) (by simp only [BPB, BSIZE]; omega) hy

end Xv6.Fs
