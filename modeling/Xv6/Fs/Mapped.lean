import Xv6.Fs.ReadWrite

/-!
# 大きさより下のバイトは、どの操作の後もブロックにある

`writei_spec` と `readi_spec` は、inode の大きさより下のバイトがどれもブロックにあること
（`DInode.Mapped`）を前提にする。持ち主の性質 `BlocksOwned` の下では、使用中のどの inode でも
そうであること（`AllMapped`）は、fs.c のどの操作でも保たれる（`AllMapped.step`）。操作は inode
inum のほかの inode に触れず（`Untouched`）、inum 自身では、`writei` は書いた範囲までブロックを
残し、`readi` は状態を変えず、`itrunc` と `ialloc` は大きさを 0 にし、`iput` は inode を使用中で
なくする。
-/

namespace Xv6.Fs

open Xv6.Lib

/-- 使用中のどの inode でも、大きさより下のバイトはブロックにある。 -/
def AllMapped (sb : SuperBlock) (fs : FsState) : Prop :=
  ∀ inum, InUse sb fs inum → (fs.inode inum).Mapped fs.data

variable {sb : SuperBlock} {fs fs' : FsState} {inum : Nat}

theorem DInode.mapped_of_size_zero {ip : DInode} {data : Nat → Nat → UInt8} (h : ip.size = 0) :
    ip.Mapped data :=
  fun _ hi => absurd hi (by omega)

/-- 大きさと欄が同じ inode は、同じバイトをブロックに持つ。 -/
theorem DInode.mapped_congr {ip ip' : DInode} {data data' : Nat → Nat → UInt8} (hs : ip'.size = ip.size)
    (hslot : ip'.slot data' = ip.slot data) (h : ip.Mapped data) : ip'.Mapped data' := by
  intro i hi
  have hblk : ip'.blockAt data' (i / BSIZE) = ip.blockAt data (i / BSIZE) := by
    unfold DInode.blockAt
    rw [hslot]
  rw [hblk]
  exact h i (hs ▸ hi)

/-- ほかの inode に触れない操作の後、inum でそうであれば、使用中のどの inode でもそうである。 -/
theorem AllMapped.of_untouched (hm : AllMapped sb fs) (hu : Untouched sb inum fs fs')
    (hself : InUse sb fs' inum → (fs'.inode inum).Mapped fs'.data) : AllMapped sb fs' := by
  intro i hi
  by_cases e : i = inum
  · subst e
    exact hself hi
  obtain ⟨hin, href⟩ := hu i e
  have hi₀ : InUse sb fs i := by
    simpa only [InUse, hin] using hi
  -- ほかの inode は表の中身も欄も同じである
  have hslot : (fs'.inode i).slot fs'.data = (fs.inode i).slot fs.data := href hi₀
  exact DInode.mapped_congr (by rw [hin]) hslot (hm i hi₀)

/-- `ialloc` は見つけた inode を 0 で埋めて型を書き、ほかは変えない。 -/
theorem ialloc_eq_some {type : Int} {fs₁ : FsState} (h : Fs.ialloc sb type fs = some (inum, fs₁)) :
    fs₁ = fs.iupdate inum ⟨type, 0, 0, fun _ => 0⟩ := by
  unfold Fs.ialloc at h
  split at h
  · obtain ⟨rfl, rfl⟩ := by simpa using h
    rfl
  · cases h

/-! ## 一つの操作 -/

/-- fs.c のどの操作も、持ち主の性質の下で `AllMapped` を保つ。 -/
theorem AllMapped.step (hm : AllMapped sb fs) (h : BlocksOwned sb fs) (hl : LayoutOK sb) {op : FsOp}
    (hs : op.step sb fs = some fs') : AllMapped sb fs' := by
  cases op with
  | ialloc type =>
    obtain ⟨⟨inum, fs₁⟩, hi, rfl⟩ := Option.map_eq_some_iff.mp hs
    rw [ialloc_eq_some hi]
    -- 新しい inode は大きさ 0 で、ほかの inode は変わらない
    exact hm.of_untouched (Untouched.iupdate _ _) fun _ => DInode.mapped_of_size_zero (by simp)
  | writei inum mem src off n =>
    by_cases ha : InUse sb fs inum
    · simp only [FsOp.step, if_pos ha, Option.map_eq_some_iff] at hs
      obtain ⟨⟨v, fs₁⟩, hw, rfl⟩ := hs
      exact hm.of_untouched (h.writei hl ha hw).2 fun _ => writei_mapped hl h ha (hm inum ha) hw
    · simp [FsOp.step, ha] at hs
  | readi inum out dst off n =>
    by_cases ha : InUse sb fs inum
    · simp only [FsOp.step, if_pos ha, Option.map_eq_some_iff] at hs
      obtain ⟨⟨v, acc, fs₁⟩, hr, rfl⟩ := hs
      rw [readi_state (hm inum ha) hr]
      exact hm
    · simp [FsOp.step, ha] at hs
  | itrunc inum =>
    by_cases ha : InUse sb fs inum
    · simp only [FsOp.step, if_pos ha] at hs
      obtain ⟨fs₁, ht, -, hsize, hU⟩ := h.itrunc ha
      rw [ht] at hs
      cases hs
      exact hm.of_untouched hU fun _ => DInode.mapped_of_size_zero hsize
    · simp [FsOp.step, ha] at hs
  | setNlink inum nlink =>
    by_cases ha : InUse sb fs inum
    · simp only [FsOp.step, if_pos ha, Option.some.injEq] at hs
      subst hs
      -- リンク数のほかは同じ inode を書き戻す
      refine hm.of_untouched (Untouched.iupdate _ _) fun _ => ?_
      rw [FsState.iupdate_inode_self, FsState.iupdate_data]
      exact hm inum ha
    · simp [FsOp.step, ha] at hs
  | iput inum =>
    by_cases ha : InUse sb fs inum ∧ (fs.inode inum).nlink = 0
    · simp only [FsOp.step, if_pos ha] at hs
      obtain ⟨fs₁, ht, -, hfree, hU⟩ := h.iputFree ha.1
      rw [ht] at hs
      cases hs
      exact hm.of_untouched hU fun hi => absurd hi hfree
    · simp only [FsOp.step, if_neg ha, reduceCtorEq] at hs

/-! ## 操作の列 -/

end Xv6.Fs
