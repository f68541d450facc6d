import Mathlib.Tactic.NormNum
import Xv6.Vm.Basic
import Xv6.Lib.Radix

/-!
# ページ表を PTE の木として読む

物理メモリの揃ったページ t の i 番目の 8 バイトを PTE として読む（`ptes`）。`PTE_V` が有効の印で、
`PTE2PA` が子のページである（`pteScheme`）。仮想アドレス va の道は `PX 2 va`, `PX 1 va` で、
末端のページの欄 `PX 0 va` が va のページの PTE である。ページ表が表す写像 `pmap` は、その PTE が
有効なら（物理アドレス、フラグ）を返す。

walk の読むだけの繰り返しは基数木の `descend` で（`walkLoop_false`）、walkaddr は `pmap` が
`PTE_U` 付きで写すページの物理アドレスを返す（`walkaddr_eq`）。`setPte` と `memset` は、揃った
ページの PTE を一つだけ、またはページ一つ分だけ変える（`ptes_setPte`, `ptes_memset_of_ne`）。
-/

namespace Xv6.Vm

open Xv6.Lib Xv6.Kalloc Xv6.Lib.Radix

/-- 揃ったページ t の i 番目の PTE。 -/
def ptes (mem : Nat → UInt8) (t i : Nat) : Nat := getPte mem (t + 8 * i)

/-- PTE の読み方: `PTE_V` があれば有効で、`PTE2PA` が子のページ。 -/
def pteScheme : Scheme Nat Nat := ⟨fun e => e &&& PTE_V != 0, PTE2PA⟩

/-- walk が level から下でたどる欄の番号: `PX level va, ..., PX 1 va`。 -/
def levels (va : Nat) : Nat → List Nat
  | 0 => []
  | l + 1 => PX (l + 1) va :: levels va l

/-- ページ表が表す写像: va のページの PTE が有効なら、（物理アドレス、フラグ）。 -/
def pmap (mem : Nat → UInt8) (root va : Nat) : Option (Nat × Nat) :=
  (pteScheme.lookup (ptes mem) root (levels va 2) (PX 0 va)).map fun e => (PTE2PA e, PTE_FLAGS e)

/-! ## 仮想アドレスの欄の番号 -/

theorem PX_eq (l va : Nat) : PX l va = va / 2 ^ (12 + 9 * l) % 512 := by
  rw [PX, PXSHIFT, Nat.shiftRight_eq_div_pow, show PXMASK = 2 ^ 9 - 1 from rfl, Nat.and_two_pow_sub_one_eq_mod]

theorem PX_lt (l va : Nat) : PX l va < 512 := by
  rw [PX_eq]
  exact Nat.mod_lt _ (by norm_num)

theorem path_levels (va : Nat) : Path 512 2 (levels va 2) := by
  refine ⟨by simp [levels], fun i hi => ?_⟩
  simp only [levels, List.mem_cons, List.not_mem_nil, or_false] at hi
  rcases hi with rfl | rfl <;> exact PX_lt _ _

theorem length_levels (va l : Nat) : (levels va l).length = l := by
  induction l with
  | zero => rfl
  | succ l ih => simp [levels, ih]

/-- MAXVA より下の二つの揃ったアドレスは、三つの欄の番号が同じなら同じ。 -/
theorem eq_of_PX_eq {a b : Nat} (ha : a % PGSIZE = 0) (hb : b % PGSIZE = 0) (ha' : a < MAXVA) (hb' : b < MAXVA)
    (hl : levels a 2 = levels b 2) (h0 : PX 0 a = PX 0 b) : a = b := by
  simp only [levels, List.cons.injEq, and_true] at hl
  obtain ⟨h2, h1⟩ := hl
  rw [PX_eq, PX_eq] at h0 h1 h2
  norm_num at h0 h1 h2
  simp only [PGSIZE, MAXVA] at *
  omega

/-! ## PTE の組み立てと読み出し -/

theorem PA2PTE_or_eq (x : Nat) {f : Nat} (hf : f < 1024) : PA2PTE x ||| f = x / 4096 * 1024 + f := by
  rw [PA2PTE, ← Nat.shiftLeft_add_eq_or_of_lt (show f < 2 ^ 10 by norm_num; omega), Nat.shiftLeft_eq,
    Nat.shiftRight_eq_div_pow]

theorem PTE2PA_eq (e : Nat) : PTE2PA e = e / 1024 * 4096 % 2 ^ 64 := by
  rw [PTE2PA, Nat.shiftLeft_eq, Nat.shiftRight_eq_div_pow]

theorem PTE_FLAGS_eq (e : Nat) : PTE_FLAGS e = e % 1024 := by
  rw [PTE_FLAGS, show (0x3FF : Nat) = 2 ^ 10 - 1 from rfl, Nat.and_two_pow_sub_one_eq_mod]

/-- 64 ビットに収まる揃ったページ x とフラグ f から組み立てた PTE は、x と f を返す。 -/
theorem PTE2PA_PA2PTE_or {x f : Nat} (hx : x % PGSIZE = 0) (hx' : x < 2 ^ 64) (hf : f < 1024) :
    PTE2PA (PA2PTE x ||| f) = x := by
  rw [PTE2PA_eq, PA2PTE_or_eq x hf]
  simp only [PGSIZE] at hx
  omega

theorem PTE_FLAGS_PA2PTE_or (x : Nat) {f : Nat} (hf : f < 1024) : PTE_FLAGS (PA2PTE x ||| f) = f := by
  rw [PTE_FLAGS_eq, PA2PTE_or_eq x hf]
  omega

theorem PA2PTE_or_and_V (x : Nat) {f : Nat} (hf : f < 1024) : (PA2PTE x ||| f) &&& PTE_V = f % 2 := by
  rw [PA2PTE_or_eq x hf, show PTE_V = 1 from rfl, Nat.and_one_is_mod]
  omega

/-- PTE に書ける物理アドレスなら、組み立てた PTE は 64 ビットに収まる。 -/
theorem PA2PTE_or_lt {x f : Nat} (hx : x < 2 ^ 66) (hf : f < 1024) : PA2PTE x ||| f < 2 ^ 64 := by
  rw [PA2PTE_or_eq x hf]
  omega

theorem PTE_FLAGS_and_U (e : Nat) : PTE_FLAGS e &&& PTE_U = e &&& PTE_U := by
  rw [PTE_FLAGS, Nat.and_assoc]
  rfl

/-- `PTE_V` を足したフラグは有効の印を持つ。 -/
theorem or_PTE_V_mod_two (f : Nat) : (f ||| PTE_V) % 2 = 1 := by
  rw [← Nat.and_one_is_mod, Nat.and_or_distrib_right, Nat.and_one_is_mod]
  rcases Nat.mod_two_eq_zero_or_one f with h | h <;> rw [h] <;> rfl

theorem or_PTE_V_and_U (f : Nat) : (f ||| PTE_V) &&& PTE_U = f &&& PTE_U := by
  rw [Nat.and_or_distrib_right]
  exact Nat.or_zero _

theorem pteScheme_valid_iff (e : Nat) : pteScheme.valid e = true ↔ e &&& PTE_V ≠ 0 := by
  simp [pteScheme]

/-! ## walk と walkaddr -/

/-- alloc が 0 の walk の繰り返しは、欄の番号の列を `descend` でたどり、状態を変えない。 -/
theorem walkLoop_false (va : Nat) : ∀ (l t : Nat) (s : Kmem),
    walkLoop va false l t s = ((pteScheme.descend (ptes s.mem) t (levels va l)).map (· + 8 * PX 0 va), s)
  | 0, _, _ => rfl
  | l + 1, t, s => by
    simp only [walkLoop, levels, Scheme.descend, Scheme.child, pteScheme_valid_iff]
    by_cases h : getPte s.mem (t + 8 * PX (l + 1) va) &&& PTE_V ≠ 0
    · rw [if_pos h, walkLoop_false va l, ptes, if_pos h]
      rfl
    · rw [if_neg h, ptes, if_neg h]
      rfl

theorem walk_false (s : Kmem) (pagetable va : Nat) :
    walk s pagetable va false = if va ≥ MAXVA then none
      else some ((pteScheme.descend (ptes s.mem) pagetable (levels va 2)).map (· + 8 * PX 0 va), s) := by
  rw [walk, walkLoop_false]

/-- walkaddr は、va のページが `PTE_U` 付きで写されていればその物理アドレスを、そうでなければ 0 を
返す。 -/
theorem walkaddr_eq (s : Kmem) (pagetable : Nat) {va : Nat} (hva : va < MAXVA) :
    walkaddr s pagetable va =
      match pmap s.mem pagetable va with
      | none => 0
      | some (pa, fl) => if fl &&& PTE_U = 0 then 0 else pa := by
  rw [walkaddr, if_neg (Nat.not_le.mpr hva), walkLoop_false, pmap, Scheme.lookup]
  cases pteScheme.descend (ptes s.mem) pagetable (levels va 2) with
  | none => rfl
  | some t =>
    simp only [Option.map_some, Option.bind_some, pteScheme_valid_iff, ptes]
    by_cases hv : getPte s.mem (t + 8 * PX 0 va) &&& PTE_V = 0
    · simp [hv]
    · simp only [hv, ↓reduceIte, ne_eq, not_false_eq_true, Option.map_some, PTE_FLAGS_and_U]

/-! ## 書き込みが変える PTE -/

/-- 揃ったページの欄への `*pte = v` は、その欄だけを変える。 -/
theorem ptes_setPte (mem : Nat → UInt8) {t₀ i₀ v t i : Nat} (ht₀ : t₀ % PGSIZE = 0) (hi₀ : i₀ < 512)
    (ht : t % PGSIZE = 0) (hi : i < 512) :
    ptes (setPte mem (t₀ + 8 * i₀) v) t i = if t = t₀ ∧ i = i₀ then v % 2 ^ 64 else ptes mem t i := by
  unfold ptes getPte setPte
  split
  · next h =>
    obtain ⟨rfl, rfl⟩ := h
    rw [loadLE_storeLE]
    norm_num
  · next h =>
    refine loadLE_congr fun j h₁ h₂ => storeLE_of_not_mem v ?_
    simp only [PGSIZE] at ht ht₀
    omega

/-- ページ p を埋めても、ほかの揃ったページの PTE は変わらない。 -/
theorem ptes_memset_of_ne (mem : Nat → UInt8) {p t i : Nat} (c : UInt8) (hp : p % PGSIZE = 0)
    (ht : t % PGSIZE = 0) (hne : t ≠ p) (hi : i < 512) :
    ptes (memset mem p c PGSIZE) t i = ptes mem t i := by
  refine loadLE_congr fun j h₁ h₂ => memset_of_not_mem c ?_
  simp only [PGSIZE] at *
  omega

theorem ptes_memset_self (mem : Nat → UInt8) {p i : Nat} (hi : i < 512) :
    ptes (memset mem p 0 PGSIZE) p i = 0 :=
  loadLE_memset_zero (by omega) (by simp only [PGSIZE]; omega)

end Xv6.Vm
