import Xv6.Vm.Basic

/-!
# copyout と copyin の一回ごとの式

copyout と copyin の繰り返しの一回を、walkaddr の答えで場合分けした式にする。walkaddr が調べる
のは末端の PTE の `PTE_V` と `PTE_U` だけで、`PTE_W` は見ないので、copyout は利用者が読むだけの
ページにも書く（`copyout_writes_readonly_page`）。
-/

namespace Xv6.Vm

open Function Xv6.Lib Xv6.Kalloc

variable {s : Kmem} {pagetable dstva pa : Nat} {src : List UInt8}

@[simp] theorem copyout_nil (s : Kmem) (pagetable dstva : Nat) : copyout s pagetable dstva [] = (0, s) := by
  rw [copyout]
  simp

/-- 写せないページに当たると、何も書かずに -1 を返す。 -/
theorem copyout_of_walkaddr_eq_zero (hs : src ≠ []) (h : walkaddr s pagetable (PGROUNDDOWN dstva) = 0) :
    copyout s pagetable dstva src = (-1, s) := by
  rw [copyout, if_pos (List.length_pos_iff.mpr hs)]
  simp only [h, ↓reduceIte]

/-- 利用者のページに当たると、そのページに収まる頭を書いて、次のページから続ける。 -/
theorem copyout_of_walkaddr_ne_zero (hs : src ≠ []) (h : walkaddr s pagetable (PGROUNDDOWN dstva) = pa)
    (hpa : pa ≠ 0) :
    copyout s pagetable dstva src =
      copyout { s with mem := (storeBytes s.mem (pa + (dstva - PGROUNDDOWN dstva))
                              (src.take (min (PGSIZE - (dstva - PGROUNDDOWN dstva)) src.length))) }
        pagetable (PGROUNDDOWN dstva + PGSIZE) (src.drop (min (PGSIZE - (dstva - PGROUNDDOWN dstva)) src.length)) := by
  rw [copyout, if_pos (List.length_pos_iff.mpr hs)]
  simp only [h, hpa, ↓reduceIte]

/-- 一つの利用者のページに収まる列は、そのページの物理アドレスにそのまま書かれ、0 が返る。 -/
theorem copyout_within_page (hs : src ≠ []) (h : walkaddr s pagetable (PGROUNDDOWN dstva) = pa)
    (hpa : pa ≠ 0) (hfit : dstva - PGROUNDDOWN dstva + src.length ≤ PGSIZE) :
    copyout s pagetable dstva src =
      (0, { s with mem := storeBytes s.mem (pa + (dstva - PGROUNDDOWN dstva)) src }) := by
  have hn : min (PGSIZE - (dstva - PGROUNDDOWN dstva)) src.length = src.length := by omega
  rw [copyout_of_walkaddr_ne_zero hs h hpa, hn, List.take_length, List.drop_length, copyout_nil]

/-- 根 0x1000、中間 0x2000、末端 0x3000 の表が、仮想ページ 0 を物理ページ 0x4000 に
`PTE_V | PTE_R | PTE_U` で写す。`PTE_W` は無い。 -/
def readOnlyUserMem : Kmem where
  mem := setPte (setPte (setPte (fun _ => 0) 0x1000 (PA2PTE 0x2000 ||| PTE_V)) 0x2000 (PA2PTE 0x3000 ||| PTE_V))
    0x3000 (PA2PTE 0x4000 ||| PTE_V ||| PTE_R ||| PTE_U)
  freelist := 0

/-- copyout は `PTE_W` の無い利用者のページに書く。一つのページに収まる copyout は 0 を返して
物理ページ 0x4000 に書き、次の写されていないページにまたがる copyout は -1 を返すが、それでも
読むだけのページに書いている。 -/
theorem copyout_writes_readonly_page :
    ∃ (s : Kmem) (pte : Nat), (walkLoop 0 false 2 0x1000 s).1 = some pte ∧
      getPte s.mem pte &&& PTE_V ≠ 0 ∧ getPte s.mem pte &&& PTE_U ≠ 0 ∧ getPte s.mem pte &&& PTE_W = 0 ∧
      copyout s 0x1000 0 [42] = (0, { s with mem := update s.mem (PTE2PA (getPte s.mem pte)) 42 }) ∧
      copyout s 0x1000 4095 [42, 43] = (-1, { s with mem := update s.mem (PTE2PA (getPte s.mem pte) + 4095) 42 }) := by
  have hpte : getPte readOnlyUserMem.mem 0x3000 = PA2PTE 0x4000 ||| PTE_V ||| PTE_R ||| PTE_U := by decide
  have hpa : PTE2PA (PA2PTE 0x4000 ||| PTE_V ||| PTE_R ||| PTE_U) = 0x4000 := by decide
  have hva0 : walkaddr readOnlyUserMem 0x1000 (PGROUNDDOWN 0) = 0x4000 := by decide
  have hva4095 : walkaddr readOnlyUserMem 0x1000 (PGROUNDDOWN 4095) = 0x4000 := by decide
  refine ⟨readOnlyUserMem, 0x3000, by decide, by decide, by decide, by decide, ?_, ?_⟩
  · rw [hpte, hpa, copyout_within_page (List.cons_ne_nil _ _) hva0 (by decide) (by decide)]
    rfl
  · -- 頭のバイトは読むだけのページの最後に書かれ、次のページで walkaddr が 0 を返す
    rw [hpte, hpa, copyout_of_walkaddr_ne_zero (List.cons_ne_nil _ _) hva4095 (by decide)]
    have hn : min (PGSIZE - (4095 - PGROUNDDOWN 4095)) [(42 : UInt8), 43].length = 1 := by decide
    have hva1 : walkaddr { readOnlyUserMem with
        mem := storeBytes readOnlyUserMem.mem (0x4000 + (4095 - PGROUNDDOWN 4095)) (List.take 1 [42, 43]) }
        0x1000 (PGROUNDDOWN (PGROUNDDOWN 4095 + PGSIZE)) = 0 := by decide
    rw [hn, copyout_of_walkaddr_eq_zero ?ne hva1]
    case ne => decide
    rfl

end Xv6.Vm
