import Xv6.Vm.Map

/-!
# ページ表が表す写像と、mappages、uvmunmap、walk

ページ表を仮想ページから（物理ページ、フラグ）への部分写像 `pmap` として読むと、三つの操作は次の
ようにそれを書き換える。

* mappages が 0 を返せば、`PGROUNDDOWN(va)` から `PGROUNDDOWN(va + size - 1)` までの各ページ a は
  `pa + (a - PGROUNDDOWN(va))` に `perm | PTE_V` で写され、`PTE_U` があれば walkaddr もそれを返す。
  `va + size - 1` と `pa += PGSIZE` は uint64 の計算なので、どちらも 2^64 で回したものになる。
* uvmunmap が返れば、va から上限 `va + npages*PGSIZE`（これも 2^64 で回る）の手前までのページは
  写されていて、その写像が消える。
* alloc が 0 の walk は状態を変えない。

どれも、ほかのページの写像は変えない。mappages には pa が揃った uint64 であること、perm が PTE の
フラグの 10 ビットに収まること、kalloc の空きのページがページ表の節でないこと（`PtInv`）が要る。
`PA2PTE` は pa の下位 12 ビットを落とすので、揃っていない pa のページは `PGROUNDDOWN(pa)` に写される。
10 ビットを越える perm は `|` で PTE の物理ページの番号のビットを立て、ページを別の物理ページに写す。
uvmunmap の do_free には、解放するページが節でないことが要る。
-/

namespace Xv6.Vm

open Xv6.Lib Xv6.Kalloc Xv6.Lib.Radix

/-- ページ表の操作の仕様: mappages、uvmunmap、alloc が 0 の walk が写像 `pmap` をどう変えるか。 -/
theorem pagetable_refines_pmap {kernEnd root : Nat} :
    (∀ (s s' : Kmem) (free : List Nat) (va size pa perm : Nat), PtInv s root free → pa % PGSIZE = 0 →
      pa < 2 ^ 64 → perm < 1024 → mappages s root va size pa perm = some (0, s') →
      (∃ free', PtInv s' root free') ∧
      (∀ a, a % PGSIZE = 0 → PGROUNDDOWN va ≤ a → a ≤ PGROUNDDOWN ((va + size - 1) % 2 ^ 64) →
        a < MAXVA ∧ pmap s'.mem root a = some ((pa + (a - PGROUNDDOWN va)) % 2 ^ 64, perm ||| PTE_V) ∧
          (perm &&& PTE_U ≠ 0 → walkaddr s' root a = (pa + (a - PGROUNDDOWN va)) % 2 ^ 64)) ∧
      ∀ b, b % PGSIZE = 0 → b < MAXVA → ¬ (PGROUNDDOWN va ≤ b ∧ b ≤ PGROUNDDOWN ((va + size - 1) % 2 ^ 64)) →
        pmap s'.mem root b = pmap s.mem root b) ∧
    (∀ (s s' : Kmem) (va npages : Nat) (doFree : Bool), PtWF s.mem root →
      (doFree = true → ∀ b pa fl, b % PGSIZE = 0 → b < MAXVA → va ≤ b → b < (va + npages * PGSIZE) % 2 ^ 64 →
        pmap s.mem root b = some (pa, fl) → ¬ IsTable s.mem root pa) →
      uvmunmap kernEnd s root va npages doFree = some s' →
      PtWF s'.mem root ∧
      (∀ b, b % PGSIZE = 0 → va ≤ b → b < (va + npages * PGSIZE) % 2 ^ 64 →
        b < MAXVA ∧ pmap s.mem root b ≠ none ∧ pmap s'.mem root b = none) ∧
      ∀ b, b % PGSIZE = 0 → b < MAXVA → ¬ (va ≤ b ∧ b < (va + npages * PGSIZE) % 2 ^ 64) →
        pmap s'.mem root b = pmap s.mem root b) ∧
    ∀ (s : Kmem) (va : Nat) (r : Option Nat × Kmem), walk s root va false = some r → r.2 = s := by
  refine ⟨fun s s' free va size pa perm hinv hpa hpa' hperm hrun => ?_,
    fun s s' va npages doFree h hfree hrun => ?_, fun s va r hw => ?_⟩
  · obtain ⟨hinv', hlast, hmap⟩ := mappages_spec hinv hpa hpa' hperm hrun
    refine ⟨hinv', fun a ha h₁ h₂ => ?_, fun b hb hb' hout => by rw [hmap b hb hb', if_neg hout]⟩
    have hmax : a < MAXVA := Nat.lt_of_le_of_lt h₂ hlast
    have hpm := (hmap a ha hmax).trans (if_pos ⟨h₁, h₂⟩)
    refine ⟨hmax, hpm, fun hU => ?_⟩
    -- walkaddr は pmap のフラグの PTE_U を見る。PTE_V を足しても PTE_U は変わらない
    rw [walkaddr_eq s' root hmax, hpm]
    simp only [or_PTE_V_and_U, if_neg hU]
  · obtain ⟨h', hrange, hmapped, hpm⟩ := uvmunmap_spec h hfree hrun
    refine ⟨h', fun b hb h₁ h₂ => ?_, fun b hb hb' hout => by rw [hpm b hb hb', if_neg hout]⟩
    have hmax := hrange b h₁ h₂
    exact ⟨hmax, hmapped b hb h₁ h₂, by rw [hpm b hb hmax, if_pos ⟨h₁, h₂⟩]⟩
  · rw [walk_false] at hw
    split at hw
    · cases hw
    · cases hw
      rfl

/-! ## 空の根の状態 -/

/-- 根のどの欄も無効なら、節は根だけで、揃った根と、根を通らない揃った空きリストで不変条件が成り立つ。 -/
theorem PtInv.of_invalid {s : Kmem} {root : Nat} {F : List Nat}
    (hroot : ∀ i < 512, pteScheme.valid (ptes s.mem root i) = false) (hr : root % PGSIZE = 0)
    (hseg : ListSeg s.next 0 s.freelist F) (hF : ∀ x ∈ F, x % PGSIZE = 0 ∧ x < 2 ^ 64) (hne : root ∉ F) :
    PtInv s root F := by
  have hnode : ∀ t, IsTable s.mem root t ↔ t = root := fun t => Scheme.isNode_iff_of_invalid hroot
  refine ⟨⟨Scheme.unique_of_invalid hroot, fun t ht => ?_⟩, hseg, hF, fun x hx hxt => ?_⟩
  · rw [(hnode t).mp ht]
    exact hr
  · rw [hnode] at hxt
    exact hne (hxt ▸ hx)

/-- 根 0x1000 のどの欄も無効で、空きリストが 0x2000, 0x3000 の二ページの状態。 -/
def emptyTable : Kmem := ⟨setPte (fun _ => 0) 0x2000 0x3000, 0x2000⟩

theorem ptes_emptyTable_root {i : Nat} (hi : i < 512) : ptes emptyTable.mem 0x1000 i = 0 := by
  show ptes (setPte (fun _ => 0) (0x2000 + 8 * 0) 0x3000) 0x1000 i = 0
  rw [ptes_setPte _ (by decide) (by decide) (by decide) hi, if_neg (by omega)]
  exact loadLE_zero _ 8

/-- 空の根のページ表の節は根だけで、空きリストの二ページは節でない。 -/
theorem emptyTable_inv : PtInv emptyTable 0x1000 [0x2000, 0x3000] := by
  refine PtInv.of_invalid (fun i hi => by rw [ptes_emptyTable_root hi]; rfl) (by decide) ?_ (fun x hx => ?_)
    (by decide)
  · refine ⟨rfl, by decide, by decide, by decide, ?_⟩
    show emptyTable.next 0x3000 = 0
    decide
  · simp only [List.mem_cons, List.not_mem_nil, or_false] at hx
    rcases hx with rfl | rfl <;> decide

/-- 各ページの先頭 8 バイトに次のページの番地を書いた、空きのページの鎖のメモリ。ほかのバイトは 0。 -/
def chainMem : List Nat → Nat → UInt8
  | x :: y :: rest => setPte (chainMem (y :: rest)) x y
  | _ => fun _ => 0

/-- 鎖のどのページより下のバイトも 0 のまま。 -/
theorem chainMem_of_lt {a : Nat} : ∀ {C : List Nat}, (∀ x ∈ C, a < x) → chainMem C a = 0
  | [], _ => rfl
  | [_], _ => rfl
  | x :: y :: rest, h => by
    have hx := h x List.mem_cons_self
    rw [chainMem, setPte, storeLE_of_not_mem _ (by omega)]
    exact chainMem_of_lt fun z hz => h z (List.mem_cons_of_mem _ hz)

/-- 0x2000 から 0x9000 までの八ページ。 -/
def chainPages : List Nat := [0x2000, 0x3000, 0x4000, 0x5000, 0x6000, 0x7000, 0x8000, 0x9000]

/-- 根 0x1000 のどの欄も無効で、空きリストが `chainPages` の八ページの状態。 -/
def chainTable : Kmem := ⟨chainMem chainPages, 0x2000⟩

theorem chainPages_bounds {x : Nat} (hx : x ∈ chainPages) : 0x2000 ≤ x ∧ x % PGSIZE = 0 ∧ x < 0xA000 := by
  simp only [chainPages, List.mem_cons, List.not_mem_nil, or_false] at hx
  rcases hx with rfl | rfl | rfl | rfl | rfl | rfl | rfl | rfl <;> decide

theorem ptes_chainTable_root {i : Nat} (hi : i < 512) : ptes chainTable.mem 0x1000 i = 0 := by
  rw [ptes, getPte, ← loadLE_zero (0x1000 + 8 * i) 8]
  -- 根の欄のバイトは、鎖のどのページよりも下にある
  refine loadLE_congr fun j _ hj => chainMem_of_lt fun x hx => ?_
  have := (chainPages_bounds hx).1
  omega

/-- 0xA000 から上のページは鎖にない。 -/
theorem not_mem_chainPages {x : Nat} (h : 0xA000 ≤ x) : x ∉ chainPages := fun hx =>
  absurd (chainPages_bounds hx).2.2 (Nat.not_lt.mpr h)

theorem valid_chainTable_root {i : Nat} (hi : i < 512) : pteScheme.valid (ptes chainTable.mem 0x1000 i) = false := by
  rw [ptes_chainTable_root hi]
  rfl

/-- 鎖の根のページ表の節は根だけである。 -/
theorem isTable_chainTable {t : Nat} : IsTable chainTable.mem 0x1000 t ↔ t = 0x1000 :=
  Scheme.isNode_iff_of_invalid fun _ hi => valid_chainTable_root hi

/-- 鎖の根の空きリストは八ページを順に通る。 -/
theorem chainTable_inv : PtInv chainTable 0x1000 chainPages := by
  refine PtInv.of_invalid (fun _ hi => valid_chainTable_root hi) (by decide) ?_ (fun x hx => ?_)
    fun hx => absurd (chainPages_bounds hx).1 (by decide)
  · simp only [chainPages, ListSeg]
    decide
  · have := chainPages_bounds hx
    exact ⟨this.2.1, by omega⟩

/-- 空の根から va 0 への walk は、空きリストの二ページを中間と末端のページにして、0x3000 の欄 0 を
返す。 -/
theorem walkLoop_emptyTable : (walkLoop 0 true 2 0x1000 emptyTable).1 = some 0x3000 := by
  decide

/-- 空の根の walk の後に、0x3000 の欄 0 に pa と perm の PTE を書いた状態。 -/
def emptyTableMapped (pa perm : Nat) : Kmem :=
  { (walkLoop 0 true 2 0x1000 emptyTable).2 with
    mem := setPte (walkLoop 0 true 2 0x1000 emptyTable).2.mem 0x3000 (PA2PTE pa ||| perm ||| PTE_V) }

/-- 空の根への 1 ページの mappages は、walk の後の状態で 0x3000 の欄 0 に PTE を書く。 -/
theorem mappages_emptyTable (pa perm : Nat) :
    mappages emptyTable 0x1000 0 PGSIZE pa perm = some (0, emptyTableMapped pa perm) := by
  rw [mappages, if_neg (by decide), show PGROUNDDOWN ((0 + PGSIZE - 1) % 2 ^ 64) = 0 by decide,
    show PGROUNDDOWN 0 = 0 from rfl]
  exact mappagesLoop_last (by decide) (Prod.ext walkLoop_emptyTable rfl) (by decide)

/-- 揃った pa への 1 ページの mappages と、その uvmunmap、alloc が 0 の walk。 -/
theorem pagetable_refines_pmap_emptyTable :
    ∃ s' s'', mappages emptyTable 0x1000 0 PGSIZE 0x5000 (PTE_R ||| PTE_U) = some (0, s') ∧
      pmap s'.mem 0x1000 0 = some (0x5000, PTE_R ||| PTE_U ||| PTE_V) ∧ walkaddr s' 0x1000 0 = 0x5000 ∧
      uvmunmap 0 s' 0x1000 0 1 false = some s'' ∧ pmap s''.mem 0x1000 0 = none ∧
      (walkLoop 0 false 2 0x1000 s'').2 = s'' := by
  have hrun := mappages_emptyTable 0x5000 (PTE_R ||| PTE_U)
  obtain ⟨⟨free', hinv'⟩, hin, -⟩ := (@pagetable_refines_pmap 0 0x1000).1 _ _ _ _ _ _ _
    emptyTable_inv (by decide) (by decide) (by decide) hrun
  obtain ⟨-, hpm, hwa⟩ := hin 0 (by decide) (by decide) (by decide)
  -- ページ 0 の物理アドレス `(0x5000 + (0 - PGROUNDDOWN 0)) % 2^64` は 0x5000
  have h0 : (0x5000 + (0 - PGROUNDDOWN 0)) % 2 ^ 64 = 0x5000 := by decide
  rw [h0] at hpm hwa
  obtain ⟨s'', hun⟩ := Option.isSome_iff_exists.mp
    (by decide : (uvmunmap 0 (emptyTableMapped 0x5000 (PTE_R ||| PTE_U)) 0x1000 0 1 false).isSome)
  obtain ⟨-, hgone, -⟩ := (@pagetable_refines_pmap 0 0x1000).2.1 _ s'' 0 1 false hinv'.toPtWF
    (fun h => absurd h (by decide)) hun
  obtain ⟨-, -, hnone⟩ := hgone 0 (by decide) (by decide) (by decide)
  have hwalk : walk s'' 0x1000 0 false = some (walkLoop 0 false 2 0x1000 s'') := by
    rw [walk, if_neg (by decide)]
  exact ⟨_, s'', hrun, hpm, hwa (by decide), hun, hnone,
    (@pagetable_refines_pmap 0 0x1000).2.2 s'' 0 _ hwalk⟩

/-- 揃っていない pa 0x5001 への mappages は 0 を返すが、ページ 0 は 0x5001 でなく 0x5000 に写され、
walkaddr も 0x5000 を返す。揃った 0x5000 でも、perm の 0x800 は PTE の物理ページの番号のビットに入るので、
ページ 0 は 0x7000 に写される。 -/
theorem mappages_unaligned_pa_or_wide_perm :
    PtWF emptyTable.mem 0x1000 ∧
      (∃ s', mappages emptyTable 0x1000 0 PGSIZE 0x5001 (PTE_R ||| PTE_U) = some (0, s') ∧
        pmap s'.mem 0x1000 0 = some (0x5000, PTE_R ||| PTE_U ||| PTE_V) ∧ walkaddr s' 0x1000 0 = 0x5000) ∧
      ∃ s', mappages emptyTable 0x1000 0 PGSIZE 0x5000 (0x800 ||| PTE_R ||| PTE_U) = some (0, s') ∧
        pmap s'.mem 0x1000 0 = some (0x7000, PTE_R ||| PTE_U ||| PTE_V) ∧ walkaddr s' 0x1000 0 = 0x7000 :=
  ⟨emptyTable_inv.toPtWF, ⟨_, mappages_emptyTable 0x5001 (PTE_R ||| PTE_U), by decide, by decide⟩,
    _, mappages_emptyTable 0x5000 (0x800 ||| PTE_R ||| PTE_U), by decide, by decide⟩

end Xv6.Vm
