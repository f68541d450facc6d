import Xv6.Kalloc.Basic
import Xv6.Lib.FreeList
import Xv6.Lib.Reach

/-!
# 空きリストと割り当て中のページ

コードにない幽霊の変数として、割り当て中のページの列を持つ（`PageState`）。起動の時点では
`[PGROUNDUP(end), PHYSTOP)` のページはすべてカーネルの手にあり、kinit の `freerange` がそれを
一つずつ kfree する。遷移は kalloc、割り当て中のページの kfree、割り当て中のページか管理の外への
一バイトの書き込みである（`PageStep`）。

不変条件 `FreeListOK` は、`kmem.freelist` からページの先頭の `next` をたどると空きのページの列
free を通って null に着き、free と割り当て中のページの列がページ全体を二つに分けることである。
各遷移はページ x の中だけを書き換えるので、x と違う空きのページの `next` は変わらない
（`next_of_outside`）。ここから、到達可能なすべての状態で空きリストが重複なく null に着き、
kalloc が割り当て中のページを返さないことが従う（`reach_kmemSafe`）。
-/

namespace Xv6.Kalloc

open Xv6.Lib Function

variable {kernEnd : Nat}

/-- `[PGROUNDUP(end), PHYSTOP)` のページの先頭。 -/
def Page (kernEnd x : Nat) : Prop := x % PGSIZE = 0 ∧ PGROUNDUP kernEnd ≤ x ∧ x < PHYSTOP

instance (kernEnd x : Nat) : Decidable (Page kernEnd x) :=
  inferInstanceAs (Decidable (_ ∧ _ ∧ _))

/-- freerange が p から順に解放するページの列。 -/
def pagesFrom (p : Nat) : List Nat :=
  if p + PGSIZE ≤ PHYSTOP then p :: pagesFrom (p + PGSIZE) else []
termination_by PHYSTOP - p
decreasing_by
  simp only [PGSIZE, PHYSTOP, KERNBASE] at *
  omega

theorem mem_pagesFrom {p x : Nat} (hp : p % PGSIZE = 0) :
    x ∈ pagesFrom p ↔ x % PGSIZE = 0 ∧ p ≤ x ∧ x < PHYSTOP := by
  fun_induction pagesFrom p with
  | case1 p h ih =>
      rw [List.mem_cons, ih (by simp only [PGSIZE] at *; omega)]
      simp only [PGSIZE, PHYSTOP, KERNBASE] at *
      omega
  | case2 p h =>
      simp only [List.not_mem_nil, false_iff]
      simp only [PGSIZE, PHYSTOP, KERNBASE] at *
      omega

theorem le_of_mem_pagesFrom {p x : Nat} (hx : x ∈ pagesFrom p) : p ≤ x := by
  fun_induction pagesFrom p with
  | case1 p h ih =>
      rcases List.mem_cons.mp hx with rfl | hx
      · exact Nat.le_refl x
      · have := ih hx
        omega
  | case2 p h => simp at hx

theorem pagesFrom_nodup (p : Nat) : (pagesFrom p).Nodup := by
  fun_induction pagesFrom p with
  | case1 p h ih =>
      refine List.nodup_cons.mpr ⟨fun hp => ?_, ih⟩
      have := le_of_mem_pagesFrom hp
      simp only [PGSIZE] at this
      omega
  | case2 p h => exact List.nodup_nil

/-! ## 状態と遷移 -/

/-- `kmem` と、割り当て中のページの列。後者は kalloc が返してまだ kfree に渡されていないページと、
kinit がまだ解放していないページである。 -/
structure PageState where
  kmem : Kmem
  allocated : List Nat

/-- 起動の時点: `kmem` は静的な変数なので空きリストは空で、メモリの中身は任意。ページはすべて
カーネルの手にある。 -/
def Boot (kernEnd : Nat) (s : PageState) : Prop :=
  s.kmem.freelist = 0 ∧ s.allocated = pagesFrom (PGROUNDUP kernEnd)

/-- kalloc を呼んだ後の状態。返したページが割り当て中になる。 -/
def PageState.kalloc (s : PageState) : PageState :=
  ⟨(Kalloc.kalloc s.kmem).2,
    if (Kalloc.kalloc s.kmem).1 = 0 then s.allocated else (Kalloc.kalloc s.kmem).1 :: s.allocated⟩

/-- 割り当ての遷移: kalloc、割り当て中のページの kfree、割り当て中のページか
`[PGROUNDUP(end), PHYSTOP)` の外への一バイトの書き込み。 -/
inductive PageStep (kernEnd : Nat) : PageState → PageState → Prop where
  | kalloc (s : PageState) : PageStep kernEnd s s.kalloc
  | kfree {s : PageState} {pa : Nat} {m : Kmem} (hpa : pa ∈ s.allocated)
      (h : kfree kernEnd pa s.kmem = some m) : PageStep kernEnd s ⟨m, s.allocated.erase pa⟩
  | write {s : PageState} (a : Nat) (v : UInt8)
      (ha : (∃ q ∈ s.allocated, q ≤ a ∧ a < q + PGSIZE) ∨ a < PGROUNDUP kernEnd ∨ PHYSTOP ≤ a) :
      PageStep kernEnd s ⟨{ s.kmem with mem := update s.kmem.mem a v }, s.allocated⟩

/-! ## 一つのページの中の書き込み -/

/-- 揃った二つのページが同じバイトを含めば、同じページである。 -/
theorem eq_of_page_overlap {x y i : Nat} (hx : x % PGSIZE = 0) (hy : y % PGSIZE = 0)
    (hxi : x ≤ i ∧ i < x + PGSIZE) (hyi : y ≤ i ∧ i < y + PGSIZE) : x = y := by
  simp only [PGSIZE] at *
  omega

/-- ページ x の外を変えない書き込みは、x と違うページ y の `next` を変えない。 -/
theorem next_of_outside {s s' : Kmem} {x y : Nat}
    (hmem : ∀ i, ¬ (x ≤ i ∧ i < x + PGSIZE) → s'.mem i = s.mem i)
    (hx : x % PGSIZE = 0) (hy : y % PGSIZE = 0) (hne : y ≠ x) : s'.next y = s.next y :=
  loadLE_congr fun i h₁ h₂ => hmem i fun hxi =>
    hne (eq_of_page_overlap hy hx ⟨h₁, by simp only [PGSIZE]; omega⟩ hxi)

theorem Page.aligned {x : Nat} (h : Page kernEnd x) : x % PGSIZE = 0 := h.1

theorem Page.pos (hend : 0 < kernEnd) {x : Nat} (h : Page kernEnd x) : x ≠ 0 := by
  have := le_PGROUNDUP kernEnd
  have := h.2.1
  omega

/-- ページの先頭の 8 バイトは `PHYSTOP` より下にある。 -/
theorem Page.add_le {x : Nat} (h : Page kernEnd x) : x + PGSIZE ≤ PHYSTOP := by
  obtain ⟨h₁, -, h₃⟩ := h
  simp only [PGSIZE, PHYSTOP, KERNBASE] at *
  omega

/-- ページのアドレスは uint64 に収まり、PTE に書ける。 -/
theorem Page.lt_pte {x : Nat} (h : Page kernEnd x) : x < 2 ^ 64 :=
  Nat.lt_trans h.2.2 (by decide)

/-- ページの kfree は panic しない。 -/
theorem kfree_of_page {pa : Nat} (s : Kmem) (hpe : kernEnd ≤ pa) (hp : pa % PGSIZE = 0)
    (hlt : pa < PHYSTOP) :
    kfree kernEnd pa s = some ⟨storeLE (memset s.mem pa 1 PGSIZE) pa s.freelist 8, pa⟩ := by
  rw [kfree, if_neg (by omega)]

/-! ## 不変条件 -/

/-- 空きリストの不変条件: 頭から `next` をたどると free を通って null に着き、free と割り当て中の
ページの列がページ全体を二つに分ける。 -/
structure FreeListOK (kernEnd : Nat) (s : PageState) (free : List Nat) : Prop where
  seg : ListSeg s.kmem.next 0 s.kmem.freelist free
  split : Split (Page kernEnd) free s.allocated

theorem FreeListOK.boot {s : PageState} (h : Boot kernEnd s) : FreeListOK kernEnd s [] where
  seg := h.1
  split := by
    refine ⟨List.nodup_nil, h.2 ▸ pagesFrom_nodup _, fun x hx => by simp at hx, fun x => ?_⟩
    rw [h.2, mem_pagesFrom (PGROUNDUP_mod kernEnd)]
    simp [Page]

/-- 空きリストの頭は null か、空きのページ。 -/
theorem FreeListOK.freelist_lt {s : PageState} {free : List Nat} (h : FreeListOK kernEnd s free) :
    s.kmem.freelist < 256 ^ 8 := by
  cases free with
  | nil =>
      rw [h.seg]
      decide
  | cons x free =>
      have hx : Page kernEnd x := h.split.of_left List.mem_cons_self
      have := hx.2.2
      rw [h.seg.1]
      simp only [PHYSTOP, KERNBASE] at this
      omega

theorem FreeListOK.kalloc {s : PageState} {free : List Nat} (h : FreeListOK kernEnd s free) :
    ∃ free', FreeListOK kernEnd s.kalloc free' := by
  cases free with
  | nil =>
      -- 空きリストが空なら、kalloc は 0 を返して何も変えない
      have h0 : s.kmem.freelist = 0 := h.seg
      refine ⟨[], ?_⟩
      simp only [PageState.kalloc, Kalloc.kalloc, h0, ne_eq, not_true_eq_false, if_false, if_true]
      exact ⟨h0, h.split⟩
  | cons x free =>
      obtain ⟨hx, hx0, hseg⟩ := h.seg
      have hnd := List.nodup_cons.mp h.split.nodup_left
      refine ⟨free, ?_, ?_⟩
      · simp only [PageState.kalloc, Kalloc.kalloc, hx, ne_eq, hx0, not_false_eq_true, if_true]
        -- memset は頭のページ x の中だけを書くので、残りの空きのページの `next` は変わらない
        refine hseg.congr fun y hy => next_of_outside (fun i hi => memset_of_not_mem _ hi)
          (h.split.of_left List.mem_cons_self).aligned
          (h.split.of_left (List.mem_cons_of_mem _ hy)).aligned ?_
        rintro rfl
        exact hnd.1 hy
      · simp only [PageState.kalloc, Kalloc.kalloc, hx, ne_eq, hx0, not_false_eq_true, if_true,
          if_false]
        exact h.split.take

theorem FreeListOK.kfree (hend : 0 < kernEnd) {s : PageState} {free : List Nat} {pa : Nat}
    {m : Kmem} (h : FreeListOK kernEnd s free) (hpa : pa ∈ s.allocated)
    (hf : Kalloc.kfree kernEnd pa s.kmem = some m) : FreeListOK kernEnd ⟨m, s.allocated.erase pa⟩ (pa :: free) := by
  have hp : Page kernEnd pa := h.split.of_right hpa
  rw [kfree_of_page s.kmem (Nat.le_trans (le_PGROUNDUP kernEnd) hp.2.1) hp.aligned hp.2.2,
    Option.some.injEq] at hf
  subst hf
  refine ⟨h.seg.push (hp.pos hend) ?_ fun y hy => ?_, h.split.give hpa⟩
  · -- 先頭の 8 バイトに書いた頭は、64 ビットに収まる
    show loadLE _ pa 8 = _
    rw [loadLE_storeLE, Nat.mod_eq_of_lt h.freelist_lt]
  · refine next_of_outside (fun i hi => ?_) hp.aligned (h.split.of_left hy).aligned
      fun e => h.split.disjoint y hy (e ▸ hpa)
    dsimp only
    rw [storeLE_of_not_mem _ (by simp only [PGSIZE] at hi; omega), memset_of_not_mem _ hi]

theorem FreeListOK.write {s : PageState} {free : List Nat} {a : Nat} (v : UInt8)
    (h : FreeListOK kernEnd s free)
    (ha : (∃ q ∈ s.allocated, q ≤ a ∧ a < q + PGSIZE) ∨ a < PGROUNDUP kernEnd ∨ PHYSTOP ≤ a) :
    FreeListOK kernEnd ⟨{ s.kmem with mem := update s.kmem.mem a v }, s.allocated⟩ free := by
  refine ⟨h.seg.congr fun y hy => loadLE_congr fun i h₁ h₂ => update_of_ne ?_ _ _, h.split⟩
  -- 書いたバイト a は空きのページ y の先頭の 8 バイトにない
  have hy : Page kernEnd y := h.split.of_left hy
  rintro rfl
  rcases ha with ⟨q, hq, hqa⟩ | ha | ha
  · have hqy : q = y := eq_of_page_overlap (h.split.of_right hq).aligned hy.aligned hqa
      ⟨h₁, by simp only [PGSIZE]; omega⟩
    exact h.split.disjoint y ‹_› (hqy ▸ hq)
  · have := hy.2.1
    omega
  · have := hy.add_le
    simp only [PGSIZE] at this
    omega

theorem FreeListOK.step (hend : 0 < kernEnd) {s s' : PageState} (hs : ∃ free, FreeListOK kernEnd s free)
    (h : PageStep kernEnd s s') : ∃ free, FreeListOK kernEnd s' free := by
  obtain ⟨free, hs⟩ := hs
  cases h with
  | kalloc => exact hs.kalloc
  | kfree hpa hf => exact ⟨_, hs.kfree hend hpa hf⟩
  | write a v ha => exact ⟨free, hs.write v ha⟩

/-! ## 到達可能な状態 -/

theorem FreeListOK.reach (hend : 0 < kernEnd) {s : PageState}
    (h : Reachable (Boot kernEnd) (PageStep kernEnd) s) : ∃ free, FreeListOK kernEnd s free :=
  h.inv (fun _ hs => ⟨[], FreeListOK.boot hs⟩) fun _ _ hs hst => FreeListOK.step hend hs hst

/-- 到達可能な状態で成り立つこと: 空きリストは頭から重複のない列 free をたどって null に着き、
free の要素は `[PGROUNDUP(end), PHYSTOP)` の揃ったページで、割り当て中のページと交わらず、
二つを合わせるとページ全体になる。kalloc が返すページは割り当て中でないページで、割り当て中の
ページの kfree は panic しない。 -/
structure KmemSafe (kernEnd : Nat) (s : PageState) : Prop where
  freeList : ∃ free, ListSeg s.kmem.next 0 s.kmem.freelist free ∧ free.Nodup ∧
    (∀ x ∈ free, x % PGSIZE = 0 ∧ PGROUNDUP kernEnd ≤ x ∧ x < PHYSTOP) ∧
    (∀ x ∈ free, x ∉ s.allocated) ∧ ∀ x, Page kernEnd x ↔ x ∈ free ∨ x ∈ s.allocated
  kalloc_fresh : (kalloc s.kmem).1 ≠ 0 →
    (kalloc s.kmem).1 ∉ s.allocated ∧ Page kernEnd (kalloc s.kmem).1
  kfree_ok : ∀ pa ∈ s.allocated, kfree kernEnd pa s.kmem ≠ none

theorem FreeListOK.kmemSafe {s : PageState} {free : List Nat} (h : FreeListOK kernEnd s free) :
    KmemSafe kernEnd s where
  freeList := ⟨free, h.seg, h.split.nodup_left, fun _ hx => h.split.of_left hx, h.split.disjoint,
    h.split.mem_iff⟩
  kalloc_fresh hr := by
    cases free with
    | nil =>
        have h0 : s.kmem.freelist = 0 := h.seg
        simp [Kalloc.kalloc, h0] at hr
    | cons x free =>
        obtain ⟨hx, hx0, -⟩ := h.seg
        simp only [Kalloc.kalloc, hx, ne_eq, hx0, not_false_eq_true, if_true]
        exact ⟨h.split.disjoint x List.mem_cons_self, h.split.of_left List.mem_cons_self⟩
  kfree_ok pa hpa := by
    have hp : Page kernEnd pa := h.split.of_right hpa
    rw [kfree_of_page s.kmem (Nat.le_trans (le_PGROUNDUP kernEnd) hp.2.1) hp.aligned hp.2.2]
    exact Option.some_ne_none _

/-- `end` が正なら、kalloc と割り当て中のページの kfree と書き込みのどの列の後でも、空きリストは
壊れず、kalloc は割り当て中のページを返さない。 -/
theorem reach_kmemSafe (hend : 0 < kernEnd) {s : PageState}
    (h : Reachable (Boot kernEnd) (PageStep kernEnd) s) : KmemSafe kernEnd s := by
  obtain ⟨free, hf⟩ := FreeListOK.reach hend h
  exact hf.kmemSafe

/-- 二ページだけのメモリで、二つを kfree し、kalloc で頭の一つを取り直した状態。 -/
theorem kfree_kalloc_kmemSafe :
    ∃ s, Reachable (Boot (PHYSTOP - 2 * PGSIZE)) (PageStep (PHYSTOP - 2 * PGSIZE)) s ∧
      s.kmem.freelist = PHYSTOP - 2 * PGSIZE ∧ KmemSafe (PHYSTOP - 2 * PGSIZE) s := by
  have hpages : ∀ x, x ∈ pagesFrom (PGROUNDUP (PHYSTOP - 2 * PGSIZE)) ↔
      x % PGSIZE = 0 ∧ PHYSTOP - 2 * PGSIZE ≤ x ∧ x < PHYSTOP := fun x => by
    rw [mem_pagesFrom (PGROUNDUP_mod _), (by decide : PGROUNDUP (PHYSTOP - 2 * PGSIZE) = PHYSTOP - 2 * PGSIZE)]
  -- 二つのページを kfree してから、kalloc で頭の一つを取り直す
  have r₀ : Reachable (Boot (PHYSTOP - 2 * PGSIZE)) (PageStep (PHYSTOP - 2 * PGSIZE))
      ⟨⟨fun _ => 0, 0⟩, pagesFrom (PGROUNDUP (PHYSTOP - 2 * PGSIZE))⟩ := .init ⟨rfl, rfl⟩
  have r₁ := r₀.step (PageStep.kfree ((hpages _).mpr (by decide))
    (kfree_of_page _ (Nat.le_refl _) (by decide) (by decide)))
  have hp₁ : PHYSTOP - PGSIZE ∈ (pagesFrom (PGROUNDUP (PHYSTOP - 2 * PGSIZE))).erase (PHYSTOP - 2 * PGSIZE) :=
    (List.mem_erase_of_ne (by decide)).mpr ((hpages _).mpr (by decide))
  have r₂ := r₁.step (PageStep.kfree hp₁ (kfree_of_page _ (by decide) (by decide) (by decide)))
  have r₃ := r₂.step (PageStep.kalloc _)
  exact ⟨_, r₃, by decide, reach_kmemSafe (by decide) r₃⟩


/-! ## kinit -/

/-- freerange のループは、ページ p から先のページを割り当て中に持つ到達可能な状態から、panic せずに、
それらをすべて kfree した到達可能な状態に着く。 -/
theorem freerangeLoop_reach {p : Nat} (hp : p % PGSIZE = 0) (hpe : kernEnd ≤ p) :
    ∀ m, Reachable (Boot kernEnd) (PageStep kernEnd) ⟨m, pagesFrom p⟩ →
      ∃ m', freerangeLoop kernEnd PHYSTOP p m = some m' ∧
        Reachable (Boot kernEnd) (PageStep kernEnd) ⟨m', []⟩ := by
  fun_induction pagesFrom p with
  | case1 p hle ih =>
      intro m h
      have hk := kfree_of_page m hpe hp (by simp only [PGSIZE] at hle; omega)
      -- ループの一回は、割り当て中の列の先頭 p の kfree の遷移である
      have h₁ := Reachable.step h (PageStep.kfree List.mem_cons_self hk)
      rw [List.erase_cons_head] at h₁
      obtain ⟨m', hm', hr⟩ := ih (by simp only [PGSIZE] at *; omega) (by omega) _ h₁
      refine ⟨m', ?_, hr⟩
      unfold freerangeLoop
      rw [if_pos hle, hk, Option.bind_eq_bind, Option.bind_some]
      exact hm'
  | case2 p hlt =>
      intro m h
      refine ⟨m, ?_, h⟩
      unfold freerangeLoop
      rw [if_neg hlt]

/-- kinit は panic せず、起動の時点から `[PGROUNDUP(end), PHYSTOP)` のページを順に kfree した
到達可能な状態に着く。その後は割り当て中のページがない。 -/
theorem kinit_reach (kernEnd : Nat) (mem : Nat → UInt8) :
    ∃ m, kinit kernEnd ⟨mem, 0⟩ = some m ∧ Reachable (Boot kernEnd) (PageStep kernEnd) ⟨m, []⟩ :=
  freerangeLoop_reach (PGROUNDUP_mod kernEnd) (le_PGROUNDUP kernEnd) _ (Reachable.init ⟨rfl, rfl⟩)

/-- kinit の後、空きリストはページ全体を一度ずつたどる。 -/
theorem kinit_all_free (hend : 0 < kernEnd) (mem : Nat → UInt8) :
    ∃ m free, kinit kernEnd ⟨mem, 0⟩ = some m ∧ ListSeg m.next 0 m.freelist free ∧
      ∀ x, Page kernEnd x ↔ x ∈ free := by
  obtain ⟨m, hk, hr⟩ := kinit_reach kernEnd mem
  obtain ⟨free, hf⟩ := FreeListOK.reach hend hr
  refine ⟨m, free, hk, hf.seg, fun x => ?_⟩
  rw [hf.split.mem_iff x]
  simp

/-- 0 で埋まったメモリで、カーネルが 1 で終わる kinit。 -/
theorem kinit_all_free_blank :
    ∃ m free, kinit 1 ⟨fun _ => 0, 0⟩ = some m ∧ ListSeg m.next 0 m.freelist free ∧
      ∀ x, Page 1 x ↔ x ∈ free :=
  kinit_all_free (by decide) _

end Xv6.Kalloc
