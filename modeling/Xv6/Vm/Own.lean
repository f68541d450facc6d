import Xv6.Vm.Map
import Xv6.Vm.Uvm
import Xv6.Kalloc.Pages
import Xv6.Lib.Frame

/-!
# ページ表が持つページ

利用者のページ表は三種類のページを持つ: 表の節（`IsTable`）、写されたページ（`Mapped`）、そして
空きリストにあって次の割り当てを待つページである。不変条件 `PtOwn` はこの三つが互いに重ならない
ことと、panic を起こさない形をしていることを言う。中間の表の有効な欄は R、W、X を持たず
（freewalk は葉と思わない）、写された欄は持つ（uvmunmap の `not a leaf` にならない）。写された
ページは表でも空きでもなく、二つの仮想ページが同じページを写すことはない。TRAPFRAME より下の
ページと空きのページ、表はどれも kfree できるページ（`Page`）である。

ページの動きは四つの形に分けて証明する。木の節の PTE と空きリストの鎖を変えない書き込み
（`PtOwn.of_tree`）、空きリストの頭を手元に取る kalloc（`PtOwn.take`）、手元のページを頭に戻す
kfree（`PtOwn.give`）、walk の一段の割り当て（`PtOwn.alloc`）である。書き込みの足跡は
`Lib.Within` で、書いたページの頭の述語で言う。
-/

namespace Xv6.Vm

open Xv6.Lib Xv6.Kalloc Xv6.Lib.Radix

/-! ## PTE の印 -/

theorem and_PTE_V_eq (e : Nat) : e &&& PTE_V = e % 2 := by
  rw [show PTE_V = 2 ^ 1 - 1 from rfl, Nat.and_two_pow_sub_one_eq_mod]

theorem and_RWX_eq (e : Nat) : e &&& (PTE_R ||| PTE_W ||| PTE_X) = e % 16 &&& 14 := by
  rw [show PTE_R ||| PTE_W ||| PTE_X = 15 &&& 14 from rfl, ← Nat.and_assoc,
    show (15 : Nat) = 2 ^ 4 - 1 from rfl, Nat.and_two_pow_sub_one_eq_mod]

/-- 子の表を指す PTE は R、W、X を持たない。 -/
theorem PA2PTE_or_V_and_RWX (x : Nat) : (PA2PTE x ||| PTE_V) &&& (PTE_R ||| PTE_W ||| PTE_X) = 0 := by
  rw [and_RWX_eq, PA2PTE_or_eq x (by decide : PTE_V < 1024)]
  have h : (x / 4096 * 1024 + PTE_V) % 16 = 1 := by
    simp only [PTE_V]
    omega
  rw [h]
  rfl

theorem or_V_and_RWX (f : Nat) : (f ||| PTE_V) &&& (PTE_R ||| PTE_W ||| PTE_X) = f &&& (PTE_R ||| PTE_W ||| PTE_X) := by
  rw [Nat.and_or_distrib_right, show PTE_V &&& (PTE_R ||| PTE_W ||| PTE_X) = 0 from rfl, Nat.or_zero]

/-! ## 不変条件 -/

/-- ページ表が、MAXVA より下の揃った仮想ページから写す物理ページ。 -/
def Mapped (mem : Nat → UInt8) (root pa : Nat) : Prop :=
  ∃ va fl, va % PGSIZE = 0 ∧ va < MAXVA ∧ pmap mem root va = some (pa, fl)

/-- 利用者のページ表と空きリストの不変条件。 -/
structure PtOwn (kernEnd : Nat) (s : Kmem) (root : Nat) (free : List Nat) : Prop extends PtInv s root free where
  kernEnd_pos : 0 < kernEnd
  free_in : ∀ x ∈ free, Page kernEnd x
  table_in : ∀ t, IsTable s.mem root t → Page kernEnd t
  inner : ∀ q t, Path 512 2 q → q.length < 2 → pteScheme.descend (ptes s.mem) root q = some t →
    ∀ i < 512, ptes s.mem t i &&& PTE_V ≠ 0 → ptes s.mem t i &&& (PTE_R ||| PTE_W ||| PTE_X) = 0
  leaf : ∀ va pa fl, va % PGSIZE = 0 → va < MAXVA → pmap s.mem root va = some (pa, fl) →
    fl &&& (PTE_R ||| PTE_W ||| PTE_X) ≠ 0 ∧ pa % PGSIZE = 0 ∧ pa ∉ free ∧ ¬ IsTable s.mem root pa ∧
      (va < TRAPFRAME → Page kernEnd pa)
  inj : ∀ va va' pa fl fl', va % PGSIZE = 0 → va < MAXVA → va' % PGSIZE = 0 → va' < MAXVA →
    pmap s.mem root va = some (pa, fl) → pmap s.mem root va' = some (pa, fl') → va = va'
  -- walk は MAXVA より上を panic するので、根の上半分の欄は使われない
  high : ∀ i, 256 ≤ i → i < 512 → ptes s.mem root i &&& PTE_V = 0

variable {kernEnd root p : Nat} {s : Kmem} {F F' : List Nat}

theorem PX_two_lt {a : Nat} (ha : a < MAXVA) : PX 2 a < 256 := by
  rw [PX_eq]
  norm_num
  simp only [MAXVA] at ha
  omega

theorem PtOwn.mapped_not_free (h : PtOwn kernEnd s root F) {x : Nat} (hx : Mapped s.mem root x) : x ∉ F := by
  obtain ⟨va, fl, hva, hva', hm⟩ := hx
  exact (h.leaf va x fl hva hva' hm).2.2.1

theorem PtOwn.mapped_not_table (h : PtOwn kernEnd s root F) {x : Nat} (hx : Mapped s.mem root x) :
    ¬ IsTable s.mem root x := by
  obtain ⟨va, fl, hva, hva', hm⟩ := hx
  exact (h.leaf va x fl hva hva' hm).2.2.2.1

theorem PtOwn.mapped_aligned (h : PtOwn kernEnd s root F) {x : Nat} (hx : Mapped s.mem root x) :
    x % PGSIZE = 0 := by
  obtain ⟨va, fl, hva, hva', hm⟩ := hx
  exact (h.leaf va x fl hva hva' hm).2.1

/-- 空きのページと表はどれも揃っている。 -/
theorem PtOwn.aligned_of_mem (h : PtOwn kernEnd s root F) :
    ∀ b, b ∈ F ∨ IsTable s.mem root b → b % PGSIZE = 0
  | b, .inl hb => (h.free_in b hb).aligned
  | b, .inr hb => h.aligned b hb

/-- 空きリストの頭は 0 か kfree できるページで、64 ビットに収まる。 -/
theorem freelist_lt_of_seg {C : List Nat} (hseg : ListSeg s.next 0 s.freelist C) (hC : ∀ y ∈ C, Page kernEnd y) :
    s.freelist < 2 ^ 64 := by
  cases C with
  | nil =>
    rw [show s.freelist = 0 from hseg]
    decide
  | cons x C =>
    rw [hseg.1]
    exact (hC x List.mem_cons_self).lt_pte

theorem PtOwn.freelist_lt (h : PtOwn kernEnd s root F) : s.freelist < 2 ^ 64 :=
  freelist_lt_of_seg h.seg h.free_in

/-! ## 書き込みの足跡と PTE -/

/-- 揃ったページ p の外を変えない書き込みは、ほかの揃ったページの PTE を変えない。 -/
theorem ptes_of_outside {mem mem' : Nat → UInt8} {t i : Nat}
    (hm : ∀ x, ¬ (p ≤ x ∧ x < p + PGSIZE) → mem' x = mem x) (hp : p % PGSIZE = 0) (ht : t % PGSIZE = 0)
    (hne : t ≠ p) (hi : i < 512) : ptes mem' t i = ptes mem t i :=
  loadLE_congr fun j h₁ h₂ => hm j fun hj =>
    hne (eq_of_page_overlap ht hp ⟨by omega, by simp only [PGSIZE]; omega⟩ hj)

/-- 揃った区画を足跡とする書き込みは、足跡の外の揃ったページの PTE を変えない。 -/
theorem ptes_of_within {P : Nat → Prop} {mem mem' : Nat → UInt8} {t i : Nat} (h : Within PGSIZE P mem mem')
    (hP : ∀ b, P b → b % PGSIZE = 0) (ht : t % PGSIZE = 0) (hnt : ¬ P t) (hi : i < 512) :
    ptes mem' t i = ptes mem t i :=
  loadLE_congr fun _ h₁ h₂ => h.eq_of_aligned hP ht hnt ⟨by omega, by simp only [PGSIZE]; omega⟩

/-- 揃った区画を足跡とする書き込みは、足跡に入らないページを通る空きリストの鎖を変えない。 -/
theorem seg_of_within {P : Nat → Prop} {s' : Kmem} {C : List Nat} (hseg : ListSeg s.next 0 s.freelist C)
    (h : Within PGSIZE P s.mem s'.mem) (hP : ∀ b, P b → b % PGSIZE = 0) (hfl : s'.freelist = s.freelist)
    (hC : ∀ y ∈ C, y % PGSIZE = 0 ∧ ¬ P y) : ListSeg s'.next 0 s'.freelist C := by
  rw [hfl]
  refine hseg.congr fun y hy => ?_
  rw [next_eq_ptes, next_eq_ptes]
  exact ptes_of_within h hP (hC y hy).1 (hC y hy).2 (by decide)

/-- kfree はページ pa の中だけを書く。 -/
theorem kfree_outside (mem : Nat → UInt8) (pa fl : Nat) :
    ∀ x, ¬ (pa ≤ x ∧ x < pa + PGSIZE) → storeLE (memset mem pa 1 PGSIZE) pa fl 8 x = mem x := by
  intro x hx
  rw [storeLE_of_not_mem fl (by simp only [PGSIZE] at hx; omega), memset_of_not_mem 1 hx]

theorem within_setPte {P : Nat → Prop} (mem : Nat → UInt8) {t i : Nat} (ht : P t) (hi : i < 512) (v : Nat) :
    Within PGSIZE P mem (setPte mem (t + 8 * i) v) :=
  within_storeLE ht (Nat.le_add_right t _) (by simp only [PGSIZE]; omega) v

theorem within_kfree (mem : Nat → UInt8) {P : Nat → Prop} (hp : P pa) (fl : Nat) :
    Within PGSIZE P mem (storeLE (memset mem pa 1 PGSIZE) pa fl 8) :=
  Within.of_block hp (kfree_outside mem pa fl)

/-! ## 木と空きリストの移し替え -/

/-- 節の PTE が変わらず、新しい空きリストの鎖が、表でも写されてもいない kfree できるページを通るなら、
不変条件は残り、表と写像は変わらない。 -/
theorem PtOwn.of_tree (h : PtOwn kernEnd s root F) {u : Kmem}
    (he : ∀ t, IsTable s.mem root t → ∀ i < 512, ptes u.mem t i = ptes s.mem t i)
    (hseg : ListSeg u.next 0 u.freelist F')
    (hF' : ∀ x ∈ F', Page kernEnd x ∧ ¬ IsTable s.mem root x ∧ ¬ Mapped s.mem root x) :
    PtOwn kernEnd u root F' ∧ (∀ t, IsTable u.mem root t ↔ IsTable s.mem root t) ∧
      ∀ b, pmap u.mem root b = pmap s.mem root b := by
  have hT : ∀ t, IsTable u.mem root t ↔ IsTable s.mem root t := fun t => Scheme.isNode_congr he
  have hP : ∀ b, pmap u.mem root b = pmap s.mem root b := fun b => by
    rw [pmap, pmap, Scheme.lookup_congr he (path_levels b) (PX_lt 0 b)]
  refine ⟨⟨⟨⟨Scheme.unique_congr he h.unique, fun t ht => h.aligned t ((hT t).mp ht)⟩, hseg,
    fun x hx => ⟨(hF' x hx).1.aligned, (hF' x hx).1.lt_pte⟩, fun x hx hxt => (hF' x hx).2.1 ((hT x).mp hxt)⟩,
    h.kernEnd_pos, fun x hx => (hF' x hx).1, fun t ht => h.table_in t ((hT t).mp ht), ?_, ?_, ?_, fun i h₁ h₂ => ?_⟩,
    hT, hP⟩
  · intro q t hq hlt hd i hi hv
    rw [Scheme.descend_congr he hq] at hd
    have ht : IsTable s.mem root t := ⟨q, hq, hd⟩
    rw [he t ht i hi] at hv ⊢
    exact h.inner q t hq hlt hd i hi hv
  · intro va pa fl hva hva' hm
    rw [hP] at hm
    obtain ⟨h₁, h₂, -, h₄, h₅⟩ := h.leaf va pa fl hva hva' hm
    exact ⟨h₁, h₂, fun hx => (hF' pa hx).2.2 ⟨va, fl, hva, hva', hm⟩, fun ht => h₄ ((hT pa).mp ht), h₅⟩
  · intro va va' pa fl fl' h₁ h₂ h₃ h₄ hm hm'
    rw [hP] at hm hm'
    exact h.inj va va' pa fl fl' h₁ h₂ h₃ h₄ hm hm'
  · rw [he root (Scheme.isNode_root _ _ _ _ _) i h₂]
    exact h.high i h₁ h₂

/-- 空きのページと表の中を変えない書き込みは、不変条件と、表と写像を変えない。 -/
theorem PtOwn.congr (h : PtOwn kernEnd s root F) {s' : Kmem} (hfl : s'.freelist = s.freelist)
    (he : ∀ b, b ∈ F ∨ IsTable s.mem root b → ∀ x, b ≤ x → x < b + PGSIZE → s'.mem x = s.mem x) :
    PtOwn kernEnd s' root F ∧ (∀ t, IsTable s'.mem root t ↔ IsTable s.mem root t) ∧
      ∀ b, pmap s'.mem root b = pmap s.mem root b := by
  have hpte : ∀ t, t ∈ F ∨ IsTable s.mem root t → ∀ i < 512, ptes s'.mem t i = ptes s.mem t i :=
    fun t ht i hi => loadLE_congr fun x h₁ h₂ => he t ht x (by omega) (by simp only [PGSIZE]; omega)
  refine h.of_tree (fun t ht => hpte t (.inr ht)) ?_ fun x hx =>
    ⟨h.free_in x hx, h.free_not_table x hx, fun hm => h.mapped_not_free hm hx⟩
  rw [hfl]
  refine h.seg.congr fun y hy => ?_
  rw [next_eq_ptes, next_eq_ptes s y]
  exact hpte y (.inl hy) 0 (by decide)

/-- kalloc は空きリストの頭 p を返す。 -/
theorem PtOwn.kalloc_eq (h : PtOwn kernEnd s root (p :: F)) :
    kalloc s = (p, ⟨memset s.mem p 5 PGSIZE, s.next p⟩) := by
  obtain ⟨hhead, hp0, -⟩ := h.seg
  simp only [kalloc, hhead, ne_eq, hp0, not_false_eq_true, ↓reduceIte]

theorem PtOwn.kalloc_nil (h : PtOwn kernEnd s root []) : kalloc s = (0, s) := by
  have h0 : s.freelist = 0 := h.seg
  simp only [kalloc, h0, ne_eq, not_true_eq_false, ↓reduceIte]

/-- 空きリストの頭 p を手元に取り、p の中だけを書く。 -/
theorem PtOwn.take (h : PtOwn kernEnd s root (p :: F)) {mem' : Nat → UInt8}
    (hm : ∀ x, ¬ (p ≤ x ∧ x < p + PGSIZE) → mem' x = s.mem x) :
    PtOwn kernEnd ⟨mem', s.next p⟩ root F ∧ (∀ t, IsTable mem' root t ↔ IsTable s.mem root t) ∧
      ∀ b, pmap mem' root b = pmap s.mem root b := by
  obtain ⟨-, -, hseg⟩ := h.seg
  have hpa : p % PGSIZE = 0 := (h.free_in p List.mem_cons_self).aligned
  have hnd := List.nodup_cons.mp (ListSeg.nodup h.seg)
  refine h.of_tree (fun t ht i hi => ptes_of_outside hm hpa (h.aligned t ht)
      (fun e => h.free_not_table p List.mem_cons_self (e ▸ ht)) hi)
    (hseg.congr fun y hy => @next_of_outside s ⟨mem', s.next p⟩ _ _ hm hpa
      (h.free_in y (List.mem_cons_of_mem _ hy)).aligned fun e => hnd.1 (e ▸ hy))
    fun x hx => ⟨h.free_in x (List.mem_cons_of_mem _ hx), h.free_not_table x (List.mem_cons_of_mem _ hx),
      fun hmx => h.mapped_not_free hmx (List.mem_cons_of_mem _ hx)⟩

/-- kfree できるページ p を、p を通らない空きリストの鎖 C の頭に積む。 -/
theorem kfree_push {C : List Nat} (hk : 0 < kernEnd) (hseg : ListSeg s.next 0 s.freelist C)
    (hC : ∀ y ∈ C, Page kernEnd y) (hp : Page kernEnd p) (hpC : p ∉ C) :
    kfree kernEnd p s = some ⟨storeLE (memset s.mem p 1 PGSIZE) p s.freelist 8, p⟩ ∧
      ListSeg (Kmem.next ⟨storeLE (memset s.mem p 1 PGSIZE) p s.freelist 8, p⟩) 0 p (p :: C) := by
  have hnext : loadLE (storeLE (memset s.mem p 1 PGSIZE) p s.freelist 8) p 8 = s.freelist := by
    rw [loadLE_storeLE, Nat.mod_eq_of_lt (by simpa using freelist_lt_of_seg hseg hC)]
  exact ⟨kfree_of_page s (le_trans (le_PGROUNDUP kernEnd) hp.2.1) hp.aligned hp.2.2,
    hseg.push (hp.pos hk) hnext fun y hy => @next_of_outside s ⟨_, p⟩ _ _ (kfree_outside s.mem p s.freelist)
      hp.aligned (hC y hy).aligned fun e => hpC (e ▸ hy)⟩

/-- 表でも写されてもいない手元のページ p の kfree: p が空きリストの頭に加わる。 -/
theorem PtOwn.give (h : PtOwn kernEnd s root F) (hp : Page kernEnd p) (hpF : p ∉ F)
    (hpT : ¬ IsTable s.mem root p) (hpM : ¬ Mapped s.mem root p) :
    kfree kernEnd p s = some ⟨storeLE (memset s.mem p 1 PGSIZE) p s.freelist 8, p⟩ ∧
      PtOwn kernEnd ⟨storeLE (memset s.mem p 1 PGSIZE) p s.freelist 8, p⟩ root (p :: F) ∧
      (∀ t, IsTable (storeLE (memset s.mem p 1 PGSIZE) p s.freelist 8) root t ↔ IsTable s.mem root t) ∧
      ∀ b, pmap (storeLE (memset s.mem p 1 PGSIZE) p s.freelist 8) root b = pmap s.mem root b := by
  obtain ⟨hrun, hseg⟩ := kfree_push h.kernEnd_pos h.seg h.free_in hp hpF
  refine ⟨hrun, h.of_tree (fun t ht i hi => ptes_of_outside (kfree_outside s.mem p s.freelist) hp.aligned
    (h.aligned t ht) (fun e => hpT (e ▸ ht)) hi) hseg fun x hx => ?_⟩
  rcases List.mem_cons.mp hx with rfl | hx
  · exact ⟨hp, hpT, hpM⟩
  · exact ⟨h.free_in x hx, h.free_not_table x hx, fun hmx => h.mapped_not_free hmx hx⟩

/-! ## walk の一段 -/

theorem walkLoop_valid {va l t : Nat} (alloc : Bool) (hv : getPte s.mem (t + 8 * PX (l + 1) va) &&& PTE_V ≠ 0) :
    walkLoop va alloc (l + 1) t s = walkLoop va alloc l (PTE2PA (getPte s.mem (t + 8 * PX (l + 1) va))) s := by
  rw [walkLoop, if_pos hv]

/-- 無効な欄で、空きリストの頭 p を 0 で埋めて子にする。 -/
theorem walkLoop_alloc {va l t : Nat} (hv : ¬ getPte s.mem (t + 8 * PX (l + 1) va) &&& PTE_V ≠ 0)
    (hhead : s.freelist = p) (hp0 : p ≠ 0) :
    walkLoop va true (l + 1) t s = walkLoop va true l p
      ⟨setPte (memset (memset s.mem p 5 PGSIZE) p 0 PGSIZE) (t + 8 * PX (l + 1) va) (PA2PTE p ||| PTE_V), s.next p⟩ := by
  simp only [walkLoop, if_neg hv, Bool.not_true, Bool.false_eq_true, ↓reduceIte, kalloc, hhead, ne_eq, hp0,
    not_false_eq_true]

/-- 空きリストが空なら、無効な欄で 0 を返す。 -/
theorem walkLoop_exhausted {va l t : Nat} (hv : ¬ getPte s.mem (t + 8 * PX (l + 1) va) &&& PTE_V ≠ 0)
    (h0 : s.freelist = 0) : walkLoop va true (l + 1) t s = (none, s) := by
  simp only [walkLoop, if_neg hv, Bool.not_true, Bool.false_eq_true, ↓reduceIte, kalloc, h0, ne_eq,
    not_true_eq_false]

/-! ## walk の割り当て -/

section Alloc

variable {q : List Nat} {t i₀ : Nat}

/-- walk の一段の割り当て: 空きリストの頭 p を、深さ 2 より浅い節 t の無効な欄 i₀ の子にする。p は
表になり、書き込みは p と t の中だけである。 -/
theorem PtOwn.alloc (h : PtOwn kernEnd s root (p :: F)) (hq : Path 512 2 q) (hlt : q.length < 2) (hi₀ : i₀ < 512)
    (ht : pteScheme.descend (ptes s.mem) root q = some t) (hv : ptes s.mem t i₀ &&& PTE_V = 0)
    (hhigh : q = [] → i₀ < 256) :
    PtOwn kernEnd ⟨setPte (memset (memset s.mem p 5 PGSIZE) p 0 PGSIZE) (t + 8 * i₀) (PA2PTE p ||| PTE_V), s.next p⟩
        root F ∧
      (∀ r, Path 512 2 r → pteScheme.descend (ptes (setPte (memset (memset s.mem p 5 PGSIZE) p 0 PGSIZE) (t + 8 * i₀)
        (PA2PTE p ||| PTE_V))) root r = if r = q ++ [i₀] then some p else pteScheme.descend (ptes s.mem) root r) ∧
      (∀ b, pmap (setPte (memset (memset s.mem p 5 PGSIZE) p 0 PGSIZE) (t + 8 * i₀) (PA2PTE p ||| PTE_V)) root b =
        pmap s.mem root b) ∧
      (∀ u, IsTable (setPte (memset (memset s.mem p 5 PGSIZE) p 0 PGSIZE) (t + 8 * i₀) (PA2PTE p ||| PTE_V)) root u ↔
        IsTable s.mem root u ∨ u = p) ∧
      Within PGSIZE (fun b => b = p ∨ b = t) s.mem
        (setPte (memset (memset s.mem p 5 PGSIZE) p 0 PGSIZE) (t + 8 * i₀) (PA2PTE p ||| PTE_V)) := by
  obtain ⟨hI, hD, hP, hT⟩ := h.toPtInv.alloc hq hlt hi₀ ht hv
  have hp := h.free_in p List.mem_cons_self
  have hpt : ¬ IsTable s.mem root p := h.free_not_table p List.mem_cons_self
  have hta : t % PGSIZE = 0 := h.aligned t ⟨q, hq, ht⟩
  have hne : p ≠ t := fun e => hpt (e ▸ ⟨q, hq, ht⟩)
  have hV : PA2PTE p ||| PTE_V < 2 ^ 64 := PA2PTE_or_lt (by have := hp.lt_pte; omega) (by decide)
  refine ⟨⟨hI, h.kernEnd_pos, fun x hx => h.free_in x (List.mem_cons_of_mem _ hx), fun u hu => ?_, ?_, ?_, ?_,
    fun i h₁ h₂ => ?_⟩, hD, hP, hT, ?_⟩
  · rcases (hT u).mp hu with hu | rfl
    · exact h.table_in u hu
    · exact hp
  · intro q' t' hq' hlt' hd' i hi hvalid
    rw [hD q' hq'] at hd'
    split at hd'
    · -- 新しい表 p の欄はどれも 0
      cases hd'
      rw [ptes_alloc hta hi₀ hp.aligned hp.aligned hi, if_neg (fun e => hne e.1), if_pos rfl] at hvalid
      exact absurd rfl hvalid
    · have ht' : IsTable s.mem root t' := ⟨q', hq', hd'⟩
      have hne' : t' ≠ p := fun e => hpt (e ▸ ht')
      rw [ptes_alloc hta hi₀ hp.aligned (h.aligned t' ht') hi] at hvalid ⊢
      by_cases hc : t' = t ∧ i = i₀
      · -- 付けた欄は子の表を指す
        rw [if_pos hc, Nat.mod_eq_of_lt hV]
        exact PA2PTE_or_V_and_RWX p
      · rw [if_neg hc, if_neg hne'] at hvalid ⊢
        exact h.inner q' t' hq' hlt' hd' i hi hvalid
  · intro va x fl hva hva' hm
    rw [hP] at hm
    obtain ⟨h₁, h₂, h₃, h₄, h₅⟩ := h.leaf va x fl hva hva' hm
    refine ⟨h₁, h₂, fun hx => h₃ (List.mem_cons_of_mem _ hx), fun hxt => ?_, h₅⟩
    rcases (hT x).mp hxt with hxt | rfl
    · exact h₄ hxt
    · exact h₃ List.mem_cons_self
  · intro va va' x fl fl' h₁ h₂ h₃ h₄ hm hm'
    rw [hP] at hm hm'
    exact h.inj va va' x fl fl' h₁ h₂ h₃ h₄ hm hm'
  · -- 根の欄を付けるのは q が空のときだけで、そのとき i₀ は下半分
    have hroot : IsTable s.mem root root := Scheme.isNode_root _ _ _ _ _
    have hne' : root ≠ p := fun e => hpt (e ▸ hroot)
    rw [ptes_alloc hta hi₀ hp.aligned (h.aligned root hroot) h₂, if_neg hne']
    rw [if_neg]
    · exact h.high i h₁ h₂
    · rintro ⟨rfl, rfl⟩
      have := hhigh (h.unique q [] root hq (Path.nil 512 2) ht rfl)
      omega
  · exact (within_memset (.inl rfl) 5).trans ((within_memset (.inl rfl) 0).trans (within_setPte _ (.inr rfl) hi₀ _))

end Alloc

/-- alloc が 1 の walk の繰り返し: 空きリストの頭から高々段の数だけのページ N を取って表にし、ほかは変えない。
空きリストに段の数だけのページがあれば欄を返す。帰納法は残りの段の数についてで、各段は `PtOwn.alloc` である。 -/
theorem PtOwn.walkLoop {a : Nat} (ha : a < MAXVA) : ∀ (l t : Nat) (q : List Nat) (s : Kmem) (F : List Nat),
    PtOwn kernEnd s root F → q ++ levels a l = levels a 2 → pteScheme.descend (ptes s.mem) root q = some t →
    ∃ N F₁, F = N ++ F₁ ∧ PtOwn kernEnd (walkLoop a true l t s).2 root F₁ ∧
      (∀ u, IsTable (walkLoop a true l t s).2.mem root u ↔ IsTable s.mem root u ∨ u ∈ N) ∧
      (∀ b, pmap (walkLoop a true l t s).2.mem root b = pmap s.mem root b) ∧
      Within PGSIZE (fun b => b ∈ N ∨ IsTable s.mem root b) s.mem (walkLoop a true l t s).2.mem ∧
      N.length ≤ l ∧ (l ≤ F.length → (walkLoop a true l t s).1 ≠ none) := by
  intro l
  induction l with
  | zero =>
    intro t q s F h _ _
    exact ⟨[], F, rfl, h, fun u => (or_iff_left List.not_mem_nil).symm, fun _ => rfl, Within.refl _ _ _,
      Nat.le_refl 0, fun _ => Option.some_ne_none _⟩
  | succ l ih =>
    intro t q s F h hq ht
    have hpath : Path 512 2 q := by
      have := path_levels a
      rw [← hq] at this
      exact this.of_append
    have hlt : q.length < 2 := by
      have := congrArg List.length hq
      rw [List.length_append, length_levels, length_levels] at this
      omega
    have hq' : (q ++ [PX (l + 1) a]) ++ levels a l = levels a 2 := by
      rw [List.append_assoc, ← hq]
      rfl
    by_cases hv : getPte s.mem (t + 8 * PX (l + 1) a) &&& PTE_V ≠ 0
    · have hc : pteScheme.descend (ptes s.mem) root (q ++ [PX (l + 1) a]) =
          some (PTE2PA (getPte s.mem (t + 8 * PX (l + 1) a))) := by
        rw [Scheme.descend_snoc, ht, Option.bind_some, Scheme.child, ptes,
          if_pos ((pteScheme_valid_iff _).mpr hv)]
        rfl
      rw [walkLoop_valid true hv]
      obtain ⟨N, F₁, hF, h₁, hT₁, hP₁, hW₁, hlen, hsucc⟩ := ih _ _ s F h hq' hc
      exact ⟨N, F₁, hF, h₁, hT₁, hP₁, hW₁, Nat.le_succ_of_le hlen, fun hl => hsucc (Nat.le_of_succ_le hl)⟩
    · cases F with
      | nil =>
        rw [walkLoop_exhausted hv h.seg]
        exact ⟨[], [], rfl, h, fun u => (or_iff_left List.not_mem_nil).symm, fun _ => rfl, Within.refl _ _ _,
          Nat.zero_le _, fun hl => absurd hl (Nat.not_succ_le_zero l)⟩
      | cons p F =>
        obtain ⟨hhead, hp0, -⟩ := h.seg
        have hi := PX_lt (l + 1) a
        -- 根の欄は PX 2 a で、a < MAXVA なので下半分
        have hhigh : q = [] → PX (l + 1) a < 256 := by
          rintro rfl
          have := congrArg List.length hq
          rw [List.nil_append, length_levels, length_levels] at this
          rw [show l + 1 = 2 from this]
          exact PX_two_lt ha
        obtain ⟨h₂, hD, hP, hT, hW⟩ := h.alloc hpath hlt hi ht (by simpa [ptes] using hv) hhigh
        obtain ⟨N, F₁, rfl, h₃, hT₃, hP₃, hW₃, hlen, hsucc⟩ :=
          ih _ _ _ F h₂ hq' ((hD _ (hpath.snoc hlt hi)).trans (if_pos rfl))
        rw [walkLoop_alloc hv hhead hp0]
        refine ⟨p :: N, F₁, rfl, h₃, fun u => ?_, fun b => (hP₃ b).trans (hP b), ?_, Nat.succ_le_succ hlen,
          fun hl => hsucc (Nat.le_of_succ_le_succ hl)⟩
        · rw [hT₃, hT u, List.mem_cons, or_assoc]
        · refine (hW.mono fun b hb => ?_).trans (hW₃.mono fun b hb => ?_)
          · rcases hb with rfl | rfl
            · exact .inl List.mem_cons_self
            · exact .inr ⟨q, hpath, ht⟩
          · rcases hb with hb | hb
            · exact .inl (List.mem_cons_of_mem _ hb)
            · rcases (hT b).mp hb with hb | rfl
              · exact .inr hb
              · exact .inl List.mem_cons_self

/-! ## 末端の欄の書き込み -/

section Leaf

variable {a t₀ : Nat}

/-- 末端の表への書き込みは、どの道のたどり方も変えない。 -/
theorem descend_setLeaf {mem : Nat → UInt8} (h : PtWF mem root)
    (ht₀ : pteScheme.descend (ptes mem) root (levels a 2) = some t₀) (v : Nat) {r : List Nat} (hr : Path 512 2 r) :
    pteScheme.descend (ptes (setPte mem (t₀ + 8 * PX 0 a) v)) root r = pteScheme.descend (ptes mem) root r := by
  have hta : t₀ % PGSIZE = 0 := h.aligned t₀ ⟨_, path_levels a, ht₀⟩
  refine Scheme.descend_write_leaf h.unique (path_levels a) ht₀
    (fun u hu i hi (hui : ¬ (u = t₀ ∧ i = PX 0 a)) => ?_) (length_levels a 2) hr
  rw [ptes_setPte mem hta (PX_lt 0 a) (h.aligned u hu) hi, if_neg hui]

/-- 末端の欄に (pa, perm) の PTE を書くと、写像は a でだけそれに変わる。 -/
theorem pmap_mapLeaf {mem : Nat → UInt8} {pa perm b : Nat} (h : PtWF mem root)
    (ht₀ : pteScheme.descend (ptes mem) root (levels a 2) = some t₀) (ha : a % PGSIZE = 0) (ha' : a < MAXVA)
    (hpa : pa % PGSIZE = 0) (hpa' : pa < 2 ^ 64) (hperm : perm < 1024) (hb : b % PGSIZE = 0) (hb' : b < MAXVA) :
    pmap (setPte mem (t₀ + 8 * PX 0 a) (PA2PTE pa ||| perm ||| PTE_V)) root b =
      if b = a then some (pa, perm ||| PTE_V) else pmap mem root b := by
  have hf : perm ||| PTE_V < 1024 := Nat.or_lt_two_pow (n := 10) (by omega) (by decide)
  have hv : PA2PTE pa ||| perm ||| PTE_V = PA2PTE pa ||| (perm ||| PTE_V) := Nat.or_assoc _ _ _
  have hlt : PA2PTE pa ||| perm ||| PTE_V < 2 ^ 64 := hv ▸ PA2PTE_or_lt (Nat.lt_trans hpa' (by decide)) hf
  rw [(h.setLeaf ht₀ hlt).2.2 b, hv, PA2PTE_or_and_V pa hf, or_PTE_V_mod_two, PTE2PA_PA2PTE_or hpa hpa' hf,
    PTE_FLAGS_PA2PTE_or pa hf]
  by_cases hba : b = a
  · subst hba
    simp
  · rw [if_neg (fun e => hba (eq_of_PX_eq hb ha hb' ha' e.1 e.2)), if_neg hba]

/-- 末端の表への書き込みは、浅い節の欄を変えないので、`inner` を保つ。 -/
theorem PtOwn.inner_setLeaf (h : PtOwn kernEnd s root F)
    (ht₀ : pteScheme.descend (ptes s.mem) root (levels a 2) = some t₀) (v : Nat) :
    ∀ q t, Path 512 2 q → q.length < 2 → pteScheme.descend (ptes (setPte s.mem (t₀ + 8 * PX 0 a) v)) root q = some t →
      ∀ i < 512, ptes (setPte s.mem (t₀ + 8 * PX 0 a) v) t i &&& PTE_V ≠ 0 →
        ptes (setPte s.mem (t₀ + 8 * PX 0 a) v) t i &&& (PTE_R ||| PTE_W ||| PTE_X) = 0 := by
  intro q t hq hlt hd i hi hvalid
  have hta : t₀ % PGSIZE = 0 := h.aligned t₀ ⟨_, path_levels a, ht₀⟩
  rw [descend_setLeaf h.toPtWF ht₀ v hq] at hd
  -- 末端の表 t₀ への道は長さ 2 で、ただ一つ
  have hne : t ≠ t₀ := by
    rintro rfl
    have := h.unique q (levels a 2) t hq (path_levels a) hd ht₀
    rw [this, length_levels] at hlt
    omega
  rw [ptes_setPte s.mem hta (PX_lt 0 a) (h.aligned t ⟨q, hq, hd⟩) hi, if_neg (fun e => hne e.1)] at hvalid ⊢
  exact h.inner q t hq hlt hd i hi hvalid

/-- 末端の表は根でないので、末端の欄の書き込みは根の上半分を変えない。 -/
theorem PtOwn.high_setLeaf (h : PtOwn kernEnd s root F)
    (ht₀ : pteScheme.descend (ptes s.mem) root (levels a 2) = some t₀) (v : Nat) :
    ∀ i, 256 ≤ i → i < 512 → ptes (setPte s.mem (t₀ + 8 * PX 0 a) v) root i &&& PTE_V = 0 := by
  intro i h₁ h₂
  have hroot : IsTable s.mem root root := Scheme.isNode_root _ _ _ _ _
  have hne : root ≠ t₀ := by
    rintro rfl
    have := congrArg List.length (h.unique [] (levels a 2) root (Path.nil 512 2) (path_levels a) rfl ht₀)
    rw [length_levels] at this
    cases this
  rw [ptes_setPte s.mem (h.aligned t₀ ⟨_, path_levels a, ht₀⟩) (PX_lt 0 a) (h.aligned root hroot) h₂,
    if_neg (fun e => hne e.1)]
  exact h.high i h₁ h₂

/-- 写されていない a に、表でも空きでも写されてもいないページ pa を写す。 -/
theorem PtOwn.mapLeaf {pa perm : Nat} (h : PtOwn kernEnd s root F)
    (ht₀ : pteScheme.descend (ptes s.mem) root (levels a 2) = some t₀) (ha : a % PGSIZE = 0) (ha' : a < MAXVA)
    (hpa : pa % PGSIZE = 0) (hpa' : pa < 2 ^ 64) (hpF : pa ∉ F) (hpT : ¬ IsTable s.mem root pa)
    (hpM : ¬ Mapped s.mem root pa) (hpage : a < TRAPFRAME → Page kernEnd pa) (hperm : perm < 1024)
    (hrwx : perm &&& (PTE_R ||| PTE_W ||| PTE_X) ≠ 0) :
    PtOwn kernEnd { s with mem := setPte s.mem (t₀ + 8 * PX 0 a) (PA2PTE pa ||| perm ||| PTE_V) } root F ∧
      (∀ t, IsTable (setPte s.mem (t₀ + 8 * PX 0 a) (PA2PTE pa ||| perm ||| PTE_V)) root t ↔ IsTable s.mem root t) ∧
      ∀ b, b % PGSIZE = 0 → b < MAXVA → pmap (setPte s.mem (t₀ + 8 * PX 0 a) (PA2PTE pa ||| perm ||| PTE_V)) root b =
        if b = a then some (pa, perm ||| PTE_V) else pmap s.mem root b := by
  have hf : perm ||| PTE_V < 1024 := Nat.or_lt_two_pow (n := 10) (by omega) (by decide)
  have hlt : PA2PTE pa ||| perm ||| PTE_V < 2 ^ 64 := by
    rw [Nat.or_assoc]
    exact PA2PTE_or_lt (by omega) hf
  obtain ⟨-, hT, -⟩ := h.toPtWF.setLeaf ht₀ hlt
  have hP : ∀ b, b % PGSIZE = 0 → b < MAXVA → pmap (setPte s.mem (t₀ + 8 * PX 0 a) (PA2PTE pa ||| perm ||| PTE_V))
      root b = if b = a then some (pa, perm ||| PTE_V) else pmap s.mem root b :=
    fun b hb hb' => pmap_mapLeaf h.toPtWF ht₀ ha ha' hpa (by omega) hperm hb hb'
  refine ⟨⟨h.toPtInv.setLeaf ht₀ hlt, h.kernEnd_pos, h.free_in, fun t ht => h.table_in t ((hT t).mp ht),
    h.inner_setLeaf ht₀ _, fun va x fl hva hva' hm => ?_, fun va va' x fl fl' h₁ h₂ h₃ h₄ hm hm' => ?_,
    h.high_setLeaf ht₀ _⟩, hT, hP⟩
  · rw [hP va hva hva'] at hm
    split at hm
    · next e =>
      subst e
      cases hm
      exact ⟨by rw [or_V_and_RWX]; exact hrwx, hpa, hpF, fun ht => hpT ((hT pa).mp ht), hpage⟩
    · obtain ⟨h₁, h₂, h₃, h₄, h₅⟩ := h.leaf va x fl hva hva' hm
      exact ⟨h₁, h₂, h₃, fun ht => h₄ ((hT x).mp ht), h₅⟩
  · -- pa はほかの仮想ページから写されていなかった
    rw [hP va h₁ h₂] at hm
    rw [hP va' h₃ h₄] at hm'
    split at hm <;> split at hm'
    · next e e' => rw [e, e']
    · cases hm
      exact absurd ⟨va', fl', h₃, h₄, hm'⟩ hpM
    · cases hm'
      exact absurd ⟨va, fl, h₁, h₂, hm⟩ hpM
    · exact h.inj va va' x fl fl' h₁ h₂ h₃ h₄ hm hm'

/-- a の写像を消す。写していたページは手元に残る。 -/
theorem PtOwn.clearLeaf (h : PtOwn kernEnd s root F)
    (ht₀ : pteScheme.descend (ptes s.mem) root (levels a 2) = some t₀) (ha : a % PGSIZE = 0) (ha' : a < MAXVA) :
    PtOwn kernEnd { s with mem := setPte s.mem (t₀ + 8 * PX 0 a) 0 } root F ∧
      (∀ t, IsTable (setPte s.mem (t₀ + 8 * PX 0 a) 0) root t ↔ IsTable s.mem root t) ∧
      ∀ b, b % PGSIZE = 0 → b < MAXVA →
        pmap (setPte s.mem (t₀ + 8 * PX 0 a) 0) root b = if b = a then none else pmap s.mem root b := by
  obtain ⟨-, hT, hP⟩ := h.toPtWF.clearLeaf ha ha' ht₀
  refine ⟨⟨h.toPtInv.setLeaf ht₀ (by decide), h.kernEnd_pos, h.free_in, fun t ht => h.table_in t ((hT t).mp ht),
    h.inner_setLeaf ht₀ 0, fun va x fl hva hva' hm => ?_, fun va va' x fl fl' h₁ h₂ h₃ h₄ hm hm' => ?_,
    h.high_setLeaf ht₀ 0⟩, hT, hP⟩
  · rw [hP va hva hva'] at hm
    split at hm
    · cases hm
    · obtain ⟨h₁, h₂, h₃, h₄, h₅⟩ := h.leaf va x fl hva hva' hm
      exact ⟨h₁, h₂, h₃, fun ht => h₄ ((hT x).mp ht), h₅⟩
  · rw [hP va h₁ h₂] at hm
    rw [hP va' h₃ h₄] at hm'
    split at hm
    · cases hm
    · split at hm'
      · cases hm'
      · exact h.inj va va' x fl fl' h₁ h₂ h₃ h₄ hm hm'

/-- uvmunmap の do_free の一回: a が写すページ pa を kfree してから a の欄を 0 にする。pa は空きリストの
頭に加わる。 -/
theorem PtOwn.unmapFree {pa fl : Nat} (h : PtOwn kernEnd s root F)
    (ht₀ : pteScheme.descend (ptes s.mem) root (levels a 2) = some t₀) (ha : a % PGSIZE = 0) (ha' : a < MAXVA)
    (hm : pmap s.mem root a = some (pa, fl)) (hpage : Page kernEnd pa) :
    PtOwn kernEnd ⟨setPte (storeLE (memset s.mem pa 1 PGSIZE) pa s.freelist 8) (t₀ + 8 * PX 0 a) 0, pa⟩ root (pa :: F) ∧
      (∀ t, IsTable (setPte (storeLE (memset s.mem pa 1 PGSIZE) pa s.freelist 8) (t₀ + 8 * PX 0 a) 0) root t ↔
        IsTable s.mem root t) ∧
      (∀ b, b % PGSIZE = 0 → b < MAXVA →
        pmap (setPte (storeLE (memset s.mem pa 1 PGSIZE) pa s.freelist 8) (t₀ + 8 * PX 0 a) 0) root b =
          if b = a then none else pmap s.mem root b) ∧
      Within PGSIZE (fun b => b = pa ∨ b = t₀) s.mem
        (setPte (storeLE (memset s.mem pa 1 PGSIZE) pa s.freelist 8) (t₀ + 8 * PX 0 a) 0) := by
  obtain ⟨hc, hTc, hPc⟩ := h.clearLeaf ht₀ ha ha'
  obtain ⟨-, -, hpF, hpT, -⟩ := h.leaf a pa fl ha ha' hm
  have ht₀T : IsTable s.mem root t₀ := ⟨_, path_levels a, ht₀⟩
  have hne : t₀ ≠ pa := fun e => hpT (e ▸ ht₀T)
  -- 欄を消した後では、pa はどの仮想ページからも写されていない
  have hpM : ¬ Mapped (setPte s.mem (t₀ + 8 * PX 0 a) 0) root pa := by
    rintro ⟨va, fl', hva, hva', hm'⟩
    rw [hPc va hva hva'] at hm'
    split at hm'
    · cases hm'
    · next hne' => exact hne' (h.inj va a pa fl' fl hva hva' ha ha' hm' hm)
  -- kfree と欄の書き込みは別のページに当たるので、順を入れ替えて比べる
  have hout : ∀ x, ¬ (pa ≤ x ∧ x < pa + PGSIZE) →
      setPte (storeLE (memset s.mem pa 1 PGSIZE) pa s.freelist 8) (t₀ + 8 * PX 0 a) 0 x =
        setPte s.mem (t₀ + 8 * PX 0 a) 0 x :=
    storeLE_agree (kfree_outside s.mem pa s.freelist) _ 0 8
  have hta : t₀ % PGSIZE = 0 := h.aligned t₀ ht₀T
  have hX : t₀ + 8 * PX 0 a + 8 ≤ t₀ + PGSIZE := by
    have := PX_lt 0 a
    simp only [PGSIZE]
    omega
  have hnext : loadLE (setPte (storeLE (memset s.mem pa 1 PGSIZE) pa s.freelist 8) (t₀ + 8 * PX 0 a) 0) pa 8 =
      s.freelist := by
    have e : loadLE (setPte (storeLE (memset s.mem pa 1 PGSIZE) pa s.freelist 8) (t₀ + 8 * PX 0 a) 0) pa 8 =
        loadLE (storeLE (memset s.mem pa 1 PGSIZE) pa s.freelist 8) pa 8 := by
      refine loadLE_congr fun x h₁ h₂ => storeLE_of_not_mem 0 fun hx => hne ?_
      exact eq_of_page_overlap hta hpage.aligned ⟨by omega, by omega⟩ ⟨h₁, by simp only [PGSIZE]; omega⟩
    rw [e, loadLE_storeLE, Nat.mod_eq_of_lt (by simpa using h.freelist_lt)]
  obtain ⟨h', hT', hP'⟩ := hc.of_tree (u := ⟨_, pa⟩)
    (fun t ht i hi => ptes_of_outside hout hpage.aligned (hc.aligned t ht) (fun e => hpT ((hTc pa).mp (e ▸ ht))) hi)
    (hc.seg.push (hpage.pos h.kernEnd_pos) hnext fun y hy =>
      @next_of_outside { s with mem := setPte s.mem (t₀ + 8 * PX 0 a) 0 } ⟨_, pa⟩ _ _ hout
        hpage.aligned
        (h.free_in y hy).aligned fun e => hpF (e ▸ hy))
    fun x hx => by
      rcases List.mem_cons.mp hx with rfl | hx
      · exact ⟨hpage, fun ht => hpT ((hTc x).mp ht), hpM⟩
      · exact ⟨hc.free_in x hx, hc.free_not_table x hx, fun hmx => hc.mapped_not_free hmx hx⟩
  refine ⟨h', fun t => (hT' t).trans (hTc t), fun b hb hb' => (hP' b).trans (hPc b hb hb'), ?_⟩
  exact (within_kfree s.mem (.inl rfl) s.freelist).trans (within_setPte _ (.inr rfl) (PX_lt 0 a) 0)

end Leaf

end Xv6.Vm
