import Xv6.Vm.Unmap

/-!
# freewalk と uvmfree はページ表のページをすべて返す

freewalk は表の欄を順に見て、子の表を指す欄なら子を先に捨ててから欄を 0 にし、最後に表そのものを
kfree する。葉の欄が残っていれば panic する。葉の無い部分木（`Bare`）なら panic せず、部分木の表を
すべて空きリストに積む（`freewalk_frees`）。帰納法は部分木の深さについてで、一つの表の中の繰り返しは
片付けた欄までの不変条件 `Swept` で進める。

uvmfree は uvmunmap で `[0, PGROUNDUP(sz))` のページを返してから freewalk を呼ぶ。写像がその範囲だけ
なら、何も写していない表は葉の無い木なので（`PtOwn.bare`）、写していたページと表のページがすべて
空きリストに戻る（`uvmfree_frees_all`）。
-/

namespace Xv6.Vm

open Xv6.Lib Xv6.Kalloc Xv6.Lib.Radix

variable {kernEnd : Nat} {s : Kmem}

/-- 節 t から深さ d までの表。 -/
abbrev InTree (mem : Nat → UInt8) (t d u : Nat) : Prop := pteScheme.IsNode (ptes mem) t 512 d u

/-- 葉の無い深さ d の部分木: 節にはただ一つの道で着き、浅い節の有効な欄は子の表を指し、深さ d の節の
欄はどれも無効で、節はどれも kfree できるページである。 -/
structure Bare (kernEnd : Nat) (mem : Nat → UInt8) (t d : Nat) : Prop where
  unique : pteScheme.Unique (ptes mem) t 512 d
  inner : ∀ q u, Path 512 d q → q.length < d → pteScheme.descend (ptes mem) t q = some u →
    ∀ i < 512, ptes mem u i &&& PTE_V ≠ 0 → ptes mem u i &&& (PTE_R ||| PTE_W ||| PTE_X) = 0
  bottom : ∀ q u, Path 512 d q → q.length = d → pteScheme.descend (ptes mem) t q = some u →
    ∀ i < 512, ptes mem u i &&& PTE_V = 0
  page : ∀ u, InTree mem t d u → Page kernEnd u

section Bare

variable {mem mem' : Nat → UInt8} {t d i : Nat}

theorem child_of_valid (hv : ptes mem t i &&& PTE_V ≠ 0) :
    pteScheme.child (ptes mem) t i = some (PTE2PA (ptes mem t i)) := by
  rw [Scheme.child, if_pos ((pteScheme_valid_iff _).mpr hv)]
  rfl

theorem child_of_invalid (hv : ptes mem t i &&& PTE_V = 0) : pteScheme.child (ptes mem) t i = none := by
  rw [Scheme.child, if_neg (fun h => (pteScheme_valid_iff _).mp h hv)]

theorem Bare.child (h : Bare kernEnd mem t (d + 1)) (hi : i < 512) (hv : ptes mem t i &&& PTE_V ≠ 0) :
    Bare kernEnd mem (PTE2PA (ptes mem t i)) d := by
  have hc := child_of_valid hv
  refine ⟨h.unique.child hi hc, fun q u hq hlt hd => ?_, fun q u hq hlen hd => ?_,
    fun u hu => h.page u (Scheme.isNode_of_child hi hc hu)⟩
  · exact h.inner (i :: q) u (hq.cons hi) (Nat.succ_lt_succ hlt) ((Scheme.descend_cons_of_child hc q).trans hd)
  · exact h.bottom (i :: q) u (hq.cons hi) (congrArg (· + 1) hlen) ((Scheme.descend_cons_of_child hc q).trans hd)

/-- 部分木の表の欄を変えない書き込みは、葉の無いことと表の集まりを変えない。 -/
theorem Bare.congr (h : Bare kernEnd mem t d)
    (he : ∀ u, InTree mem t d u → ∀ i < 512, ptes mem' u i = ptes mem u i) :
    Bare kernEnd mem' t d ∧ ∀ u, InTree mem' t d u ↔ InTree mem t d u := by
  have hT : ∀ u, InTree mem' t d u ↔ InTree mem t d u := fun u => Scheme.isNode_congr he
  refine ⟨⟨Scheme.unique_congr he h.unique, fun q u hq hlt hd i hi hv => ?_, fun q u hq hlen hd i hi => ?_,
    fun u hu => h.page u ((hT u).mp hu)⟩, hT⟩
  · rw [Scheme.descend_congr he hq] at hd
    rw [he u ⟨q, hq, hd⟩ i hi] at hv ⊢
    exact h.inner q u hq hlt hd i hi hv
  · rw [Scheme.descend_congr he hq] at hd
    rw [he u ⟨q, hq, hd⟩ i hi]
    exact h.bottom q u hq hlen hd i hi

end Bare

/-! ## freewalk の一つの欄 -/

section Entry

variable {free : Nat → Kmem → Option Kmem} {t i : Nat}

theorem freewalkEntry_invalid (hv : ptes s.mem t i &&& PTE_V = 0) : freewalkEntry free t s i = some s := by
  have hv' : ¬ getPte s.mem (t + 8 * i) &&& PTE_V ≠ 0 := not_not.mpr hv
  rw [freewalkEntry, if_neg (fun h => hv' h.1), if_neg hv']

theorem freewalkEntry_table (hv : ptes s.mem t i &&& PTE_V ≠ 0)
    (hr : ptes s.mem t i &&& (PTE_R ||| PTE_W ||| PTE_X) = 0) :
    freewalkEntry free t s i =
      (free (PTE2PA (ptes s.mem t i)) s).bind fun s' => some { s' with mem := setPte s'.mem (t + 8 * i) 0 } := by
  rw [freewalkEntry, if_pos ⟨hv, hr⟩]
  rfl

end Entry

/-! ## 一つの表の繰り返し -/

/-- free は深さ d の葉の無い部分木を捨てる: 部分木の表をすべて、それを通らない空きリストの鎖 F の
頭に積み、書き込みはそれらの表の中だけである。 -/
def FreesBare (kernEnd d : Nat) (free : Nat → Kmem → Option Kmem) : Prop :=
  ∀ t s F, Bare kernEnd s.mem t d → ListSeg s.next 0 s.freelist F →
    (∀ x ∈ F, Page kernEnd x ∧ ¬ InTree s.mem t d x) →
    ∃ s' L, free t s = some s' ∧ ListSeg s'.next 0 s'.freelist (L ++ F) ∧
      (∀ x, x ∈ L ↔ InTree s.mem t d x) ∧ Within PGSIZE (· ∈ L) s.mem s'.mem

/-- 表 t の欄 k の前までを片付けた状態 s₁: 片付けた欄の子の部分木の表 L を空きリストに積み、書き込みは
L と t の中だけで、k から先の欄は元のまま。 -/
structure Swept (s : Kmem) (t d : Nat) (F : List Nat) (k : Nat) (s₁ : Kmem) (L : List Nat) : Prop where
  seg : ListSeg s₁.next 0 s₁.freelist (L ++ F)
  mem_iff : ∀ x, x ∈ L ↔ ∃ j < k, ∃ c, pteScheme.child (ptes s.mem) t j = some c ∧ InTree s.mem c d x
  within : Within PGSIZE (fun b => b ∈ L ∨ b = t) s.mem s₁.mem
  rest : ∀ j, k ≤ j → j < 512 → ptes s₁.mem t j = ptes s.mem t j

section Sweep

variable {free : Nat → Kmem → Option Kmem} {t d k : Nat} {F L : List Nat} {s₁ : Kmem}
variable (h : Bare kernEnd s.mem t (d + 1))
  (hF : ∀ x ∈ F, Page kernEnd x ∧ ¬ InTree s.mem t (d + 1) x)

theorem Swept.init (hseg : ListSeg s.next 0 s.freelist F) : Swept s t d F 0 s [] where
  seg := hseg
  mem_iff _ := ⟨fun hx => absurd hx List.not_mem_nil, fun ⟨_, hj, _⟩ => absurd hj (Nat.not_lt_zero _)⟩
  within := Within.refl _ _ _
  rest _ _ _ := rfl

include h

/-- 片付けた表は t の部分木にあり、t ではない。 -/
theorem Swept.mem_tree (hS : Swept s t d F k s₁ L) (hkn : k ≤ 512) {x : Nat} (hx : x ∈ L) :
    InTree s.mem t (d + 1) x ∧ x ≠ t := by
  obtain ⟨j, hj, c, hc, hx⟩ := (hS.mem_iff x).mp hx
  have hj' : j < 512 := Nat.lt_of_lt_of_le hj hkn
  exact ⟨Scheme.isNode_of_child hj' hc hx, fun e => h.unique.root_not_mem_child hj' hc (e ▸ hx)⟩

include hF

/-- 空きリストの鎖は kfree できるページで、t を通らない。 -/
theorem Swept.chain (hS : Swept s t d F k s₁ L) (hkn : k ≤ 512) : ∀ y ∈ L ++ F, Page kernEnd y ∧ y ≠ t := by
  intro y hy
  rcases List.mem_append.mp hy with hy | hy
  · obtain ⟨ht, hne⟩ := hS.mem_tree h hkn hy
    exact ⟨h.page y ht, hne⟩
  · exact ⟨(hF y hy).1, fun e => (hF y hy).2 (e ▸ Scheme.isNode_root _ _ _ _ _)⟩

/-- 繰り返しの一回: 欄 k が無効なら何もせず、子の表を指すなら子の部分木を捨ててから欄を 0 にする。 -/
theorem Swept.step (hfree : FreesBare kernEnd d free) (hS : Swept s t d F k s₁ L) (hkn : k < 512) :
    ∃ s₂ L₂, freewalkEntry free t s₁ k = some s₂ ∧ Swept s t d F (k + 1) s₂ L₂ := by
  have hta : t % PGSIZE = 0 := (h.page t (Scheme.isNode_root _ _ _ _ _)).aligned
  have hchain := hS.chain h hF (Nat.le_of_lt hkn)
  have he := hS.rest k (Nat.le_refl k) hkn
  by_cases hv : ptes s.mem t k &&& PTE_V = 0
  · -- 無効な欄は飛ばす。欄 k の子は無い
    refine ⟨s₁, L, freewalkEntry_invalid (by rw [he]; exact hv), hS.seg, fun x => (hS.mem_iff x).trans ⟨?_, ?_⟩,
      hS.within, fun j hj hj' => hS.rest j (Nat.le_of_succ_le hj) hj'⟩
    · rintro ⟨j, hj, c, hc, hx⟩
      exact ⟨j, Nat.lt_succ_of_lt hj, c, hc, hx⟩
    · rintro ⟨j, hj, c, hc, hx⟩
      refine ⟨j, Nat.lt_of_le_of_ne (Nat.le_of_lt_succ hj) ?_, c, hc, hx⟩
      rintro rfl
      rw [child_of_invalid hv] at hc
      cases hc
  · -- 子の表 c を指す欄: c の部分木は L にも t にも当たらないので、s₁ でも元のまま
    have hc := child_of_valid hv
    have hr := h.inner [] t (Path.nil 512 (d + 1)) (Nat.succ_pos d) rfl k hkn hv
    have hB := h.child hkn hv
    have hcL : ∀ u, InTree s.mem (PTE2PA (ptes s.mem t k)) d u → ¬ (u ∈ L ∨ u = t) := by
      rintro u hu (hL | rfl)
      · obtain ⟨j, hj, c', hc', hu'⟩ := (hS.mem_iff u).mp hL
        exact Nat.ne_of_gt hj (h.unique.eq_of_mem_child hkn hc (Nat.lt_trans hj hkn) hc' hu hu')
      · exact h.unique.root_not_mem_child hkn hc hu
    have hP : ∀ b, b ∈ L ∨ b = t → b % PGSIZE = 0 := fun b hb =>
      hb.elim (fun hb => (h.page b (hS.mem_tree h (Nat.le_of_lt hkn) hb).1).aligned) (fun e => e ▸ hta)
    obtain ⟨hB₁, hT₁⟩ := hB.congr fun u hu i hi =>
      ptes_of_within hS.within hP (hB.page u hu).aligned (hcL u hu) hi
    obtain ⟨s', L', hrun, hseg', hL', hW'⟩ := hfree _ s₁ (L ++ F) hB₁ hS.seg fun x hx =>
      ⟨(hchain x hx).1, fun hxc => by
        rcases List.mem_append.mp hx with hx | hx
        · exact hcL x ((hT₁ x).mp hxc) (.inl hx)
        · exact (hF x hx).2 (Scheme.isNode_of_child hkn hc ((hT₁ x).mp hxc))⟩
    have hL'c : ∀ x ∈ L', InTree s.mem (PTE2PA (ptes s.mem t k)) d x := fun x hx => (hT₁ x).mp ((hL' x).mp hx)
    have htL' : t ∉ L' := fun ht => hcL t (hL'c t ht) (.inr rfl)
    have hW₂ : Within PGSIZE (· = t) s'.mem (setPte s'.mem (t + 8 * k) 0) := within_setPte (P := (· = t)) _ rfl hkn 0
    refine ⟨{ s' with mem := setPte s'.mem (t + 8 * k) 0 }, L' ++ L, ?_, ⟨?_, fun x => ?_, ?_, fun j hj hj' => ?_⟩⟩
    · have hv₁ : ptes s₁.mem t k &&& PTE_V ≠ 0 := by rw [he]; exact hv
      have hr₁ : ptes s₁.mem t k &&& (PTE_R ||| PTE_W ||| PTE_X) = 0 := by rw [he]; exact hr
      rw [freewalkEntry_table hv₁ hr₁, he, hrun]
      rfl
    · -- 欄の書き込みは t の中だけで、鎖は t を通らない
      rw [List.append_assoc]
      refine seg_of_within hseg' hW₂ (fun b hb => hb ▸ hta) rfl fun y hy => ?_
      rcases List.mem_append.mp hy with hy | hy
      · exact ⟨(hB.page y (hL'c y hy)).aligned, fun e => htL' (e ▸ hy)⟩
      · exact ⟨(hchain y hy).1.aligned, (hchain y hy).2⟩
    · constructor
      · intro hx
        rcases List.mem_append.mp hx with hx | hx
        · exact ⟨k, Nat.lt_succ_self k, _, hc, hL'c x hx⟩
        · obtain ⟨j, hj, c, hc', hx⟩ := (hS.mem_iff x).mp hx
          exact ⟨j, Nat.lt_succ_of_lt hj, c, hc', hx⟩
      · rintro ⟨j, hj, c, hc', hx⟩
        rcases Nat.lt_succ_iff_lt_or_eq.mp hj with hj | rfl
        · exact List.mem_append_right _ ((hS.mem_iff x).mpr ⟨j, hj, c, hc', hx⟩)
        · obtain rfl : c = PTE2PA (ptes s.mem t j) := Option.some.inj (hc'.symm.trans hc)
          exact List.mem_append_left _ ((hL' x).mpr ((hT₁ x).mpr hx))
    · exact (hS.within.mono fun b hb => hb.imp_left (List.mem_append_right _)).trans
        ((hW'.mono fun b hb => .inl (List.mem_append_left _ hb)).trans (hW₂.mono fun b hb => .inr hb))
    · have hjk : j ≠ k := by omega
      rw [ptes_setPte _ hta hkn hta hj', if_neg (fun e => hjk e.2),
        ptes_of_within hW' (fun b hb => (hB.page b (hL'c b hb)).aligned) hta htL' hj']
      exact hS.rest j (Nat.le_of_succ_le hj) hj'

/-- 子の部分木を捨てる free があれば、繰り返しは 512 の欄をすべて片付ける。 -/
theorem sweep_all (hfree : FreesBare kernEnd d free) (hseg : ListSeg s.next 0 s.freelist F) :
    ∃ s₁, (List.range 512).foldlM (freewalkEntry free t) s = some s₁ ∧ ∃ L, Swept s t d F 512 s₁ L :=
  foldlM_range_total _ (fun k s₁ => ∃ L, Swept s t d F k s₁ L) ⟨[], Swept.init hseg⟩
    fun _ _ hkn ⟨_, hS⟩ => (hS.step h hF hfree hkn).imp fun _ ⟨L₂, hrun, hS₂⟩ => ⟨hrun, L₂, hS₂⟩

end Sweep

/-! ## freewalk -/

/-- 深さ d の葉の無い部分木は、深さより多い fuel の freewalk で panic せずに捨てられる。帰納法は深さに
ついてで、深さ 0 の表の欄はどれも無効なので、繰り返しは何もしない。 -/
theorem freewalk_frees (hk : 0 < kernEnd) (d : Nat) : ∀ fuel, d < fuel → FreesBare kernEnd d (freewalk kernEnd fuel) := by
  induction d with
  | zero =>
    intro fuel hf t s F h hseg hF
    obtain ⟨f, rfl⟩ : ∃ f, fuel = f + 1 := ⟨fuel - 1, by omega⟩
    have hroot : InTree s.mem t 0 t := Scheme.isNode_root _ _ _ _ _
    have hloop := foldlM_option_fixed (freewalkEntry (freewalk kernEnd f) t) s (List.range 512) fun i hi =>
      freewalkEntry_invalid (h.bottom [] t (Path.nil 512 0) rfl rfl i (List.mem_range.mp hi))
    obtain ⟨hrun, hseg'⟩ := kfree_push hk hseg (fun y hy => (hF y hy).1) (h.page t hroot)
      fun ht => (hF t ht).2 hroot
    refine ⟨_, [t], by rw [freewalk, hloop, Option.bind_some, hrun], hseg', fun x => ?_,
      within_kfree s.mem (List.mem_singleton_self t) s.freelist⟩
    rw [List.mem_singleton]
    exact Scheme.isNode_zero_iff.symm
  | succ d ih =>
    intro fuel hf t s F h hseg hF
    obtain ⟨f, rfl⟩ : ∃ f, fuel = f + 1 := ⟨fuel - 1, by omega⟩
    have hroot : InTree s.mem t (d + 1) t := Scheme.isNode_root _ _ _ _ _
    obtain ⟨s₁, hloop, L, hS⟩ := sweep_all h hF (ih f (by omega)) hseg
    have hchain := hS.chain h hF (Nat.le_refl 512)
    -- 最後に t そのものを積む
    obtain ⟨hrun, hseg'⟩ := kfree_push hk hS.seg (fun y hy => (hchain y hy).1) (h.page t hroot)
      fun ht => (hchain t ht).2 rfl
    refine ⟨_, t :: L, by rw [freewalk, hloop, Option.bind_some, hrun], hseg', fun x => ?_,
      (hS.within.mono fun b hb => ?_).trans (within_kfree s₁.mem (P := (· ∈ t :: L)) List.mem_cons_self _)⟩
    · rw [List.mem_cons, hS.mem_iff]
      exact Scheme.isNode_succ_iff.symm
    · rcases hb with hb | rfl
      · exact List.mem_cons_of_mem _ hb
      · exact List.mem_cons_self

/-! ## uvmfree -/

/-- 根から長さ 2 の道 [q₀, q₁] と欄 i が表すアドレス。 -/
theorem levels_addr {q₀ q₁ i : Nat} (h₀ : q₀ < 512) (h₁ : q₁ < 512) (hi : i < 512) :
    levels (q₀ * 2 ^ 30 + q₁ * 2 ^ 21 + i * 2 ^ 12) 2 = [q₀, q₁] ∧
      PX 0 (q₀ * 2 ^ 30 + q₁ * 2 ^ 21 + i * 2 ^ 12) = i := by
  simp only [levels, PX_eq, List.cons.injEq, and_true]
  norm_num
  omega

section Uvmfree

variable {root : Nat} {F : List Nat}

/-- MAXVA より下を何も写していないページ表は、葉の無い深さ 2 の木である。末端の表の有効な欄は、
根の下半分を通る道の先にあるので、MAXVA より下のアドレスを写してしまう。 -/
theorem PtOwn.bare (h : PtOwn kernEnd s root F)
    (hnone : ∀ b, b % PGSIZE = 0 → b < MAXVA → pmap s.mem root b = none) : Bare kernEnd s.mem root 2 where
  unique := h.unique
  inner := h.inner
  bottom q u hq hlen hd i hi := by
    obtain ⟨q₀, q₁, rfl⟩ := List.length_eq_two.mp hlen
    have h₀ : q₀ < 512 := hq.2 q₀ List.mem_cons_self
    have h₁ : q₁ < 512 := hq.2 q₁ (List.mem_cons_of_mem _ List.mem_cons_self)
    have hq₀ : q₀ < 256 := by
      refine Nat.lt_of_not_le fun hge => ?_
      simp only [Scheme.descend, child_of_invalid (h.high q₀ hge h₀)] at hd
      cases hd
    obtain ⟨hl, h0⟩ := levels_addr h₀ h₁ hi
    have hva : (q₀ * 2 ^ 30 + q₁ * 2 ^ 21 + i * 2 ^ 12) % PGSIZE = 0 ∧
        q₀ * 2 ^ 30 + q₁ * 2 ^ 21 + i * 2 ^ 12 < MAXVA := by
      simp only [PGSIZE, MAXVA]
      omega
    have hm := pmap_of_descend (hl ▸ hd)
    rw [h0, hnone _ hva.1 hva.2] at hm
    refine Decidable.by_contra fun hv => ?_
    rw [if_pos hv] at hm
    cases hm
  page u hu := h.table_in u hu

/-- uvmunmap(pagetable, 0, PGROUNDUP(sz)/PGSIZE, 1) は、写していたページを空きリストに返し、何も
写していない表を残す。 -/
theorem PtOwn.unmapAll {sz : Nat} (h : PtOwn kernEnd s root F) (hsz : PGROUNDUP sz ≤ TRAPFRAME)
    (hmap : ∀ b, b % PGSIZE = 0 → b < MAXVA → (b < PGROUNDUP sz ↔ pmap s.mem root b ≠ none)) :
    ∃ s₁ L, (if sz > 0 then uvmunmap kernEnd s root 0 (PGROUNDUP sz / PGSIZE) true else some s) = some s₁ ∧
      PtOwn kernEnd s₁ root (L ++ F) ∧ (∀ x, x ∈ L ↔ Mapped s.mem root x) ∧
      (∀ t, IsTable s₁.mem root t ↔ IsTable s.mem root t) ∧
      Within PGSIZE (fun b => b ∈ L ∨ IsTable s.mem root b) s.mem s₁.mem ∧
      ∀ b, b % PGSIZE = 0 → b < MAXVA → pmap s₁.mem root b = none := by
  have hP : PGSIZE = 4096 := rfl
  have hT : TRAPFRAME < MAXVA := by decide
  -- 写されたページはどれも [0, PGROUNDUP(sz)) にある
  have hlo : ∀ b, b % PGSIZE = 0 → b < MAXVA → pmap s.mem root b ≠ none → b < PGROUNDUP sz :=
    fun b hb hb' hm => (hmap b hb hb').mpr hm
  by_cases hsz0 : sz > 0
  · rw [if_pos hsz0]
    have hn : 0 + PGROUNDUP sz / PGSIZE * PGSIZE = PGROUNDUP sz := by
      have := PGROUNDUP_mod sz
      rw [hP] at this ⊢
      omega
    obtain ⟨s₁, L, hrun, h₁, hL, hT₁, hP₁, hW₁⟩ := h.uvmunmapLoop true (PGROUNDUP sz / PGSIZE) 0 s F (by decide)
      (hn.trans_le (hsz.trans (Nat.le_of_lt hT))) fun b hb _ h₂ => by
        have hb' : b < PGROUNDUP sz := h₂.trans_eq hn
        have hbM : b < MAXVA := Nat.lt_trans (Nat.lt_of_lt_of_le hb' hsz) hT
        obtain ⟨⟨pa, fl⟩, hm⟩ := Option.ne_none_iff_exists'.mp ((hmap b hb hbM).mp hb')
        exact ⟨pa, fl, hm, fun _ => (h.leaf b pa fl hb hbM hm).2.2.2.2 (Nat.lt_of_lt_of_le hb' hsz)⟩
    have hend : 0 + PGROUNDUP sz / PGSIZE * PGSIZE < 2 ^ 64 := hn.trans_lt (Nat.lt_of_le_of_lt hsz (by decide))
    refine ⟨s₁, L, by rw [uvmunmap_of_lt hend, if_neg (by decide)]; exact hrun, h₁, fun x => ?_, hT₁, hW₁,
      fun b hb hb' => ?_⟩
    · rw [hL x, hn]
      constructor
      · rintro ⟨-, b, fl, hb, -, h₂, hm⟩
        exact ⟨b, fl, hb, Nat.lt_trans (Nat.lt_of_lt_of_le h₂ hsz) hT, hm⟩
      · rintro ⟨b, fl, hb, hb', hm⟩
        exact ⟨rfl, b, fl, hb, Nat.zero_le b, hlo b hb hb' (by rw [hm]; exact Option.some_ne_none _), hm⟩
    · rw [hP₁ b hb hb', hn]
      rcases Nat.lt_or_ge b (PGROUNDUP sz) with hr | hr
      · rw [if_pos ⟨Nat.zero_le b, hr⟩]
      · rw [if_neg fun h' => Nat.not_le.mpr h'.2 hr]
        exact Decidable.by_contra fun hm => Nat.not_le.mpr (hlo b hb hb' hm) hr
  · -- sz = 0 なら何も写していない
    rw [if_neg hsz0]
    have h0 : PGROUNDUP sz = 0 := by rw [Nat.eq_zero_of_not_pos hsz0]; rfl
    have hnone : ∀ b, b % PGSIZE = 0 → b < MAXVA → pmap s.mem root b = none := fun b hb hb' =>
      Decidable.by_contra fun hm => Nat.not_lt_zero b (h0 ▸ hlo b hb hb' hm)
    refine ⟨s, [], rfl, h, fun x => ⟨fun hx => absurd hx List.not_mem_nil, ?_⟩, fun _ => Iff.rfl, Within.refl _ _ _,
      hnone⟩
    rintro ⟨b, fl, hb, hb', hm⟩
    rw [hnone b hb hb'] at hm
    cases hm

theorem uvmfree_eq {sz fuel : Nat} : uvmfree kernEnd fuel s root sz =
    (if sz > 0 then uvmunmap kernEnd s root 0 (PGROUNDUP sz / PGSIZE) true else some s).bind
      (freewalk kernEnd fuel root) := by
  unfold uvmfree
  split <;> rfl

/-- uvmfree(pagetable, sz) は、写像が `[0, PGROUNDUP(sz))` のページだけなら panic せずに返り、写していた
ページと表のページをすべて空きリストに戻す。空きリストは kfree できるページの正しい鎖のまま。 -/
theorem uvmfree_frees_all {sz fuel : Nat} (h : PtOwn kernEnd s root F) (hfuel : 2 < fuel)
    (hsz : PGROUNDUP sz ≤ TRAPFRAME)
    (hmap : ∀ b, b % PGSIZE = 0 → b < MAXVA → (b < PGROUNDUP sz ↔ pmap s.mem root b ≠ none)) :
    ∃ s' F', uvmfree kernEnd fuel s root sz = some s' ∧ ListSeg s'.next 0 s'.freelist F' ∧
      (∀ x ∈ F', Page kernEnd x) ∧
      Within PGSIZE (fun b => IsTable s.mem root b ∨ Mapped s.mem root b) s.mem s'.mem ∧
      ∀ x, x ∈ F' ↔ x ∈ F ∨ IsTable s.mem root x ∨ Mapped s.mem root x := by
  obtain ⟨s₁, L, hrun₁, h₁, hL, hT₁, hW₁, hnone⟩ := h.unmapAll hsz hmap
  obtain ⟨s', L₂, hrun₂, hseg, hL₂, hW₂⟩ := freewalk_frees h.kernEnd_pos 2 fuel hfuel root s₁ (L ++ F)
    (h₁.bare hnone) h₁.seg fun x hx => ⟨h₁.free_in x hx, h₁.free_not_table x hx⟩
  have hx : ∀ x, x ∈ L₂ ↔ IsTable s.mem root x := fun x => (hL₂ x).trans (hT₁ x)
  -- uvmunmap は写していたページと表の中を、freewalk は表の中を書く
  have hW : Within PGSIZE (fun b => IsTable s.mem root b ∨ Mapped s.mem root b) s.mem s'.mem :=
    (hW₁.mono fun b hb => hb.elim (fun hb => .inr ((hL b).mp hb)) .inl).trans
      (hW₂.mono fun b hb => .inl ((hx b).mp hb))
  refine ⟨s', L₂ ++ (L ++ F), by rw [uvmfree_eq, hrun₁]; exact hrun₂, hseg, fun x hx => ?_, hW, fun x => ?_⟩
  · rcases List.mem_append.mp hx with hx | hx
    · exact h₁.table_in x ((hL₂ x).mp hx)
    · exact h₁.free_in x hx
  · rw [List.mem_append, List.mem_append, hx, hL]
    exact or_rotate.symm

end Uvmfree

end Xv6.Vm
