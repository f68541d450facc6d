import Xv6.Vm.Grow
import Xv6.Vm.Free

/-!
# プロセスのページ表の一生

proc.c の proc_pagetable、growproc、proc_freepagetable を一つのプロセスのページ表の一生として見る。
proc_pagetable は uvmcreate の空の根に TRAMPOLINE と TRAPFRAME を写し、growproc は利用者の範囲
`[0, PGROUNDUP(sz))` を uvmalloc と uvmdealloc で伸び縮みさせ、proc_freepagetable は二つの写像を
外してから uvmfree で残りを返す。その間の不変条件が `ProcPt` である。

sz + n が TRAPFRAME を越えない growproc をいくつ重ねても panic は起こらず、最後の
proc_freepagetable の後の空きリストは始めの空きリストと同じページの集まりになる
（`proc_pagetable_lifecycle`）。
-/

namespace Xv6.Vm

open Xv6.Lib Xv6.Kalloc Xv6.Lib.Radix

variable {kernEnd : Nat} {s : Kmem} {F : List Nat}

/-! ## uvmcreate -/

/-- uvmcreate は空きリストの頭 p を 0 で埋めて根にする。根のどの欄も無効なので、新しい表は何も
写さず、残りの空きリストとともに不変条件を満たす。 -/
theorem uvmcreate_own {p : Nat} (hk : 0 < kernEnd) (hseg : ListSeg s.next 0 s.freelist (p :: F))
    (hC : ∀ x ∈ p :: F, Page kernEnd x) :
    uvmcreate s = (p, ⟨memset (memset s.mem p 5 PGSIZE) p 0 PGSIZE, s.next p⟩) ∧
      PtOwn kernEnd ⟨memset (memset s.mem p 5 PGSIZE) p 0 PGSIZE, s.next p⟩ p F ∧
      (∀ t, IsTable (memset (memset s.mem p 5 PGSIZE) p 0 PGSIZE) p t ↔ t = p) ∧
      ∀ b, pmap (memset (memset s.mem p 5 PGSIZE) p 0 PGSIZE) p b = none := by
  obtain ⟨hhead, hp0, hseg'⟩ := hseg
  have hpg : Page kernEnd p := hC p List.mem_cons_self
  have hF : ∀ x ∈ F, Page kernEnd x := fun x hx => hC x (List.mem_cons_of_mem _ hx)
  have hnd := List.nodup_cons.mp (ListSeg.nodup ⟨hhead, hp0, hseg'⟩)
  have hroot : ∀ i < 512, pteScheme.valid (ptes (memset (memset s.mem p 5 PGSIZE) p 0 PGSIZE) p i) = false := by
    intro i hi
    rw [ptes_memset_self _ hi]
    rfl
  have hnode : ∀ t, IsTable (memset (memset s.mem p 5 PGSIZE) p 0 PGSIZE) p t ↔ t = p := fun t =>
    Scheme.isNode_iff_of_invalid hroot
  -- 二度の memset は p の中だけを書くので、残りの空きリストの鎖はそのまま
  have hm : ∀ x, ¬ (p ≤ x ∧ x < p + PGSIZE) → memset (memset s.mem p 5 PGSIZE) p 0 PGSIZE x = s.mem x :=
    fun x hx => (memset_of_not_mem 0 hx).trans (memset_of_not_mem 5 hx)
  have hinv : PtInv ⟨memset (memset s.mem p 5 PGSIZE) p 0 PGSIZE, s.next p⟩ p F := by
    refine ⟨⟨Scheme.unique_of_invalid hroot, fun t ht => ?_⟩, ?_, fun x hx => ⟨(hF x hx).aligned, (hF x hx).lt_pte⟩,
      fun x hx ht => hnd.1 ((hnode x).mp ht ▸ hx)⟩
    · rw [(hnode t).mp ht]
      exact hpg.aligned
    · exact hseg'.congr fun y hy => @next_of_outside s ⟨_, s.next p⟩ _ _ hm hpg.aligned (hF y hy).aligned
        fun e => hnd.1 (e ▸ hy)
  obtain ⟨h, hnone⟩ := PtOwn.of_invalid hinv (fun i hi => by rw [ptes_memset_self _ hi]; rfl) hk hpg hF
  refine ⟨?_, h, hnode, hnone⟩
  simp only [uvmcreate, kalloc, hhead, ne_eq, hp0, not_false_eq_true, ↓reduceIte]

/-! ## 仮想アドレスの配置 -/

/-- MAXVA より下の揃ったアドレスは、利用者の範囲か TRAPFRAME か TRAMPOLINE である。 -/
theorem lt_TRAPFRAME_or {b : Nat} (hb : b % PGSIZE = 0) (hb' : b < MAXVA) :
    b < TRAPFRAME ∨ b = TRAPFRAME ∨ b = TRAMPOLINE := by
  simp only [TRAPFRAME, TRAMPOLINE, MAXVA, PGSIZE] at *
  omega

/-! ## 一ページの uvmunmap と空の表の uvmfree -/

theorem not_mapped_of_none {m : Nat → UInt8} {root : Nat}
    (hnone : ∀ b, b % PGSIZE = 0 → b < MAXVA → pmap m root b = none) (x : Nat) : ¬ Mapped m root x := by
  rintro ⟨va, fl, hva, hva', hm⟩
  rw [hnone va hva hva'] at hm
  cases hm

/-- 写された揃った a の一ページの uvmunmap（do_free は 0）: a の写像だけが消え、ページは返さない。 -/
theorem PtOwn.unmapOne {root a : Nat} (h : PtOwn kernEnd s root F) (ha : a % PGSIZE = 0) (ha' : a < MAXVA)
    (hm : pmap s.mem root a ≠ none) :
    ∃ s', uvmunmap kernEnd s root a 1 false = some s' ∧ PtOwn kernEnd s' root F ∧
      (∀ t, IsTable s'.mem root t ↔ IsTable s.mem root t) ∧
      Within PGSIZE (fun b => IsTable s.mem root b) s.mem s'.mem ∧
      ∀ b, b % PGSIZE = 0 → b < MAXVA → pmap s'.mem root b = if b = a then none else pmap s.mem root b := by
  have hP : PGSIZE = 4096 := rfl
  have hend : a + 1 * PGSIZE ≤ MAXVA := by
    simp only [MAXVA] at ha' ⊢
    rw [hP] at ha ⊢
    omega
  -- 揃ったアドレスでは、一ページの範囲に入るのは a だけ
  have hone : ∀ b, b % PGSIZE = 0 → (a ≤ b ∧ b < a + 1 * PGSIZE ↔ b = a) := fun b hb => by
    rw [hP] at ha hb ⊢
    omega
  obtain ⟨s', L, hrun, h', hL, hT', hP', hW⟩ := h.uvmunmapLoop false 1 a s F ha hend fun b hb h₁ h₂ => by
    obtain ⟨⟨pa, fl⟩, hmb⟩ := Option.ne_none_iff_exists'.mp (((hone b hb).mp ⟨h₁, h₂⟩) ▸ hm)
    exact ⟨pa, fl, hmb, fun h => absurd h Bool.false_ne_true⟩
  have hL₀ : L = [] := List.eq_nil_iff_forall_not_mem.mpr fun x hx => absurd ((hL x).mp hx).1 Bool.false_ne_true
  rw [hL₀, List.nil_append] at h'
  rw [hL₀] at hW
  refine ⟨s', by rw [uvmunmap_of_lt (hend.trans_lt (by decide)), if_neg (by rw [ha]; decide)]; exact hrun, h', hT',
    hW.mono fun b hb => hb.resolve_left List.not_mem_nil, fun b hb hb' => ?_⟩
  rw [hP' b hb hb']
  exact if_congr (hone b hb) rfl rfl

/-- 何も写していない表の uvmfree(pagetable, 0) は、表のページをすべて空きリストに返す。 -/
theorem PtOwn.uvmfree_zero {root fuel : Nat} (h : PtOwn kernEnd s root F) (hfuel : 2 < fuel)
    (hnone : ∀ b, b % PGSIZE = 0 → b < MAXVA → pmap s.mem root b = none) :
    ∃ s' F', uvmfree kernEnd fuel s root 0 = some s' ∧ ListSeg s'.next 0 s'.freelist F' ∧
      (∀ x ∈ F', Page kernEnd x) ∧ Within PGSIZE (fun b => IsTable s.mem root b) s.mem s'.mem ∧
      ∀ x, x ∈ F' ↔ x ∈ F ∨ IsTable s.mem root x := by
  have h0 : PGROUNDUP 0 = 0 := rfl
  obtain ⟨s', F', hrun, hseg, hpage, hW, hF'⟩ := uvmfree_frees_all h hfuel (h0 ▸ Nat.zero_le _)
    fun b hb hb' => ⟨fun hlt => absurd (hlt.trans_eq h0) (Nat.not_lt_zero b), fun hm => absurd (hnone b hb hb') hm⟩
  refine ⟨s', F', hrun, hseg, hpage, hW.mono fun b hb => hb.resolve_right (not_mapped_of_none hnone b),
    fun x => (hF' x).trans ?_⟩
  simp only [not_mapped_of_none hnone x, or_false]

/-! ## 不変条件 -/

/-- プロセスのページ表の不変条件。利用者の範囲 `[0, PGROUNDUP(sz))` はちょうど写されていて、その上では
TRAPFRAME と TRAMPOLINE だけが、proc_pagetable の写したページと印で写されている。 -/
structure ProcPt (kernEnd : Nat) (s : Kmem) (pt sz trampoline trapframe : Nat) (F : List Nat) : Prop where
  own : PtOwn kernEnd s pt F
  bound : PGROUNDUP sz ≤ TRAPFRAME
  user : ∀ b, b % PGSIZE = 0 → b < TRAPFRAME → (b < PGROUNDUP sz ↔ pmap s.mem pt b ≠ none)
  tramp : pmap s.mem pt TRAMPOLINE = some (trampoline, PTE_R ||| PTE_X ||| PTE_V)
  tframe : pmap s.mem pt TRAPFRAME = some (trapframe, PTE_R ||| PTE_W ||| PTE_V)

variable {pt sz tr tf : Nat}

/-- 写されたページは、利用者の範囲のページか、trampoline か trapframe である。 -/
theorem ProcPt.mapped_iff (h : ProcPt kernEnd s pt sz tr tf F) (x : Nat) :
    Mapped s.mem pt x ↔
      (∃ va fl, va % PGSIZE = 0 ∧ va < PGROUNDUP sz ∧ pmap s.mem pt va = some (x, fl)) ∨ x = tr ∨ x = tf := by
  have hT : TRAPFRAME < MAXVA := by decide
  constructor
  · rintro ⟨va, fl, hva, hva', hm⟩
    rcases lt_TRAPFRAME_or hva hva' with hlt | rfl | rfl
    · exact .inl ⟨va, fl, hva, (h.user va hva hlt).mpr (by rw [hm]; exact Option.some_ne_none _), hm⟩
    · rw [h.tframe] at hm
      exact .inr (.inr (Prod.mk.inj (Option.some.inj hm)).1.symm)
    · rw [h.tramp] at hm
      exact .inr (.inl (Prod.mk.inj (Option.some.inj hm)).1.symm)
  · rintro (⟨va, fl, hva, hlt, hm⟩ | rfl | rfl)
    · exact ⟨va, fl, hva, Nat.lt_trans (Nat.lt_of_lt_of_le hlt h.bound) hT, hm⟩
    · exact ⟨TRAMPOLINE, _, by decide, by decide, h.tramp⟩
    · exact ⟨TRAPFRAME, _, by decide, hT, h.tframe⟩

/-! ## proc_pagetable -/

/-- proc_pagetable は panic せずに返る。空きが足りなければ 0 を返し、空きリストは始めと同じページの
集まりに戻る。空きリストに五ページ（根と、二つの写像の walk が取る高々二ページずつ）あれば成功する。
成功すれば大きさ 0 の `ProcPt` が成り立ち、空きリスト、表、写されたページを合わせた集まりは、始めの
空きリストに trampoline と trapframe を加えたものである。trampoline と trapframe は揃っていて PTE に書け、
空きリストになく、互いに違うことが要る。どちらでも、書き込みは始めの空きリストのページの中だけである。 -/
theorem ProcPt.create {fuel : Nat} {C : List Nat} (hk : 0 < kernEnd) (hfuel : 2 < fuel)
    (hseg : ListSeg s.next 0 s.freelist C) (hC : ∀ x ∈ C, Page kernEnd x)
    (htr : tr % PGSIZE = 0 ∧ tr < 2 ^ 64 ∧ tr ∉ C) (htf : tf % PGSIZE = 0 ∧ tf < 2 ^ 64 ∧ tf ∉ C)
    (hne : tr ≠ tf) :
    ∃ pt s' F', proc_pagetable kernEnd fuel tr tf s = some (pt, s') ∧
      Within PGSIZE (fun b => b ∈ C) s.mem s'.mem ∧ (5 ≤ C.length → pt ≠ 0) ∧
      ((pt = 0 ∧ ListSeg s'.next 0 s'.freelist F' ∧ (∀ x ∈ F', Page kernEnd x) ∧ ∀ x, x ∈ F' ↔ x ∈ C) ∨
        (pt ≠ 0 ∧ ProcPt kernEnd s' pt 0 tr tf F' ∧
          ∀ x, x ∈ F' ∨ IsTable s'.mem pt x ∨ Mapped s'.mem pt x ↔ x ∈ C ∨ x = tr ∨ x = tf)) := by
  cases C with
  | nil =>
    -- 空きリストが空なら uvmcreate は 0 を返す
    have h0 : s.freelist = 0 := hseg
    refine ⟨0, s, [], ?_, Within.refl _ _ _, fun h5 => absurd h5 (by simp), .inl ⟨rfl, hseg, hC, fun _ => Iff.rfl⟩⟩
    simp only [proc_pagetable, uvmcreate, kalloc, h0, ne_eq, not_true_eq_false, ↓reduceIte]
  | cons p F =>
    obtain ⟨hcreate, h₁, hT₁, hnone₁⟩ := uvmcreate_own hk hseg hC
    have hp0 : p ≠ 0 := hseg.2.1
    -- 書き込みは、空きリストから取った根と表の中だけ
    have hW₁ : Within PGSIZE (fun b => b ∈ p :: F) s.mem (memset (memset s.mem p 5 PGSIZE) p 0 PGSIZE) :=
      (within_memset (P := fun b => b ∈ p :: F) List.mem_cons_self 5).trans
        (within_memset (P := fun b => b ∈ p :: F) List.mem_cons_self 0)
    rw [proc_pagetable, hcreate]
    dsimp only
    rw [if_neg hp0]
    -- TRAMPOLINE を写す。walk は空きリストの頭から表の列 N を取る
    obtain ⟨r, s₂, N, F₂, hrun₂, rfl, h₂, hT₂, hW₂, hN, hsucc₂, hres₂⟩ := h₁.mappages_page (by decide) (by decide)
      (hnone₁ TRAMPOLINE) htr.1 htr.2.1 (fun hx => htr.2.2 (List.mem_cons_of_mem _ hx))
      (fun ht => htr.2.2 ((hT₁ tr).mp ht ▸ List.mem_cons_self)) (not_mapped_of_none (fun b _ _ => hnone₁ b) tr)
      (fun h => absurd h (by decide)) (by decide : (PTE_R ||| PTE_X) < 1024) (by decide)
    have hT₂' : ∀ b, IsTable s₂.mem p b → b ∈ p :: (N ++ F₂) := fun b hb =>
      ((hT₂ b).mp hb).elim (fun hb => by rw [(hT₁ b).mp hb]; exact List.mem_cons_self)
        fun hb => List.mem_cons_of_mem p (List.mem_append_left F₂ hb)
    have hW₂' : Within PGSIZE (fun b => b ∈ p :: (N ++ F₂)) s.mem s₂.mem :=
      hW₁.trans (hW₂.mono fun b hb => hb.elim (fun hb => List.mem_cons_of_mem p (List.mem_append_left F₂ hb))
        fun hb => by rw [(hT₁ b).mp hb]; exact List.mem_cons_self)
    rw [hrun₂]
    dsimp only
    rcases hres₂ with ⟨rfl, hP₂⟩ | ⟨rfl, hP₂⟩
    · rw [if_neg (by decide)]
      have hP₂' : ∀ b, b % PGSIZE = 0 → b < MAXVA →
          pmap s₂.mem p b = if b = TRAMPOLINE then some (tr, PTE_R ||| PTE_X ||| PTE_V) else none :=
        fun b hb hb' => by rw [hP₂ b hb hb', hnone₁]
      have hpM : ¬ Mapped s₂.mem p tf := by
        rintro ⟨va, fl, hva, hva', hm⟩
        rw [hP₂' va hva hva'] at hm
        split at hm
        · exact hne (Prod.mk.inj (Option.some.inj hm)).1
        · cases hm
      -- TRAPFRAME を写す。walk は残りの空きリストの頭から表の列 N' を取る
      obtain ⟨r', s₃, N', F₃, hrun₃, rfl, h₃, hT₃, hW₃, -, hsucc₃, hres₃⟩ := h₂.mappages_page (by decide) (by decide)
        (by rw [hP₂' _ (by decide) (by decide), if_neg (by decide)] : pmap s₂.mem p TRAPFRAME = none) htf.1 htf.2.1
        (fun hx => htf.2.2 (List.mem_cons_of_mem _ (List.mem_append_right _ hx)))
        (fun ht => ((hT₂ tf).mp ht).elim (fun ht => htf.2.2 ((hT₁ tf).mp ht ▸ List.mem_cons_self))
          fun hx => htf.2.2 (List.mem_cons_of_mem _ (List.mem_append_left _ hx)))
        hpM (fun h => absurd h (by decide)) (by decide : (PTE_R ||| PTE_W) < 1024) (by decide)
      have hN' : ∀ b, b ∈ N' → b ∈ p :: (N ++ (N' ++ F₃)) := fun b hb =>
        List.mem_cons_of_mem p (List.mem_append_right N (List.mem_append_left F₃ hb))
      have hT₃' : ∀ b, IsTable s₃.mem p b → b ∈ p :: (N ++ (N' ++ F₃)) := fun b hb =>
        ((hT₃ b).mp hb).elim (hT₂' b) (hN' b)
      have hW₃' : Within PGSIZE (fun b => b ∈ p :: (N ++ (N' ++ F₃))) s.mem s₃.mem :=
        hW₂'.trans (hW₃.mono fun b hb => hb.elim (hN' b) (hT₂' b))
      rw [hrun₃]
      dsimp only
      rcases hres₃ with ⟨rfl, hP₃⟩ | ⟨rfl, hP₃⟩
      · -- 二つとも写せた
        rw [if_neg (by decide)]
        have hpp : ProcPt kernEnd s₃ p 0 tr tf F₃ := by
          refine ⟨h₃, by decide, fun b hb hb' => ?_, ?_, ?_⟩
          · have hbM : b < MAXVA := Nat.lt_trans hb' (by decide)
            rw [hP₃ b hb hbM, if_neg (Nat.ne_of_lt hb'), hP₂' b hb hbM,
              if_neg (Nat.ne_of_lt (Nat.lt_trans hb' (by decide)))]
            exact ⟨fun h => absurd h (Nat.not_lt_zero b), fun h => absurd rfl h⟩
          · rw [hP₃ _ (by decide) (by decide), if_neg (by decide), hP₂' _ (by decide) (by decide), if_pos rfl]
          · rw [hP₃ _ (by decide) (by decide), if_pos rfl]
        have hM : ∀ x, Mapped s₃.mem p x ↔ x = tr ∨ x = tf := fun x => by
          rw [hpp.mapped_iff x]
          refine or_iff_right fun hu => ?_
          obtain ⟨_, _, _, hlt, _⟩ := hu
          exact Nat.not_lt_zero _ hlt
        refine ⟨p, s₃, F₃, rfl, hW₃', fun _ => hp0, .inr ⟨hp0, hpp, fun x => ?_⟩⟩
        rw [hM, hT₃, hT₂, hT₁]
        simp only [List.mem_cons, List.mem_append]
        simp only [or_comm, or_left_comm, or_assoc]
      · -- TRAPFRAME の表が取れなかった: TRAMPOLINE を外し、表を uvmfree で返す
        rw [if_pos (by decide)]
        obtain ⟨s₄, hrun₄, h₄, hT₄, hW₄, hP₄⟩ := h₃.unmapOne (a := TRAMPOLINE) (by decide) (by decide)
          (by rw [hP₃, hP₂' _ (by decide) (by decide), if_pos rfl]; exact Option.some_ne_none _)
        have hnone₄ : ∀ b, b % PGSIZE = 0 → b < MAXVA → pmap s₄.mem p b = none := by
          intro b hb hb'
          rw [hP₄ b hb hb', hP₃, hP₂' b hb hb']
          split <;> rfl
        obtain ⟨s', F', hrun, hseg', hpage', hW, hF'⟩ := h₄.uvmfree_zero hfuel hnone₄
        refine ⟨0, s', F', ?_, hW₃'.trans ((hW₄.mono hT₃').trans (hW.mono fun b hb => hT₃' b ((hT₄ b).mp hb))),
          fun h5 => absurd (hsucc₃ ?_) (by decide), .inl ⟨rfl, hseg', hpage', fun x => ?_⟩⟩
        · simp [hrun₄, hrun]
        · -- 五ページあれば、根と TRAMPOLINE の表の後にも二ページ残る
          simp only [List.length_cons, List.length_append] at h5 ⊢
          omega
        · rw [hF', hT₄, hT₃, hT₂, hT₁]
          simp only [List.mem_cons, List.mem_append]
          simp only [or_comm, or_assoc]
    · -- TRAMPOLINE の表が取れなかった: 根と取った表を uvmfree で返す
      rw [if_pos (by decide)]
      obtain ⟨s', F', hrun, hseg', hpage', hW, hF'⟩ := h₂.uvmfree_zero hfuel fun b _ _ => (hP₂ b).trans (hnone₁ b)
      refine ⟨0, s', F', ?_, hW₂'.trans (hW.mono hT₂'), fun h5 => absurd (hsucc₂ ?_) (by decide),
        .inl ⟨rfl, hseg', hpage', fun x => ?_⟩⟩
      · rw [hrun]
        rfl
      · simp only [List.length_cons, List.length_append] at h5 ⊢
        omega
      · rw [hF', hT₂, hT₁]
        simp only [List.mem_cons, List.mem_append]
        exact or_comm.trans or_assoc

/-! ## growproc -/

/-- 写像が MAXVA より下で変わらなければ、不変条件は同じ大きさで残る。 -/
theorem ProcPt.congr {s' : Kmem} {F' : List Nat} (h : ProcPt kernEnd s pt sz tr tf F) (h' : PtOwn kernEnd s' pt F')
    (hP : ∀ b, b % PGSIZE = 0 → b < MAXVA → pmap s'.mem pt b = pmap s.mem pt b) :
    ProcPt kernEnd s' pt sz tr tf F' where
  own := h'
  bound := h.bound
  user b hb hb' := by
    rw [hP b hb (Nat.lt_trans hb' (by decide))]
    exact h.user b hb hb'
  tramp := (hP _ (by decide) (by decide)).trans h.tramp
  tframe := (hP _ (by decide) (by decide)).trans h.tframe

/-- `[PGROUNDUP(sz), PGROUNDUP(newsz))` を写し終えれば、大きさ newsz の不変条件が成り立つ。 -/
theorem ProcPt.grown {s' : Kmem} {F' : List Nat} {newsz : Nat} {fl : Nat → Nat} {dt : Nat → Nat → UInt8}
    (h : ProcPt kernEnd s pt sz tr tf F) (hnew : newsz ≤ TRAPFRAME)
    (g : Filled kernEnd pt fl dt s F (PGROUNDUP sz) (PGROUNDUP newsz) s' F') :
    ProcPt kernEnd s' pt newsz tr tf F' := by
  have hbound : PGROUNDUP newsz ≤ TRAPFRAME := (PGROUNDUP_mono hnew).trans_eq (PGROUNDUP_of_aligned (by decide))
  -- TRAPFRAME と TRAMPOLINE は伸ばした範囲の上にある
  have hhigh : ∀ b, b % PGSIZE = 0 → b < MAXVA → TRAPFRAME ≤ b → pmap s'.mem pt b = pmap s.mem pt b :=
    fun b hb hb' hT => g.outside b hb hb' (.inr (hbound.trans hT))
  refine ⟨g.own, hbound, fun b hb hb' => ?_, (hhigh _ (by decide) (by decide) (by decide)).trans h.tramp,
    (hhigh _ (by decide) (by decide) (Nat.le_refl _)).trans h.tframe⟩
  have hbM : b < MAXVA := Nat.lt_trans hb' (by decide)
  rcases Nat.lt_or_ge b (PGROUNDUP sz) with h₁ | h₁
  · rw [g.outside b hb hbM (.inl h₁)]
    exact iff_of_true (Nat.lt_of_lt_of_le h₁ g.le) ((h.user b hb hb').mp h₁)
  · rcases Nat.lt_or_ge b (PGROUNDUP newsz) with h₂ | h₂
    · obtain ⟨pa, hm, -⟩ := g.inside b hb h₁ h₂
      rw [hm]
      exact iff_of_true h₂ (Option.some_ne_none _)
    · rw [g.outside b hb hbM (.inr h₂)]
      exact iff_of_false (Nat.not_lt.mpr h₂) fun hm => Nat.not_lt.mpr h₁ ((h.user b hb hb').mpr hm)

/-- uvmdealloc が `[PGROUNDUP(newsz), PGROUNDUP(sz))` の写像を消せば、uvmdealloc の返す大きさの不変条件が
成り立つ。 -/
theorem ProcPt.shrunk {s' : Kmem} {F' : List Nat} {newsz : Nat} (h : ProcPt kernEnd s pt sz tr tf F)
    (h' : PtOwn kernEnd s' pt F')
    (hP : ∀ b, b % PGSIZE = 0 → b < MAXVA →
      pmap s'.mem pt b = if PGROUNDUP newsz ≤ b ∧ b < PGROUNDUP sz then none else pmap s.mem pt b) :
    ProcPt kernEnd s' pt (if newsz ≥ sz then sz else newsz) tr tf F' := by
  have hhigh : ∀ b, b % PGSIZE = 0 → b < MAXVA → TRAPFRAME ≤ b → pmap s'.mem pt b = pmap s.mem pt b :=
    fun b hb hb' hT => by rw [hP b hb hb', if_neg fun hr => Nat.not_le.mpr (Nat.lt_of_lt_of_le hr.2 h.bound) hT]
  by_cases hge : newsz ≥ sz
  · -- 範囲は空
    rw [if_pos hge]
    refine h.congr h' fun b hb hb' => ?_
    rw [hP b hb hb', if_neg fun hr => Nat.not_le.mpr (Nat.lt_of_lt_of_le hr.2 (PGROUNDUP_mono hge)) hr.1]
  · rw [if_neg hge]
    have hle : PGROUNDUP newsz ≤ PGROUNDUP sz := PGROUNDUP_mono (Nat.le_of_not_le hge)
    refine ⟨h', hle.trans h.bound, fun b hb hb' => ?_, (hhigh _ (by decide) (by decide) (by decide)).trans h.tramp,
      (hhigh _ (by decide) (by decide) (Nat.le_refl _)).trans h.tframe⟩
    rw [hP b hb (Nat.lt_trans hb' (by decide))]
    rcases Nat.lt_or_ge b (PGROUNDUP newsz) with h₁ | h₁
    · rw [if_neg fun hr => Nat.not_le.mpr h₁ hr.1]
      exact iff_of_true h₁ ((h.user b hb hb').mp (Nat.lt_of_lt_of_le h₁ hle))
    · rcases Nat.lt_or_ge b (PGROUNDUP sz) with h₂ | h₂
      · rw [if_pos ⟨h₁, h₂⟩]
        exact iff_of_false (Nat.not_lt.mpr h₁) fun hm => hm rfl
      · rw [if_neg fun hr => Nat.not_lt.mpr h₂ hr.2]
        exact iff_of_false (Nat.not_lt.mpr h₁) fun hm => Nat.not_lt.mpr h₂ ((h.user b hb hb').mpr hm)

/-- 範囲 `[lo, hi)` の写像を消し、写していたページの列 L を空きリストの頭に返しても、空きリスト、表、
写されたページを合わせた集まりは変わらない。 -/
theorem pages_of_unmap {m m' : Nat → UInt8} {root lo hi : Nat} {L : List Nat} (hhi : hi ≤ MAXVA)
    (hL : ∀ x, x ∈ L ↔ ∃ b fl, b % PGSIZE = 0 ∧ lo ≤ b ∧ b < hi ∧ pmap m root b = some (x, fl))
    (hT : ∀ t, IsTable m' root t ↔ IsTable m root t)
    (hP : ∀ b, b % PGSIZE = 0 → b < MAXVA → pmap m' root b = if lo ≤ b ∧ b < hi then none else pmap m root b)
    (x : Nat) :
    x ∈ L ++ F ∨ IsTable m' root x ∨ Mapped m' root x ↔ x ∈ F ∨ IsTable m root x ∨ Mapped m root x := by
  -- 写されていたページは、範囲の中で写されていたか、今も写されている
  have hM : Mapped m root x ↔ x ∈ L ∨ Mapped m' root x := by
    constructor
    · rintro ⟨va, fl, hva, hva', hm⟩
      by_cases hr : lo ≤ va ∧ va < hi
      · exact .inl ((hL x).mpr ⟨va, fl, hva, hr.1, hr.2, hm⟩)
      · exact .inr ⟨va, fl, hva, hva', by rw [hP va hva hva', if_neg hr]; exact hm⟩
    · rintro (hx | ⟨va, fl, hva, hva', hm⟩)
      · obtain ⟨b, fl, hb, -, hb', hm⟩ := (hL x).mp hx
        exact ⟨b, fl, hb, Nat.lt_of_lt_of_le hb' hhi, hm⟩
      · rw [hP va hva hva'] at hm
        split at hm
        · cases hm
        · exact ⟨va, fl, hva, hva', hm⟩
  rw [List.mem_append, hT, hM, or_assoc]
  exact or_left_comm.trans (or_congr_right or_left_comm)

/-- growproc(n) は、sz + n が TRAPFRAME を越えなければ panic せずに返り、不変条件を新しい大きさで残す。
空きリスト、表、写されたページを合わせた集まりは変わらない。-1 を返せば大きさは変わらず、伸ばす向きで
0 を返せば新しい大きさは sz + n である。縮める向きで sz + n が負なら uint64 の和は折り返して sz より大きく
なり、uvmdealloc は何もしない。 -/
theorem ProcPt.growproc (hp : Nat) {n : Int} (h : ProcPt kernEnd s pt sz tr tf F)
    (hn : (sz : Int) + n ≤ TRAPFRAME) :
    ∃ r sz' s' hp' F', growproc kernEnd s hp pt sz n = some (r, sz', s', hp') ∧
      ProcPt kernEnd s' pt sz' tr tf F' ∧
      (∀ x, x ∈ F' ∨ IsTable s'.mem pt x ∨ Mapped s'.mem pt x ↔ x ∈ F ∨ IsTable s.mem pt x ∨ Mapped s.mem pt x) ∧
      (r = -1 → sz' = sz) ∧ (0 < n → r = 0 → (sz' : Int) = sz + n) := by
  have hTF : TRAPFRAME = 274877898752 := rfl
  rw [Xv6.Vm.growproc]
  rcases lt_trichotomy n 0 with hneg | rfl | hpos
  · -- 縮める: 範囲の写像を外してページを返す
    rw [if_neg (not_lt.mpr hneg.le), if_pos hneg]
    obtain ⟨s', L, hrun, h', hL, hT', hP', -⟩ := h.own.uvmdealloc
      (h.bound.trans (Nat.le_of_lt (by decide)))
      fun b hb _ h₂ => by
        have hbT : b < TRAPFRAME := Nat.lt_of_lt_of_le h₂ h.bound
        obtain ⟨⟨pa, fl⟩, hm⟩ := Option.ne_none_iff_exists'.mp ((h.user b hb hbT).mp h₂)
        exact ⟨pa, fl, hm, (h.own.leaf b pa fl hb (Nat.lt_trans hbT (by decide)) hm).2.2.2.2 hbT⟩
    rw [hrun, Option.map_some]
    exact ⟨0, _, s', hp, L ++ F, rfl, h.shrunk h' hP',
      pages_of_unmap (h.bound.trans (Nat.le_of_lt (by decide))) hL hT' hP', fun hr => absurd hr (by decide), fun hpos => absurd hpos (not_lt.mpr hneg.le)⟩
  · rw [if_neg (lt_irrefl 0), if_neg (lt_irrefl 0)]
    exact ⟨0, sz, s, hp, F, rfl, h, fun _ => Iff.rfl, fun hr => absurd hr (by decide), fun hpos => absurd hpos (lt_irrefl 0)⟩
  · -- 伸ばす: sz + n は折り返さない
    rw [if_pos hpos]
    rw [hTF] at hn
    have hsz : sz < (((sz : Int) + n) % 2 ^ 64).toNat := by omega
    have hnew : (((sz : Int) + n) % 2 ^ 64).toNat ≤ TRAPFRAME := by
      rw [hTF]
      omega
    have hval : ((((sz : Int) + n) % 2 ^ 64).toNat : Int) = sz + n := by omega
    obtain ⟨sz₁, s', hp', hrun, hres⟩ := uvmalloc_grown hp h.own (Nat.le_of_lt hsz)
      (hnew.trans (by decide)) (by decide : PTE_W < 1024) fun b hb h₁ h₂ =>
        Decidable.by_contra fun hm => Nat.not_le.mpr ((h.user b hb (Nat.lt_of_lt_of_le h₂ hnew)).mpr hm) h₁
    rw [hrun, Option.map_some]
    rcases hres with ⟨rfl, F', h', hpages, -, hpm⟩ | ⟨rfl, -, F', g⟩
    · -- uvmalloc が 0 を返した: 始めの写像に戻っていて、-1 を返す
      exact ⟨-1, sz, s', hp', F', by rw [if_pos rfl], h.congr h' hpm, hpages, fun _ => rfl, fun _ hr => absurd hr (by decide)⟩
    · refine ⟨0, _, s', hp', F', by rw [if_neg (Nat.ne_of_gt (Nat.lt_of_le_of_lt (Nat.zero_le sz) hsz))],
        h.grown hnew g, g.pages, fun hr => absurd hr (by decide), fun _ _ => hval⟩

/-! ## proc_freepagetable -/

/-- proc_freepagetable は panic せずに返る。TRAMPOLINE と TRAPFRAME の写像を外してから、写していた利用者の
ページと表のページをすべて空きリストに返し、trampoline と trapframe は返さない。 -/
theorem ProcPt.free {fuel : Nat} (h : ProcPt kernEnd s pt sz tr tf F) (hfuel : 2 < fuel) :
    ∃ s' F', proc_freepagetable kernEnd fuel s pt sz = some s' ∧ ListSeg s'.next 0 s'.freelist F' ∧
      (∀ x ∈ F', Page kernEnd x) ∧
      ∀ x, x ∈ F' ↔ (x ∈ F ∨ IsTable s.mem pt x ∨ Mapped s.mem pt x) ∧ x ≠ tr ∧ x ≠ tf := by
  obtain ⟨s₁, hrun₁, h₁, hT₁, -, hP₁⟩ := h.own.unmapOne (a := TRAMPOLINE) (by decide) (by decide)
    (by rw [h.tramp]; exact Option.some_ne_none _)
  obtain ⟨s₂, hrun₂, h₂, hT₂, -, hP₂⟩ := h₁.unmapOne (a := TRAPFRAME) (by decide) (by decide)
    (by rw [hP₁ _ (by decide) (by decide), if_neg (by decide), h.tframe]; exact Option.some_ne_none _)
  -- 二つを外した後に残る写像は、利用者の範囲のものだけ
  have hP : ∀ b, b % PGSIZE = 0 → b < MAXVA →
      pmap s₂.mem pt b = if b < TRAPFRAME then pmap s.mem pt b else none := by
    intro b hb hb'
    rw [hP₂ b hb hb', hP₁ b hb hb']
    rcases lt_TRAPFRAME_or hb hb' with hlt | rfl | rfl
    · rw [if_neg (Nat.ne_of_lt hlt), if_neg (Nat.ne_of_lt (Nat.lt_trans hlt (by decide))), if_pos hlt]
    · rw [if_pos rfl, if_neg (Nat.lt_irrefl _)]
    · rw [if_neg (by decide), if_pos rfl, if_neg (by decide)]
  have hmap : ∀ b, b % PGSIZE = 0 → b < MAXVA → (b < PGROUNDUP sz ↔ pmap s₂.mem pt b ≠ none) := by
    intro b hb hb'
    rw [hP b hb hb']
    rcases Nat.lt_or_ge b TRAPFRAME with hlt | hge
    · rw [if_pos hlt]
      exact h.user b hb hlt
    · rw [if_neg (Nat.not_lt.mpr hge)]
      exact iff_of_false (fun hlt => Nat.not_lt.mpr hge (Nat.lt_of_lt_of_le hlt h.bound)) fun hm => hm rfl
  -- 利用者の範囲のページは trampoline でも trapframe でもない
  have hM : ∀ x, Mapped s₂.mem pt x ↔ Mapped s.mem pt x ∧ x ≠ tr ∧ x ≠ tf := by
    intro x
    constructor
    · rintro ⟨va, fl, hva, hva', hm⟩
      rw [hP va hva hva'] at hm
      split at hm
      · next hlt =>
        refine ⟨⟨va, fl, hva, hva', hm⟩, fun e => ?_, fun e => ?_⟩
        · have := h.own.inj va TRAMPOLINE x fl _ hva hva' (by decide) (by decide) hm (e ▸ h.tramp)
          exact Nat.ne_of_lt (Nat.lt_trans hlt (by decide)) this
        · exact Nat.ne_of_lt hlt (h.own.inj va TRAPFRAME x fl _ hva hva' (by decide) (by decide) hm (e ▸ h.tframe))
      · cases hm
    · rintro ⟨⟨va, fl, hva, hva', hm⟩, hne₁, hne₂⟩
      rcases lt_TRAPFRAME_or hva hva' with hlt | rfl | rfl
      · exact ⟨va, fl, hva, hva', by rw [hP va hva hva', if_pos hlt]; exact hm⟩
      · rw [h.tframe] at hm
        exact absurd (Prod.mk.inj (Option.some.inj hm)).1.symm hne₂
      · rw [h.tramp] at hm
        exact absurd (Prod.mk.inj (Option.some.inj hm)).1.symm hne₁
  -- trampoline と trapframe は空きリストにも表にもない
  have hout : ∀ x, x ∈ F ∨ IsTable s.mem pt x → x ≠ tr ∧ x ≠ tf := by
    have htr := h.own.leaf TRAMPOLINE tr _ (by decide) (by decide) h.tramp
    have htf := h.own.leaf TRAPFRAME tf _ (by decide) (by decide) h.tframe
    rintro x (hx | hx)
    · exact ⟨fun e => htr.2.2.1 (e ▸ hx), fun e => htf.2.2.1 (e ▸ hx)⟩
    · exact ⟨fun e => htr.2.2.2.1 (e ▸ hx), fun e => htf.2.2.2.1 (e ▸ hx)⟩
  obtain ⟨s', F', hrun, hseg, hpage, -, hF'⟩ := uvmfree_frees_all h₂ hfuel h.bound hmap
  refine ⟨s', F', ?_, hseg, hpage, fun x => ?_⟩
  · simp [proc_freepagetable, hrun₁, hrun₂, hrun]
  · rw [hF', hT₂, hT₁, hM]
    constructor
    · rintro (hx | hx | ⟨hm, hne⟩)
      · exact ⟨.inl hx, hout x (.inl hx)⟩
      · exact ⟨.inr (.inl hx), hout x (.inr hx)⟩
      · exact ⟨.inr (.inr hm), hne⟩
    · rintro ⟨hx | hx | hm, hne⟩
      · exact .inl hx
      · exact .inr (.inl hx)
      · exact .inr (.inr ⟨hm, hne⟩)

/-! ## 一生 -/

/-- growproc の一回。状態は物理メモリと `p->sz` と `p->heap_pages` で、sz + n は TRAPFRAME を越えない。 -/
def GrowStep (kernEnd pt : Nat) (x y : Kmem × Nat × Nat) : Prop :=
  ∃ n r, (x.2.1 : Int) + n ≤ TRAPFRAME ∧ growproc kernEnd x.1 x.2.2 pt x.2.1 n = some (r, y.2.1, y.1, y.2.2)

/-- 一生の不変条件: `ProcPt` が成り立ち、空きリスト、表、写されたページを合わせた集まりは、始めの空き
リストに trampoline と trapframe を加えたものである。 -/
def Life (kernEnd pt tr tf : Nat) (C : List Nat) (x : Kmem × Nat × Nat) : Prop :=
  ∃ F, ProcPt kernEnd x.1 pt x.2.1 tr tf F ∧
    ∀ y, y ∈ F ∨ IsTable x.1.mem pt y ∨ Mapped x.1.mem pt y ↔ y ∈ C ∨ y = tr ∨ y = tf

theorem Life.step {C : List Nat} {x y : Kmem × Nat × Nat} (h : Life kernEnd pt tr tf C x)
    (hs : GrowStep kernEnd pt x y) : Life kernEnd pt tr tf C y := by
  obtain ⟨F, hpp, hF⟩ := h
  obtain ⟨s₂, sz₂, hp₂⟩ := y
  obtain ⟨n, r, hn, hrun⟩ := hs
  obtain ⟨r', sz', s', hp', F', hrun', hpp', hF', -⟩ := hpp.growproc x.2.2 hn
  -- growproc は関数なので、遷移の後の状態は ProcPt.growproc の状態
  rw [hrun] at hrun'
  simp only [Option.some.injEq, Prod.mk.injEq] at hrun'
  obtain ⟨-, rfl, rfl, -⟩ := hrun'
  exact ⟨F', hpp', fun z => (hF' z).trans (hF z)⟩

/-- プロセスのページ表の一生: proc_pagetable は panic せずに返り、空きリストに五ページあれば成功し、失敗
すれば空きリストは始めと同じページの集まりの鎖である。成功すれば、sz + n が TRAPFRAME を越えない growproc をいくつ重ねた後でも、次の growproc
は panic せずに返り、proc_freepagetable は panic せずに返って、空きリストを始めと同じページの集まりの鎖に
戻す。 -/
theorem proc_pagetable_lifecycle {fuel : Nat} {C : List Nat} (hk : 0 < kernEnd) (hfuel : 2 < fuel)
    (hseg : ListSeg s.next 0 s.freelist C) (hC : ∀ x ∈ C, Page kernEnd x)
    (htr : tr % PGSIZE = 0 ∧ tr < 2 ^ 64 ∧ tr ∉ C) (htf : tf % PGSIZE = 0 ∧ tf < 2 ^ 64 ∧ tf ∉ C)
    (hne : tr ≠ tf) :
    ∃ pt s₁, proc_pagetable kernEnd fuel tr tf s = some (pt, s₁) ∧ (5 ≤ C.length → pt ≠ 0) ∧
      (pt = 0 → ∃ F₁, ListSeg s₁.next 0 s₁.freelist F₁ ∧ ∀ x, x ∈ F₁ ↔ x ∈ C) ∧
      (pt ≠ 0 → ∀ x, Reachable (fun x => x.1 = s₁ ∧ x.2.1 = 0) (GrowStep kernEnd pt) x →
        (∀ n, (x.2.1 : Int) + n ≤ TRAPFRAME → ∃ r y, growproc kernEnd x.1 x.2.2 pt x.2.1 n = some (r, y)) ∧
        ∃ s' F', proc_freepagetable kernEnd fuel x.1 pt x.2.1 = some s' ∧ ListSeg s'.next 0 s'.freelist F' ∧
          ∀ y, y ∈ F' ↔ y ∈ C) := by
  obtain ⟨pt, s₁, F₁, hrun, -, h5, hres⟩ := ProcPt.create hk hfuel hseg hC htr htf hne
  refine ⟨pt, s₁, hrun, h5, fun h0 => ?_, fun hpt x hx => ?_⟩
  · rcases hres with ⟨-, hseg₁, -, hF₁⟩ | ⟨hpt, -⟩
    · exact ⟨F₁, hseg₁, hF₁⟩
    · exact absurd h0 hpt
  · obtain ⟨-, hpp, hpages⟩ := hres.resolve_left fun h => hpt h.1
    have hlife : Life kernEnd pt tr tf C x := by
      refine hx.inv (fun x₀ hx₀ => ?_) fun _ _ h hs => h.step hs
      obtain ⟨s₀, sz₀, hp₀⟩ := x₀
      obtain ⟨h₁, h₂⟩ := hx₀
      dsimp only at h₁ h₂
      subst h₁ h₂
      exact ⟨F₁, hpp, hpages⟩
    obtain ⟨F, h, hF⟩ := hlife
    refine ⟨fun n hn => ?_, ?_⟩
    · obtain ⟨r, sz', s', hp', -, hrun', -⟩ := h.growproc x.2.2 hn
      exact ⟨r, _, hrun'⟩
    · obtain ⟨s', F', hrun', hseg', -, hF'⟩ := h.free hfuel
      refine ⟨s', F', hrun', hseg', fun y => ?_⟩
      rw [hF', hF]
      -- trampoline と trapframe は始めの空きリストになかった
      constructor
      · rintro ⟨hy | rfl | rfl, hne₁, hne₂⟩
        · exact hy
        · exact absurd rfl hne₁
        · exact absurd rfl hne₂
      · intro hy
        exact ⟨.inl hy, fun e => htr.2.2 (e ▸ hy), fun e => htf.2.2 (e ▸ hy)⟩

/-- 八ページの鎖の状態で proc_pagetable は成功し、そこから growproc で二ページ伸ばした状態でも、
proc_freepagetable はページ表を返す。 -/
theorem proc_pagetable_chainTable :
    ∃ pt s₁, proc_pagetable 1 3 0xA000 0xB000 chainTable = some (pt, s₁) ∧ pt ≠ 0 ∧
      ∃ r sz s₂ hp, growproc 1 s₁ 0 pt 0 0x2000 = some (r, sz, s₂, hp) ∧
        ∃ s', proc_freepagetable 1 3 s₂ pt sz = some s' := by
  obtain ⟨pt, s₁, hrun, h5, -, hlife⟩ := proc_pagetable_lifecycle (by decide : 0 < 1) (by decide : 2 < 3)
    chainTable_inv.seg chainTable_own.1.free_in
    (⟨by decide, by decide, not_mem_chainPages (by decide)⟩ :
      0xA000 % PGSIZE = 0 ∧ 0xA000 < 2 ^ 64 ∧ _)
    (⟨by decide, by decide, not_mem_chainPages (by decide)⟩ :
      0xB000 % PGSIZE = 0 ∧ 0xB000 < 2 ^ 64 ∧ _) (by decide)
  have hpt : pt ≠ 0 := h5 (by decide)
  -- 始めの状態から growproc を一回進め、進んだ状態でページ表を返す
  have hx₀ : Reachable (fun x => x.1 = s₁ ∧ x.2.1 = 0) (GrowStep 1 pt) (s₁, 0, 0) := .init ⟨rfl, rfl⟩
  have hn : ((0 : Nat) : Int) + 0x2000 ≤ ((TRAPFRAME : Nat) : Int) := by decide
  obtain ⟨r, ⟨sz, s₂, hp⟩, hgrow⟩ := (hlife hpt _ hx₀).1 0x2000 hn
  have hx₁ : Reachable (fun x => x.1 = s₁ ∧ x.2.1 = 0) (GrowStep 1 pt) (s₂, sz, hp) :=
    .step hx₀ ⟨0x2000, r, hn, hgrow⟩
  obtain ⟨s', -, hfree, -⟩ := (hlife hpt _ hx₁).2
  exact ⟨pt, s₁, hrun, hpt, r, sz, s₂, hp, hgrow, s', hfree⟩

end Xv6.Vm
