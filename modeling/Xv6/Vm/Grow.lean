import Xv6.Vm.Unmap

/-!
# uvmalloc は全部か無しか

uvmalloc は `[PGROUNDUP(oldsz), newsz)` のページを一つずつ、kalloc で取って 0 で埋め、mappages で写す。
途中で kalloc か mappages が失敗すると、それまでに写したページを uvmdealloc で外して解放し、0 を返す。
ページを一つずつ取って写す繰り返しの不変条件 `Filled` は、o から a までを始めの空きリストから取った
ページで写し終え、ページが始めの空きリスト、表、写されたページの間を動くだけであることを言う。写す印と
中身は引数で、uvmalloc の `Grown` は o = `PGROUNDUP(oldsz)` から 0 のページを `perm | PTE_V` で写す場合、
uvmcopy（`Xv6.Vm.Fork`）は親のページの写しを親の印で写す場合である。

結果（`uvmalloc_all_or_nothing`）: uvmalloc は panic せずに返り、成功すれば範囲の各ページを始めの空き
リストにあった 0 のページで写し、ほかの写像を変えない。失敗すれば写像は始めと同じに戻る。どちらでも
空きリスト、表、写されたページを合わせたページの集まりは変わらず、書き込みは始めの空きのページと表の
中だけである。walk が途中で作った表は、失敗しても表のまま残る。
-/

namespace Xv6.Vm

open Xv6.Lib Xv6.Kalloc Xv6.Lib.Radix

/-- ページを一つずつ取って写す繰り返しの不変条件。o から a までの各ページ b を、始めの空きリスト F₀ から
取ったページで印 `flags b` に写し終え、そのページの中身は `data b` である。ページは F₀、始めの表、始めに
写されていたページの間を動くだけである。 -/
structure Filled (kernEnd root : Nat) (flags : Nat → Nat) (data : Nat → Nat → UInt8) (s₀ : Kmem) (F₀ : List Nat)
    (o a : Nat) (s : Kmem) (F : List Nat) : Prop where
  start : PtOwn kernEnd s₀ root F₀
  own : PtOwn kernEnd s root F
  le : o ≤ a
  aligned : a % PGSIZE = 0
  bound : a ≤ MAXVA
  outside : ∀ b, b % PGSIZE = 0 → b < MAXVA → (b < o ∨ a ≤ b) → pmap s.mem root b = pmap s₀.mem root b
  inside : ∀ b, b % PGSIZE = 0 → o ≤ b → b < a →
    ∃ pa, pmap s.mem root b = some (pa, flags b) ∧ pa ∈ F₀ ∧ ∀ j < PGSIZE, s.mem (pa + j) = data b j
  pages : ∀ x, x ∈ F ∨ IsTable s.mem root x ∨ Mapped s.mem root x ↔
    x ∈ F₀ ∨ IsTable s₀.mem root x ∨ Mapped s₀.mem root x
  tables : ∀ t, IsTable s₀.mem root t → IsTable s.mem root t
  spare : ∀ x, x ∈ F ∨ IsTable s.mem root x → x ∈ F₀ ∨ IsTable s₀.mem root x
  within : Within PGSIZE (fun b => b ∈ F₀ ∨ IsTable s₀.mem root b) s₀.mem s.mem

/-- uvmalloc の不変条件: 写したページは 0 で埋まり、印は `perm | PTE_V`。 -/
abbrev Grown (kernEnd root perm : Nat) : Kmem → List Nat → Nat → Nat → Kmem → List Nat → Prop :=
  Filled kernEnd root (fun _ => perm ||| PTE_V) (fun _ _ => 0)

variable {kernEnd root o a : Nat} {fl : Nat → Nat} {dt : Nat → Nat → UInt8} {s₀ s : Kmem} {F₀ F : List Nat}

theorem Filled.init (h : PtOwn kernEnd s₀ root F₀) (ho : o % PGSIZE = 0) (ho' : o ≤ MAXVA) :
    Filled kernEnd root fl dt s₀ F₀ o o s₀ F₀ where
  start := h
  own := h
  le := Nat.le_refl o
  aligned := ho
  bound := ho'
  outside _ _ _ _ := rfl
  inside _ _ h₁ h₂ := absurd h₂ (Nat.not_lt.mpr h₁)
  pages _ := Iff.rfl
  tables _ h := h
  spare _ h := h
  within := Within.refl _ _ _

/-- 今の空きリストのページは、始めの空きリストのページである（始めの表は表のまま残る）。 -/
theorem Filled.mem_start (g : Filled kernEnd root fl dt s₀ F₀ o a s F) {x : Nat} (hx : x ∈ F) : x ∈ F₀ := by
  rcases g.spare x (.inl hx) with h | h
  · exact h
  · exact absurd (g.tables x h) (g.own.free_not_table x hx)

/-- 揃ったページの次のページも、揃った上限を越えない。 -/
theorem add_page_le {m : Nat} (ha : a % PGSIZE = 0) (hm : m % PGSIZE = 0) (h : a < m) : a + PGSIZE ≤ m := by
  simp only [PGSIZE] at *
  omega

theorem MAXVA_aligned : MAXVA % PGSIZE = 0 := by decide

/-- 写されていなかった a を pa に写すと、写されたページに pa が加わる。 -/
theorem mapped_map {m m' : Nat → UInt8} {pa f : Nat} (ha : a % PGSIZE = 0) (ha' : a < MAXVA)
    (hun : pmap m root a = none)
    (hP : ∀ b, b % PGSIZE = 0 → b < MAXVA → pmap m' root b = if b = a then some (pa, f) else pmap m root b)
    (x : Nat) : Mapped m' root x ↔ Mapped m root x ∨ x = pa := by
  constructor
  · rintro ⟨va, fl, hva, hva', hm⟩
    rw [hP va hva hva'] at hm
    split at hm
    · cases hm
      exact .inr rfl
    · exact .inl ⟨va, fl, hva, hva', hm⟩
  · rintro (⟨va, fl, hva, hva', hm⟩ | rfl)
    · by_cases e : va = a
      · subst e
        rw [hun] at hm
        cases hm
      · exact ⟨va, fl, hva, hva', by rw [hP va hva hva', if_neg e, hm]⟩
    · exact ⟨a, f, ha, ha', by rw [hP a ha ha', if_pos rfl]⟩

/-! ## 一回 -/

section Step

variable {newsz p perm : Nat} {F₁ : List Nat} {mem' : Nat → UInt8}

/-- 繰り返しの一回: 空きリストの頭 p を取ってページ p の中だけを `data a` に書き（mem'）、a に perm で写す。
mappages が 0 を返せば a の次へ進み、-1 を返せば p を kfree して、a のまま不変条件が成り立つ。 -/
theorem Filled.step (g : Filled kernEnd root fl dt s₀ F₀ o a s (p :: F₁)) (ha : a < newsz) (hnew : newsz ≤ MAXVA)
    (hfree : ∀ b, b % PGSIZE = 0 → o ≤ b → b < newsz → pmap s₀.mem root b = none)
    (hperm : perm < 1024) (hrwx : perm &&& (PTE_R ||| PTE_W ||| PTE_X) ≠ 0) (hfl : fl a = perm ||| PTE_V)
    (hout : ∀ x, ¬ (p ≤ x ∧ x < p + PGSIZE) → mem' x = s.mem x) (hin : ∀ j < PGSIZE, mem' (p + j) = dt a j) :
    ∃ r s₂ F₂, mappages ⟨mem', s.next p⟩ root a PGSIZE p perm = some (r, s₂) ∧
      ((r = 0 ∧ Filled kernEnd root fl dt s₀ F₀ o (a + PGSIZE) s₂ F₂) ∨
        (r = -1 ∧ ∃ s₃, kfree kernEnd p s₂ = some s₃ ∧ Filled kernEnd root fl dt s₀ F₀ o a s₃ (p :: F₂))) := by
  have h := g.own
  have hle := g.le
  have ha' : a < MAXVA := Nat.lt_of_lt_of_le ha hnew
  have hpF₀ : p ∈ F₀ := g.mem_start List.mem_cons_self
  have hpg : Page kernEnd p := h.free_in p List.mem_cons_self
  have hnd := List.nodup_cons.mp (ListSeg.nodup h.seg)
  have hpT : ¬ IsTable s.mem root p := h.free_not_table p List.mem_cons_self
  have hpM : ¬ Mapped s.mem root p := fun hm => h.mapped_not_free hm List.mem_cons_self
  have hW₁ : Within PGSIZE (· = p) s.mem mem' := Within.of_block rfl hout
  obtain ⟨h₁, hT₁, hP₁⟩ := h.take hout
  have hun : pmap mem' root a = none := by
    rw [hP₁, g.outside a g.aligned ha' (.inr (Nat.le_refl a)), hfree a g.aligned g.le ha]
  obtain ⟨r, s₂, N, F₂, hrun, rfl, h₂, hT₂, hW₂, -, -, hres⟩ := h₁.mappages_page g.aligned ha' hun hpg.aligned hpg.lt_pte
    hnd.1 (fun ht => hpT ((hT₁ p).mp ht)) (fun hm => hpM ((mapped_congr (fun b _ _ => hP₁ b) p).mp hm))
    (fun _ => hpg) hperm hrwx
  have hpN : p ∉ N := fun hx => hnd.1 (List.mem_append_left _ hx)
  -- 書き込みの足跡は、始めの空きのページと表の中
  have hspare : ∀ b, b ∈ N ∨ IsTable mem' root b →
      b ∈ F₀ ∨ IsTable s₀.mem root b := by
    rintro b (hb | hb)
    · exact g.spare b (.inl (List.mem_cons_of_mem _ (List.mem_append_left _ hb)))
    · exact g.spare b (.inr ((hT₁ b).mp hb))
  have hWs : Within PGSIZE (fun b => b ∈ F₀ ∨ IsTable s₀.mem root b) s₀.mem s₂.mem :=
    g.within.trans ((hW₁.mono fun b hb => hb ▸ .inl hpF₀).trans (hW₂.mono hspare))
  have hal₂ : ∀ b, b ∈ N ∨ IsTable mem' root b → b % PGSIZE = 0 :=
    fun b hb => h₁.aligned_of_mem b (hb.imp_left fun hb => List.mem_append_left _ hb)
  -- 写されていたページの中身は、p の取り出しにも mappages にも触れられない
  have hkeep : ∀ pa, Mapped s.mem root pa → ∀ j < PGSIZE, s₂.mem (pa + j) = s.mem (pa + j) := by
    intro pa hm j hj
    have hpa := h.mapped_aligned hm
    have hne : pa ≠ p := fun e => h.mapped_not_free hm (e ▸ List.mem_cons_self)
    rw [hW₂.block_eq hal₂ hpa (fun hb => hb.elim
      (fun hb => h.mapped_not_free hm (List.mem_cons_of_mem _ (List.mem_append_left _ hb)))
      (fun hb => h.mapped_not_table hm ((hT₁ pa).mp hb))) hj]
    exact hW₁.block_eq (fun b hb => hb ▸ hpg.aligned) hpa hne hj
  have hpz : ∀ j < PGSIZE, s₂.mem (p + j) = dt a j := by
    intro j hj
    rw [hW₂.block_eq hal₂ hpg.aligned (fun hb => hb.elim hpN (fun hb => hpT ((hT₁ p).mp hb))) hj]
    exact hin j hj
  refine ⟨r, s₂, F₂, hrun, ?_⟩
  rcases hres with ⟨rfl, hP₂⟩ | ⟨rfl, hP₂⟩
  · have hmap : ∀ x, Mapped s₂.mem root x ↔ Mapped s.mem root x ∨ x = p := fun x =>
      (mapped_map g.aligned ha' hun hP₂ x).trans (or_congr_left (mapped_congr (fun b _ _ => hP₁ b) x))
    refine .inl ⟨rfl, g.start, h₂, Nat.le_trans g.le (Nat.le_add_right a _),
      by have := g.aligned; simp only [PGSIZE] at *; omega, add_page_le g.aligned MAXVA_aligned ha',
      fun b hb hb' hr => ?_, fun b hb h₁' h₂' => ?_, fun x => ?_, fun t ht => (hT₂ t).mpr (.inl ((hT₁ t).mpr
      (g.tables t ht))), fun x hx => ?_, hWs⟩
    · have hba : b ≠ a := by
        rintro rfl
        simp only [PGSIZE] at hr
        omega
      rw [hP₂ b hb hb', if_neg hba, hP₁]
      exact g.outside b hb hb' (hr.imp_right fun h' : a + PGSIZE ≤ b => Nat.le_trans (Nat.le_add_right a _) h')
    · by_cases hba : b = a
      · subst hba
        exact ⟨p, by rw [hP₂ b hb ha', if_pos rfl, hfl], hpF₀, hpz⟩
      · have hlt : b < a := by
          have := g.aligned
          simp only [PGSIZE] at *
          omega
        obtain ⟨pa, hm, hpa, hz⟩ := g.inside b hb h₁' hlt
        refine ⟨pa, by rw [hP₂ b hb (Nat.lt_trans hlt ha'), if_neg hba, hP₁, hm], hpa, fun j hj => ?_⟩
        rw [hkeep pa ⟨b, _, hb, Nat.lt_trans hlt ha', hm⟩ j hj]
        exact hz j hj
    · rw [← g.pages x, hT₂, hT₁, hmap, List.mem_cons, List.mem_append]
      simp only [or_assoc, or_comm, or_left_comm]
    · refine g.spare x (hx.elim (fun hx => .inl (List.mem_cons_of_mem _ (List.mem_append_right _ hx)))
        fun hx => ?_)
      rcases (hT₂ x).mp hx with hx | hx
      · exact .inr ((hT₁ x).mp hx)
      · exact .inl (List.mem_cons_of_mem _ (List.mem_append_left _ hx))
  · -- mappages が -1: p は表でも写されてもいないので kfree できる
    have hpT₂ : ¬ IsTable s₂.mem root p := fun ht => ((hT₂ p).mp ht).elim (fun ht => hpT ((hT₁ p).mp ht)) hpN
    have hpM₂ : ¬ Mapped s₂.mem root p := fun hm =>
      hpM ((mapped_congr (fun b _ _ => (hP₂ b).trans (hP₁ b)) p).mp hm)
    have hpF₂ : p ∉ F₂ := fun hx => hnd.1 (List.mem_append_right _ hx)
    obtain ⟨hk, h₃, hT₃, hP₃⟩ := h₂.give hpg hpF₂ hpT₂ hpM₂
    have hP : ∀ b, pmap (storeLE (memset s₂.mem p 1 PGSIZE) p s₂.freelist 8) root b = pmap s.mem root b :=
      fun b => (hP₃ b).trans ((hP₂ b).trans (hP₁ b))
    refine .inr ⟨rfl, _, hk, g.start, h₃, g.le, g.aligned, g.bound, fun b hb hb' hr => (hP b).trans
      (g.outside b hb hb' hr), fun b hb h₁' h₂' => ?_, fun x => ?_, fun t ht => (hT₃ t).mpr ((hT₂ t).mpr
      (.inl ((hT₁ t).mpr (g.tables t ht)))), fun x hx => ?_, hWs.trans (within_kfree _ (.inl hpF₀) _)⟩
    · obtain ⟨pa, hm, hpa, hz⟩ := g.inside b hb h₁' h₂'
      have hmp : Mapped s.mem root pa := ⟨b, _, hb, Nat.lt_of_lt_of_le h₂' g.bound, hm⟩
      refine ⟨pa, by rw [hP b, hm], hpa, fun j hj => ?_⟩
      dsimp only
      rw [kfree_outside s₂.mem p s₂.freelist (pa + j) fun hj' =>
        h.mapped_not_free hmp (eq_of_page_overlap (h.mapped_aligned hmp) hpg.aligned
          ⟨Nat.le_add_right pa j, Nat.add_lt_add_left hj pa⟩ hj' ▸ List.mem_cons_self), hkeep pa hmp j hj]
      exact hz j hj
    · rw [← g.pages x, hT₃, hT₂, hT₁, mapped_congr (fun b _ _ => hP b) x, List.mem_cons, List.mem_cons,
        List.mem_append]
      simp only [or_assoc, or_comm, or_left_comm]
    · refine g.spare x ?_
      rcases hx with hx | hx
      · rcases List.mem_cons.mp hx with rfl | hx
        · exact .inl List.mem_cons_self
        · exact .inl (List.mem_cons_of_mem _ (List.mem_append_right _ hx))
      · rcases (hT₂ x).mp ((hT₃ x).mp hx) with hx | hx
        · exact .inr ((hT₁ x).mp hx)
        · exact .inl (List.mem_cons_of_mem _ (List.mem_append_left _ hx))

end Step

/-! ## 後始末 -/

/-- 失敗の後の状態: 写像は始めと同じで、ページの集まりは変わらず、書き込みは始めの空きのページと表の
中だけである。 -/
def Restored (kernEnd root : Nat) (s₀ : Kmem) (F₀ : List Nat) (s : Kmem) : Prop :=
  ∃ F, PtOwn kernEnd s root F ∧
    (∀ x, x ∈ F ∨ IsTable s.mem root x ∨ Mapped s.mem root x ↔
      x ∈ F₀ ∨ IsTable s₀.mem root x ∨ Mapped s₀.mem root x) ∧
    Within PGSIZE (fun b => b ∈ F₀ ∨ IsTable s₀.mem root b) s₀.mem s.mem ∧
    ∀ b, b % PGSIZE = 0 → b < MAXVA → pmap s.mem root b = pmap s₀.mem root b

/-- uvmdealloc(pagetable, a, o) は o から a までに写したページを外して空きリストへ返し、始めの写像に戻す。 -/
theorem Filled.unwind (g : Filled kernEnd root fl dt s₀ F₀ o a s F) (ho : o % PGSIZE = 0)
    (hfree : ∀ b, b % PGSIZE = 0 → o ≤ b → b < a → pmap s₀.mem root b = none) :
    ∃ r s', uvmdealloc kernEnd s root a o = some (r, s') ∧ Restored kernEnd root s₀ F₀ s' := by
  have hua := PGROUNDUP_of_aligned g.aligned
  have huo := PGROUNDUP_of_aligned ho
  obtain ⟨s', L, hrun, h', hL, hT', hP', hW'⟩ := g.own.uvmdealloc (hua.trans_le g.bound : PGROUNDUP a ≤ MAXVA)
    fun b hb (h₁ : PGROUNDUP o ≤ b) h₂ => by
      rw [huo] at h₁
      rw [hua] at h₂
      obtain ⟨pa, hm, hpa, -⟩ := g.inside b hb h₁ h₂
      exact ⟨pa, _, hm, g.start.free_in pa hpa⟩
  rw [hua, huo] at hL hP'
  -- 外したページは始めの空きリストから取ったもの
  have hLF : ∀ x, x ∈ L → x ∈ F₀ := by
    intro x hx
    obtain ⟨b, fl, hb, h₁, h₂, hm⟩ := (hL x).mp hx
    obtain ⟨pa, hm', hpa, -⟩ := g.inside b hb h₁ h₂
    rw [hm] at hm'
    cases hm'
    exact hpa
  refine ⟨_, s', hrun, L ++ F, h', fun x => ?_, g.within.trans (hW'.mono fun b hb => hb.elim
    (fun hb => .inl (hLF b hb)) (fun hb => g.spare b (.inr hb))), fun b hb hb' => ?_⟩
  · rw [← g.pages x, hT', List.mem_append]
    constructor
    · rintro ((hx | hx) | hx | ⟨va, fl, hva, hva', hm⟩)
      · obtain ⟨b, fl, hb, h₁, h₂, hm⟩ := (hL x).mp hx
        exact .inr (.inr ⟨b, fl, hb, Nat.lt_of_lt_of_le h₂ g.bound, hm⟩)
      · exact .inl hx
      · exact .inr (.inl hx)
      · rw [hP' va hva hva'] at hm
        split at hm
        · cases hm
        · exact .inr (.inr ⟨va, fl, hva, hva', hm⟩)
    · rintro (hx | hx | ⟨va, fl, hva, hva', hm⟩)
      · exact .inl (.inr hx)
      · exact .inr (.inl hx)
      · by_cases hr : o ≤ va ∧ va < a
        · exact .inl (.inl ((hL x).mpr ⟨va, fl, hva, hr.1, hr.2, hm⟩))
        · exact .inr (.inr ⟨va, fl, hva, hva', by rw [hP' va hva hva', if_neg hr, hm]⟩)
  · rw [hP' b hb hb']
    split
    · next hr => exact (hfree b hb hr.1 hr.2).symm
    · next hr => exact g.outside b hb hb' (by omega)

/-! ## 繰り返し -/

/-- kalloc の memset(5) と uvmalloc の memset(0) は、ページ p の中だけを書く。 -/
theorem zeroPage_out (mem : Nat → UInt8) (p : Nat) :
    ∀ x, ¬ (p ≤ x ∧ x < p + PGSIZE) → memset (memset mem p 5 PGSIZE) p 0 PGSIZE x = mem x :=
  fun x hx => by rw [memset_of_not_mem 0 hx, memset_of_not_mem 5 hx]

theorem zeroPage_in (mem : Nat → UInt8) (p : Nat) : ∀ j < PGSIZE, memset (memset mem p 5 PGSIZE) p 0 PGSIZE (p + j) = 0 :=
  fun j hj => if_pos ⟨Nat.le_add_right p j, Nat.add_lt_add_left hj p⟩

/-- uvmalloc が写す許可 `PTE_R | PTE_U | xperm` は、PTE の下位 10 ビットに収まる。 -/
theorem uvmalloc_perm_lt {xperm : Nat} (hx : xperm < 1024) : PTE_R ||| PTE_U ||| xperm < 1024 :=
  Nat.or_lt_two_pow (n := 10) (by decide) hx

/-- PTE_R を含む許可は葉の許可である。 -/
theorem uvmalloc_perm_leaf (xperm : Nat) : (PTE_R ||| PTE_U ||| xperm) &&& (PTE_R ||| PTE_W ||| PTE_X) ≠ 0 := by
  rw [Nat.and_or_distrib_right, show (PTE_R ||| PTE_U) &&& (PTE_R ||| PTE_W ||| PTE_X) = 2 from rfl]
  intro h
  have := Nat.or_eq_zero_iff.mp h
  omega

section Loop

variable {newsz xperm : Nat}

/-- 繰り返しは panic せずに返る。失敗すれば 0 を返して始めの写像に戻り、成功すれば newsz を返し、
newsz を越える揃った e まで写し終えている。hp は成功すれば写したページの数だけ増える。帰納法は残りの
ページの数 k について。 -/
theorem uvmallocLoop_spec (ho : o % PGSIZE = 0) (hnew : newsz ≤ MAXVA) (hx : xperm < 1024)
    (hfree : ∀ b, b % PGSIZE = 0 → o ≤ b → b < newsz → pmap s₀.mem root b = none) (k : Nat) :
    ∀ a s F hp, Grown kernEnd root (PTE_R ||| PTE_U ||| xperm) s₀ F₀ o a s F → newsz - a ≤ k * PGSIZE →
      (a = o ∨ a < newsz + PGSIZE) →
      ∃ sz s' hp', uvmallocLoop kernEnd root o newsz xperm a s hp = some (sz, s', hp') ∧
        ((sz = 0 ∧ Restored kernEnd root s₀ F₀ s') ∨
          (sz = newsz ∧ hp' = hp + (newsz - a + PGSIZE - 1) / PGSIZE ∧
            ∃ e F', Grown kernEnd root (PTE_R ||| PTE_U ||| xperm) s₀ F₀ o e s' F' ∧ newsz ≤ e ∧
              (e = o ∨ e < newsz + PGSIZE))) := by
  have hP : PGSIZE = 4096 := rfl
  -- 範囲を写し終えていれば、そのまま newsz を返す
  have hdone : ∀ a s F hp, Grown kernEnd root (PTE_R ||| PTE_U ||| xperm) s₀ F₀ o a s F → ¬ a < newsz →
      (a = o ∨ a < newsz + PGSIZE) →
      ∃ sz s' hp', uvmallocLoop kernEnd root o newsz xperm a s hp = some (sz, s', hp') ∧
        ((sz = 0 ∧ Restored kernEnd root s₀ F₀ s') ∨
          (sz = newsz ∧ hp' = hp + (newsz - a + PGSIZE - 1) / PGSIZE ∧
            ∃ e F', Grown kernEnd root (PTE_R ||| PTE_U ||| xperm) s₀ F₀ o e s' F' ∧ newsz ≤ e ∧
              (e = o ∨ e < newsz + PGSIZE))) := by
    intro a s F hp g ha hr
    refine ⟨newsz, s, hp, by rw [uvmallocLoop, if_neg ha], .inr ⟨rfl, by rw [hP]; omega, a, F, g, by omega, hr⟩⟩
  induction k with
  | zero =>
    intro a s F hp g hk hr
    exact hdone a s F hp g (by omega) hr
  | succ k ih =>
    intro a s F hp g hk hr
    by_cases ha : a < newsz
    · have hfa : ∀ b, b % PGSIZE = 0 → o ≤ b → b < a → pmap s₀.mem root b = none :=
        fun b hb h₁ h₂ => hfree b hb h₁ (Nat.lt_trans h₂ ha)
      rw [uvmallocLoop, if_pos ha]
      cases F with
      | nil =>
        -- kalloc が 0: それまでに写したページを外す
        rw [g.own.kalloc_nil]
        obtain ⟨r, s', hrun, hs'⟩ := g.unwind ho hfa
        exact ⟨0, s', hp, by dsimp only; rw [if_pos rfl, hrun]; rfl, .inl ⟨rfl, hs'⟩⟩
      | cons p F₁ =>
        rw [g.own.kalloc_eq]
        have hp0 : p ≠ 0 := (g.own.free_in p List.mem_cons_self).pos g.own.kernEnd_pos
        obtain ⟨r, s₂, F₂, hrun, hres⟩ := g.step ha hnew hfree (uvmalloc_perm_lt hx) (uvmalloc_perm_leaf xperm)
          rfl (zeroPage_out s.mem p) (zeroPage_in s.mem p)
        dsimp only
        rw [if_neg hp0, hrun]
        dsimp only
        rcases hres with ⟨rfl, g'⟩ | ⟨rfl, s₃, hk₃, g'⟩
        · -- mappages が成功: 次のページへ
          rw [if_neg (by decide)]
          obtain ⟨sz, s', hp', hrun', hres'⟩ := ih (a + PGSIZE) s₂ F₂ (hp + 1) g'
            (by rw [hP] at hk ⊢; rw [Nat.succ_mul] at hk; omega) (.inr (by omega))
          refine ⟨sz, s', hp', hrun', hres'.imp_right fun hs => ⟨hs.1, ?_, hs.2.2⟩⟩
          rw [hs.2.1, hP]
          omega
        · -- mappages が -1: p を返してから外す
          rw [if_pos (by decide), hk₃]
          obtain ⟨r', s', hrun', hs'⟩ := g'.unwind ho hfa
          exact ⟨0, s', hp + 1, by simp only [Option.bind_eq_bind, Option.bind_some, hrun'], .inl ⟨rfl, hs'⟩⟩
    · exact hdone a s F hp g ha hr

end Loop

/-! ## uvmalloc -/

/-- 伸ばす繰り返しが止まる揃った番地は `PGROUNDUP(newsz)`。 -/
theorem loop_end_eq {oldsz newsz e : Nat} (hge : oldsz ≤ newsz) (he : e % PGSIZE = 0) (h₁ : newsz ≤ e)
    (h₂ : e = PGROUNDUP oldsz ∨ e < newsz + PGSIZE) : e = PGROUNDUP newsz := by
  unfold PGROUNDUP at *
  simp only [PGSIZE] at *
  omega

/-- 伸ばす向きの uvmalloc は panic せずに返り、失敗すれば 0 を返して始めの状態に戻り（`Restored`）、
成功すれば newsz を返して `[PGROUNDUP(oldsz), PGROUNDUP(newsz))` を写し終えている（`Grown`）。 -/
theorem uvmalloc_grown {kernEnd root oldsz newsz xperm : Nat} (hp : Nat) {s : Kmem} {F : List Nat}
    (h : PtOwn kernEnd s root F) (hge : oldsz ≤ newsz) (hnew : newsz ≤ MAXVA) (hx : xperm < 1024)
    (hfree : ∀ b, b % PGSIZE = 0 → PGROUNDUP oldsz ≤ b → b < newsz → pmap s.mem root b = none) :
    ∃ sz s' hp', uvmalloc kernEnd s hp root oldsz newsz xperm = some (sz, s', hp') ∧
      ((sz = 0 ∧ Restored kernEnd root s F s') ∨
        (sz = newsz ∧ hp' = hp + (newsz - PGROUNDUP oldsz + PGSIZE - 1) / PGSIZE ∧
          ∃ F', Grown kernEnd root (PTE_R ||| PTE_U ||| xperm) s F (PGROUNDUP oldsz) (PGROUNDUP newsz) s' F')) := by
  have hP : PGSIZE = 4096 := rfl
  have ho := PGROUNDUP_mod oldsz
  have ho' : PGROUNDUP oldsz ≤ MAXVA := calc
    PGROUNDUP oldsz ≤ PGROUNDUP newsz := PGROUNDUP_mono hge
    _ ≤ PGROUNDUP MAXVA := PGROUNDUP_mono hnew
    _ = MAXVA := PGROUNDUP_of_aligned MAXVA_aligned
  rw [uvmalloc, if_neg (Nat.not_lt.mpr hge)]
  obtain ⟨sz, s', hp', hrun, hres⟩ := uvmallocLoop_spec ho hnew hx hfree newsz (PGROUNDUP oldsz) s F hp
    (Filled.init h ho ho') (by rw [hP]; omega) (.inl rfl)
  refine ⟨sz, s', hp', hrun, hres.imp_right fun hg => ?_⟩
  obtain ⟨hsz, hhp, e, F', g, he, he'⟩ := hg
  rw [← loop_end_eq hge g.aligned he he']
  exact ⟨hsz, hhp, F', g⟩

/-- uvmalloc(pagetable, oldsz, newsz, xperm) は panic せずに返る。範囲 `[PGROUNDUP(oldsz), newsz)` が
写されていなければ、成功すれば範囲の各ページを始めの空きリストにあった 0 のページで
`PTE_R | PTE_U | xperm` に写してほかの写像を変えず、`heap_pages` を写したページの数だけ増やす。
失敗すれば 0 を返し、写像は始めと同じである。どちらでも不変条件が残り、空きリスト、表、写された
ページを合わせたページの集まりは変わらず、書き込みは始めの空きのページと表の中だけである。 -/
theorem uvmalloc_all_or_nothing {kernEnd root oldsz newsz xperm hp : Nat} {s : Kmem} {F : List Nat}
    (h : PtOwn kernEnd s root F) (hnew : newsz ≤ MAXVA) (hx : xperm < 1024)
    (hfree : ∀ b, b % PGSIZE = 0 → PGROUNDUP oldsz ≤ b → b < newsz → pmap s.mem root b = none) :
    ∃ sz s' hp' F', uvmalloc kernEnd s hp root oldsz newsz xperm = some (sz, s', hp') ∧
      PtOwn kernEnd s' root F' ∧
      (∀ x, x ∈ F' ∨ IsTable s'.mem root x ∨ Mapped s'.mem root x ↔
        x ∈ F ∨ IsTable s.mem root x ∨ Mapped s.mem root x) ∧
      Within PGSIZE (fun b => b ∈ F ∨ IsTable s.mem root b) s.mem s'.mem ∧
      ((sz = 0 ∧ ∀ b, b % PGSIZE = 0 → b < MAXVA → pmap s'.mem root b = pmap s.mem root b) ∨
        (sz = max oldsz newsz ∧ hp' = hp + (newsz - PGROUNDUP oldsz + PGSIZE - 1) / PGSIZE ∧
          ∀ b, b % PGSIZE = 0 → b < MAXVA →
            (PGROUNDUP oldsz ≤ b → b < newsz →
              ∃ pa, pmap s'.mem root b = some (pa, PTE_R ||| PTE_U ||| xperm ||| PTE_V) ∧ pa ∈ F ∧
                ∀ j < PGSIZE, s'.mem (pa + j) = 0) ∧
            (b < PGROUNDUP oldsz ∨ newsz ≤ b → pmap s'.mem root b = pmap s.mem root b))) := by
  have hP : PGSIZE = 4096 := rfl
  have hup := le_PGROUNDUP oldsz
  by_cases hlt : newsz < oldsz
  · -- 縮める向きの uvmalloc は何もしない
    rw [uvmalloc, if_pos hlt]
    refine ⟨oldsz, s, hp, F, rfl, h, fun x => Iff.rfl, Within.refl _ _ _,
      .inr ⟨(Nat.max_eq_left (Nat.le_of_lt hlt)).symm, by rw [hP]; omega,
        fun b _ _ => ⟨fun h₁ h₂ => absurd (Nat.lt_of_lt_of_le h₂ (Nat.le_of_lt hlt)) (by omega), fun _ => rfl⟩⟩⟩
  · have hge := Nat.not_lt.mp hlt
    obtain ⟨sz, s', hp', hrun, hres⟩ := uvmalloc_grown hp h hge hnew hx hfree
    rcases hres with ⟨rfl, F', h', hpages, hW, hpm⟩ | ⟨hsz, hhp, F', g⟩
    · exact ⟨0, s', hp', F', hrun, h', hpages, hW, .inl ⟨rfl, hpm⟩⟩
    · -- 揃ったアドレスでは b < newsz と b < PGROUNDUP(newsz) は同じ
      have hup' : ∀ b, b % PGSIZE = 0 → (b < newsz ↔ b < PGROUNDUP newsz) := fun b hb => by
        unfold PGROUNDUP
        rw [hP] at hb ⊢
        omega
      have hin : ∀ b, b % PGSIZE = 0 → PGROUNDUP oldsz ≤ b → b < newsz →
          ∃ pa, pmap s'.mem root b = some (pa, PTE_R ||| PTE_U ||| xperm ||| PTE_V) ∧ pa ∈ F ∧
            ∀ j < PGSIZE, s'.mem (pa + j) = 0 := fun b hb h₁ h₂ =>
        g.inside b hb h₁ ((hup' b hb).mp h₂)
      have hout : ∀ b, b % PGSIZE = 0 → b < MAXVA → b < PGROUNDUP oldsz ∨ newsz ≤ b →
          pmap s'.mem root b = pmap s.mem root b := fun b hb hb' hr =>
        g.outside b hb hb' (hr.imp_right fun h₂ => Nat.not_lt.mp fun h₃ => Nat.not_le.mpr ((hup' b hb).mpr h₃) h₂)
      refine ⟨sz, s', hp', F', hrun, g.own, g.pages, g.within, .inr ⟨?_, hhp, fun b hb hb' => ⟨hin b hb, hout b hb hb'⟩⟩⟩
      rw [hsz, Nat.max_eq_right hge]

/-- 空の根の表から二ページ伸ばす uvmalloc も、不変条件を残して返る。 -/
theorem uvmalloc_emptyTable :
    ∃ sz s' hp' F', uvmalloc 1 emptyTable 0 0x1000 0 0x2000 PTE_W = some (sz, s', hp') ∧
      PtOwn 1 s' 0x1000 F' := by
  obtain ⟨sz, s', hp', F', hrun, h', -⟩ := @uvmalloc_all_or_nothing 1 0x1000 0 0x2000 PTE_W 0 _ _
    emptyTable_own.1 (by decide) (by decide) fun b _ _ _ => emptyTable_own.2 b
  exact ⟨sz, s', hp', F', hrun, h'⟩

end Xv6.Vm
