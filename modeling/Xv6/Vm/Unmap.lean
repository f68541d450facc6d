import Xv6.Vm.Own
import Xv6.Vm.Refine

/-!
# mappages、uvmunmap、uvmdealloc とページの行き来

一ページの mappages は、walk が空きリストから取ったページを表にして、手元のページを一つ写すか、
空きが尽きて -1 を返す（`PtOwn.mappages_page`）。uvmunmap は範囲の写像を消し、do_free なら写して
いたページを空きリストに返す（`PtOwn.uvmunmapLoop`）。どちらもページを空きリスト、表、写された
ページ、手元の間で動かすだけで、書き込みはその間のページの中だけである。
-/

namespace Xv6.Vm

open Xv6.Lib Xv6.Kalloc Xv6.Lib.Radix

variable {kernEnd root a : Nat} {s : Kmem} {F : List Nat}

/-! ## 写像と末端の欄 -/

/-- 末端の表に着く a の写像は、その欄が有効なら（物理アドレス、フラグ）。 -/
theorem pmap_of_descend {mem : Nat → UInt8} {t₀ : Nat}
    (ht₀ : pteScheme.descend (ptes mem) root (levels a 2) = some t₀) :
    pmap mem root a = if ptes mem t₀ (PX 0 a) &&& PTE_V ≠ 0 then
      some (PTE2PA (ptes mem t₀ (PX 0 a)), PTE_FLAGS (ptes mem t₀ (PX 0 a))) else none := by
  rw [pmap, Scheme.lookup, ht₀, Option.bind_some]
  by_cases hv : ptes mem t₀ (PX 0 a) &&& PTE_V ≠ 0
  · rw [if_pos ((pteScheme_valid_iff _).mpr hv), if_pos hv]
    rfl
  · rw [if_neg (mt (pteScheme_valid_iff _).mp hv), if_neg hv]
    rfl

theorem pmap_eq_some {mem : Nat → UInt8} {pa fl : Nat} (hm : pmap mem root a = some (pa, fl)) :
    ∃ t₀, pteScheme.descend (ptes mem) root (levels a 2) = some t₀ ∧ ptes mem t₀ (PX 0 a) &&& PTE_V ≠ 0 ∧
      PTE2PA (ptes mem t₀ (PX 0 a)) = pa ∧ PTE_FLAGS (ptes mem t₀ (PX 0 a)) = fl := by
  cases ht₀ : pteScheme.descend (ptes mem) root (levels a 2) with
  | none =>
    rw [pmap, Scheme.lookup, ht₀, Option.bind_none, Option.map_none] at hm
    cases hm
  | some t₀ =>
    rw [pmap_of_descend ht₀] at hm
    split at hm
    · next hv =>
      cases hm
      exact ⟨t₀, rfl, hv, rfl, rfl⟩
    · cases hm

/-- 根のどの欄も無効なページ表（uvmcreate が 0 で埋めた根）は何も写さず、根と空きリストが kfree できる
ページなら不変条件を満たす。 -/
theorem PtOwn.of_invalid (h : PtInv s root F) (hroot : ∀ i < 512, ptes s.mem root i &&& PTE_V = 0)
    (hk : 0 < kernEnd) (hr : Page kernEnd root) (hF : ∀ x ∈ F, Page kernEnd x) :
    PtOwn kernEnd s root F ∧ ∀ b, pmap s.mem root b = none := by
  have hinv : ∀ i < 512, pteScheme.valid (ptes s.mem root i) = false := fun i hi =>
    Bool.eq_false_iff.mpr fun hv => (pteScheme_valid_iff _).mp hv (hroot i hi)
  have hnone : ∀ b, pmap s.mem root b = none := by
    intro b
    cases hm : pmap s.mem root b with
    | none => rfl
    | some r =>
      obtain ⟨t₀, ht₀, -⟩ := pmap_eq_some (show pmap s.mem root b = some (r.1, r.2) from hm)
      have hl := length_levels b 2
      rw [(Scheme.eq_nil_of_invalid hinv (path_levels b) ht₀).1] at hl
      cases hl
  refine ⟨⟨h, hk, hF, fun t ht => (Scheme.isNode_iff_of_invalid hinv).mp ht ▸ hr, ?_,
    fun va pa fl _ _ hm => absurd hm (by rw [hnone]; exact nofun),
    fun va _ pa fl _ _ _ _ _ hm => absurd hm (by rw [hnone]; exact nofun), fun i _ hi => hroot i hi⟩, hnone⟩
  intro q t hq _ hd i hi hv
  obtain ⟨-, rfl⟩ := Scheme.eq_nil_of_invalid hinv hq hd
  exact absurd (hroot i hi) hv

/-- 空の根の状態は、kernEnd が 1 なら不変条件を満たし、何も写さない。 -/
theorem emptyTable_own : PtOwn 1 emptyTable 0x1000 [0x2000, 0x3000] ∧ ∀ b, pmap emptyTable.mem 0x1000 b = none :=
  PtOwn.of_invalid emptyTable_inv (fun i hi => by rw [ptes_emptyTable_root hi]; rfl) (by decide) (by decide)
    fun x hx => by
      simp only [List.mem_cons, List.not_mem_nil, or_false] at hx
      rcases hx with rfl | rfl <;> decide

theorem chainTable_own : PtOwn 1 chainTable 0x1000 chainPages ∧ ∀ b, pmap chainTable.mem 0x1000 b = none :=
  PtOwn.of_invalid chainTable_inv (fun i hi => by rw [ptes_chainTable_root hi]; rfl) (by decide) (by decide)
    fun x hx => by
      obtain ⟨h₁, h₂, h₃⟩ := chainPages_bounds hx
      exact ⟨h₂, le_trans (by decide) h₁, lt_trans h₃ (by decide)⟩

/-- 葉の印を持つフラグは、`PTE_V` だけではない。 -/
theorem ne_V_of_RWX {fl : Nat} (h : fl &&& (PTE_R ||| PTE_W ||| PTE_X) ≠ 0) : fl ≠ PTE_V := by
  rintro rfl
  exact h rfl

/-! ## 一ページの mappages -/

theorem PGROUNDDOWN_of_aligned (ha : a % PGSIZE = 0) : PGROUNDDOWN a = a := by
  rw [PGROUNDDOWN, ha, Nat.sub_zero]

theorem PGROUNDDOWN_page (ha : a % PGSIZE = 0) : PGROUNDDOWN (a + PGSIZE - 1) = a := by
  simp only [PGROUNDDOWN, PGSIZE] at *
  omega

/-- a が last のときの mappages の繰り返しは、walk を一度呼んで欄を一つ書く。 -/
theorem mappagesLoop_of_eq {perm last pa : Nat} (hl : a = last) :
    mappagesLoop root perm last a pa s =
      match walk s root a true with
      | none => none
      | some (none, s) => some (-1, s)
      | some (some pte, s) =>
        if getPte s.mem pte &&& PTE_V ≠ 0 then none
        else some (0, { s with mem := setPte s.mem pte (PA2PTE pa ||| perm ||| PTE_V) }) := by
  rw [mappagesLoop]
  split
  · next h => rw [h]
  · next h => rw [h]
  · next pte s₁ h =>
    rw [h]
    simp only [hl, ↓reduceIte]

/-- MAXVA より下の揃った a への 1 ページの mappages は、a を last とする一回の繰り返し。 -/
theorem mappages_page_eq {pa perm : Nat} (ha : a % PGSIZE = 0) (ha' : a < MAXVA) :
    mappages s root a PGSIZE pa perm =
      match walk s root a true with
      | none => none
      | some (none, s) => some (-1, s)
      | some (some pte, s) =>
        if getPte s.mem pte &&& PTE_V ≠ 0 then none
        else some (0, { s with mem := setPte s.mem pte (PA2PTE pa ||| perm ||| PTE_V) }) := by
  have hlt : a + PGSIZE - 1 < 2 ^ 64 := by
    simp only [MAXVA, PGSIZE] at ha' ⊢
    omega
  rw [mappages, if_neg (by decide), Nat.mod_eq_of_lt hlt,
    mappagesLoop_of_eq (by rw [PGROUNDDOWN_page ha, PGROUNDDOWN_of_aligned ha]), PGROUNDDOWN_of_aligned ha]

/-- 写されていない a に手元のページ pa を写す mappages。walk が空きリストの頭から高々二ページ N を取って表に
し、a を写して 0 を返すか、空きが尽きて写さずに -1 を返す。空きリストに二ページあれば 0 を返す。 -/
theorem PtOwn.mappages_page {pa perm : Nat} (h : PtOwn kernEnd s root F) (ha : a % PGSIZE = 0) (ha' : a < MAXVA)
    (hun : pmap s.mem root a = none) (hpa : pa % PGSIZE = 0) (hpa' : pa < 2 ^ 64) (hpF : pa ∉ F)
    (hpT : ¬ IsTable s.mem root pa) (hpM : ¬ Mapped s.mem root pa) (hpage : a < TRAPFRAME → Page kernEnd pa)
    (hperm : perm < 1024) (hrwx : perm &&& (PTE_R ||| PTE_W ||| PTE_X) ≠ 0) :
    ∃ r s' N F', mappages s root a PGSIZE pa perm = some (r, s') ∧ F = N ++ F' ∧ PtOwn kernEnd s' root F' ∧
      (∀ t, IsTable s'.mem root t ↔ IsTable s.mem root t ∨ t ∈ N) ∧
      Within PGSIZE (fun b => b ∈ N ∨ IsTable s.mem root b) s.mem s'.mem ∧
      N.length ≤ 2 ∧ (2 ≤ F.length → r = 0) ∧
      ((r = 0 ∧ ∀ b, b % PGSIZE = 0 → b < MAXVA →
          pmap s'.mem root b = if b = a then some (pa, perm ||| PTE_V) else pmap s.mem root b) ∨
        (r = -1 ∧ ∀ b, pmap s'.mem root b = pmap s.mem root b)) := by
  obtain ⟨N, F₁, rfl, h₁, hT₁, hP₁, hW₁, hlen, hsucc⟩ := h.walkLoop ha' 2 root [] s F rfl rfl
  obtain ⟨-, -, hpte⟩ := h.toPtInv.walkLoop (a := a) 2 root [] s (N ++ F₁) rfl rfl
  rw [mappages_page_eq ha ha', walk, if_neg (Nat.not_le.mpr ha')]
  generalize hw : Xv6.Vm.walkLoop a true 2 root s = w at h₁ hT₁ hP₁ hW₁ hpte hsucc
  obtain ⟨r, s₁⟩ := w
  dsimp only at h₁ hT₁ hP₁ hW₁ hpte hsucc
  cases r with
  | none =>
    -- 空きリストに二ページあれば、walk は欄を返す
    exact ⟨-1, s₁, N, F₁, rfl, rfl, h₁, hT₁, hW₁, hlen, fun hl => absurd rfl (hsucc hl), .inr ⟨rfl, hP₁⟩⟩
  | some pte =>
    obtain ⟨t₀, ht₀, rfl⟩ := hpte pte rfl
    -- a は写されていなかったので、walk が返した欄は無効
    have hv : ¬ getPte s₁.mem (t₀ + 8 * PX 0 a) &&& PTE_V ≠ 0 := by
      intro hv
      have := pmap_of_descend ht₀
      rw [if_pos (show ptes s₁.mem t₀ (PX 0 a) &&& PTE_V ≠ 0 from hv), hP₁, hun] at this
      cases this
    have hpN : pa ∉ N := fun hx => hpF (List.mem_append_left _ hx)
    obtain ⟨h₂, hT₂, hP₂⟩ := h₁.mapLeaf ht₀ ha ha' hpa hpa' (fun hx => hpF (List.mem_append_right _ hx))
      (fun ht => ((hT₁ pa).mp ht).elim hpT hpN) (fun hm => by
        obtain ⟨va, fl, hva, hva', hm⟩ := hm
        exact hpM ⟨va, fl, hva, hva', (hP₁ va) ▸ hm⟩)
      hpage hperm hrwx
    simp only [hv, ↓reduceIte]
    refine ⟨0, _, N, F₁, rfl, rfl, h₂, fun t => (hT₂ t).trans (hT₁ t), ?_, hlen, fun _ => rfl,
      .inl ⟨rfl, fun b hb hb' => ?_⟩⟩
    · refine hW₁.trans (within_setPte _ ?_ (PX_lt 0 a) _)
      rcases (hT₁ t₀).mp ⟨_, path_levels a, ht₀⟩ with ht | ht
      · exact .inr ht
      · exact .inl ht
    · rw [hP₂ b hb hb', hP₁ b]

/-! ## uvmunmap -/

/-- uvmunmap の繰り返しの一回: a の末端の欄が葉なら、do_free で kfree してから欄を 0 にする。 -/
theorem uvmunmapLoop_succ {k t₀ : Nat} {doFree : Bool} (ha' : a < MAXVA)
    (ht₀ : pteScheme.descend (ptes s.mem) root (levels a 2) = some t₀) (hv : ptes s.mem t₀ (PX 0 a) &&& PTE_V ≠ 0)
    (hleaf : PTE_FLAGS (ptes s.mem t₀ (PX 0 a)) ≠ PTE_V) :
    uvmunmapLoop kernEnd root doFree (k + 1) a s =
      (if doFree then kfree kernEnd (PTE2PA (ptes s.mem t₀ (PX 0 a))) s else some s).bind fun s₁ =>
        uvmunmapLoop kernEnd root doFree k (a + PGSIZE) { s₁ with mem := setPte s₁.mem (t₀ + 8 * PX 0 a) 0 } := by
  rw [uvmunmapLoop, walk_false, if_neg (Nat.not_le.mpr ha'), ht₀]
  simp only [Option.map_some]
  rw [if_neg (by simpa [ptes] using hv), if_neg (by simpa [ptes] using hleaf)]
  -- do 記法は bind を if の両方の枝に入れるので、先に if を畳む
  cases doFree <;> simp only [Bool.false_eq_true, ↓reduceIte] <;> rfl

/-- uvmunmap の繰り返し: a から k ページはどれも写されていて（do_free ならどれも kfree できるページ）、
その写像が消え、do_free なら写していたページの列 L が空きリストの頭に加わる。帰納法は k についてで、
各回は `PtOwn.unmapFree` か `PtOwn.clearLeaf` である。 -/
theorem PtOwn.uvmunmapLoop (doFree : Bool) (k : Nat) : ∀ (a : Nat) (s : Kmem) (F : List Nat),
    PtOwn kernEnd s root F → a % PGSIZE = 0 → a + k * PGSIZE ≤ MAXVA →
    (∀ b, b % PGSIZE = 0 → a ≤ b → b < a + k * PGSIZE →
      ∃ pa fl, pmap s.mem root b = some (pa, fl) ∧ (doFree = true → Page kernEnd pa)) →
    ∃ s' L, uvmunmapLoop kernEnd root doFree k a s = some s' ∧ PtOwn kernEnd s' root (L ++ F) ∧
      (∀ x, x ∈ L ↔ doFree = true ∧ ∃ b fl, b % PGSIZE = 0 ∧ a ≤ b ∧ b < a + k * PGSIZE ∧
        pmap s.mem root b = some (x, fl)) ∧
      (∀ t, IsTable s'.mem root t ↔ IsTable s.mem root t) ∧
      (∀ b, b % PGSIZE = 0 → b < MAXVA →
        pmap s'.mem root b = if a ≤ b ∧ b < a + k * PGSIZE then none else pmap s.mem root b) ∧
      Within PGSIZE (fun b => b ∈ L ∨ IsTable s.mem root b) s.mem s'.mem := by
  have hP : PGSIZE = 4096 := rfl
  induction k with
  | zero =>
    intro a s F h _ _ _
    refine ⟨s, [], rfl, h, fun x => ?_, fun _ => Iff.rfl, fun b _ _ => ?_, Within.refl _ _ _⟩
    · simp only [List.not_mem_nil, Nat.zero_mul, Nat.add_zero, false_iff, not_and, not_exists]
      intro _ b fl _ h₁ h₂
      omega
    · rw [if_neg (by omega)]
  | succ k ih =>
    intro a s F h ha hend hmap
    rw [Nat.succ_mul] at hend hmap ⊢
    -- 範囲の算術は、PTE の読み出しが文脈に入る前に済ませる
    have hlt : a < a + (k * PGSIZE + PGSIZE) := by
      rw [hP]
      omega
    have ha' : a < MAXVA := Nat.lt_of_lt_of_le hlt hend
    have ha₁ : (a + PGSIZE) % PGSIZE = 0 := by
      rw [hP] at ha ⊢
      omega
    have hend₁ : a + PGSIZE + k * PGSIZE ≤ MAXVA := by
      rw [Nat.add_assoc, Nat.add_comm PGSIZE]
      exact hend
    have hnext : ∀ b, b % PGSIZE = 0 → (a + PGSIZE ≤ b ∧ b < a + PGSIZE + k * PGSIZE ↔
        (a ≤ b ∧ b < a + (k * PGSIZE + PGSIZE)) ∧ b ≠ a) := by
      intro b hb
      rw [hP] at ha hb ⊢
      omega
    -- 一回の後の写像は a でだけ消え、ほかの範囲のページは同じものを写す
    have hstep : ∀ {mem' : Nat → UInt8}, (∀ b, b % PGSIZE = 0 → b < MAXVA →
        pmap mem' root b = if b = a then none else pmap s.mem root b) →
        ∀ b, b % PGSIZE = 0 → a + PGSIZE ≤ b → b < a + PGSIZE + k * PGSIZE →
          ∃ pa fl, pmap mem' root b = some (pa, fl) ∧ (doFree = true → Page kernEnd pa) := by
      intro mem' hP₁ b hb h₁ h₂
      have hb' := (hnext b hb).mp ⟨h₁, h₂⟩
      rw [hP₁ b hb (Nat.lt_of_lt_of_le h₂ hend₁), if_neg hb'.2]
      exact hmap b hb hb'.1.1 hb'.1.2
    have hpmap : ∀ {mem' mem'' : Nat → UInt8}, (∀ b, b % PGSIZE = 0 → b < MAXVA →
        pmap mem' root b = if b = a then none else pmap s.mem root b) →
        (∀ b, b % PGSIZE = 0 → b < MAXVA →
          pmap mem'' root b = if a + PGSIZE ≤ b ∧ b < a + PGSIZE + k * PGSIZE then none else pmap mem' root b) →
        ∀ b, b % PGSIZE = 0 → b < MAXVA →
          pmap mem'' root b = if a ≤ b ∧ b < a + (k * PGSIZE + PGSIZE) then none else pmap s.mem root b := by
      intro mem' mem'' hP₁ hP₂ b hb hb'
      rw [hP₂ b hb hb', hP₁ b hb hb']
      by_cases hba : b = a
      · subst hba
        rw [if_pos rfl, ite_self, if_pos ⟨Nat.le_refl b, hlt⟩]
      · by_cases hr : a + PGSIZE ≤ b ∧ b < a + PGSIZE + k * PGSIZE
        · rw [if_pos hr, if_pos ((hnext b hb).mp hr).1]
        · rw [if_neg hr, if_neg hba, if_neg (fun h' => hr ((hnext b hb).mpr ⟨h', hba⟩))]
    obtain ⟨pa, fl, hm, hpg⟩ := hmap a ha (Nat.le_refl a) hlt
    obtain ⟨t₀, ht₀, hv, hpa, hfl⟩ := pmap_eq_some hm
    have hleaf : PTE_FLAGS (ptes s.mem t₀ (PX 0 a)) ≠ PTE_V := hfl ▸ ne_V_of_RWX (h.leaf a pa fl ha ha' hm).1
    have ht₀T : IsTable s.mem root t₀ := ⟨_, path_levels a, ht₀⟩
    rw [uvmunmapLoop_succ ha' ht₀ hv hleaf, hpa]
    cases doFree with
    | true =>
      obtain ⟨h₁, hT₁, hP₁, hW₁⟩ := h.unmapFree ht₀ ha ha' hm (hpg rfl)
      rw [if_pos rfl, kfree_of_page s (le_trans (le_PGROUNDUP kernEnd) (hpg rfl).2.1) (hpg rfl).aligned (hpg rfl).2.2,
        Option.bind_some]
      obtain ⟨s', L, hrun, h', hL, hT', hP', hW'⟩ := ih (a + PGSIZE) _ (pa :: F) h₁ ha₁ hend₁ (hstep hP₁)
      refine ⟨s', L ++ [pa], hrun, by simpa using h', fun x => ?_, fun t => (hT' t).trans (hT₁ t),
        hpmap hP₁ hP', ?_⟩
      · rw [List.mem_append, List.mem_singleton, hL]
        constructor
        · rintro (⟨-, b, fl', hb, h₁', h₂', hmb⟩ | rfl)
          · have hb' := (hnext b hb).mp ⟨h₁', h₂'⟩
            rw [hP₁ b hb (Nat.lt_of_lt_of_le h₂' hend₁), if_neg hb'.2] at hmb
            exact ⟨rfl, b, fl', hb, hb'.1.1, hb'.1.2, hmb⟩
          · exact ⟨rfl, a, fl, ha, Nat.le_refl a, hlt, hm⟩
        · rintro ⟨-, b, fl', hb, h₁', h₂', hmb⟩
          by_cases hba : b = a
          · subst hba
            rw [hm] at hmb
            exact .inr (Prod.mk.inj (Option.some.inj hmb)).1.symm
          · refine .inl ⟨rfl, b, fl', hb, ((hnext b hb).mpr ⟨⟨h₁', h₂'⟩, hba⟩).1,
              ((hnext b hb).mpr ⟨⟨h₁', h₂'⟩, hba⟩).2, ?_⟩
            rw [hP₁ b hb (Nat.lt_of_lt_of_le h₂' hend), if_neg hba]
            exact hmb
      · refine (hW₁.mono fun b hb => ?_).trans (hW'.mono fun b hb => ?_)
        · rcases hb with rfl | rfl
          · exact .inl (List.mem_append_right _ List.mem_cons_self)
          · exact .inr ht₀T
        · rcases hb with hb | hb
          · exact .inl (List.mem_append_left _ hb)
          · exact .inr ((hT₁ b).mp hb)
    | false =>
      obtain ⟨h₁, hT₁, hP₁⟩ := h.clearLeaf ht₀ ha ha'
      rw [if_neg (by decide), Option.bind_some]
      obtain ⟨s', L, hrun, h', hL, hT', hP', hW'⟩ := ih (a + PGSIZE) _ F h₁ ha₁ hend₁ (hstep hP₁)
      refine ⟨s', L, hrun, h', fun x => ?_, fun t => (hT' t).trans (hT₁ t), hpmap hP₁ hP', ?_⟩
      · rw [hL]
        simp only [Bool.false_eq_true, false_and]
      · refine (within_setPte _ (.inr ht₀T) (PX_lt 0 a) 0).trans (hW'.mono fun b hb => ?_)
        rcases hb with hb | hb
        · exact .inl hb
        · exact .inr ((hT₁ b).mp hb)

/-! ## uvmdealloc -/

theorem PGROUNDUP_of_aligned (ha : a % PGSIZE = 0) : PGROUNDUP a = a := by
  simp only [PGROUNDUP, PGSIZE] at *
  omega

theorem PGROUNDUP_mono {b : Nat} (h : a ≤ b) : PGROUNDUP a ≤ PGROUNDUP b := by
  simp only [PGROUNDUP, PGSIZE]
  omega

/-- 揃った二つの大きさの間のページの数。 -/
theorem PGROUNDUP_add_npages {o n : Nat} (h : PGROUNDUP n ≤ PGROUNDUP o) :
    PGROUNDUP n + (PGROUNDUP o - PGROUNDUP n) / PGSIZE * PGSIZE = PGROUNDUP o := by
  have hn := PGROUNDUP_mod n
  have ho := PGROUNDUP_mod o
  simp only [PGSIZE] at *
  omega

/-- 写像が揃った仮想ページで同じなら、写されたページも同じ。 -/
theorem mapped_congr {m m' : Nat → UInt8}
    (hP : ∀ b, b % PGSIZE = 0 → b < MAXVA → pmap m' root b = pmap m root b) (x : Nat) :
    Mapped m' root x ↔ Mapped m root x := by
  constructor
  · rintro ⟨va, fl, hva, hva', hm⟩
    exact ⟨va, fl, hva, hva', (hP va hva hva') ▸ hm⟩
  · rintro ⟨va, fl, hva, hva', hm⟩
    exact ⟨va, fl, hva, hva', (hP va hva hva').symm ▸ hm⟩

/-- uvmdealloc は `[PGROUNDUP(newsz), PGROUNDUP(oldsz))` の写像を消し、写していたページ L を空きリストの頭
に返す。範囲のページはどれも写されていて、kfree できるページであることが要る。 -/
theorem PtOwn.uvmdealloc {oldsz newsz : Nat} (h : PtOwn kernEnd s root F) (hsz : PGROUNDUP oldsz ≤ MAXVA)
    (hmap : ∀ b, b % PGSIZE = 0 → PGROUNDUP newsz ≤ b → b < PGROUNDUP oldsz →
      ∃ pa fl, pmap s.mem root b = some (pa, fl) ∧ Page kernEnd pa) :
    ∃ s' L, uvmdealloc kernEnd s root oldsz newsz = some (if newsz ≥ oldsz then oldsz else newsz, s') ∧
      PtOwn kernEnd s' root (L ++ F) ∧
      (∀ x, x ∈ L ↔ ∃ b fl, b % PGSIZE = 0 ∧ PGROUNDUP newsz ≤ b ∧ b < PGROUNDUP oldsz ∧
        pmap s.mem root b = some (x, fl)) ∧
      (∀ t, IsTable s'.mem root t ↔ IsTable s.mem root t) ∧
      (∀ b, b % PGSIZE = 0 → b < MAXVA →
        pmap s'.mem root b = if PGROUNDUP newsz ≤ b ∧ b < PGROUNDUP oldsz then none else pmap s.mem root b) ∧
      Within PGSIZE (fun b => b ∈ L ∨ IsTable s.mem root b) s.mem s'.mem := by
  -- 範囲が空なら何もしない
  have hempty : PGROUNDUP oldsz ≤ PGROUNDUP newsz → ∀ r, Xv6.Vm.uvmdealloc kernEnd s root oldsz newsz = some (r, s) →
      ∃ s' L, Xv6.Vm.uvmdealloc kernEnd s root oldsz newsz = some (r, s') ∧ PtOwn kernEnd s' root (L ++ F) ∧
        (∀ x, x ∈ L ↔ ∃ b fl, b % PGSIZE = 0 ∧ PGROUNDUP newsz ≤ b ∧ b < PGROUNDUP oldsz ∧
          pmap s.mem root b = some (x, fl)) ∧
        (∀ t, IsTable s'.mem root t ↔ IsTable s.mem root t) ∧
        (∀ b, b % PGSIZE = 0 → b < MAXVA →
          pmap s'.mem root b = if PGROUNDUP newsz ≤ b ∧ b < PGROUNDUP oldsz then none else pmap s.mem root b) ∧
        Within PGSIZE (fun b => b ∈ L ∨ IsTable s.mem root b) s.mem s'.mem := by
    intro hle r hr
    refine ⟨s, [], hr, h, fun x => ?_, fun _ => Iff.rfl, fun b _ _ => by rw [if_neg (by omega)], Within.refl _ _ _⟩
    simp only [List.not_mem_nil, false_iff, not_exists, not_and]
    intro b fl _ h₁ h₂
    omega
  by_cases hge : newsz ≥ oldsz
  · rw [if_pos hge]
    exact hempty (PGROUNDUP_mono hge) _ (by rw [Xv6.Vm.uvmdealloc, if_pos hge])
  · rw [if_neg hge]
    by_cases hlt : PGROUNDUP newsz < PGROUNDUP oldsz
    · have hn := PGROUNDUP_add_npages (Nat.le_of_lt hlt)
      obtain ⟨s', L, hrun, h', hL, hT', hP', hW'⟩ := h.uvmunmapLoop true
        ((PGROUNDUP oldsz - PGROUNDUP newsz) / PGSIZE) (PGROUNDUP newsz) s F (PGROUNDUP_mod newsz) (hn.trans_le hsz)
        fun b hb h₁ h₂ => by
          obtain ⟨pa, fl, hm, hpg⟩ := hmap b hb h₁ (h₂.trans_eq hn)
          exact ⟨pa, fl, hm, fun _ => hpg⟩
      rw [hn] at hL hP'
      refine ⟨s', L, ?_, h', fun x => (hL x).trans (and_iff_right rfl), hT', hP', hW'⟩
      rw [Xv6.Vm.uvmdealloc, if_neg hge, if_pos hlt]
      dsimp only
      rw [uvmunmap_of_lt ((hn.trans_le hsz).trans_lt (by decide)), if_neg (by rw [PGROUNDUP_mod newsz]; decide), hrun]
      rfl
    · exact hempty (Nat.le_of_not_lt hlt) _ (by rw [Xv6.Vm.uvmdealloc, if_neg hge, if_neg hlt])

end Xv6.Vm
