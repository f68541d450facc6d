import Xv6.Vm.Proc

/-!
# uvmcopy は親の利用者のページを写し取る

fork は子のページ表に uvmcopy(old, new, sz) で親の `[0, sz)` の各ページを写し取る。ページごとに、親の
PTE を walk で読み、kalloc で取ったページに親のページを memmove し、親と同じ印で子に mappages する。途中で
kalloc か mappages が失敗すれば、写したページを uvmunmap で外して解放し、-1 を返す。

子の側は uvmalloc と同じ繰り返しの不変条件 `Filled` で進み、写したページの印と中身は親のもの
（`copyFlags`, `copyData`）である。親の表と写したページは空きリストにも子の表にもないので、子への書き込み
の足跡の外にあり、親の表、写像、ページの中身は変わらない（`PtOwn.bystander`, `Apart.parent`）。

結果（`uvmcopy_all_or_nothing`）: uvmcopy は panic せずに返る。0 を返せば子は `[0, sz)` の各ページを、始めの
空きリストから取った親のページの写しで親と同じ印に写し、-1 を返せば子の写像は始めと同じに戻る。
-/

namespace Xv6.Vm

open Xv6.Lib Xv6.Kalloc Xv6.Lib.Radix

variable {kernEnd old new : Nat} {s₀ s : Kmem} {F₀ F : List Nat}

/-! ## 親の側 -/

/-- 足跡 P が表 root の表と写したページを避ける書き込みでは、root の表、写像、写したページの中身は変わらない。
新しい空きリストの鎖が root の表でも写したページでもない kfree できるページを通るなら、root の不変条件も
残る。 -/
theorem PtOwn.bystander {root : Nat} (h : PtOwn kernEnd s root F) {u : Kmem} {P : Nat → Prop}
    (hW : Within PGSIZE P s.mem u.mem)
    (hP : ∀ b, P b → b % PGSIZE = 0 ∧ ¬ IsTable s.mem root b ∧ ¬ Mapped s.mem root b)
    {F' : List Nat} (hseg : ListSeg u.next 0 u.freelist F')
    (hF' : ∀ x ∈ F', Page kernEnd x ∧ ¬ IsTable s.mem root x ∧ ¬ Mapped s.mem root x) :
    PtOwn kernEnd u root F' ∧ (∀ t, IsTable u.mem root t ↔ IsTable s.mem root t) ∧
      (∀ b, pmap u.mem root b = pmap s.mem root b) ∧
      ∀ x, Mapped s.mem root x → ∀ j < PGSIZE, u.mem (x + j) = s.mem (x + j) := by
  have hal : ∀ b, P b → b % PGSIZE = 0 := fun b hb => (hP b hb).1
  obtain ⟨h', hT, hPm⟩ := h.of_tree (fun t ht i hi =>
    ptes_of_within hW hal (h.aligned t ht) (fun hb => (hP t hb).2.1 ht) hi) hseg hF'
  exact ⟨h', hT, hPm, fun x hx j hj => hW.block_eq hal (h.mapped_aligned hx) (fun hb => (hP x hb).2.2 hx) hj⟩

/-- 子の表は、親の表でも親が写したページでもない。 -/
def Apart (mem : Nat → UInt8) (old new : Nat) : Prop :=
  ∀ t, IsTable mem new t → ¬ IsTable mem old t ∧ ¬ Mapped mem old t

/-- 始めの空きのページと子の表への書き込みの後、親の表、写像、ページの中身は始めのままで、今の空きリストが
始めの空きのページか子の表を通るなら、親の不変条件はそれで成り立つ。 -/
theorem Apart.parent (hsep : Apart s₀.mem old new) (ho : PtOwn kernEnd s₀ old F₀) (hn : PtOwn kernEnd s₀ new F₀)
    {u : Kmem} (hW : Within PGSIZE (fun b => b ∈ F₀ ∨ IsTable s₀.mem new b) s₀.mem u.mem)
    (hseg : ListSeg u.next 0 u.freelist F) (hF : ∀ x ∈ F, Page kernEnd x ∧ (x ∈ F₀ ∨ IsTable s₀.mem new x)) :
    PtOwn kernEnd u old F ∧ (∀ t, IsTable u.mem old t ↔ IsTable s₀.mem old t) ∧
      (∀ b, pmap u.mem old b = pmap s₀.mem old b) ∧
      ∀ x, Mapped s₀.mem old x → ∀ j < PGSIZE, u.mem (x + j) = s₀.mem (x + j) := by
  -- 足跡のページは、始めの空きのページか子の表
  have hout : ∀ b, b ∈ F₀ ∨ IsTable s₀.mem new b → ¬ IsTable s₀.mem old b ∧ ¬ Mapped s₀.mem old b := by
    rintro b (hb | hb)
    · exact ⟨ho.free_not_table b hb, fun hm => ho.mapped_not_free hm hb⟩
    · exact hsep b hb
  exact ho.bystander hW (fun b hb => ⟨hn.aligned_of_mem b hb, hout b hb⟩) hseg fun x hx =>
    ⟨(hF x hx).1, hout x (hF x hx).2⟩

/-- uvmcreate は空きリストの頭 p を新しい根として返す。根は何も写さず、その空きリストを持つ表から離れていて、
その表の写像は変わらず、不変条件は残りの空きリストで成り立つ。 -/
theorem PtOwn.uvmcreate_apart {p : Nat} (ho : PtOwn kernEnd s old (p :: F)) :
    (uvmcreate s).1 = p ∧ PtOwn kernEnd (uvmcreate s).2 old F ∧ PtOwn kernEnd (uvmcreate s).2 p F ∧
      Apart (uvmcreate s).2.mem old p ∧ (∀ b, pmap (uvmcreate s).2.mem old b = pmap s.mem old b) ∧
      ∀ b, pmap (uvmcreate s).2.mem p b = none := by
  obtain ⟨hcreate, hn, hT, hnone⟩ := uvmcreate_own ho.kernEnd_pos ho.seg ho.free_in
  rw [hcreate]
  have hp : p ∈ p :: F := List.mem_cons_self
  -- uvmcreate が書くのは、親の表でも親の写したページでもない空きのページ p の中だけ
  have hW : Within PGSIZE (fun b => b = p) s.mem (memset (memset s.mem p 5 PGSIZE) p 0 PGSIZE) :=
    (within_memset (P := fun b => b = p) rfl 5).trans (within_memset (P := fun b => b = p) rfl 0)
  obtain ⟨ho', hT', hPm, -⟩ := ho.bystander hW
    (fun b hb => by
      subst hb
      exact ⟨(ho.free_in b hp).aligned, ho.free_not_table b hp, fun hm => ho.mapped_not_free hm hp⟩)
    hn.seg fun x hx =>
      ⟨hn.free_in x hx, ho.free_not_table x (List.mem_cons_of_mem p hx),
        fun hm => ho.mapped_not_free hm (List.mem_cons_of_mem p hx)⟩
  refine ⟨rfl, ho', hn, fun t ht => ?_, hPm, hnone⟩
  rw [(hT t).mp ht]
  exact ⟨fun h => ho.free_not_table p hp ((hT' p).mp h),
    fun hm => ho.mapped_not_free ((mapped_congr (fun b _ _ => hPm b) p).mp hm) hp⟩

variable {fl : Nat → Nat} {dt : Nat → Nat → UInt8} {o a : Nat}

/-- 子の繰り返しの途中でも、親の表、写像、ページの中身は始めのままで、親の不変条件は今の空きリストで成り立つ。 -/
theorem Filled.parent (g : Filled kernEnd new fl dt s₀ F₀ o a s F) (ho : PtOwn kernEnd s₀ old F₀)
    (hsep : Apart s₀.mem old new) :
    PtOwn kernEnd s old F ∧ (∀ t, IsTable s.mem old t ↔ IsTable s₀.mem old t) ∧
      (∀ b, pmap s.mem old b = pmap s₀.mem old b) ∧
      ∀ x, Mapped s₀.mem old x → ∀ j < PGSIZE, s.mem (x + j) = s₀.mem (x + j) :=
  hsep.parent ho g.start g.within g.own.seg fun x hx => ⟨g.own.free_in x hx, g.spare x (.inl hx)⟩

/-! ## 写す印と中身 -/

/-- 親が va b を写す印。写していなければ 0。 -/
def copyFlags (mem : Nat → UInt8) (old b : Nat) : Nat := ((pmap mem old b).map Prod.snd).getD 0

/-- 親が va b に写すページの、j バイト目。写していなければ 0。 -/
def copyData (mem : Nat → UInt8) (old b j : Nat) : UInt8 := ((pmap mem old b).map fun r => mem (r.1 + j)).getD 0

theorem copyFlags_of_pmap {mem : Nat → UInt8} {b pa f : Nat} (hm : pmap mem old b = some (pa, f)) :
    copyFlags mem old b = f := by
  rw [copyFlags, hm]
  rfl

theorem copyData_of_pmap {mem : Nat → UInt8} {b pa f : Nat} (hm : pmap mem old b = some (pa, f)) (j : Nat) :
    copyData mem old b j = mem (pa + j) := by
  rw [copyData, hm]
  rfl

/-- 有効な PTE の印は `PTE_V` を含む。 -/
theorem PTE_FLAGS_or_V {e : Nat} (hv : e &&& PTE_V ≠ 0) : PTE_FLAGS e ||| PTE_V = PTE_FLAGS e := by
  have h1 : PTE_FLAGS e % 2 = 1 := by
    rw [PTE_FLAGS_eq]
    rw [and_PTE_V_eq] at hv
    omega
  rw [show PTE_V = 1 from rfl]
  apply Nat.eq_of_testBit_eq
  intro i
  rw [Nat.testBit_or]
  cases i with
  | zero => simp [Nat.testBit_zero, h1]
  | succ i => simp [Nat.testBit_succ]

theorem PTE_FLAGS_lt (e : Nat) : PTE_FLAGS e < 1024 := by
  rw [PTE_FLAGS_eq]
  exact Nat.mod_lt e (by decide)

/-- 写された i への walk（alloc は 0）は panic せず、有効な末端の欄を返す。 -/
theorem walk_of_pmap {root i pa fl : Nat} (hi : i < MAXVA) (hm : pmap s.mem root i = some (pa, fl)) :
    ∃ pte, walk s root i false = some (some pte, s) ∧ ¬ getPte s.mem pte &&& PTE_V = 0 ∧
      PTE2PA (getPte s.mem pte) = pa ∧ PTE_FLAGS (getPte s.mem pte) = fl := by
  obtain ⟨t₀, ht₀, hv, hpa, hfl⟩ := pmap_eq_some hm
  refine ⟨t₀ + 8 * PX 0 i, ?_, hv, hpa, hfl⟩
  rw [walk_false, if_neg (Nat.not_le.mpr hi), ht₀]
  rfl

/-- uvmcopy の `err:` は、o を 0 とした uvmdealloc(new, i, 0) と同じページを外す。 -/
theorem uvmcopyErr_eq {i : Nat} (hi : i % PGSIZE = 0) :
    uvmcopyErr kernEnd new i s = (uvmdealloc kernEnd s new i 0).map fun r => (-1, r.2) := by
  rcases Nat.eq_zero_or_pos i with rfl | hpos
  · rfl
  · have hu : PGROUNDUP i = i := PGROUNDUP_of_aligned hi
    rw [uvmcopyErr, uvmdealloc, if_neg (Nat.not_le.mpr hpos), if_pos (by rw [hu]; exact hpos)]
    dsimp only
    rw [hu, show PGROUNDUP 0 = 0 from rfl, Nat.sub_zero, Option.map_map]
    rfl

/-! ## 一回 -/

section Step

variable {sz i p : Nat} {F₁ : List Nat}

/-- 親が i を (pa, f) に写していれば、uvmcopy の一回は kalloc の返した空きリストの頭 p に親のページを写し、
子の i に f で写す。mappages が 0 を返せば i の次へ進み、-1 を返せば p を kfree して、i のまま不変条件が
成り立つ。 -/
theorem Filled.copyStep (g : Filled kernEnd new (copyFlags s₀.mem old) (copyData s₀.mem old) s₀ F₀ 0 i s (p :: F₁))
    (ho : PtOwn kernEnd s₀ old F₀) (hsep : Apart s₀.mem old new) (hi : i < sz) (hsz : sz ≤ MAXVA)
    (hfree : ∀ b, b % PGSIZE = 0 → b < sz → pmap s₀.mem new b = none)
    {pa f : Nat} (hm : pmap s₀.mem old i = some (pa, f)) :
    ∃ r s₂ F₂, mappages ⟨Str.memmove (memset s.mem p 5 PGSIZE) p pa PGSIZE, s.next p⟩ new i PGSIZE p f =
        some (r, s₂) ∧
      ((r = 0 ∧ Filled kernEnd new (copyFlags s₀.mem old) (copyData s₀.mem old) s₀ F₀ 0 (i + PGSIZE) s₂ F₂) ∨
        (r = -1 ∧ ∃ s₃, kfree kernEnd p s₂ = some s₃ ∧
          Filled kernEnd new (copyFlags s₀.mem old) (copyData s₀.mem old) s₀ F₀ 0 i s₃ (p :: F₂))) := by
  have hi' : i < MAXVA := Nat.lt_of_lt_of_le hi hsz
  obtain ⟨hold, -, hP, hD⟩ := g.parent ho hsep
  have hmM : Mapped s₀.mem old pa := ⟨i, f, g.aligned, hi', hm⟩
  have hpa : pa % PGSIZE = 0 := ho.mapped_aligned hmM
  have hpg : Page kernEnd p := g.own.free_in p List.mem_cons_self
  -- 親のページ pa は空きリストの頭 p と違う
  have hne : pa ≠ p := fun e =>
    hold.mapped_not_free ⟨i, f, g.aligned, hi', (hP i).trans hm⟩ (e ▸ List.mem_cons_self)
  have hmv := moved_moved (memset s.mem p 5 PGSIZE) p pa PGSIZE
  rw [← Str.memmove_eq_moved] at hmv
  have hout : ∀ x, ¬ (p ≤ x ∧ x < p + PGSIZE) → Str.memmove (memset s.mem p 5 PGSIZE) p pa PGSIZE x = s.mem x :=
    fun x hx => (hmv.frame x hx).trans (memset_of_not_mem 5 hx)
  -- p には、始めの親のページの中身が写る
  have hin : ∀ j < PGSIZE, Str.memmove (memset s.mem p 5 PGSIZE) p pa PGSIZE (p + j) = copyData s₀.mem old i j := by
    intro j hj
    have hj' : ¬ (p ≤ pa + j ∧ pa + j < p + PGSIZE) := fun hx =>
      hne (eq_of_page_overlap hpa hpg.aligned ⟨Nat.le_add_right pa j, Nat.add_lt_add_left hj pa⟩ hx)
    rw [hmv.copied j hj, memset_of_not_mem 5 hj', hD pa hmM j hj, copyData_of_pmap hm]
  obtain ⟨t₀, -, hv, -, hfe⟩ := pmap_eq_some hm
  have hf : copyFlags s₀.mem old i = f ||| PTE_V := by
    rw [copyFlags_of_pmap hm, ← hfe, PTE_FLAGS_or_V hv]
  exact g.step hi hsz (fun b hb _ h₂ => hfree b hb h₂) (hfe ▸ PTE_FLAGS_lt _)
    (ho.leaf i pa f g.aligned hi' hm).1 hf hout hin

end Step

/-! ## 繰り返し -/

section Loop

variable {sz : Nat}

/-- uvmcopy の繰り返しは panic せずに返る。-1 を返せば子は始めの写像に戻り、0 を返せば `[0, PGROUNDUP(sz))`
を写し終えている。帰納法は残りのページの数 k について。 -/
theorem uvmcopyLoop_spec (ho : PtOwn kernEnd s₀ old F₀) (hsep : Apart s₀.mem old new) (hsz : PGROUNDUP sz ≤ MAXVA)
    (hold : ∀ b, b % PGSIZE = 0 → b < sz → pmap s₀.mem old b ≠ none)
    (hfree : ∀ b, b % PGSIZE = 0 → b < sz → pmap s₀.mem new b = none) (k : Nat) :
    ∀ i s F, Filled kernEnd new (copyFlags s₀.mem old) (copyData s₀.mem old) s₀ F₀ 0 i s F →
      sz - i ≤ k * PGSIZE → (i = 0 ∨ i < sz + PGSIZE) →
      ∃ r s', uvmcopyLoop kernEnd old new sz i s = some (r, s') ∧
        ((r = -1 ∧ Restored kernEnd new s₀ F₀ s') ∨
          (r = 0 ∧ ∃ F', Filled kernEnd new (copyFlags s₀.mem old) (copyData s₀.mem old) s₀ F₀ 0 (PGROUNDUP sz) s' F')) := by
  have hP : PGSIZE = 4096 := rfl
  have hszM : sz ≤ MAXVA := (le_PGROUNDUP sz).trans hsz
  -- 範囲を写し終えていれば 0 を返す。止まった i は PGROUNDUP(sz)
  have hdone : ∀ i s F, Filled kernEnd new (copyFlags s₀.mem old) (copyData s₀.mem old) s₀ F₀ 0 i s F →
      ¬ i < sz → (i = 0 ∨ i < sz + PGSIZE) →
      ∃ r s', uvmcopyLoop kernEnd old new sz i s = some (r, s') ∧
        ((r = -1 ∧ Restored kernEnd new s₀ F₀ s') ∨
          (r = 0 ∧ ∃ F', Filled kernEnd new (copyFlags s₀.mem old) (copyData s₀.mem old) s₀ F₀ 0 (PGROUNDUP sz) s' F')) := by
    intro i s F g hi hr
    have he : i = PGROUNDUP sz := loop_end_eq (Nat.zero_le sz) g.aligned (Nat.not_lt.mp hi) hr
    exact ⟨0, s, by rw [uvmcopyLoop, if_neg hi], .inr ⟨rfl, F, he ▸ g⟩⟩
  induction k with
  | zero =>
    intro i s F g hk hr
    exact hdone i s F g (by omega) hr
  | succ k ih =>
    intro i s F g hk hr
    by_cases hi : i < sz
    · have hfi : ∀ b, b % PGSIZE = 0 → 0 ≤ b → b < i → pmap s₀.mem new b = none :=
        fun b hb _ h₂ => hfree b hb (Nat.lt_trans h₂ hi)
      -- 親は i を写していて、walk はその PTE を返す
      obtain ⟨⟨pa, f⟩, hm⟩ := Option.ne_none_iff_exists'.mp (hold i g.aligned hi)
      obtain ⟨-, -, hPo, -⟩ := g.parent ho hsep
      obtain ⟨pte, hw, hv, hpa, hfe⟩ := walk_of_pmap (Nat.lt_of_lt_of_le hi hszM) ((hPo i).trans hm)
      rw [uvmcopyLoop, if_pos hi, hw]
      dsimp only
      rw [if_neg hv, hpa, hfe]
      cases F with
      | nil =>
        -- kalloc が 0: それまでに写したページを外す
        rw [g.own.kalloc_nil]
        obtain ⟨r, s', hrun, hs'⟩ := g.unwind (Nat.zero_mod PGSIZE) hfi
        refine ⟨-1, s', ?_, .inl ⟨rfl, hs'⟩⟩
        dsimp only
        rw [if_pos rfl, uvmcopyErr_eq g.aligned, hrun]
        rfl
      | cons p F₁ =>
        rw [g.own.kalloc_eq]
        have hp0 : p ≠ 0 := (g.own.free_in p List.mem_cons_self).pos g.own.kernEnd_pos
        obtain ⟨r, s₂, F₂, hrun, hres⟩ := g.copyStep ho hsep hi hszM hfree hm
        dsimp only
        rw [if_neg hp0, hrun]
        dsimp only
        rcases hres with ⟨rfl, g'⟩ | ⟨rfl, s₃, hk₃, g'⟩
        · -- mappages が成功: 次のページへ
          rw [if_neg (by decide)]
          exact ih (i + PGSIZE) s₂ F₂ g' (by rw [hP] at hk ⊢; rw [Nat.succ_mul] at hk; omega) (.inr (by omega))
        · -- mappages が -1: p を返してから外す
          rw [if_pos (by decide), hk₃, Option.bind_some, uvmcopyErr_eq g'.aligned]
          obtain ⟨r', s', hrun', hs'⟩ := g'.unwind (Nat.zero_mod PGSIZE) hfi
          exact ⟨-1, s', by rw [hrun']; rfl, .inl ⟨rfl, hs'⟩⟩
    · exact hdone i s F g hi hr

end Loop

/-! ## uvmcopy -/

/-- uvmcopy(old, new, sz) は、親が `[0, sz)` の各ページを写し、子がそこを何も写さず、子の表が親の表でも親の
写したページでもなければ、panic せずに返る。0 を返せば子は範囲の各ページを、始めの空きリストから取って親の
ページの中身を写したページで、親と同じ印に写し、ほかの写像を変えない。-1 を返せば子の写像は始めと同じで
ある。どちらでも子と親の不変条件は新しい空きリストで成り立ち、子の空きリスト、表、写されたページを合わせた
集まりは変わらず、書き込みは始めの空きのページと子の表の中だけで、親の写像とページの中身は変わらない。 -/
theorem uvmcopy_all_or_nothing {sz : Nat} (ho : PtOwn kernEnd s old F) (hn : PtOwn kernEnd s new F)
    (hsep : Apart s.mem old new) (hsz : PGROUNDUP sz ≤ MAXVA)
    (hold : ∀ b, b % PGSIZE = 0 → b < sz → pmap s.mem old b ≠ none)
    (hfree : ∀ b, b % PGSIZE = 0 → b < sz → pmap s.mem new b = none) :
    ∃ r s' F', uvmcopy kernEnd s old new sz = some (r, s') ∧
      PtOwn kernEnd s' new F' ∧ PtOwn kernEnd s' old F' ∧
      (∀ x, x ∈ F' ∨ IsTable s'.mem new x ∨ Mapped s'.mem new x ↔
        x ∈ F ∨ IsTable s.mem new x ∨ Mapped s.mem new x) ∧
      Within PGSIZE (fun b => b ∈ F ∨ IsTable s.mem new b) s.mem s'.mem ∧
      (∀ b, pmap s'.mem old b = pmap s.mem old b) ∧
      (∀ x, Mapped s.mem old x → ∀ j < PGSIZE, s'.mem (x + j) = s.mem (x + j)) ∧
      ((r = -1 ∧ ∀ b, b % PGSIZE = 0 → b < MAXVA → pmap s'.mem new b = pmap s.mem new b) ∨
        (r = 0 ∧ ∀ b, b % PGSIZE = 0 → b < MAXVA →
          (b < sz → ∃ pa pa' f, pmap s.mem old b = some (pa', f) ∧ pmap s'.mem new b = some (pa, f) ∧ pa ∈ F ∧
            ∀ j < PGSIZE, s'.mem (pa + j) = s.mem (pa' + j)) ∧
          (sz ≤ b → pmap s'.mem new b = pmap s.mem new b))) := by
  have hP : PGSIZE = 4096 := rfl
  obtain ⟨r, s', hrun, hres⟩ := uvmcopyLoop_spec ho hsep hsz hold hfree sz 0 s F
    (Filled.init hn (Nat.zero_mod PGSIZE) (Nat.zero_le _)) (by rw [hP]; omega) (.inl rfl)
  rcases hres with ⟨rfl, F', h', hpages, hW, hpm⟩ | ⟨rfl, F', g⟩
  · -- 失敗: 今の空きのページは、始めの空きのページか子の表（子が写していたページは空きでない）
    have hF' : ∀ x ∈ F', Page kernEnd x ∧ (x ∈ F ∨ IsTable s.mem new x) := by
      intro x hx
      refine ⟨h'.free_in x hx, ?_⟩
      rcases (hpages x).mp (.inl hx) with h | h | h
      · exact .inl h
      · exact .inr h
      · exact absurd hx (h'.mapped_not_free ((mapped_congr hpm x).mpr h))
    obtain ⟨ho', -, hPo, hD⟩ := hsep.parent ho hn hW h'.seg hF'
    exact ⟨-1, s', F', hrun, h', ho', hpages, hW, hPo, hD, .inl ⟨rfl, hpm⟩⟩
  · obtain ⟨ho', -, hPo, hD⟩ := g.parent ho hsep
    refine ⟨0, s', F', hrun, g.own, ho', g.pages, g.within, hPo, hD,
      .inr ⟨rfl, fun b hb hb' => ⟨fun hlt => ?_, fun hge => ?_⟩⟩⟩
    · obtain ⟨⟨pa', f⟩, hm⟩ := Option.ne_none_iff_exists'.mp (hold b hb hlt)
      obtain ⟨pa, hm', hpa, hd⟩ := g.inside b hb (Nat.zero_le b) (Nat.lt_of_lt_of_le hlt (le_PGROUNDUP sz))
      refine ⟨pa, pa', f, hm, by rw [hm', copyFlags_of_pmap hm], hpa, fun j hj => ?_⟩
      rw [hd j hj, copyData_of_pmap hm]
    · exact g.outside b hb hb' (.inr ((PGROUNDUP_mono hge).trans_eq (PGROUNDUP_of_aligned hb)))

/-- 八ページの鎖の根 0x1000 が va 0 を 0xA000 に写した後、uvmcreate が作った子に、uvmcopy で親の 1 ページを
写す。 -/
theorem uvmcopy_chainTable :
    ∃ s₁ r s', mappages chainTable 0x1000 0 PGSIZE 0xA000 (PTE_R ||| PTE_W ||| PTE_U) = some (0, s₁) ∧
      (uvmcreate s₁).1 ≠ 0 ∧ uvmcopy 1 (uvmcreate s₁).2 0x1000 (uvmcreate s₁).1 PGSIZE = some (r, s') := by
  have hP : PGSIZE = 4096 := rfl
  obtain ⟨h₀, hnone₀⟩ := chainTable_own
  -- 親: walk が鎖の頭から高々二ページを表に取り、va 0 を写す
  obtain ⟨r₁, s₁, N, F₁, hrun₁, hF, h₁, -, -, hN, hsucc, hres⟩ := h₀.mappages_page (a := 0)
    (by decide) (by decide) (hnone₀ 0) (by decide : (0xA000 : Nat) % PGSIZE = 0) (by decide)
    (not_mem_chainPages (by decide)) (fun ht => absurd (isTable_chainTable.mp ht) (by decide))
    (not_mapped_of_none (fun b _ _ => hnone₀ b) _) (fun _ => by decide)
    (by decide : (PTE_R ||| PTE_W ||| PTE_U) < 1024) (by decide)
  have hr₁ : r₁ = 0 := hsucc (by decide)
  obtain ⟨-, hP₁⟩ := hres.resolve_right fun h => absurd (hr₁ ▸ h.1) (by decide)
  -- 鎖の八ページのうち、表に取られなかったページが残る
  have hlen : chainPages.length = N.length + F₁.length := by rw [hF, List.length_append]
  have hne : F₁ ≠ [] := fun h => by
    rw [h, List.length_nil] at hlen
    have h8 : chainPages.length = 8 := rfl
    omega
  obtain ⟨p, F₂, rfl⟩ := List.exists_cons_of_ne_nil hne
  -- 子: uvmcreate が残りの頭 p を根にする
  obtain ⟨hcr, ho, hn, hsep, hPo, hPn⟩ := h₁.uvmcreate_apart
  have hold : ∀ b, b % PGSIZE = 0 → b < PGSIZE → pmap (uvmcreate s₁).2.mem 0x1000 b ≠ none := by
    intro b hb hlt
    obtain rfl : b = 0 := by
      rw [hP] at hb hlt
      omega
    rw [hPo, hP₁ 0 (by decide) (by decide), if_pos rfl]
    exact Option.some_ne_none _
  obtain ⟨r, s', -, hrun, -⟩ := uvmcopy_all_or_nothing ho hn hsep (by decide : PGROUNDUP PGSIZE ≤ MAXVA) hold
    fun b _ _ => hPn b
  refine ⟨s₁, r, s', hr₁ ▸ hrun₁, ?_, ?_⟩
  · rw [hcr]
    exact h₁.seg.2.1
  · rw [hcr]
    exact hrun

end Xv6.Vm
