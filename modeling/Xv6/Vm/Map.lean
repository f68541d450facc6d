import Xv6.Vm.Table
import Xv6.Lib.FreeList

/-!
# mappages と uvmunmap は、ページ表の写像を書き換える

ページ表の節（根、中間、末端のページ）は、根から欄の番号の列で着くページで、どれにも一つの道で
着き、どれも揃っている（`PtWF`）。mappages が walk で中間のページを割り当てるときは、kalloc の
空きリストの頭を取るので、空きのページがどれも節でなく、PTE に書けるアドレスであることも要る
（`PtInv`）。

walk の一段の割り当ては、空きリストの頭 p を 0 で埋めて無効な欄を p に向ける。基数木の
`lookup_alloc` から写像 `pmap` は変わらず、p が節に加わり、空きリストは残りになる
（`PtInv.alloc`）。末端の欄の書き込みは、写像をその仮想ページでだけ変える（`PtWF.setLeaf`）。
この二つを繰り返しの回数で積み上げたのが `mappagesLoop_spec` と `uvmunmapLoop_spec` である。
-/

namespace Xv6.Vm

open Function Xv6.Lib Xv6.Kalloc Xv6.Lib.Radix

/-- ページ表の節: 根から深さ 2 までの道で着くページ。 -/
abbrev IsTable (mem : Nat → UInt8) (root t : Nat) : Prop := pteScheme.IsNode (ptes mem) root 512 2 t

/-- ページ表の木の形: 節にはただ一つの道で着き、どの節も揃ったページである。 -/
structure PtWF (mem : Nat → UInt8) (root : Nat) : Prop where
  unique : pteScheme.Unique (ptes mem) root 512 2
  aligned : ∀ t, IsTable mem root t → t % PGSIZE = 0

/-- 割り当てにも使える状態: 空きリストは free を通って null に着き、空きのページはどれも揃っていて
uint64 に収まり、ページ表の節でない。 -/
structure PtInv (s : Kmem) (root : Nat) (free : List Nat) : Prop extends PtWF s.mem root where
  seg : ListSeg s.next 0 s.freelist free
  free_page : ∀ x ∈ free, x % PGSIZE = 0 ∧ x < 2 ^ 64
  free_not_table : ∀ x ∈ free, ¬ IsTable s.mem root x

theorem next_eq_ptes (s : Kmem) (y : Nat) : s.next y = ptes s.mem y 0 := by
  simp [Kmem.next, ptes, getPte]

/-! ## 節の PTE を変えない書き込み -/

/-- 節の PTE を変えない書き込みは、木の形と写像を変えない。 -/
theorem PtWF.congr {mem mem' : Nat → UInt8} {root : Nat} (h : PtWF mem root)
    (he : ∀ t, t % PGSIZE = 0 → IsTable mem root t → ∀ i < 512, ptes mem' t i = ptes mem t i) :
    PtWF mem' root ∧ (∀ t, IsTable mem' root t ↔ IsTable mem root t) ∧
      (∀ a, pteScheme.descend (ptes mem') root (levels a 2) = pteScheme.descend (ptes mem) root (levels a 2)) ∧
      ∀ b, pmap mem' root b = pmap mem root b := by
  have hE : ∀ t, IsTable mem root t → ∀ i < 512, ptes mem' t i = ptes mem t i :=
    fun t ht => he t (h.aligned t ht) ht
  refine ⟨⟨Scheme.unique_congr hE h.unique, fun t ht => h.aligned t ((Scheme.isNode_congr hE).mp ht)⟩,
    fun t => Scheme.isNode_congr hE, fun a => Scheme.descend_congr hE (path_levels a), fun b => ?_⟩
  rw [pmap, pmap, Scheme.lookup_congr hE (path_levels b) (PX_lt 0 b)]

/-! ## walk の一段の割り当て -/

section Alloc

variable {s : Kmem} {root p t i₀ : Nat} {rest q : List Nat}

/-- walk が割り当てた後の PTE: p は 0 で埋まり、欄 `(t, i₀)` だけが p を指す。 -/
theorem ptes_alloc (ht : t % PGSIZE = 0) (hi₀ : i₀ < 512) (hp : p % PGSIZE = 0)
    {u i : Nat} (hu : u % PGSIZE = 0) (hi : i < 512) :
    ptes (setPte (memset (memset s.mem p 5 PGSIZE) p 0 PGSIZE) (t + 8 * i₀) (PA2PTE p ||| PTE_V)) u i =
      if u = t ∧ i = i₀ then (PA2PTE p ||| PTE_V) % 2 ^ 64 else if u = p then 0 else ptes s.mem u i := by
  rw [ptes_setPte _ ht hi₀ hu hi]
  split
  · rfl
  · split
    · next hup =>
      rw [hup]
      exact ptes_memset_self _ hi
    · next hup =>
      rw [ptes_memset_of_ne _ 0 hp hu hup hi, ptes_memset_of_ne _ 5 hp hu hup hi]

/-- walk の一段の割り当て: 空きリストの頭 p を節 t の無効な欄 i₀ の子にする。写像は変わらず、p は
`q ++ [i₀]` の先の節になり、空きリストは残りになる。 -/
theorem PtInv.alloc (h : PtInv s root (p :: rest)) (hq : Path 512 2 q) (hlt : q.length < 2) (hi₀ : i₀ < 512)
    (ht : pteScheme.descend (ptes s.mem) root q = some t) (hv : ptes s.mem t i₀ &&& PTE_V = 0) :
    PtInv ⟨setPte (memset (memset s.mem p 5 PGSIZE) p 0 PGSIZE) (t + 8 * i₀) (PA2PTE p ||| PTE_V), s.next p⟩
        root rest ∧
      (∀ r, Path 512 2 r → pteScheme.descend (ptes (setPte (memset (memset s.mem p 5 PGSIZE) p 0 PGSIZE) (t + 8 * i₀)
        (PA2PTE p ||| PTE_V))) root r = if r = q ++ [i₀] then some p else pteScheme.descend (ptes s.mem) root r) ∧
      (∀ b, pmap (setPte (memset (memset s.mem p 5 PGSIZE) p 0 PGSIZE) (t + 8 * i₀) (PA2PTE p ||| PTE_V)) root b =
        pmap s.mem root b) ∧
      ∀ u, IsTable (setPte (memset (memset s.mem p 5 PGSIZE) p 0 PGSIZE) (t + 8 * i₀) (PA2PTE p ||| PTE_V)) root u ↔
        IsTable s.mem root u ∨ u = p := by
  obtain ⟨hhead, hp0, hseg⟩ := h.seg
  obtain ⟨hpa, hpb⟩ := h.free_page p List.mem_cons_self
  have hpt : ¬ IsTable s.mem root p := h.free_not_table p List.mem_cons_self
  have htt : IsTable s.mem root t := ⟨q, hq, ht⟩
  have hta : t % PGSIZE = 0 := h.aligned t htt
  have hne : p ≠ t := fun e => hpt (e ▸ htt)
  have hV : PA2PTE p ||| PTE_V < 2 ^ 64 := PA2PTE_or_lt (by omega) (by decide)
  -- 基数木の割り当ての前提
  have hnone : pteScheme.child (ptes s.mem) t i₀ = none := by
    simp [Scheme.child, pteScheme_valid_iff, hv]
  have hval : ptes (setPte (memset (memset s.mem p 5 PGSIZE) p 0 PGSIZE) (t + 8 * i₀) (PA2PTE p ||| PTE_V)) t i₀ =
      PA2PTE p ||| PTE_V := by
    rw [ptes_alloc hta hi₀ hpa hta hi₀, if_pos ⟨rfl, rfl⟩, Nat.mod_eq_of_lt hV]
  have hnew : pteScheme.child (ptes (setPte (memset (memset s.mem p 5 PGSIZE) p 0 PGSIZE) (t + 8 * i₀)
      (PA2PTE p ||| PTE_V))) t i₀ = some p := by
    have hvalid : pteScheme.valid (PA2PTE p ||| PTE_V) = true := by
      rw [pteScheme_valid_iff, PA2PTE_or_and_V p (by decide)]
      decide
    rw [Scheme.child, hval, if_pos hvalid]
    exact congrArg some (PTE2PA_PA2PTE_or hpa hpb (by decide))
  have hempty : ∀ j < 512, pteScheme.child (ptes (setPte (memset (memset s.mem p 5 PGSIZE) p 0 PGSIZE)
      (t + 8 * i₀) (PA2PTE p ||| PTE_V))) p j = none := by
    intro j hj
    have hzero : ptes (setPte (memset (memset s.mem p 5 PGSIZE) p 0 PGSIZE) (t + 8 * i₀) (PA2PTE p ||| PTE_V)) p j
        = 0 := by
      rw [ptes_alloc hta hi₀ hpa hpa hj, if_neg (fun e => hne e.1), if_pos rfl]
    rw [Scheme.child, hzero]
    rfl
  have hE : ∀ u, IsTable s.mem root u → ∀ i < 512, ¬ (u = t ∧ i = i₀) →
      ptes (setPte (memset (memset s.mem p 5 PGSIZE) p 0 PGSIZE) (t + 8 * i₀) (PA2PTE p ||| PTE_V)) u i =
        ptes s.mem u i := by
    intro u hu i hi hui
    have hup : u ≠ p := by
      rintro rfl
      exact hpt hu
    rw [ptes_alloc hta hi₀ hpa (h.aligned u hu) hi, if_neg hui, if_neg hup]
  have hnode := fun {u : Nat} => Scheme.isNode_alloc h.unique hq ht hnone hnew hempty hE hlt hi₀ (t := u)
  refine ⟨⟨⟨Scheme.unique_alloc h.unique hq ht hnone hnew hempty hE hpt, fun u hu => ?_⟩, ?_, ?_, ?_⟩,
    fun r hr => Scheme.descend_alloc h.unique hq ht hnone hnew hempty hE hr, fun b => ?_, fun u => hnode⟩
  · rcases hnode.mp hu with hu | rfl
    · exact h.aligned u hu
    · exact hpa
  · -- 空きリストの残りのページの先頭の PTE は、どの書き込みにも当たらない
    refine hseg.congr fun y hy => ?_
    obtain ⟨hya, -⟩ := h.free_page y (List.mem_cons_of_mem _ hy)
    have hyp : y ≠ p := fun e => (List.nodup_cons.mp (ListSeg.nodup h.seg)).1 (e ▸ hy)
    have hyt : y ≠ t := fun e => h.free_not_table y (List.mem_cons_of_mem _ hy) (e ▸ htt)
    rw [next_eq_ptes, next_eq_ptes s y]
    show ptes (setPte _ _ _) y 0 = _
    rw [ptes_alloc hta hi₀ hpa hya (by decide), if_neg (fun e => hyt e.1), if_neg hyp]
  · exact fun x hx => h.free_page x (List.mem_cons_of_mem _ hx)
  · intro x hx hxt
    rcases hnode.mp hxt with hxt | rfl
    · exact h.free_not_table x (List.mem_cons_of_mem _ hx) hxt
    · exact (List.nodup_cons.mp (ListSeg.nodup h.seg)).1 hx
  · rw [pmap, pmap, Scheme.lookup_alloc h.unique hq ht hnone hnew hempty hE hlt (path_levels b)
      (length_levels b 2) (PX_lt 0 b)]

/-- alloc が 1 の walk の繰り返し。節 t は a の道の頭 q の先にある。結果の状態でも不変条件が成り立ち、
写像は変わらず、返す PTE のアドレスは a の末端のページの欄 `PX 0 a` である。 -/
theorem PtInv.walkLoop {a : Nat} : ∀ (l t : Nat) (q : List Nat) (s : Kmem) (free : List Nat),
    PtInv s root free → q ++ levels a l = levels a 2 → pteScheme.descend (ptes s.mem) root q = some t →
    (∃ free', PtInv (walkLoop a true l t s).2 root free') ∧
    (∀ b, pmap (walkLoop a true l t s).2.mem root b = pmap s.mem root b) ∧
    ∀ pte, (walkLoop a true l t s).1 = some pte →
      ∃ t₀, pteScheme.descend (ptes (walkLoop a true l t s).2.mem) root (levels a 2) = some t₀ ∧
        pte = t₀ + 8 * PX 0 a := by
  -- 残りの段の数についての帰納法。状態と空きリストは段ごとに変わる
  intro l
  induction l with
  | zero =>
    intro t q s free h hq ht
    rw [levels, List.append_nil] at hq
    subst hq
    exact ⟨⟨free, h⟩, fun _ => rfl, fun pte hpte => ⟨t, ht, (Option.some.inj hpte).symm⟩⟩
  | succ l ih =>
    intro t q s free h hq ht
    have hpath : Path 512 2 q := by
      have := path_levels a
      rw [← hq] at this
      exact this.of_append
    have hlt : q.length < 2 := by
      have := congrArg List.length hq
      rw [List.length_append, length_levels, length_levels] at this
      omega
    have hq' : (q ++ [PX (l + 1) a]) ++ levels a l = levels a 2 := by
      rw [List.append_assoc, ← hq]
      rfl
    by_cases hv : getPte s.mem (t + 8 * PX (l + 1) a) &&& PTE_V ≠ 0
    · -- 有効な欄: 子へ下りる
      have hc : pteScheme.descend (ptes s.mem) root (q ++ [PX (l + 1) a]) =
          some (PTE2PA (getPte s.mem (t + 8 * PX (l + 1) a))) := by
        rw [Scheme.descend_snoc, ht, Option.bind_some, Scheme.child, ptes,
          if_pos ((pteScheme_valid_iff _).mpr hv)]
        rfl
      have := ih _ _ s free h hq' hc
      simp only [Xv6.Vm.walkLoop, if_pos hv]
      exact this
    · -- 無効な欄: kalloc の返すページを子にする
      cases free with
      | nil =>
        have h0 : s.freelist = 0 := h.seg
        simp only [Xv6.Vm.walkLoop, if_neg hv, Bool.not_true, Bool.false_eq_true, ↓reduceIte, kalloc, h0,
          ne_eq, not_true_eq_false]
        exact ⟨⟨[], h⟩, fun _ => trivial, fun pte hpte => by cases hpte⟩
      | cons p rest =>
        obtain ⟨hhead, hp0, -⟩ := h.seg
        obtain ⟨h₂, hdesc, hpmap, -⟩ := h.alloc hpath hlt (PX_lt (l + 1) a) ht (by simpa [ptes] using hv)
        have := ih _ _ _ rest h₂ hq' ((hdesc _ (hpath.snoc hlt (PX_lt (l + 1) a))).trans (if_pos rfl))
        simp only [Xv6.Vm.walkLoop, if_neg hv, Bool.not_true, Bool.false_eq_true, ↓reduceIte, kalloc, hhead,
          ne_eq, hp0, not_false_eq_true]
        refine ⟨this.1, fun b => (this.2.1 b).trans (hpmap b), this.2.2⟩

end Alloc

/-! ## 末端の欄の書き込み -/

section Leaf

variable {mem : Nat → UInt8} {root a t₀ v : Nat}

/-- 仮想ページ a の末端の欄への書き込み: 木の形は変わらず、写像は a と同じ欄の番号を持つアドレス
でだけ、書いた PTE の読みに変わる。 -/
theorem PtWF.setLeaf (h : PtWF mem root) (ht₀ : pteScheme.descend (ptes mem) root (levels a 2) = some t₀)
    (hv : v < 2 ^ 64) :
    PtWF (setPte mem (t₀ + 8 * PX 0 a) v) root ∧
      (∀ t, IsTable (setPte mem (t₀ + 8 * PX 0 a) v) root t ↔ IsTable mem root t) ∧
      ∀ b, pmap (setPte mem (t₀ + 8 * PX 0 a) v) root b =
        if levels b 2 = levels a 2 ∧ PX 0 b = PX 0 a then
          (if v &&& PTE_V = 0 then none else some (PTE2PA v, PTE_FLAGS v))
        else pmap mem root b := by
  have hta : t₀ % PGSIZE = 0 := h.aligned t₀ ⟨_, path_levels a, ht₀⟩
  have hE : ∀ u, IsTable mem root u → ∀ i < 512, ¬ (u = t₀ ∧ i = PX 0 a) →
      ptes (setPte mem (t₀ + 8 * PX 0 a) v) u i = ptes mem u i := by
    intro u hu i hi hui
    rw [ptes_setPte mem hta (PX_lt 0 a) (h.aligned u hu) hi, if_neg hui]
  have hlen := length_levels a 2
  have hnode := fun {u : Nat} => Scheme.isNode_write_leaf h.unique (path_levels a) ht₀ hE hlen (t := u)
  refine ⟨⟨Scheme.unique_write_leaf h.unique (path_levels a) ht₀ hE hlen, fun u hu => h.aligned u (hnode.mp hu)⟩,
    fun u => hnode, fun b => ?_⟩
  split
  · next hb =>
    obtain ⟨hl, h0⟩ := hb
    have hval : ptes (setPte mem (t₀ + 8 * PX 0 a) v) t₀ (PX 0 a) = v := by
      rw [ptes_setPte mem hta (PX_lt 0 a) hta (PX_lt 0 a), if_pos ⟨rfl, rfl⟩, Nat.mod_eq_of_lt hv]
    rw [pmap, hl, h0, Scheme.lookup_write_self h.unique (path_levels a) ht₀ hE hlen, hval]
    by_cases hvv : v &&& PTE_V = 0
    · have hfalse : pteScheme.valid v = false := by
        rw [Bool.eq_false_iff, ne_eq, pteScheme_valid_iff, not_not]
        exact hvv
      rw [hfalse, if_pos hvv]
      rfl
    · rw [(pteScheme_valid_iff v).mpr hvv, if_neg hvv]
      rfl
  · next hb =>
    rw [pmap, pmap, Scheme.lookup_write h.unique (path_levels a) ht₀ hE hlen (path_levels b) (PX_lt 0 b) hb]

/-- 末端の欄の書き込みは、空きリストにも触れない。 -/
theorem PtInv.setLeaf {s : Kmem} {free : List Nat} (h : PtInv s root free)
    (ht₀ : pteScheme.descend (ptes s.mem) root (levels a 2) = some t₀) (hv : v < 2 ^ 64) :
    PtInv { s with mem := setPte s.mem (t₀ + 8 * PX 0 a) v } root free := by
  obtain ⟨hwf, hnode, -⟩ := h.toPtWF.setLeaf ht₀ hv
  have hta : t₀ % PGSIZE = 0 := h.aligned t₀ ⟨_, path_levels a, ht₀⟩
  refine ⟨hwf, h.seg.congr fun y hy => ?_, h.free_page, fun x hx hxt => h.free_not_table x hx ((hnode x).mp hxt)⟩
  obtain ⟨hya, -⟩ := h.free_page y hy
  have hyt : y ≠ t₀ := fun e => h.free_not_table y hy (e ▸ ⟨_, path_levels a, ht₀⟩)
  rw [next_eq_ptes, next_eq_ptes s y]
  show ptes (setPte _ _ _) y 0 = _
  rw [ptes_setPte s.mem hta (PX_lt 0 a) hya (by decide), if_neg (fun e => hyt e.1)]

end Leaf

/-! ## mappages -/

/-- mappages の一回: walk が返した a の末端の欄が無効なら、そこに `PA2PTE(pa) | perm | PTE_V` を書く。
写像は a でだけ (pa, perm | PTE_V) に変わる。 -/
theorem PtInv.mapPage {s : Kmem} {root a pa perm pte : Nat} {free : List Nat} {s₁ : Kmem}
    (h : PtInv s root free) (ha : a % PGSIZE = 0) (ha' : a < MAXVA) (hpa : pa % PGSIZE = 0) (hpa' : pa < 2 ^ 64)
    (hperm : perm < 1024) (hw : Xv6.Vm.walkLoop a true 2 root s = (some pte, s₁)) :
    (∃ free', PtInv { s₁ with mem := setPte s₁.mem pte (PA2PTE pa ||| perm ||| PTE_V) } root free') ∧
      ∀ b, b % PGSIZE = 0 → b < MAXVA →
        pmap (setPte s₁.mem pte (PA2PTE pa ||| perm ||| PTE_V)) root b =
          if b = a then some (pa, perm ||| PTE_V) else pmap s.mem root b := by
  obtain ⟨⟨free₁, h₁⟩, hpmap, hpte⟩ := h.walkLoop 2 root [] s free rfl rfl
  rw [hw] at h₁ hpmap hpte
  obtain ⟨t₀, ht₀, rfl⟩ := hpte pte rfl
  have hf : perm ||| PTE_V < 1024 := Nat.or_lt_two_pow (n := 10) (by omega) (by decide)
  have hv : PA2PTE pa ||| perm ||| PTE_V = PA2PTE pa ||| (perm ||| PTE_V) := Nat.or_assoc _ _ _
  have hlt : PA2PTE pa ||| perm ||| PTE_V < 2 ^ 64 := hv ▸ PA2PTE_or_lt (Nat.lt_trans hpa' (by decide)) hf
  refine ⟨⟨free₁, h₁.setLeaf ht₀ hlt⟩, fun b hb hb' => ?_⟩
  rw [(h₁.toPtWF.setLeaf ht₀ hlt).2.2 b, hv, PA2PTE_or_and_V pa hf, or_PTE_V_mod_two,
    PTE2PA_PA2PTE_or hpa hpa' hf, PTE_FLAGS_PA2PTE_or pa hf, hpmap b]
  -- MAXVA より下の揃ったアドレスは、欄の番号で決まる
  by_cases hba : b = a
  · subst hba
    simp
  · rw [if_neg (fun e => hba (eq_of_PX_eq hb ha hb' ha' e.1 e.2)), if_neg hba]

/-- mappages の繰り返しが 0 を返すときの一回: walk が a の末端の欄を返し、そこに PTE を書いて、a が
last なら終わり、そうでなければ次のページへ進む。 -/
theorem mappagesLoop_inv {root perm last a pa : Nat} {s s' : Kmem}
    (hrun : mappagesLoop root perm last a pa s = some (0, s')) :
    ∃ pte s₁, a < MAXVA ∧ walkLoop a true 2 root s = (some pte, s₁) ∧
      ((a = last ∧ s' = { s₁ with mem := setPte s₁.mem pte (PA2PTE pa ||| perm ||| PTE_V) }) ∨
       (a ≠ last ∧ mappagesLoop root perm last (a + PGSIZE) ((pa + PGSIZE) % 2 ^ 64)
         { s₁ with mem := setPte s₁.mem pte (PA2PTE pa ||| perm ||| PTE_V) } = some (0, s'))) := by
  rw [mappagesLoop] at hrun
  split at hrun
  · cases hrun
  · -- 割り当てに失敗した walk では -1 が返る
    simp at hrun
  · next pte s₁ hw =>
    have hmax := lt_MAXVA_of_walk hw
    rw [walk, if_neg (Nat.not_le.mpr hmax), Option.some.injEq] at hw
    -- 有効な欄への書き込み（remap）は panic し、split_ifs がその枝を閉じる
    split_ifs at hrun with hremap hl
    · cases hrun
      exact ⟨pte, s₁, hmax, hw, .inl ⟨hl, rfl⟩⟩
    · exact ⟨pte, s₁, hmax, hw, .inr ⟨hl, hrun⟩⟩

/-- 最後のページの一回: walk が返した欄が無効なら、そこに PTE を書いて 0 を返す。 -/
theorem mappagesLoop_last {root perm last pa pte : Nat} {s s₁ : Kmem}
    (hmax : last < MAXVA) (hw : walkLoop last true 2 root s = (some pte, s₁)) (hv : getPte s₁.mem pte &&& PTE_V = 0) :
    mappagesLoop root perm last last pa s =
      some (0, { s₁ with mem := setPte s₁.mem pte (PA2PTE pa ||| perm ||| PTE_V) }) := by
  have hwalk : walk s root last true = some (some pte, s₁) := by
    rw [walk, if_neg (Nat.not_le.mpr hmax), hw]
  rw [mappagesLoop]
  split
  · next h => cases h.symm.trans hwalk
  · next h => cases h.symm.trans hwalk
  · next pte' s' h =>
    obtain ⟨rfl, rfl⟩ : pte' = pte ∧ s' = s₁ := by
      simpa using h.symm.trans hwalk
    simp only [hv, ne_eq, not_true_eq_false, ↓reduceIte]

/-- `pa += PGSIZE` を 2^64 で回しても、先のページの物理アドレスは pa から数えたものと同じ。 -/
theorem add_PGSIZE_mod_add {pa a b : Nat} (h : a + PGSIZE ≤ b) :
    ((pa + PGSIZE) % 2 ^ 64 + (b - (a + PGSIZE))) % 2 ^ 64 = (pa + (b - a)) % 2 ^ 64 := by
  rw [Nat.mod_add_mod, show pa + PGSIZE + (b - (a + PGSIZE)) = pa + (b - a) by omega]

/-- mappages の繰り返しが 0 を返すなら、a は last を越えず、a から last までの各ページ b は
`(pa + (b - a)) % 2^64` にフラグ `perm | PTE_V` で写され、ほかのページの写像は変わらない。帰納法は
MAXVA までに残るページの数 n についてで（a が MAXVA に着けば walk が panic する）、各回は
`PtInv.mapPage` である。 -/
theorem mappagesLoop_spec {root perm last : Nat} (hperm : perm < 1024) (n : Nat) :
    ∀ (a pa : Nat) (s : Kmem) (free : List Nat) (s' : Kmem),
      MAXVA ≤ a + n * PGSIZE → PtInv s root free → a % PGSIZE = 0 → pa % PGSIZE = 0 → pa < 2 ^ 64 →
      mappagesLoop root perm last a pa s = some (0, s') →
      (∃ free', PtInv s' root free') ∧ a ≤ last ∧ last < MAXVA ∧
        ∀ b, b % PGSIZE = 0 → b < MAXVA →
          pmap s'.mem root b =
            if a ≤ b ∧ b ≤ last then some ((pa + (b - a)) % 2 ^ 64, perm ||| PTE_V) else pmap s.mem root b := by
  have hP : PGSIZE = 4096 := rfl
  induction n with
  | zero =>
    intro a pa s free s' hn _ _ _ _ hrun
    obtain ⟨-, -, hmax, -⟩ := mappagesLoop_inv hrun
    omega
  | succ n ih =>
    intro a pa s free s' hn hinv ha hpa hpa' hrun
    obtain ⟨pte, s₁, hmax, hw, hcase⟩ := mappagesLoop_inv hrun
    obtain ⟨⟨free₂, h₂⟩, hmap⟩ := hinv.mapPage ha hmax hpa hpa' hperm hw
    rcases hcase with ⟨rfl, rfl⟩ | ⟨hl, hrun'⟩
    · -- a が last: このページだけを写して終わる
      refine ⟨⟨free₂, h₂⟩, Nat.le_refl a, hmax, fun b hb hb' => ?_⟩
      rw [hmap b hb hb']
      by_cases hba : b = a
      · subst hba
        rw [if_pos rfl, if_pos ⟨Nat.le_refl b, Nat.le_refl b⟩, Nat.sub_self, Nat.add_zero, Nat.mod_eq_of_lt hpa']
      · rw [if_neg hba, if_neg (by omega)]
    · have hpa₁ : (pa + PGSIZE) % 2 ^ 64 % PGSIZE = 0 := by
        rw [Nat.mod_mod_of_dvd _ (by decide : PGSIZE ∣ 2 ^ 64), hP]
        rw [hP] at hpa
        omega
      obtain ⟨hfree, hle, hlast, hrest⟩ := ih (a + PGSIZE) ((pa + PGSIZE) % 2 ^ 64) _ free₂ s'
        (by rw [Nat.succ_mul] at hn; omega) h₂ (by rw [hP] at ha ⊢; omega) hpa₁ (Nat.mod_lt _ (by decide)) hrun'
      refine ⟨hfree, by omega, hlast, fun b hb hb' => ?_⟩
      rw [hrest b hb hb', hmap b hb hb']
      by_cases h₁ : a + PGSIZE ≤ b ∧ b ≤ last
      · rw [if_pos h₁, if_pos ⟨by omega, h₁.2⟩, add_PGSIZE_mod_add h₁.1]
      · rw [if_neg h₁]
        by_cases hba : b = a
        · subst hba
          rw [if_pos rfl, if_pos ⟨Nat.le_refl b, by omega⟩, Nat.sub_self, Nat.add_zero, Nat.mod_eq_of_lt hpa']
        · -- 揃った b が a でなく a の次のページより下なら、b は a より下
          rw [hP] at ha hb h₁
          rw [if_neg hba, if_neg (by omega)]

/-- mappages が 0 を返すなら、`PGROUNDDOWN(va)` から uint64 で計算した `PGROUNDDOWN(va + size - 1)`
までの各ページ b は `pa + (b - PGROUNDDOWN(va))`（uint64 の和）に `perm | PTE_V` で写され、ほかの
ページの写像は変わらない。 -/
theorem mappages_spec {s s' : Kmem} {root va size pa perm : Nat} {free : List Nat} (hinv : PtInv s root free)
    (hpa : pa % PGSIZE = 0) (hpa' : pa < 2 ^ 64) (hperm : perm < 1024)
    (hrun : mappages s root va size pa perm = some (0, s')) :
    (∃ free', PtInv s' root free') ∧ PGROUNDDOWN ((va + size - 1) % 2 ^ 64) < MAXVA ∧
      ∀ b, b % PGSIZE = 0 → b < MAXVA →
        pmap s'.mem root b = if PGROUNDDOWN va ≤ b ∧ b ≤ PGROUNDDOWN ((va + size - 1) % 2 ^ 64) then
          some ((pa + (b - PGROUNDDOWN va)) % 2 ^ 64, perm ||| PTE_V) else pmap s.mem root b := by
  unfold mappages at hrun
  split at hrun
  · cases hrun
  · have hP : PGSIZE = 4096 := rfl
    have ha : PGROUNDDOWN va % PGSIZE = 0 := by
      unfold PGROUNDDOWN
      rw [hP]
      omega
    obtain ⟨hinv', -, hlast, hmap⟩ := mappagesLoop_spec hperm MAXVA _ pa s free s'
      (by rw [hP]; omega) hinv ha hpa hpa' hrun
    exact ⟨hinv', hlast, hmap⟩

/-! ## uvmunmap -/

/-- kfree はページ pa の中だけを書く。 -/
theorem ptes_kfree {kernEnd pa : Nat} {s s₁ : Kmem} (h : kfree kernEnd pa s = some s₁) :
    pa % PGSIZE = 0 ∧ ∀ u i, u % PGSIZE = 0 → u ≠ pa → i < 512 → ptes s₁.mem u i = ptes s.mem u i := by
  unfold kfree at h
  split at h
  · cases h
  · next hok =>
    cases h
    have hpa : pa % PGSIZE = 0 := by
      simp only [PGSIZE] at hok ⊢
      omega
    refine ⟨hpa, fun u i hu hne hi => ?_⟩
    show loadLE (storeLE (memset s.mem pa 1 PGSIZE) pa s.freelist 8) (u + 8 * i) 8 = _
    rw [loadLE_congr fun j h₁ h₂ => storeLE_of_not_mem s.freelist ?_]
    · exact ptes_memset_of_ne s.mem 1 hpa hu hne hi
    · simp only [PGSIZE] at *
      omega

/-- uvmunmap の繰り返しが返るときの一回: a の末端の欄は有効で、do_free なら kfree した後に、その欄を
0 にして次のページへ進む。 -/
theorem uvmunmapLoop_inv {kernEnd root k a : Nat} {doFree : Bool} {s s' : Kmem}
    (hrun : uvmunmapLoop kernEnd root doFree (k + 1) a s = some s') :
    ∃ t₀ s₁, a < MAXVA ∧ pteScheme.descend (ptes s.mem) root (levels a 2) = some t₀ ∧
      ptes s.mem t₀ (PX 0 a) &&& PTE_V ≠ 0 ∧
      (if doFree then kfree kernEnd (PTE2PA (ptes s.mem t₀ (PX 0 a))) s = some s₁ else s₁ = s) ∧
      uvmunmapLoop kernEnd root doFree k (a + PGSIZE) { s₁ with mem := setPte s₁.mem (t₀ + 8 * PX 0 a) 0 } =
        some s' := by
  rw [uvmunmapLoop, walk_false] at hrun
  by_cases hmax : a ≥ MAXVA
  · rw [if_pos hmax] at hrun
    cases hrun
  rw [if_neg hmax] at hrun
  cases hd : pteScheme.descend (ptes s.mem) root (levels a 2) with
  | none =>
    rw [hd] at hrun
    cases hrun
  | some t₀ =>
    rw [hd] at hrun
    simp only [Option.map_some] at hrun
    -- 無効な欄と、葉でない欄では panic する
    split_ifs at hrun with hv hleaf hfree
    · cases hf : kfree kernEnd (PTE2PA (getPte s.mem (t₀ + 8 * PX 0 a))) s with
      | none =>
        rw [hf] at hrun
        cases hrun
      | some s₁ =>
        rw [hf, Option.bind_eq_bind, Option.bind_some] at hrun
        exact ⟨t₀, s₁, Nat.lt_of_not_le hmax, rfl, hv, by rw [if_pos hfree]; exact hf, hrun⟩
    · rw [Option.bind_eq_bind, Option.bind_some] at hrun
      exact ⟨t₀, s, Nat.lt_of_not_le hmax, rfl, hv, by rw [if_neg hfree], hrun⟩

/-- 値 0 の末端の欄は、写像をそのページでだけ消す。 -/
theorem PtWF.clearLeaf {mem : Nat → UInt8} {root a t₀ : Nat} (h : PtWF mem root) (ha : a % PGSIZE = 0)
    (ha' : a < MAXVA) (ht₀ : pteScheme.descend (ptes mem) root (levels a 2) = some t₀) :
    PtWF (setPte mem (t₀ + 8 * PX 0 a) 0) root ∧
      (∀ t, IsTable (setPte mem (t₀ + 8 * PX 0 a) 0) root t ↔ IsTable mem root t) ∧
      ∀ b, b % PGSIZE = 0 → b < MAXVA →
        pmap (setPte mem (t₀ + 8 * PX 0 a) 0) root b = if b = a then none else pmap mem root b := by
  obtain ⟨h₂, hnode, hpmap⟩ := h.setLeaf ht₀ (by decide : (0 : Nat) < 2 ^ 64)
  refine ⟨h₂, hnode, fun b hb hb' => ?_⟩
  rw [hpmap b, Nat.zero_and, if_pos rfl]
  by_cases hba : b = a
  · subst hba
    simp
  · rw [if_neg (fun e => hba (eq_of_PX_eq hb ha hb' ha' e.1 e.2)), if_neg hba]

/-- uvmunmap の繰り返しが返るなら、a から k ページはどれも MAXVA より下で写されていて、その写像が
消え、ほかのページの写像は変わらない。do_free なら、解放するページがページ表の節でないことが要る。
帰納法は k についてで、各回は kfree（節の PTE を変えない）と `PtWF.clearLeaf` である。 -/
theorem uvmunmapLoop_spec {kernEnd root : Nat} {doFree : Bool} (k : Nat) :
    ∀ (a : Nat) (s s' : Kmem), PtWF s.mem root → a % PGSIZE = 0 →
      (doFree = true → ∀ b pa fl, b % PGSIZE = 0 → b < MAXVA → a ≤ b → b < a + k * PGSIZE →
        pmap s.mem root b = some (pa, fl) → ¬ IsTable s.mem root pa) →
      uvmunmapLoop kernEnd root doFree k a s = some s' →
      PtWF s'.mem root ∧ (∀ b, a ≤ b → b < a + k * PGSIZE → b < MAXVA) ∧
        (∀ b, b % PGSIZE = 0 → a ≤ b → b < a + k * PGSIZE → pmap s.mem root b ≠ none) ∧
        ∀ b, b % PGSIZE = 0 → b < MAXVA →
          pmap s'.mem root b = if a ≤ b ∧ b < a + k * PGSIZE then none else pmap s.mem root b := by
  have hP : PGSIZE = 4096 := rfl
  induction k with
  | zero =>
    intro a s s' h _ _ hrun
    cases hrun
    refine ⟨h, fun b h₁ h₂ => by omega, fun b _ h₁ h₂ => by omega, fun b _ _ => ?_⟩
    rw [if_neg (by omega)]
  | succ k ih =>
    intro a s s' h ha hfree hrun
    obtain ⟨t₀, s₁, hmax, ht₀, hv, hs₁, hrun'⟩ := uvmunmapLoop_inv hrun
    have hmap : pmap s.mem root a =
        some (PTE2PA (ptes s.mem t₀ (PX 0 a)), PTE_FLAGS (ptes s.mem t₀ (PX 0 a))) := by
      rw [pmap, Scheme.lookup, ht₀, Option.bind_some, if_pos ((pteScheme_valid_iff _).mpr hv)]
      rfl
    -- do_free の kfree は、a が写すページ（節でない）の中だけを書く
    have hcongr : ∀ u, u % PGSIZE = 0 → IsTable s.mem root u → ∀ i < 512, ptes s₁.mem u i = ptes s.mem u i := by
      cases doFree with
      | false =>
        rw [if_neg (by decide)] at hs₁
        subst hs₁
        exact fun _ _ _ _ _ => rfl
      | true =>
        rw [if_pos rfl] at hs₁
        obtain ⟨-, hk⟩ := ptes_kfree hs₁
        intro u hu hut i hi
        refine hk u i hu ?_ hi
        rintro rfl
        rw [hP] at ha
        exact hfree rfl a _ _ (by rw [hP]; exact ha) hmax (Nat.le_refl a) (by rw [hP]; omega) hmap hut
    obtain ⟨h₁, hnode₁, hdesc₁, hpmap₁⟩ := h.congr hcongr
    rw [← hdesc₁] at ht₀
    obtain ⟨h₂, hnode₂, hpmap₂⟩ := h₁.clearLeaf ha hmax ht₀
    have hrest_free : doFree = true → ∀ b pa fl, b % PGSIZE = 0 → b < MAXVA → a + PGSIZE ≤ b →
        b < a + PGSIZE + k * PGSIZE → pmap (setPte s₁.mem (t₀ + 8 * PX 0 a) 0) root b = some (pa, fl) →
        ¬ IsTable (setPte s₁.mem (t₀ + 8 * PX 0 a) 0) root pa := by
      intro hd b pa fl hb hb' h₁' h₂' hmb hpt
      -- omega は文脈の MAXVA の冪を展開しようとして深く潜るので、比べるのに要る仮定だけを残す
      have hab : a ≤ b := by
        clear * - h₁'
        omega
      have hba : b ≠ a := by
        clear * - h₁' hP
        rw [hP] at h₁'
        omega
      have hlt : b < a + (k + 1) * PGSIZE := by
        clear * - h₂'
        rw [Nat.succ_mul]
        omega
      rw [hpmap₂ b hb hb', if_neg hba, hpmap₁ b] at hmb
      exact hfree hd b pa fl hb hb' hab hlt hmb ((hnode₁ pa).mp ((hnode₂ pa).mp hpt))
    obtain ⟨h', hrange, hmapped, hrest⟩ := ih (a + PGSIZE) { s₁ with mem := setPte s₁.mem (t₀ + 8 * PX 0 a) 0 } s'
      h₂ (by rw [hP] at ha ⊢; omega) hrest_free hrun'
    have hrange' : ∀ b, a ≤ b → b < a + (k + 1) * PGSIZE → b < MAXVA := by
      intro b hb₁ hb₂
      by_cases hba : b < a + PGSIZE
      · -- a は揃っていて MAXVA より下なので、a のページ全体が MAXVA より下にある
        rw [hP] at ha hba
        simp only [MAXVA] at hmax ⊢
        omega
      · exact hrange b (by omega) (by rw [Nat.succ_mul] at hb₂; omega)
    refine ⟨h', hrange', fun b hb hb₁ hb₂ => ?_, fun b hb hb' => ?_⟩
    · by_cases hba : b = a
      · rw [hba, hmap]
        exact Option.some_ne_none _
      · -- 次のページから先は帰納法の仮定から。a のページを消しても、b の写像は変わらない
        have hb₃ : a + PGSIZE ≤ b := by
          clear * - hb hba hb₁ ha hP
          rw [hP] at ha hb ⊢
          omega
        have hb₄ : b < a + PGSIZE + k * PGSIZE := by
          clear * - hb₂
          rw [Nat.succ_mul] at hb₂
          omega
        have := hmapped b hb hb₃ hb₄
        rwa [hpmap₂ b hb (hrange' b hb₁ hb₂), if_neg hba, hpmap₁ b] at this
    · rw [hrest b hb hb', hpmap₂ b hb hb', hpmap₁ b]
      clear hb' hmax
      rw [hP] at ha hb ⊢
      rw [Nat.succ_mul]
      by_cases h₁' : a + 4096 ≤ b ∧ b < a + 4096 + k * 4096
      · rw [if_pos h₁', if_pos ⟨by omega, by omega⟩]
      · rw [if_neg h₁']
        by_cases hba : b = a
        · subst hba
          rw [if_pos rfl, if_pos ⟨Nat.le_refl b, by omega⟩]
        · rw [if_neg hba, if_neg (by omega)]

/-- uvmunmap の繰り返しの回数 `(E - va) / PGSIZE` は、揃った va から回った上限 E の手前までの
ページの数。 -/
theorem lt_uvmunmap_count_iff {va npages : Nat} (hva : va % PGSIZE = 0) {b : Nat} (hb : va ≤ b) :
    b < va + ((va + npages * PGSIZE) % 2 ^ 64 - va) / PGSIZE * PGSIZE ↔ b < (va + npages * PGSIZE) % 2 ^ 64 := by
  have hE : (va + npages * PGSIZE) % 2 ^ 64 % PGSIZE = 0 := by
    rw [Nat.mod_mod_of_dvd _ (by decide : PGSIZE ∣ 2 ^ 64)]
    simp only [PGSIZE] at hva ⊢
    omega
  generalize (va + npages * PGSIZE) % 2 ^ 64 = E at hE ⊢
  simp only [PGSIZE] at hva hE ⊢
  omega

/-- 上限 `va + npages*PGSIZE` が 2^64 に届かなければ、uvmunmap の繰り返しはちょうど npages 回。 -/
theorem uvmunmap_of_lt {kernEnd pagetable va npages : Nat} {doFree : Bool} {s : Kmem}
    (h : va + npages * PGSIZE < 2 ^ 64) :
    uvmunmap kernEnd s pagetable va npages doFree =
      if va % PGSIZE ≠ 0 then none else uvmunmapLoop kernEnd pagetable doFree npages va s := by
  rw [uvmunmap, Nat.mod_eq_of_lt h, Nat.add_sub_cancel_left, Nat.mul_div_cancel _ (by decide : 0 < PGSIZE)]

/-- uvmunmap が返るなら、va から uint64 で計算した上限 `va + npages*PGSIZE` の手前までのページは
どれも MAXVA より下で写されていて、その写像が消え、ほかのページの写像は変わらない。 -/
theorem uvmunmap_spec {kernEnd root va npages : Nat} {doFree : Bool} {s s' : Kmem} (h : PtWF s.mem root)
    (hfree : doFree = true → ∀ b pa fl, b % PGSIZE = 0 → b < MAXVA → va ≤ b →
      b < (va + npages * PGSIZE) % 2 ^ 64 → pmap s.mem root b = some (pa, fl) → ¬ IsTable s.mem root pa)
    (hrun : uvmunmap kernEnd s root va npages doFree = some s') :
    PtWF s'.mem root ∧ (∀ b, va ≤ b → b < (va + npages * PGSIZE) % 2 ^ 64 → b < MAXVA) ∧
      (∀ b, b % PGSIZE = 0 → va ≤ b → b < (va + npages * PGSIZE) % 2 ^ 64 → pmap s.mem root b ≠ none) ∧
      ∀ b, b % PGSIZE = 0 → b < MAXVA →
        pmap s'.mem root b =
          if va ≤ b ∧ b < (va + npages * PGSIZE) % 2 ^ 64 then none else pmap s.mem root b := by
  unfold uvmunmap at hrun
  split at hrun
  · cases hrun
  · next hva =>
    have hva' : va % PGSIZE = 0 := Decidable.of_not_not hva
    have hk : ∀ {b}, va ≤ b → (b < va + ((va + npages * PGSIZE) % 2 ^ 64 - va) / PGSIZE * PGSIZE ↔
        b < (va + npages * PGSIZE) % 2 ^ 64) := lt_uvmunmap_count_iff hva'
    obtain ⟨h', hrange, hmapped, hpm⟩ := uvmunmapLoop_spec _ va s s' h hva'
      (fun hd b pa fl hb hb' h₁ h₂ => hfree hd b pa fl hb hb' h₁ ((hk h₁).mp h₂)) hrun
    refine ⟨h', fun b h₁ h₂ => hrange b h₁ ((hk h₁).mpr h₂), fun b hb h₁ h₂ => hmapped b hb h₁ ((hk h₁).mpr h₂),
      fun b hb hb' => ?_⟩
    rw [hpm b hb hb']
    exact if_congr (and_congr_right fun h₁ => hk h₁) rfl rfl

end Xv6.Vm
