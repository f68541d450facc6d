import Xv6.Process.Lemmas.Frame

/-!
# 名前空間の木

名前空間の親の鎖が根まで正しく続くこと（`ChainOK`）と、部分木の関係（`InSubtree`）。
正しい鎖の上では、`compare_ns` と `get_ns_head` の走査は終わり、allocproc のループは
添字を配列の中に収めたまま根まで書く。
-/

namespace Xv6.Process

open Xv6.Lib

variable {k k' : Kernel}

/-- 名前空間 c から根までの鎖が正しい: c は使用中で深さは d、d = 0 なら c は根
（`initnamespace` で親は null）、そうでなければ深さは `MAXDEPTH` より小さく、親は深さ d - 1 の
正しい鎖の上にある。 -/
def ChainOK (k : Kernel) : Nat → NsId → Prop
  | 0, c => (k.namespaces c).used = true ∧ (k.namespaces c).depth = 0 ∧
      (k.namespaces c).parent = none ∧ k.initnamespace = some c
  | d + 1, c => (k.namespaces c).used = true ∧ (k.namespaces c).depth = d + 1 ∧ d + 1 < MAXDEPTH ∧
      ∃ m, (k.namespaces c).parent = some m ∧ ChainOK k d m

/-- c は正しい鎖の上にある。 -/
def NsOK (k : Kernel) (c : NsId) : Prop := ChainOK k (k.namespaces c).depth c

/-- 名前空間 c が N の部分木にある: c から親をたどって N に着く。 -/
inductive InSubtree (k : Kernel) (N : NsId) : NsId → Prop where
  | self : InSubtree k N N
  | child {c m : NsId} : (k.namespaces c).parent = some m → InSubtree k N m → InSubtree k N c

/-- 部分木の関係は名前空間の親だけで決まる。 -/
theorem InSubtree.of_parent (h : ∀ m, (k'.namespaces m).parent = (k.namespaces m).parent)
    {N c : NsId} : InSubtree k' N c ↔ InSubtree k N c := by
  constructor
  · intro hs
    induction hs with
    | self => exact .self
    | child hp _ ih => exact .child (h _ ▸ hp) ih
  · intro hs
    induction hs with
    | self => exact .self
    | child hp _ ih => exact .child ((h _).symm ▸ hp) ih

/-- 親が null の名前空間を部分木に含むのは、その名前空間だけ。 -/
theorem InSubtree.eq_of_parent_none {N c : NsId} (hs : InSubtree k N c)
    (hc : (k.namespaces c).parent = none) : N = c := by
  cases hs with
  | self => rfl
  | child hp _ => rw [hc] at hp; cases hp

/-- c の祖先は、c 自身か親 m の祖先。 -/
theorem InSubtree.iff_of_parent {N c m : NsId} (hm : (k.namespaces c).parent = some m) :
    InSubtree k N c ↔ N = c ∨ InSubtree k N m := by
  constructor
  · intro hs
    cases hs with
    | self => exact .inl rfl
    | child hp hs => rw [hm] at hp; cases hp; exact .inr hs
  · rintro (rfl | hs)
    · exact .self
    · exact .child hm hs

/-! ## 正しい鎖 -/

theorem ChainOK.depth_eq : ∀ {d : Nat} {c : NsId}, ChainOK k d c → (k.namespaces c).depth = d
  | 0, _, h => h.2.1
  | _ + 1, _, h => h.2.1

theorem ChainOK.used : ∀ {d : Nat} {c : NsId}, ChainOK k d c → (k.namespaces c).used = true
  | 0, _, h => h.1
  | _ + 1, _, h => h.1

theorem ChainOK.lt : ∀ {d : Nat} {c : NsId}, ChainOK k d c → d < MAXDEPTH
  | 0, _, _ => by decide
  | _ + 1, _, h => h.2.2.1

theorem ChainOK.nsOK {d : Nat} {c : NsId} (h : ChainOK k d c) : NsOK k c := by
  unfold NsOK; rw [h.depth_eq]; exact h

theorem NsOK.chain {c : NsId} (h : NsOK k c) : ChainOK k (k.namespaces c).depth c := h

/-- 部分木の根 N は、c の鎖の上にあるので正しい鎖の上にあり、深さは c 以下。 -/
theorem ChainOK.of_inSubtree {N c : NsId} (hs : InSubtree k N c) :
    ∀ {d : Nat}, ChainOK k d c → NsOK k N ∧ (k.namespaces N).depth ≤ d := by
  induction hs with
  | self => intro d h; exact ⟨h.nsOK, h.depth_eq.le⟩
  | @child c m hp _ ih =>
      intro d h
      match d, h with
      | 0, h => rw [h.2.2.1] at hp; cases hp
      | d + 1, ⟨_, _, _, m', hm', hm⟩ =>
          rw [hp] at hm'; cases hm'
          obtain ⟨h1, h2⟩ := ih hm
          exact ⟨h1, by omega⟩

/-- 根の名前空間は `initnamespace` で、深さ 0 の正しい鎖は根だけ。 -/
theorem ChainOK.root : ∀ {d : Nat} {c : NsId}, ChainOK k d c →
    ∃ r, k.initnamespace = some r ∧ ChainOK k 0 r
  | 0, c, h => ⟨c, h.2.2.2, h⟩
  | _ + 1, _, ⟨_, _, _, _, _, hm⟩ => hm.root

/-- 根は、正しい鎖の上のどの名前空間の祖先でもある。 -/
theorem ChainOK.root_inSubtree {r : NsId} (hr : k.initnamespace = some r) :
    ∀ {d : Nat} {c : NsId}, ChainOK k d c → InSubtree k r c
  | 0, c, h => by
      rw [h.2.2.2, Option.some.injEq] at hr
      rw [hr]; exact .self
  | _ + 1, _, ⟨_, _, _, _, hm, hmc⟩ => .child hm (hmc.root_inSubtree hr)

theorem ChainOK.parent_of_pos {d : Nat} {c : NsId} (h : ChainOK k (d + 1) c) :
    ∃ m, (k.namespaces c).parent = some m ∧ ChainOK k d m :=
  h.2.2.2

/-- 正しい鎖の上では、各深さの祖先は一つ: 同じ深さの二つの祖先は等しい。 -/
theorem ChainOK.ancestor_unique : ∀ {d : Nat} {c N M : NsId}, ChainOK k d c →
    InSubtree k N c → InSubtree k M c → (k.namespaces N).depth = (k.namespaces M).depth → N = M
  | 0, c, N, M, h, hN, hM, _ => by
      rw [hN.eq_of_parent_none h.2.2.1, hM.eq_of_parent_none h.2.2.1]
  | d + 1, c, N, M, h, hN, hM, hd => by
      obtain ⟨m, hm, hmc⟩ := h.parent_of_pos
      -- c の祖先は c 自身か、親 m の祖先（深さ d 以下）
      have hsplit : ∀ {X}, InSubtree k X c → X = c ∨ InSubtree k X m := by
        intro X hX
        cases hX with
        | self => exact Or.inl rfl
        | child hp hX => rw [hm] at hp; cases hp; exact Or.inr hX
      have hdc := h.depth_eq
      rcases hsplit hN with rfl | hN' <;> rcases hsplit hM with rfl | hM'
      · rfl
      · have := (hmc.of_inSubtree hM').2; omega
      · have := (hmc.of_inSubtree hN').2; omega
      · exact hmc.ancestor_unique hN' hM' hd

/-! ## 形を変えない書き換え -/

/-- 使用中の名前空間の親、深さ、使用の印と、`initnamespace` が変わらない。 -/
structure KeepsShape (k k' : Kernel) : Prop where
  ns : ∀ n, (k.namespaces n).used = true →
    (k'.namespaces n).parent = (k.namespaces n).parent ∧
      (k'.namespaces n).depth = (k.namespaces n).depth ∧ (k'.namespaces n).used = true
  initnamespace : k'.initnamespace = k.initnamespace

theorem KeepsShape.refl (k : Kernel) : KeepsShape k k :=
  ⟨fun _ h => ⟨rfl, rfl, h⟩, rfl⟩

theorem KeepsShape.trans {k₂ : Kernel} (h₁ : KeepsShape k k') (h₂ : KeepsShape k' k₂) :
    KeepsShape k k₂ where
  ns n hn := by
    obtain ⟨a₁, b₁, c₁⟩ := h₁.ns n hn
    obtain ⟨a₂, b₂, c₂⟩ := h₂.ns n c₁
    exact ⟨a₂.trans a₁, b₂.trans b₁, c₂⟩
  initnamespace := h₂.initnamespace.trans h₁.initnamespace

theorem KeepsShape.of_namespaces (hn : k'.namespaces = k.namespaces)
    (hi : k'.initnamespace = k.initnamespace) : KeepsShape k k' :=
  ⟨fun n h => by simp [hn, h], hi⟩

theorem CountersOnly.keepsShape {p : ProcId} (h : CountersOnly p k k') : KeepsShape k k' :=
  ⟨fun n hn => ⟨h.parent n, h.depth n, (h.used n).trans hn⟩, h.initnamespace⟩

theorem ChainOK.keep (hs : KeepsShape k k') : ∀ {d : Nat} {c : NsId}, ChainOK k d c → ChainOK k' d c
  | 0, c, ⟨hu, hd, hp, hi⟩ => by
      obtain ⟨a, b, u⟩ := hs.ns c hu
      exact ⟨u, b.trans hd, a.trans hp, hs.initnamespace.trans hi⟩
  | d + 1, c, ⟨hu, hd, hlt, m, hm, hc⟩ => by
      obtain ⟨a, b, u⟩ := hs.ns c hu
      exact ⟨u, b.trans hd, hlt, m, a.trans hm, hc.keep hs⟩

theorem NsOK.keep (hs : KeepsShape k k') {c : NsId} (h : NsOK k c) : NsOK k' c := by
  have hc := h.chain.keep hs
  rwa [← (hs.ns c h.chain.used).2.1] at hc

/-- 正しい鎖の上では、部分木の関係は形を変えない書き換えで変わらない。 -/
theorem InSubtree.keep_iff (hs : KeepsShape k k') {N : NsId} :
    ∀ {d : Nat} {c : NsId}, ChainOK k d c → (InSubtree k' N c ↔ InSubtree k N c) := by
  intro d
  induction d with
  | zero =>
      intro c hc
      have hp : (k.namespaces c).parent = none := hc.2.2.1
      have hp' : (k'.namespaces c).parent = none := by rw [(hs.ns c hc.used).1, hp]
      constructor
      · intro h; cases h with
        | self => exact .self
        | child h _ => rw [hp'] at h; cases h
      · intro h; cases h with
        | self => exact .self
        | child h _ => rw [hp] at h; cases h
  | succ d ih =>
      intro c hc
      obtain ⟨m, hm, hmc⟩ := hc.parent_of_pos
      have hm' : (k'.namespaces c).parent = some m := by rw [(hs.ns c hc.used).1, hm]
      constructor
      · intro h; cases h with
        | self => exact .self
        | child h hsub =>
            rw [hm'] at h; cases h
            exact .child hm ((ih hmc).mp hsub)
      · intro h; cases h with
        | self => exact .self
        | child h hsub =>
            rw [hm] at h; cases h
            exact .child hm' ((ih hmc).mpr hsub)

/-! ## 鎖をたどる走査は終わる -/

theorem compareNsLoop_ne_none (ns2 : Option NsId) :
    ∀ {d fuel : Nat} {c : NsId}, ChainOK k d c → d < fuel →
      compareNsLoop k ns2 fuel (some c) ≠ none
  | _, 0, _, _, hf => by omega
  | 0, fuel + 1, c, hc, _ => by
      simp only [compareNsLoop]
      split
      · simp
      · rw [hc.2.2.1]; simp [compareNsLoop]
  | d + 1, fuel + 1, c, hc, hf => by
      obtain ⟨m, hm, hmc⟩ := hc.parent_of_pos
      simp only [compareNsLoop]
      split
      · simp
      · rw [hm]; exact compareNsLoop_ne_none ns2 hmc (by omega)

/-- 正しい鎖の上の名前空間から、`compare_ns` の走査は終わる。 -/
theorem compareNs_ne_none {c : NsId} (hc : NsOK k c) (ns2 : Option NsId) :
    compareNs k (some c) ns2 ≠ none :=
  compareNsLoop_ne_none ns2 hc.chain (lt_of_lt_of_le hc.chain.lt (by decide))

/-- 正しい鎖の上では、`compare_ns` の走査は ns2 が祖先かどうかを答える。 -/
theorem compareNsLoop_spec (N : NsId) :
    ∀ {d fuel : Nat} {c : NsId}, ChainOK k d c → d < fuel →
      ∃ b, compareNsLoop k (some N) fuel (some c) = some b ∧ (b = true ↔ InSubtree k N c)
  | _, 0, _, _, hf => by omega
  | 0, fuel + 1, c, hc, _ => by
      simp only [compareNsLoop]
      split
      · next he => exact ⟨true, rfl, iff_of_true rfl (Option.some.inj he ▸ .self)⟩
      · next hne =>
          -- 根の親は null なので、走査は偽を返す
          rw [hc.2.2.1]
          refine ⟨false, by cases fuel <;> rfl, iff_of_false Bool.false_ne_true fun hs => hne ?_⟩
          rw [hs.eq_of_parent_none hc.2.2.1]
  | d + 1, fuel + 1, c, hc, hf => by
      obtain ⟨m, hm, hmc⟩ := hc.parent_of_pos
      simp only [compareNsLoop]
      split
      · next he => exact ⟨true, rfl, iff_of_true rfl (Option.some.inj he ▸ .self)⟩
      · next hne =>
          rw [hm]
          obtain ⟨b, hb, hiff⟩ := compareNsLoop_spec N hmc (show d < fuel by omega)
          refine ⟨b, hb, hiff.trans ?_⟩
          rw [InSubtree.iff_of_parent hm]
          exact (or_iff_right fun e => hne (congrArg some e.symm)).symm

theorem compareNs_spec {c : NsId} (hc : NsOK k c) (N : NsId) :
    ∃ b, compareNs k (some c) (some N) = some b ∧ (b = true ↔ InSubtree k N c) :=
  compareNsLoop_spec N hc.chain (lt_of_lt_of_le hc.chain.lt (by decide))

theorem getNsHeadLoop_ne_none :
    ∀ {d fuel : Nat} {c : NsId}, ChainOK k d c → d ≤ fuel → ∀ h : Option ProcId,
      getNsHeadLoop k fuel c h ≠ none
  | 0, fuel, c, hc, _, h => by
      have : ¬ (0 < (k.namespaces c).depth ∧ h = none) := by rw [hc.depth_eq]; omega
      rw [getNsHeadLoop.eq_def, if_neg this]; simp
  | d + 1, fuel, c, hc, hf, h => by
      obtain ⟨m, hm, hmc⟩ := hc.parent_of_pos
      obtain ⟨fuel, rfl⟩ : ∃ f, fuel = f + 1 := ⟨fuel - 1, by omega⟩
      rw [getNsHeadLoop.eq_def]
      by_cases hcond : 0 < (k.namespaces c).depth ∧ h = none
      · rw [if_pos hcond]
        simp only [hm]
        exact getNsHeadLoop_ne_none hmc (by omega) _
      · rw [if_neg hcond]; simp

/-- 正しい鎖の上の名前空間から、`get_ns_head` の走査は終わる。 -/
theorem getNsHead_ne_none {c : NsId} (hc : NsOK k c) : getNsHead k (some c) ≠ none := by
  simp only [getNsHead]
  exact getNsHeadLoop_ne_none hc.chain (le_of_lt (lt_of_lt_of_le hc.chain.lt (by decide))) _

/-! ## allocproc のループ -/

/-- 正しい鎖の上の名前空間 c から、allocproc のループは根まで書いて終わる。c の部分木の根
（c の祖先）N ごとに、`pids[depth N]` に N の `next_ns_pid` を書き、それに 1 を足す。それより
深い添字の `pids` と、祖先でない名前空間の数は変えない。 -/
theorem fillPids_spec (p : ProcId) :
    ∀ {d : Nat} {c : NsId} {k : Kernel}, ChainOK k d c → ∃ k', fillPids p d (some c) k = some k' ∧
      (∀ N (h : (k.namespaces N).depth < MAXDEPTH), InSubtree k N c →
        (k'.proc p).pids ⟨_, h⟩ = (k.namespaces N).nextNsPid) ∧
      (∀ i : Fin MAXDEPTH, d < i.val → (k'.proc p).pids i = (k.proc p).pids i) ∧
      (∀ N, InSubtree k N c → (k'.namespaces N).nextNsPid = wrap32 ((k.namespaces N).nextNsPid + 1)) ∧
      (∀ N, ¬ InSubtree k N c → (k'.namespaces N).nextNsPid = (k.namespaces N).nextNsPid)
  | 0, c, k, hc => by
      refine ⟨assignPid p c ⟨0, by decide⟩ k, by simp [fillPids], ?_, ?_, ?_, ?_⟩
      · intro N h hN
        cases hN with
        | self => simp [assignPid, hc.depth_eq]
        | child hp _ => rw [hc.2.2.1] at hp; cases hp
      · intro i hi
        have : i ≠ 0 := by rintro rfl; simp at hi
        simp [assignPid, this]
      · intro N hN
        cases hN with
        | self => simp [assignPid]
        | child hp _ => rw [hc.2.2.1] at hp; cases hp
      · intro N hN
        have : N ≠ c := by rintro rfl; exact hN .self
        simp [assignPid, this]
  | d + 1, c, k, hc => by
      obtain ⟨m, hm, hmc⟩ := hc.parent_of_pos
      set k₁ := assignPid p c ⟨d + 1, hc.lt⟩ k with hk₁
      have h₁ := assignPid_countersOnly p c ⟨d + 1, hc.lt⟩ k
      have hmc₁ : ChainOK k₁ d m := hmc.keep h₁.keepsShape
      obtain ⟨k', hf, hpids, hhigh, hcnt, hcnt'⟩ := fillPids_spec p hmc₁
      have hfill : fillPids p (d + 1) (some c) k = some k' := by
        have hm₁ : (k₁.namespaces c).parent = some m := by rw [h₁.parent c, hm]
        rw [fillPids, dif_pos hc.lt]
        show fillPids p d (k₁.namespaces c).parent k₁ = some k'
        rw [hm₁]; exact hf
      have hsub_iff : ∀ N, InSubtree k₁ N m ↔ InSubtree k N m :=
        fun N => InSubtree.keep_iff h₁.keepsShape hmc
      have hsub_c : ∀ N, InSubtree k N c ↔ N = c ∨ InSubtree k N m := by
        intro N
        constructor
        · intro h; cases h with
          | self => exact Or.inl rfl
          | child hp h => rw [hm] at hp; cases hp; exact Or.inr h
        · rintro (rfl | h)
          · exact .self
          · exact .child hm h
      have hdepth : ∀ N, InSubtree k N m → (k.namespaces N).depth ≤ d :=
        fun N h => (hmc.of_inSubtree h).2
      -- c は m の部分木にない: m の部分木の名前空間の深さは d 以下
      have hcm : ¬ InSubtree k c m := by
        intro h; have := hdepth c h; rw [hc.depth_eq] at this; omega
      refine ⟨k', hfill, ?_, ?_, ?_, ?_⟩
      · intro N h hN
        rcases (hsub_c N).mp hN with rfl | hNm
        · -- c 自身: 一回目に書いた値が、深さ d 以下しか書かない残りのループで残る
          have hd : (k.namespaces N).depth = d + 1 := hc.depth_eq
          have := hhigh ⟨d + 1, hc.lt⟩ (by simp)
          simp only [hd]
          rw [this]
          simp [hk₁, assignPid]
        · have hN₁ := (hsub_iff N).mpr hNm
          have h' : (k₁.namespaces N).depth < MAXDEPTH := by rw [h₁.depth N]; exact h
          have e : (⟨(k.namespaces N).depth, h⟩ : Fin MAXDEPTH) = ⟨(k₁.namespaces N).depth, h'⟩ :=
            Fin.ext (h₁.depth N).symm
          rw [e, hpids N h' hN₁]
          have hNc : N ≠ c := by rintro rfl; exact hcm hNm
          simp [hk₁, assignPid, hNc]
      · intro i hi
        rw [hhigh i (by omega)]
        have : i ≠ ⟨d + 1, hc.lt⟩ := by intro h; subst h; simp at hi
        simp [hk₁, assignPid, this]
      · intro N hN
        rcases (hsub_c N).mp hN with rfl | hNm
        · rw [hcnt' N (fun h => hcm ((hsub_iff N).mp h))]
          simp [hk₁, assignPid]
        · have hNc : N ≠ c := by rintro rfl; exact hcm hNm
          rw [hcnt N ((hsub_iff N).mpr hNm)]
          simp [hk₁, assignPid, hNc]
      · intro N hN
        have hNc : N ≠ c := by rintro rfl; exact hN .self
        have hNm : ¬ InSubtree k N m := fun h => hN ((hsub_c N).mpr (Or.inr h))
        rw [hcnt' N (fun h => hNm ((hsub_iff N).mp h))]
        simp [hk₁, assignPid, hNc]

end Xv6.Process
