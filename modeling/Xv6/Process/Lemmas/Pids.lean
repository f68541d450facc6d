import Xv6.Process.Lemmas.NsInv

/-!
# 名前空間ごとの pid

allocproc は、新しいプロセスの名前空間 c から根までの祖先 N ごとに、`pids[depth N]` に N の
`next_ns_pid` を書いて 1 を足す。数が 32 ビットで回らない間は、`next_ns_pid` は N の部分木に
振ったどの `pids[depth N]` よりも大きく、同じ部分木の二つのプロセスの `pids[depth N]` は異なる
（`PidInv`）。大域の `nextpid` は割り当てのたびに 1 増え、どの `next_ns_pid` もそれを越えない
ので、`nextpid` が正である経路ではどの数も回らない。
-/

namespace Xv6.Process

open Xv6.Lib

variable {k k' k₁ : Kernel}

/-- 名前空間ごとの pid の不変条件。 -/
structure PidInv (k : Kernel) : Prop where
  nextpid_pos : 1 ≤ k.nextpid
  nextpid_lt : k.nextpid < 2 ^ 31
  counter_pos : ∀ n, 1 ≤ (k.namespaces n).nextNsPid
  counter_le : ∀ n, (k.namespaces n).nextNsPid ≤ k.nextpid
  /-- N の部分木にいる使用中のプロセスの `pids[depth N]` は、1 以上で N の `next_ns_pid` より小さい。 -/
  bound : ∀ q c N, (k.proc q).state ≠ .unused → (k.proc q).ns = some c → InSubtree k N c →
    ∃ v, pidAt (k.proc q) (k.namespaces N).depth = some v ∧ 1 ≤ v ∧ v < (k.namespaces N).nextNsPid
  /-- N の部分木にいる使用中の二つのプロセスの `pids[depth N]` は異なる。 -/
  distinct : ∀ q₁ q₂ c₁ c₂ N, q₁ ≠ q₂ → (k.proc q₁).state ≠ .unused →
    (k.proc q₂).state ≠ .unused → (k.proc q₁).ns = some c₁ → (k.proc q₂).ns = some c₂ →
    InSubtree k N c₁ → InSubtree k N c₂ →
    pidAt (k.proc q₁) (k.namespaces N).depth ≠ pidAt (k.proc q₂) (k.namespaces N).depth

/-! ## 書き換えの種類ごとの保存 -/

theorem PidInv.noAlloc (hi : PidInv k) (h : NoAlloc k k') : PidInv k' := by
  have hsub : ∀ N c, InSubtree k' N c ↔ InSubtree k N c := fun _ _ =>
    InSubtree.of_parent fun m => by rw [h.namespaces]
  refine ⟨h.nextpid ▸ hi.nextpid_pos, h.nextpid ▸ hi.nextpid_lt, fun n => ?_, fun n => ?_,
    fun q c N hq hc hN => ?_, fun q₁ q₂ c₁ c₂ N hne hq₁ hq₂ hc₁ hc₂ hN₁ hN₂ => ?_⟩
  · rw [h.namespaces]; exact hi.counter_pos n
  · rw [h.namespaces, h.nextpid]; exact hi.counter_le n
  · obtain ⟨hu, hn, hp, -⟩ := (h.slot q).inUse hq
    rw [h.namespaces, pidAt_congr hp]
    exact hi.bound q c N hu (hn ▸ hc) ((hsub N c).mp hN)
  · obtain ⟨hu₁, hn₁, hp₁, -⟩ := (h.slot q₁).inUse hq₁
    obtain ⟨hu₂, hn₂, hp₂, -⟩ := (h.slot q₂).inUse hq₂
    rw [h.namespaces, pidAt_congr hp₁, pidAt_congr hp₂]
    exact hi.distinct q₁ q₂ c₁ c₂ N hne hu₁ hu₂ (hn₁ ▸ hc₁) (hn₂ ▸ hc₂) ((hsub N c₁).mp hN₁)
      ((hsub N c₂).mp hN₂)

/-- プロセスの表と、名前空間の親、深さ、数を変えない書き換え（head の書き込み）。 -/
theorem PidInv.of_counters (hi : PidInv k) (hp : k'.proc = k.proc) (hn : k'.nextpid = k.nextpid)
    (hpar : ∀ m, (k'.namespaces m).parent = (k.namespaces m).parent)
    (hd : ∀ m, (k'.namespaces m).depth = (k.namespaces m).depth)
    (hc : ∀ m, (k'.namespaces m).nextNsPid = (k.namespaces m).nextNsPid) : PidInv k' := by
  have hsub : ∀ N c, InSubtree k' N c ↔ InSubtree k N c := fun _ _ => InSubtree.of_parent hpar
  refine ⟨hn ▸ hi.nextpid_pos, hn ▸ hi.nextpid_lt, fun n => hc n ▸ hi.counter_pos n,
    fun n => hc n ▸ hn ▸ hi.counter_le n, fun q c N hq hc' hN => ?_,
    fun q₁ q₂ c₁ c₂ N hne hq₁ hq₂ hc₁ hc₂ hN₁ hN₂ => ?_⟩
  · rw [hp] at hq hc' ⊢
    rw [hd, hc]
    exact hi.bound q c N hq hc' ((hsub N c).mp hN)
  · rw [hp] at hq₁ hq₂ hc₁ hc₂ ⊢
    rw [hd]
    exact hi.distinct q₁ q₂ c₁ c₂ N hne hq₁ hq₂ hc₁ hc₂ ((hsub N c₁).mp hN₁) ((hsub N c₂).mp hN₂)

/-- clone が取った名前空間の初期化。使用中のプロセスの鎖は n を通らないので、その部分木も
深さも数も変わらない。 -/
theorem PidInv.freshNs {n : NsId} (hk : NsInv k) (hi : PidInv k) (h : FreshNs k k' n) :
    PidInv k' := by
  have hs : KeepsShape k k' := KeepsShape.of_fresh h.unused h.other h.initnamespace
  -- 使用中のプロセスの名前空間の祖先 N は使用中なので n ではなく、書き換えられない
  have hN : ∀ q c N, (k.proc q).state ≠ .unused → (k.proc q).ns = some c →
      InSubtree k' N c → InSubtree k N c ∧ k'.namespaces N = k.namespaces N := by
    intro q c N hq hc hsub
    have hok := hk.nsOK hq hc
    have hsub' := (InSubtree.keep_iff hs hok.chain).mp hsub
    have hne : N ≠ n := by
      rintro rfl
      have := (hok.chain.of_inSubtree hsub').1.chain.used
      rw [h.unused] at this; cases this
    exact ⟨hsub', h.other N hne⟩
  refine ⟨h.nextpid ▸ hi.nextpid_pos, h.nextpid ▸ hi.nextpid_lt, fun m => ?_, fun m => ?_,
    fun q c N hq hc hsub => ?_, fun q₁ q₂ c₁ c₂ N hne hq₁ hq₂ hc₁ hc₂ hN₁ hN₂ => ?_⟩
  · by_cases e : m = n
    · subst e; rw [h.nextNsPid]
    · rw [h.other m e]; exact hi.counter_pos m
  · rw [h.nextpid]
    by_cases e : m = n
    · subst e; rw [h.nextNsPid]; exact hi.nextpid_pos
    · rw [h.other m e]; exact hi.counter_le m
  · rw [h.proc] at hq hc ⊢
    obtain ⟨hsub', e⟩ := hN q c N hq hc hsub
    rw [e]
    exact hi.bound q c N hq hc hsub'
  · rw [h.proc] at hq₁ hq₂ hc₁ hc₂ ⊢
    obtain ⟨hsub₁, e⟩ := hN q₁ c₁ N hq₁ hc₁ hN₁
    rw [e]
    exact hi.distinct q₁ q₂ c₁ c₂ N hne hq₁ hq₂ hc₁ hc₂ hsub₁ (hN q₂ c₂ N hq₂ hc₂ hN₂).1

/-- allocproc のループの後: 空きだった枠 np に、名前空間 c の祖先ごとの `next_ns_pid` を書き、
それに 1 を足した。`nextpid + 1` が回らなければ、どの数も回らない。 -/
theorem PidInv.alloc {c : NsId} {np : ProcId} (hi : PidInv k) (hc : NsOK k c)
    (hf : fillPids np (k.namespaces c).depth (some c) (allocInit np (some c) k) = some k₁)
    (hlt : k.nextpid + 1 < 2 ^ 31) : PidInv k₁ := by
  have h₀ : KeepsShape k (allocInit np (some c) k) := KeepsShape.of_namespaces rfl rfl
  obtain ⟨k₂, hf₂, hpids, -, hcnt, hcnt'⟩ := fillPids_spec np (hc.chain.keep h₀)
  rw [hf, Option.some.injEq] at hf₂
  subst hf₂
  have h₁ := fillPids_countersOnly hf
  -- 名前空間の親と深さは変わらないので、部分木の関係も変わらない
  have hdep : ∀ m, (k₁.namespaces m).depth = (k.namespaces m).depth := fun m => h₁.depth m
  have hsub : ∀ N c', InSubtree k₁ N c' ↔ InSubtree k N c' :=
    fun _ _ => InSubtree.of_parent (k := k) fun m => h₁.parent m
  have hsub₀ : ∀ N c', InSubtree (allocInit np (some c) k) N c' ↔ InSubtree k N c' :=
    fun _ _ => InSubtree.of_parent (k := k)
      (fun _ => rfl : ∀ m, ((allocInit np (some c) k).namespaces m).parent = (k.namespaces m).parent)
  -- c の祖先の数は回らずに 1 増え、ほかの数は変わらない
  have hin : ∀ N, InSubtree k N c →
      (k₁.namespaces N).nextNsPid = (k.namespaces N).nextNsPid + 1 := by
    intro N hN
    have e : (k₁.namespaces N).nextNsPid = wrap32 ((k.namespaces N).nextNsPid + 1) :=
      hcnt N ((hsub₀ N c).mpr hN)
    have h1 := hi.counter_pos N
    have h2 := hi.counter_le N
    rw [e]
    exact wrap32_of_range (by omega) (by omega)
  have hout : ∀ N, ¬ InSubtree k N c → (k₁.namespaces N).nextNsPid = (k.namespaces N).nextNsPid :=
    fun N hN => hcnt' N fun h => hN ((hsub₀ N c).mp h)
  have hmono : ∀ N, (k.namespaces N).nextNsPid ≤ (k₁.namespaces N).nextNsPid := by
    intro N
    by_cases hN : InSubtree k N c
    · rw [hin N hN]; omega
    · rw [hout N hN]
  have hnext : k₁.nextpid = k.nextpid + 1 := by
    rw [h₁.nextpid, allocInit_nextpid]
    exact wrap32_of_range (by have := hi.nextpid_pos; omega) hlt
  have hother : ∀ q, q ≠ np → k₁.proc q = k.proc q := by
    intro q hq
    rw [h₁.proc_other q hq, allocInit_proc, if_neg hq]
  have hself : (k₁.proc np).ns = some c := by
    rw [(h₁.proc_field np).2.2.1, allocInit_proc, if_pos rfl]
  -- np の深さ N での pid は、N の以前の `next_ns_pid`
  have hnew : ∀ N, InSubtree k N c →
      pidAt (k₁.proc np) (k.namespaces N).depth = some (k.namespaces N).nextNsPid := by
    intro N hN
    have hlt' : (k.namespaces N).depth < MAXDEPTH := (hc.chain.of_inSubtree hN).1.chain.lt
    rw [pidAt_of_lt _ hlt']
    exact congrArg some (hpids N hlt' ((hsub₀ N c).mpr hN))
  have hpos := hi.nextpid_pos
  refine ⟨by omega, by omega, fun N => le_trans (hi.counter_pos N) (hmono N), fun N => ?_,
    fun q c' N hq hc' hN => ?_, fun q₁ q₂ c₁ c₂ N hne hq₁ hq₂ hc₁ hc₂ hN₁ hN₂ => ?_⟩
  · have := hi.counter_le N
    rw [hnext]
    by_cases hN : InSubtree k N c
    · rw [hin N hN]; omega
    · rw [hout N hN]; omega
  · rw [hdep]
    rw [hsub] at hN
    by_cases e : q = np
    · subst e
      rw [hself, Option.some.injEq] at hc'
      subst hc'
      refine ⟨_, hnew N hN, hi.counter_pos N, ?_⟩
      rw [hin N hN]
      omega
    · rw [hother q e] at hq hc' ⊢
      obtain ⟨v, hv, h1, h2⟩ := hi.bound q c' N hq hc' hN
      exact ⟨v, hv, h1, lt_of_lt_of_le h2 (hmono N)⟩
  · rw [hdep]
    rw [hsub] at hN₁ hN₂
    -- 新しい np の pid は N の以前の `next_ns_pid` で、ほかのプロセスの pid はそれより小さい
    have hfresh : ∀ q c', q ≠ np → (k₁.proc q).state ≠ .unused → (k₁.proc q).ns = some c' →
        InSubtree k N c' → InSubtree k N c →
        pidAt (k₁.proc np) (k.namespaces N).depth ≠ pidAt (k₁.proc q) (k.namespaces N).depth := by
      intro q c' e hq hc' hN' hN
      rw [hother q e] at hq hc' ⊢
      obtain ⟨v, hv, -, h2⟩ := hi.bound q c' N hq hc' hN'
      rw [hnew N hN, hv, Ne, Option.some.injEq]
      omega
    by_cases e₁ : q₁ = np
    · subst e₁
      rw [hself, Option.some.injEq] at hc₁
      subst hc₁
      exact hfresh q₂ c₂ (Ne.symm hne) hq₂ hc₂ hN₂ hN₁
    by_cases e₂ : q₂ = np
    · subst e₂
      rw [hself, Option.some.injEq] at hc₂
      subst hc₂
      exact (hfresh q₁ c₁ hne hq₁ hc₁ hN₁ hN₂).symm
    rw [hother q₁ e₁] at hq₁ hc₁ ⊢
    rw [hother q₂ e₂] at hq₂ hc₂ ⊢
    exact hi.distinct q₁ q₂ c₁ c₂ N hne hq₁ hq₂ hc₁ hc₂ hN₁ hN₂

/-- allocproc は、割り当ての後の `nextpid` が正なら不変条件を保つ。 -/
theorem PidInv.allocproc {c : NsId} {t g : Bool} {r : Option ProcId} (hi : PidInv k)
    (hc : NsOK k c) (h : allocproc (some c) t g k = some (r, k₁)) (hpos : 0 < k₁.nextpid) :
    PidInv k₁ := by
  refine allocproc_rule PidInv h hi (fun hi hn => hi.noAlloc hn) fun _ hf he => hi.alloc hc hf ?_
  -- 割り当ての後の `nextpid` が正なので、`nextpid + 1` は回っていない
  have hnext : wrap32 (k.nextpid + 1) = k₁.nextpid := by
    rw [← he, (fillPids_countersOnly hf).nextpid, allocInit_nextpid]
  exact (wrap32_add_one_of_pos (by have := hi.nextpid_pos; omega) hi.nextpid_lt
    (hnext ▸ hpos)).1

/-! ## システムコールごとの保存 -/

/-- head の書き込みは、プロセスの表も名前空間の親、深さ、数も変えない。 -/
theorem PidInv.head (hi : PidInv k) (n : NsId) (np : ProcId) :
    PidInv (k.updNs n fun m => { m with head := some np }) :=
  hi.of_counters rfl rfl (fun m => by by_cases e : m = n <;> simp [e])
    (fun m => by by_cases e : m = n <;> simp [e]) (fun m => by by_cases e : m = n <;> simp [e])

theorem PidInv.syscall {p : ProcId} {c : Syscall} {v : Int} (hk : NsInv k) (hi : PidInv k)
    (hp : Live k p) (h : syscall p c k = some (v, k')) (hpos : 0 < k'.nextpid) : PidInv k' :=
  hk.syscall_rule PidInv hi hp h (fun hi hn => hi.noAlloc hn) (fun n np hi => hi.head n np)
    (fun _ hk _ hi hfr => hi.freshNs hk hfr) (fun _ hc hi ha he => hi.allocproc hc ha (he ▸ hpos))

/-! ## 起動の後と、`nextpid` が正である経路 -/

theorem PidInv.onlyInit : PidInv (onlyInit 2 1) := by
  -- 使用中なのは init の枠 0 だけ
  have hq : ∀ q, ((Xv6.Process.onlyInit 2 1).proc q).state ≠ .unused → q = 0 := by
    intro q hq
    by_contra e
    rw [onlyInit_proc_ne e] at hq
    exact hq rfl
  refine ⟨by decide, by decide, fun n => ?_, fun n => ?_, fun q c N hu hc hs => ?_,
    fun q₁ q₂ _ _ _ hne hu₁ hu₂ _ _ _ _ => absurd ((hq q₁ hu₁).trans (hq q₂ hu₂).symm) hne⟩
  · by_cases e : n = 0
    · subst e; simp [Xv6.Process.onlyInit]
    · rw [onlyInit_namespaces_ne e]; decide
  · by_cases e : n = 0
    · subst e; simp [Xv6.Process.onlyInit]
    · rw [onlyInit_namespaces_ne e]; decide
  · obtain rfl := hq q hu
    simp only [Xv6.Process.onlyInit, Function.update_self, Option.some.injEq] at hc
    subst hc
    obtain rfl := hs.eq_of_parent_none (by simp [Xv6.Process.onlyInit, Namespace.empty])
    exact ⟨1, by simp [Xv6.Process.onlyInit, pidAt, Namespace.empty], by decide,
      by simp [Xv6.Process.onlyInit]⟩

/-- 名前空間ごとの pid の一意性: `PidInv` に加えて、使用中のプロセスの名前空間の祖先は深さごとに
一つなので、深さ d の祖先が N であることと、N の部分木にあることは同じ。 -/
structure PidsUnique (k : Kernel) : Prop extends PidInv k where
  ancestor_unique : ∀ q c N M, (k.proc q).state ≠ .unused → (k.proc q).ns = some c →
    InSubtree k N c → InSubtree k M c → (k.namespaces N).depth = (k.namespaces M).depth → N = M

theorem NsInv.pidsUnique (hk : NsInv k) (hi : PidInv k) : PidsUnique k where
  toPidInv := hi
  ancestor_unique _ _ _ _ hq hc hN hM hd := (hk.nsOK hq hc).chain.ancestor_unique hN hM hd

/-- `nextpid` が正であり続ける経路で着く状態では、名前空間の木の不変条件と pid の不変条件が
成り立つ。 -/
theorem reachWithin_pidInv {k : Kernel} (h : ReachableWithin Init Step (fun k => 0 < k.nextpid) k) :
    NsInv k ∧ PidInv k :=
  (ReachableWithin.inv (I := fun k => NsInv k ∧ PidInv k)
    (fun _ hs _ => by rw [init_iff.mp hs]; exact ⟨NsInv.onlyInit 2 1, PidInv.onlyInit⟩)
    (fun _ _ ⟨hk, hi⟩ _ ⟨_, _, _, hp, hs⟩ hpos => ⟨hk.syscall hp hs, hi.syscall hk hp hs hpos⟩)
    h).1

end Xv6.Process
