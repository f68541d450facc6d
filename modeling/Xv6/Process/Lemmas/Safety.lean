import Xv6.Process.Lemmas.NsInv

/-!
# 名前空間の木の形と、止まらないシステムコール

到達可能な状態では、使用中のプロセスの名前空間とその祖先は形が正しい（`NsWF`）。その上で、
使用中のプロセスが呼ぶ `pids[...]` を読み書きする関数と名前空間をたどる関数は、`none`（null の
参照外し、`pids` の外の添字、終わらないループ）に当たらない（`CallsDefined`）。
-/

namespace Xv6.Process

open Xv6.Lib

variable {k : Kernel} {p : ProcId}

/-! ## 名前空間の形 -/

/-- 名前空間 c の形が正しい: 使用中で深さは `MAXDEPTH` より小さく、深さ 0 なのは
`initnamespace` のときだけでそのとき親は null、そうでなければ親は深さが一つ小さい使用中の
名前空間。 -/
structure NsWF (k : Kernel) (c : NsId) : Prop where
  used : (k.namespaces c).used = true
  depth_lt : (k.namespaces c).depth < MAXDEPTH
  depth_eq_zero_iff : (k.namespaces c).depth = 0 ↔ k.initnamespace = some c
  parent_of_zero : (k.namespaces c).depth = 0 → (k.namespaces c).parent = none
  parent_of_pos : 0 < (k.namespaces c).depth → ∃ m, (k.namespaces c).parent = some m ∧
    (k.namespaces m).used = true ∧ (k.namespaces m).depth + 1 = (k.namespaces c).depth

theorem ChainOK.nsWF : ∀ {d : Nat} {c : NsId}, ChainOK k d c → NsWF k c
  | 0, c, h@⟨hu, hd, hp, hi⟩ => ⟨hu, by rw [hd]; decide, ⟨fun _ => hi, fun _ => hd⟩, fun _ => hp,
      fun h' => by rw [hd] at h'; omega⟩
  | d + 1, c, h@⟨hu, hd, hlt, m, hm, hmc⟩ => by
      refine ⟨hu, hd ▸ hlt, ⟨fun h' => by omega, fun hi => ?_⟩, fun h' => by omega, fun _ => ?_⟩
      · -- 根は深さ 0 の鎖の上にあるので、深さ d + 1 の c ではない
        obtain ⟨r, hr, hr0⟩ := h.root
        rw [hi, Option.some.injEq] at hr
        subst hr
        exact hr0.depth_eq
      · exact ⟨m, hm, hmc.used, by rw [hmc.depth_eq, hd]⟩

/-- 使用中のプロセスの名前空間の祖先は、形が正しい。 -/
theorem NsInv.nsWF (hk : NsInv k) {q : ProcId} {c N : NsId} (hq : (k.proc q).state ≠ .unused)
    (hc : (k.proc q).ns = some c) (hN : InSubtree k N c) : NsWF k N :=
  ((hk.nsOK hq hc).chain.of_inSubtree hN).1.chain.nsWF

/-! ## 止まらない関数 -/

/-- 使用中のプロセス p が呼んで `none` に当たらない関数。exit は initproc でなければ。 -/
structure CallsDefined (k : Kernel) (p : ProcId) : Prop where
  fork : ∀ o, fork p o k ≠ none
  clone : ∀ o, clone p o k ≠ none
  exit : k.initproc ≠ some p → ∀ st, exit p st k ≠ none
  getpid : sysGetpid p k ≠ none
  getppid : (k.proc p).parent ≠ none → sysGetppid p k ≠ none
  psList : ∀ limit global copyout, psList p limit global copyout k ≠ none
  compareNs : ∀ ns2, compareNs k (k.proc p).ns ns2 ≠ none
  getNsHead : getNsHead k (k.proc p).ns ≠ none
  /-- 二つの走査は、名前空間の深さの回数で根に着く。 -/
  compareNs_within : ∀ c ns2, (k.proc p).ns = some c →
    compareNsLoop k ns2 ((k.namespaces c).depth + 1) (some c) ≠ none
  getNsHead_within : ∀ c, (k.proc p).ns = some c →
    getNsHeadLoop k (k.namespaces c).depth c (k.namespaces c).head ≠ none

section
variable (hk : NsInv k)
include hk

theorem NsInv.sysGetpid_ne_none (hp : (k.proc p).state ≠ .unused) : sysGetpid p k ≠ none := by
  obtain ⟨c, hc, hok⟩ := hk.chain p hp
  simp [sysGetpid, hc, pidAt_of_lt _ hok.chain.lt]

theorem NsInv.sysGetppid_ne_none (hp : (k.proc p).state ≠ .unused)
    (hpp : (k.proc p).parent ≠ none) : sysGetppid p k ≠ none := by
  obtain ⟨c, hc, hok⟩ := hk.chain p hp
  obtain ⟨pp, hpp⟩ := Option.ne_none_iff_exists'.mp hpp
  simp only [sysGetppid, hpp, Option.bind_eq_bind, Option.bind_some]
  -- 親と同じ名前空間なら、深さ `p->ns->depth` の添字は `pids` の中
  by_cases e : (k.proc p).ns = (k.proc pp).ns
  · rw [if_pos e, hc]
    simp [pidAt_of_lt _ hok.chain.lt]
  · simp [e]

/-- ps_info が書く親の pid は止まらずに求まる: 空きの枠の親は null で、使用中の枠の名前空間の
深さは `pids` の中。 -/
theorem NsInv.psInfoParentPid_ne_none (q : ProcId) : psInfoParentPid q k ≠ none := by
  unfold psInfoParentPid
  split
  · simp
  · rename_i pp hpp
    have hq : (k.proc q).state ≠ .unused := by
      intro hu; rw [hk.clean q hu] at hpp; cases hpp
    obtain ⟨c, hc, hok⟩ := hk.chain q hq
    split
    · simp [hc, pidAt_of_lt _ hok.chain.lt]
    · simp

theorem NsInv.psInfo_ne_none {pid : Int} {q : ProcId} (h : psInfoLookup pid k = some q) :
    psInfo pid k ≠ none := by
  obtain ⟨v, hv⟩ := Option.ne_none_iff_exists'.mp (hk.psInfoParentPid_ne_none q)
  simp [psInfo, h, hv]

/-- ps_list の二つの走査は止まらない: 使用中の枠の名前空間から `compare_ns` は終わり、
呼んだプロセスの名前空間の深さは `pids` の中。 -/
theorem NsInv.psList_ne_none (hp : (k.proc p).state ≠ .unused) (limit : Int) (global : Bool)
    (copyout : Nat → Bool) : psList p limit global copyout k ≠ none := by
  obtain ⟨c, hc, hok⟩ := hk.chain p hp
  have hcmp : ∀ q, (k.proc q).state ≠ .unused → ∃ b, compareNs k (k.proc q).ns (k.proc p).ns = some b := by
    intro q hq
    obtain ⟨c', hc', hok'⟩ := hk.chain q hq
    rw [hc']
    exact Option.ne_none_iff_exists'.mp (compareNs_ne_none hok' _)
  simp only [psList, Option.bind_eq_bind]
  refine bind_ne_none_of_total
    (foldlM_option_total (fun _ : Int => True) _ (List.finRange NPROC) 0 trivial ?_) fun _ _ => ?_
  · intro n q _ _
    split
    · obtain ⟨b, hb⟩ := hcmp q ‹_›
      simp [hb]
    · exact ⟨n, rfl, trivial⟩
  refine bind_ne_none_of_total
    (foldlM_option_total (fun _ : PsListAcc => True) _ (List.finRange NPROC) ⟨0, [], false⟩
      trivial ?_) fun _ _ => by simp
  intro acc q _ _
  refine (Option.ne_none_iff_exists'.mp ?_).imp fun _ h => ⟨h, trivial⟩
  split
  · simp
  split
  · obtain ⟨b, hb⟩ := hcmp q ‹_›
    rw [hc] at hb
    simp only [hc, hb, pidAt_of_lt _ hok.chain.lt, Option.bind_some]
    split_ifs <;> simp
  · simp

theorem NsInv.callsDefined (hp : (k.proc p).state ≠ .unused) : CallsDefined k p := by
  obtain ⟨c, hc, hok⟩ := hk.chain p hp
  refine ⟨fun o => ?_, fun o => ?_, fun hi st => ?_, hk.sysGetpid_ne_none hp,
    hk.sysGetppid_ne_none hp, hk.psList_ne_none hp, fun ns2 => ?_, ?_, fun c' ns2 hc' => ?_,
    fun c' hc' => ?_⟩
  · obtain ⟨v, k', h, -⟩ := hk.fork_total o hp
    simp [h]
  · obtain ⟨v, k', h, -⟩ := hk.clone_total o hp
    simp [h]
  · obtain ⟨k', h⟩ := hk.exit_total st hi
    simp [h]
  · rw [hc]; exact compareNs_ne_none hok ns2
  · rw [hc]; exact getNsHead_ne_none hok
  · rw [hc, Option.some.injEq] at hc'
    subst hc'
    exact compareNsLoop_ne_none ns2 hok.chain (Nat.lt_succ_self _)
  · rw [hc, Option.some.injEq] at hc'
    subst hc'
    exact getNsHeadLoop_ne_none hok.chain le_rfl _

/-- 名前空間の木の形と、止まらない関数。 -/
structure NsSafe (k : Kernel) : Prop where
  wf : ∀ q c N, (k.proc q).state ≠ .unused → (k.proc q).ns = some c → InSubtree k N c → NsWF k N
  calls : ∀ p, (k.proc p).state ≠ .unused → CallsDefined k p
  psInfo : ∀ pid q, psInfoLookup pid k = some q → psInfo pid k ≠ none

theorem NsInv.nsSafe : NsSafe k :=
  ⟨fun _ _ _ hq hc hN => hk.nsWF hq hc hN, fun _ hp => hk.callsDefined hp,
    fun _ _ h => hk.psInfo_ne_none h⟩

end

end Xv6.Process
