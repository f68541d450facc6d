import Xv6.Process.Lemmas.NsInv

/-!
# exit と reparent

reparent は、親が p の枠ごとに、その枠の名前空間から `get_ns_head` が返すプロセスを新しい親に
する。`ns->head` は clone と userinit が書くだけで、誰も消さない。そのため名前空間の head が
exit すると、同じ名前空間の子の親は exit したプロセスのまま残る。
-/

namespace Xv6.Process

open Xv6.Lib

variable {k k' : Kernel} {p q : ProcId}

/-! ## get_ns_head は名前空間の表だけを読む -/

theorem getNsHeadLoop_congr {k₁ : Kernel} (h : k₁.namespaces = k.namespaces) (fuel : Nat) :
    ∀ c hd, getNsHeadLoop k₁ fuel c hd = getNsHeadLoop k fuel c hd := by
  induction fuel with
  | zero =>
      intro c hd
      rw [getNsHeadLoop.eq_def, getNsHeadLoop.eq_def k, h]
      cases (k.namespaces c).parent <;> rfl
  | succ fuel ih =>
      intro c hd
      rw [getNsHeadLoop.eq_def, getNsHeadLoop.eq_def k, h]
      cases (k.namespaces c).parent with
      | none => rfl
      | some c' => simp only [ih]

theorem getNsHead_congr {k₁ : Kernel} (h : k₁.namespaces = k.namespaces) (ns : Option NsId) :
    getNsHead k₁ ns = getNsHead k ns := by
  simp only [getNsHead, getNsHeadLoop_congr h, h]

/-- head が null でない名前空間からは、`get_ns_head` はその head を返す。 -/
theorem getNsHead_of_head {c : NsId} (hh : (k.namespaces c).head = some p) :
    getNsHead k (some c) = some (some p) := by
  simp only [getNsHead, Option.bind_eq_bind, Option.bind_some, hh]
  rw [getNsHeadLoop.eq_def, if_neg (by simp)]

/-! ## reparent -/

/-- reparent の枠 x の段: 親が p でなければ何もせず、p なら x の親を `get_ns_head` が返す
プロセスにして、それを起こす。 -/
theorem reparent_step_cases {x : ProcId}
    (h : (if (k.proc x).parent = some p then do
      let np ← getNsHead k (k.proc x).ns
      some (wakeup p (np.map .proc) (k.updProc x fun q => { q with parent := np }))
    else some k) = some k') :
    ((k.proc x).parent ≠ some p ∧ k' = k) ∨ ∃ np, (k.proc x).parent = some p ∧
      getNsHead k (k.proc x).ns = some np ∧
      k' = wakeup p (np.map .proc) (k.updProc x fun q => { q with parent := np }) := by
  split at h
  · rename_i hpx
    cases hnp : getNsHead k (k.proc x).ns with
    | none => rw [hnp] at h; cases h
    | some np =>
        rw [hnp] at h
        simp only [Option.bind_eq_bind, Option.bind_some, Option.some.injEq] at h
        exact .inr ⟨np, hpx, rfl, h.symm⟩
  · rename_i hpx
    cases h
    exact .inl ⟨hpx, rfl⟩


/-- reparent の結果: 名前空間と各枠の ns は変わらず、親が p だった枠の親は、その枠の名前空間
から `get_ns_head` が返すプロセスになり、ほかの枠の親は変わらない。 -/
theorem reparent_spec (h : reparent p k = some k') :
    k'.namespaces = k.namespaces ∧ (∀ q, (k'.proc q).ns = (k.proc q).ns) ∧
      ∀ q, ((k.proc q).parent = some p → getNsHead k (k.proc q).ns = some (k'.proc q).parent) ∧
        ((k.proc q).parent ≠ some p → (k'.proc q).parent = (k.proc q).parent) := by
  -- 表の前から処理した枠の集まり pre で添字を付けた不変条件
  let Done : ProcId → Option ProcId → Prop := fun q v =>
    ((k.proc q).parent = some p → getNsHead k (k.proc q).ns = some v) ∧
      ((k.proc q).parent ≠ some p → v = (k.proc q).parent)
  have key := foldlM_option_prefix _ (List.finRange NPROC)
    (fun pre k₁ => k₁.namespaces = k.namespaces ∧ (∀ q, (k₁.proc q).ns = (k.proc q).ns) ∧
      ∀ q, (q ∈ pre → Done q (k₁.proc q).parent) ∧ (q ∉ pre → (k₁.proc q).parent = (k.proc q).parent))
    ⟨rfl, fun _ => rfl, fun q => ⟨fun h => by simp at h, fun _ => rfl⟩⟩ ?_ h
  · obtain ⟨hns, hq, hpar⟩ := key
    exact ⟨hns, hq, fun q => (hpar q).1 (List.mem_finRange q)⟩
  intro pre x rest k₁ k₂ hl ⟨hns, hq, hpar⟩ hstep
  -- x は前半にない: `finRange` は重複しない
  have hx : x ∉ pre := by
    have hnd := List.nodup_finRange NPROC
    rw [hl] at hnd
    exact fun hm => (List.nodup_append.mp hnd).2.2 x hm x List.mem_cons_self rfl
  have hxpar : (k₁.proc x).parent = (k.proc x).parent := (hpar x).2 hx
  split at hstep
  · rename_i hpx
    rw [hq x, getNsHead_congr hns] at hstep
    cases hnp : getNsHead k (k.proc x).ns with
    | none => rw [hnp] at hstep; cases hstep
    | some np =>
        rw [hnp] at hstep
        simp only [Option.bind_eq_bind, Option.bind_some, Option.some.injEq] at hstep
        subst hstep
        refine ⟨by simp [hns], fun q => ?_, fun q => ?_⟩
        · rw [wakeup_proc_ns, Kernel.updProc_proc]
          split
          · rename_i e; subst e; exact hq q
          · exact hq q
        rw [wakeup_proc_parent, Kernel.updProc_proc]
        by_cases e : q = x
        · subst e
          rw [if_pos rfl]
          refine ⟨fun _ => ⟨fun _ => hnp, fun hne => absurd (hxpar ▸ hpx) hne⟩, fun h => ?_⟩
          simp at h
        · rw [if_neg e]
          simpa [e] using hpar q
  · rename_i hpx
    cases hstep
    refine ⟨hns, hq, fun q => ?_⟩
    by_cases e : q = x
    · subst e
      refine ⟨fun _ => ⟨fun h => absurd (hxpar ▸ h) hpx, fun _ => hxpar⟩, fun h => ?_⟩
      simp at h
    · simpa [e] using hpar q

/-! ## exit -/

/-- exit の結果: p は initproc でなく、reparent の後で p の親を起こし、p を ZOMBIE にした。 -/
theorem exit_cases {st : Int} (h : exit p st k = some k') :
    k.initproc ≠ some p ∧ ∃ k₁, reparent p k = some k₁ ∧
      k' = (wakeup p ((k₁.proc p).parent.map .proc) k₁).updProc p
        fun q => { q with xstate := st, state := .zombie } := by
  unfold exit at h
  split at h
  · cases h
  · rename_i hi
    cases hr : reparent p k with
    | none => simp [hr] at h
    | some k₁ =>
        simp only [hr, Option.bind_eq_bind, Option.bind_some, Option.some.injEq] at h
        exact ⟨hi, k₁, rfl, h.symm⟩

/-- p が exit すると、名前空間 c にいる p の子 q の新しい親は c の head になる。head が null で
なければ `get_ns_head` は祖先をたどらないので、head が exit していても、p 自身や q 自身でも
そのまま親になる。 -/
theorem exit_parent_of_head {c : NsId} {h : ProcId} {st : Int} (hh : (k.namespaces c).head = some h)
    (hq : (k.proc q).parent = some p) (hqc : (k.proc q).ns = some c) (hx : exit p st k = some k') :
    (k'.proc q).parent = some h := by
  obtain ⟨-, k₁, hr, rfl⟩ := exit_cases hx
  obtain ⟨-, -, hpar⟩ := reparent_spec hr
  have hnew : getNsHead k (some c) = some (k₁.proc q).parent := hqc ▸ (hpar q).1 hq
  rw [getNsHead_of_head hh, Option.some.injEq] at hnew
  rw [Kernel.updProc_proc]
  split
  · rename_i e
    subst e
    exact (wakeup_proc_parent _ _ k₁ _).trans hnew.symm
  · exact (wakeup_proc_parent _ _ k₁ _).trans hnew.symm

/-- 名前空間の head である p が exit すると、その名前空間にいる p の子 q の親は p のまま残り、
p は ZOMBIE になる。 -/
theorem exit_head_child_parent {c : NsId} {st : Int} (hh : (k.namespaces c).head = some p)
    (hq : (k.proc q).parent = some p) (hqc : (k.proc q).ns = some c) (h : exit p st k = some k') :
    (k'.proc q).parent = some p ∧ (k'.proc p).state = .zombie := by
  refine ⟨exit_parent_of_head hh hq hqc h, ?_⟩
  obtain ⟨-, k₁, -, rfl⟩ := exit_cases h
  simp

/-- 起動の後、init が clone した A（枠 1、名前空間 1 の head）が fork した B（枠 2）を残して
exit すると、B は RUNNABLE のまま、親は ZOMBIE の A になる。 -/
theorem exit_head_child_run :
    ∃ k, run [(0, .clone .ok), (1, .fork .ok), (1, .exit 0)] (onlyInit 2 1) = some k ∧ Reach k ∧
      (k.proc 2).state = .runnable ∧ k.initproc ≠ some 2 ∧ (k.proc 2).parent = some 1 ∧
      (k.proc 1).state = .zombie := by
  have h : (run [(0, .clone .ok), (1, .fork .ok), (1, .exit 0)] (onlyInit 2 1)).any (fun k =>
      decide ((k.proc 2).state = .runnable ∧ k.initproc ≠ some 2 ∧ (k.proc 2).parent = some 1 ∧
        (k.proc 1).state = .zombie)) = true := by
    decide +kernel
  obtain ⟨k, hk, hb⟩ := (Option.any_eq_true _ _).mp h
  exact ⟨k, hk, reach_run reach_onlyInit hk, of_decide_eq_true hb⟩

/-- 起動の後、init が clone した A（枠 1、名前空間 1 の head）が clone した C（枠 2、名前空間 2 の
head）を残して exit すると、C の新しい親は C 自身になる。C は RUNNABLE のままで、init も
生きている。`sys_getppid` なら C に自分の名前空間での自分の pid 1 を返すが、`syscalls[]` に欄が無いので、
`syscall()` から呼ぶ C の getppid は -1 を返し、状態を変えない。 -/
theorem exit_clone_head_self_parent_run :
    ∃ k, run [(0, .clone .ok), (1, .clone .ok), (1, .exit 0)] (onlyInit 2 1) = some k ∧ Reach k ∧
      (k.proc 1).state = .zombie ∧ (k.proc 2).state = .runnable ∧ (k.proc 2).parent = some 2 ∧
      (k.proc 0).state = .runnable ∧ k.initproc = some 0 ∧ (k.proc 2).ns = some 2 ∧
      (k.namespaces 2).parent = some 1 ∧ (k.namespaces 1).parent = some 0 ∧
      sysGetppid 2 k = some 1 ∧ syscall 2 .getppid k = some (-1, k) := by
  have h : (run [(0, .clone .ok), (1, .clone .ok), (1, .exit 0)] (onlyInit 2 1)).any (fun k =>
      decide ((k.proc 1).state = .zombie ∧ (k.proc 2).state = .runnable ∧
        (k.proc 2).parent = some 2 ∧ (k.proc 0).state = .runnable ∧ k.initproc = some 0 ∧
        (k.proc 2).ns = some 2 ∧ (k.namespaces 2).parent = some 1 ∧
        (k.namespaces 1).parent = some 0 ∧ sysGetppid 2 k = some 1)) = true := by
    decide +kernel
  obtain ⟨k, hk, hb⟩ := (Option.any_eq_true _ _).mp h
  obtain ⟨h₁, h₂, h₃, h₄, h₅, h₆, h₇, h₈, h₉⟩ := of_decide_eq_true hb
  exact ⟨k, hk, reach_run reach_onlyInit hk, h₁, h₂, h₃, h₄, h₅, h₆, h₇, h₈, h₉, rfl⟩

end Xv6.Process
