import Xv6.Process.Step

/-!
# 各関数が書き換える欄

`proc.c` の関数ごとに、書き換える欄と変えない欄を述べる。不変条件の証明は関数の定義を開かず、
ここの補題だけを使う。
-/

namespace Xv6.Process

open Xv6.Lib

variable {k k' k₁ : Kernel} {p q : ProcId}

/-! ## 書き換えの単純な補題 -/

@[simp] theorem allocpid_fst (k : Kernel) : (allocpid k).1 = k.nextpid := rfl

@[simp] theorem allocpid_snd_proc (k : Kernel) : (allocpid k).2.proc = k.proc := rfl

@[simp] theorem allocpid_snd_namespaces (k : Kernel) : (allocpid k).2.namespaces = k.namespaces := rfl

@[simp] theorem allocpid_snd_nextpid (k : Kernel) : (allocpid k).2.nextpid = wrap32 (k.nextpid + 1) :=
  rfl

@[simp] theorem allocpid_snd_initproc (k : Kernel) : (allocpid k).2.initproc = k.initproc := rfl

@[simp] theorem allocpid_snd_initnamespace (k : Kernel) :
    (allocpid k).2.initnamespace = k.initnamespace := rfl

/-- `freeproc` は写している欄をすべて起動時の値に戻す。 -/
theorem freeproc_eq (p : ProcId) (k : Kernel) : freeproc p k = k.updProc p fun _ => Proc.empty := by
  rfl

@[simp] theorem freeproc_proc (p q : ProcId) (k : Kernel) :
    (freeproc p k).proc q = if q = p then Proc.empty else k.proc q := by
  simp [freeproc_eq]

@[simp] theorem freeproc_namespaces (p : ProcId) (k : Kernel) :
    (freeproc p k).namespaces = k.namespaces := rfl

@[simp] theorem freeproc_nextpid (p : ProcId) (k : Kernel) : (freeproc p k).nextpid = k.nextpid := rfl

@[simp] theorem freeproc_initproc (p : ProcId) (k : Kernel) :
    (freeproc p k).initproc = k.initproc := rfl

@[simp] theorem freeproc_initnamespace (p : ProcId) (k : Kernel) :
    (freeproc p k).initnamespace = k.initnamespace := rfl

@[simp] theorem wakeup_proc (s : ProcId) (c : Option Chan) (k : Kernel) (q : ProcId) :
    (wakeup s c k).proc q =
      if q ≠ s ∧ (k.proc q).state = .sleeping ∧ (k.proc q).chan = c then
        { k.proc q with state := .runnable } else k.proc q := rfl

theorem wakeup_proc_ns (s : ProcId) (c : Option Chan) (k : Kernel) (q : ProcId) :
    ((wakeup s c k).proc q).ns = (k.proc q).ns := by
  simp only [wakeup_proc]; split <;> rfl

theorem wakeup_proc_parent (s : ProcId) (c : Option Chan) (k : Kernel) (q : ProcId) :
    ((wakeup s c k).proc q).parent = (k.proc q).parent := by
  simp only [wakeup_proc]; split <;> rfl

@[simp] theorem wakeup_namespaces (s : ProcId) (c : Option Chan) (k : Kernel) :
    (wakeup s c k).namespaces = k.namespaces := rfl

@[simp] theorem wakeup_nextpid (s : ProcId) (c : Option Chan) (k : Kernel) :
    (wakeup s c k).nextpid = k.nextpid := rfl

@[simp] theorem wakeup_initproc (s : ProcId) (c : Option Chan) (k : Kernel) :
    (wakeup s c k).initproc = k.initproc := rfl

@[simp] theorem wakeup_initnamespace (s : ProcId) (c : Option Chan) (k : Kernel) :
    (wakeup s c k).initnamespace = k.initnamespace := rfl

@[simp] theorem Proc.empty_state : Proc.empty.state = .unused := rfl
@[simp] theorem Proc.empty_parent : Proc.empty.parent = none := rfl
@[simp] theorem Proc.empty_ns : Proc.empty.ns = none := rfl

/-! ## 数の欄だけの書き換え -/

/-- `k'` は `k` から、p の `pids` と名前空間の `next_ns_pid`, `num_proc` だけを書き換えた状態。
allocproc のループが書き換えるのはこれだけである。 -/
structure CountersOnly (p : ProcId) (k k' : Kernel) : Prop where
  proc_other : ∀ q, q ≠ p → k'.proc q = k.proc q
  proc_self : k'.proc p = { k.proc p with pids := (k'.proc p).pids }
  ns : ∀ n, k'.namespaces n =
    { k.namespaces n with nextNsPid := (k'.namespaces n).nextNsPid,
                          numProc := (k'.namespaces n).numProc }
  initproc : k'.initproc = k.initproc
  initnamespace : k'.initnamespace = k.initnamespace
  nextpid : k'.nextpid = k.nextpid

theorem CountersOnly.refl (p : ProcId) (k : Kernel) : CountersOnly p k k :=
  ⟨fun _ _ => rfl, rfl, fun _ => rfl, rfl, rfl, rfl⟩

theorem CountersOnly.trans {k₂ : Kernel} (h₁ : CountersOnly p k k₁) (h₂ : CountersOnly p k₁ k₂) :
    CountersOnly p k k₂ where
  proc_other q hq := (h₂.proc_other q hq).trans (h₁.proc_other q hq)
  proc_self := by rw [h₂.proc_self, h₁.proc_self]
  ns n := by rw [h₂.ns n, h₁.ns n]
  initproc := h₂.initproc.trans h₁.initproc
  initnamespace := h₂.initnamespace.trans h₁.initnamespace
  nextpid := h₂.nextpid.trans h₁.nextpid

theorem CountersOnly.parent (h : CountersOnly p k k') (n : NsId) :
    (k'.namespaces n).parent = (k.namespaces n).parent := by
  rw [h.ns n]

theorem CountersOnly.depth (h : CountersOnly p k k') (n : NsId) :
    (k'.namespaces n).depth = (k.namespaces n).depth := by
  rw [h.ns n]

theorem CountersOnly.used (h : CountersOnly p k k') (n : NsId) :
    (k'.namespaces n).used = (k.namespaces n).used := by
  rw [h.ns n]

theorem CountersOnly.head (h : CountersOnly p k k') (n : NsId) :
    (k'.namespaces n).head = (k.namespaces n).head := by
  rw [h.ns n]

/-- p 以外のプロセスの欄と、p の `pids` 以外の欄は変わらない。 -/
theorem CountersOnly.proc_field (h : CountersOnly p k k') (q : ProcId) :
    (k'.proc q).state = (k.proc q).state ∧ (k'.proc q).parent = (k.proc q).parent ∧
      (k'.proc q).ns = (k.proc q).ns ∧ (k'.proc q).pid = (k.proc q).pid := by
  by_cases hq : q = p
  · subst hq; rw [h.proc_self]; exact ⟨rfl, rfl, rfl, rfl⟩
  · rw [h.proc_other q hq]; exact ⟨rfl, rfl, rfl, rfl⟩

theorem assignPid_countersOnly (p : ProcId) (c : NsId) (i : Fin MAXDEPTH) (k : Kernel) :
    CountersOnly p k (assignPid p c i k) where
  proc_other q hq := by simp [assignPid, hq]
  proc_self := by simp [assignPid]
  ns n := by by_cases hn : n = c <;> simp [assignPid, hn]
  initproc := rfl
  initnamespace := rfl
  nextpid := rfl

theorem fillPids_countersOnly {p : ProcId} :
    ∀ {i : Nat} {c : Option NsId} {k k' : Kernel}, fillPids p i c k = some k' → CountersOnly p k k'
  | _, none, _, _, h => by simp [fillPids] at h
  | 0, some c, k, k', h => by
      simp only [fillPids, dif_pos (show 0 < MAXDEPTH by decide), Option.some.injEq] at h
      subst h
      exact assignPid_countersOnly p c _ k
  | i + 1, some c, k, k', h => by
      simp only [fillPids] at h
      split at h
      · exact (assignPid_countersOnly p c _ k).trans (fillPids_countersOnly h)
      · cases h

/-! ## allocproc と fork の後半 -/

@[simp] theorem allocInit_proc (p : ProcId) (ns : Option NsId) (k : Kernel) (q : ProcId) :
    (allocInit p ns k).proc q =
      if q = p then { k.proc p with pid := k.nextpid, state := .used, ns := ns } else k.proc q := by
  simp [allocInit]

@[simp] theorem allocInit_namespaces (p : ProcId) (ns : Option NsId) (k : Kernel) :
    (allocInit p ns k).namespaces = k.namespaces := rfl

@[simp] theorem allocInit_nextpid (p : ProcId) (ns : Option NsId) (k : Kernel) :
    (allocInit p ns k).nextpid = wrap32 (k.nextpid + 1) := rfl

@[simp] theorem allocInit_initproc (p : ProcId) (ns : Option NsId) (k : Kernel) :
    (allocInit p ns k).initproc = k.initproc := rfl

@[simp] theorem allocInit_initnamespace (p : ProcId) (ns : Option NsId) (k : Kernel) :
    (allocInit p ns k).initnamespace = k.initnamespace := rfl

/-- allocproc の結果は三通り: 空きの枠がなく何もしない、枠を取ったが割り当てに失敗して解放した、
枠を取って返した。取った枠は `UNUSED` だった最初の枠で、ns は null でない。 -/
theorem allocproc_cases {ns : Option NsId} {t g : Bool} {r : Option ProcId × Kernel}
    (h : allocproc ns t g k = some r) :
    r = (none, k) ∨ ∃ np c k₁, (k.proc np).state = .unused ∧ ns = some c ∧
      fillPids np (k.namespaces c).depth (some c) (allocInit np ns k) = some k₁ ∧
      (r = (none, freeproc np k₁) ∨ r = (some np, k₁)) := by
  unfold allocproc at h
  split at h
  · left; simp only [Option.some.injEq] at h; exact h.symm
  · rename_i np hnp
    right
    have hu : (k.proc np).state = .unused := by simpa using firstIdx_spec hnp
    cases ns with
    | none => simp at h
    | some c =>
        simp only [Option.bind_eq_bind, Option.bind_some] at h
        cases hf : fillPids np ((allocInit np (some c) k).namespaces c).depth (some c)
            (allocInit np (some c) k) with
        | none => rw [hf] at h; cases h
        | some k₁ =>
            rw [hf] at h
            refine ⟨np, c, k₁, hu, rfl, hf, ?_⟩
            simp only [Option.bind_some] at h
            split at h
            · left; cases h; rfl
            · split at h
              · left; cases h; rfl
              · right; cases h; rfl

/-- fork と clone の後半の結果: 複製に失敗して子を解放したか、子の親を p にして RUNNABLE にし、
親の名前空間の深さでの子の pid を返した。 -/
theorem forkFinish_cases {np : ProcId} {u : Bool} {v : Int} (h : forkFinish p np u k = some (v, k')) :
    k' = freeproc np k ∨ ∃ c, (k.proc p).ns = some c ∧
      pidAt (k.proc np) (k.namespaces c).depth = some v ∧
      k' = (k.updProc np fun q => { q with parent := some p }).updProc np
        fun q => { q with state := .runnable } := by
  unfold forkFinish at h
  split at h
  · left; cases h; rfl
  · right
    cases hc : (k.proc p).ns with
    | none => simp [hc] at h
    | some c =>
        simp only [hc, Option.bind_eq_bind, Option.bind_some] at h
        cases hv : pidAt (k.proc np) (k.namespaces c).depth with
        | none => rw [hv] at h; cases h
        | some v' =>
            rw [hv] at h
            simp only [Option.bind_some, Option.some.injEq, Prod.mk.injEq] at h
            obtain ⟨rfl, rfl⟩ := h
            exact ⟨c, rfl, hv, rfl⟩

/-- fork の結果: p の名前空間で allocproc し、枠が取れなければ -1、取れれば後半を実行した。 -/
theorem fork_cases {o : MemOutcome} {v : Int} (h : fork p o k = some (v, k')) :
    ∃ r k₁, allocproc (k.proc p).ns o.trapframe o.pagetable k = some (r, k₁) ∧
      ((r = none ∧ v = -1 ∧ k' = k₁) ∨ ∃ np, r = some np ∧ forkFinish p np o.uvmcopy k₁ = some (v, k')) := by
  unfold fork at h
  cases ha : allocproc (k.proc p).ns o.trapframe o.pagetable k with
  | none => rw [ha] at h; cases h
  | some r =>
      obtain ⟨r, k₁⟩ := r
      rw [ha] at h
      simp only [Option.bind_eq_bind, Option.bind_some] at h
      refine ⟨r, k₁, rfl, ?_⟩
      cases r with
      | none =>
          simp only [Option.some.injEq, Prod.mk.injEq] at h
          exact Or.inl ⟨rfl, h.1.symm, h.2.symm⟩
      | some np => exact Or.inr ⟨np, rfl, h⟩

/-! ## 割り当てのない遷移 -/

/-- 枠の書き換え a → b が名前空間と pid に関わる欄を保つ: 使用中かどうか、ns, pids, pid が同じで、
空きのままの枠は親も同じ。または b は親も ns も null の空きの枠（freeproc の結果）。 -/
def SlotKeeps (a b : Proc) : Prop :=
  ((b.state = .unused ↔ a.state = .unused) ∧ b.ns = a.ns ∧ b.pids = a.pids ∧ b.pid = a.pid ∧
    (b.state = .unused → b.parent = a.parent)) ∨
  (b.state = .unused ∧ b.parent = none ∧ b.ns = none)

theorem SlotKeeps.refl (a : Proc) : SlotKeeps a a := Or.inl ⟨Iff.rfl, rfl, rfl, rfl, fun _ => rfl⟩

theorem SlotKeeps.trans {a b c : Proc} (h₁ : SlotKeeps a b) (h₂ : SlotKeeps b c) : SlotKeeps a c := by
  rcases h₂ with ⟨u₂, n₂, p₂, i₂, r₂⟩ | h₂
  · rcases h₁ with ⟨u₁, n₁, p₁, i₁, r₁⟩ | ⟨hu, hp, hn⟩
    · exact Or.inl ⟨u₂.trans u₁, n₂.trans n₁, p₂.trans p₁, i₂.trans i₁,
        fun h => (r₂ h).trans (r₁ (u₂.mp h))⟩
    · exact Or.inr ⟨u₂.mpr hu, (r₂ (u₂.mpr hu)).trans hp, n₂.trans hn⟩
  · exact Or.inr h₂

/-- 使用中のまま ns と pids と pid を変えない書き換え。 -/
theorem SlotKeeps.of_inUse {a b : Proc} (ha : a.state ≠ .unused) (hb : b.state ≠ .unused)
    (hn : b.ns = a.ns) (hp : b.pids = a.pids) (hi : b.pid = a.pid) : SlotKeeps a b :=
  Or.inl ⟨⟨fun h => absurd h hb, fun h => absurd h ha⟩, hn, hp, hi, fun h => absurd h hb⟩

theorem SlotKeeps.empty (a : Proc) : SlotKeeps a Proc.empty := Or.inr ⟨rfl, rfl, rfl⟩

/-- 使用中の枠は、使用中のまま ns, pids, pid を保つ。 -/
theorem SlotKeeps.inUse {a b : Proc} (h : SlotKeeps a b) (hb : b.state ≠ .unused) :
    a.state ≠ .unused ∧ b.ns = a.ns ∧ b.pids = a.pids ∧ b.pid = a.pid := by
  rcases h with ⟨u, n, p, i, _⟩ | ⟨hu, _, _⟩
  · exact ⟨fun h => hb (u.mpr h), n, p, i⟩
  · exact absurd hu hb

/-- 割り当てのない遷移: 名前空間の表と大域変数は変わらず、各枠は `SlotKeeps`。 -/
structure NoAlloc (k k' : Kernel) : Prop where
  namespaces : k'.namespaces = k.namespaces
  initproc : k'.initproc = k.initproc
  initnamespace : k'.initnamespace = k.initnamespace
  nextpid : k'.nextpid = k.nextpid
  slot : ∀ q, SlotKeeps (k.proc q) (k'.proc q)

theorem NoAlloc.refl (k : Kernel) : NoAlloc k k :=
  ⟨rfl, rfl, rfl, rfl, fun _ => SlotKeeps.refl _⟩

theorem NoAlloc.trans {k₂ : Kernel} (h₁ : NoAlloc k k₁) (h₂ : NoAlloc k₁ k₂) : NoAlloc k k₂ :=
  ⟨h₂.namespaces.trans h₁.namespaces, h₂.initproc.trans h₁.initproc,
    h₂.initnamespace.trans h₁.initnamespace, h₂.nextpid.trans h₁.nextpid,
    fun q => (h₁.slot q).trans (h₂.slot q)⟩

/-- 空きの枠の親は null。 -/
def FreeClean (k : Kernel) : Prop := ∀ q, (k.proc q).state = .unused → (k.proc q).parent = none

theorem NoAlloc.freeClean (h : NoAlloc k k') (hc : FreeClean k) : FreeClean k' := by
  intro q hq
  rcases h.slot q with ⟨u, _, _, _, r⟩ | ⟨_, hp, _⟩
  · rw [r hq]; exact hc q (u.mp hq)
  · exact hp

theorem wakeup_noAlloc (s : ProcId) (c : Option Chan) (k : Kernel) : NoAlloc k (wakeup s c k) := by
  refine ⟨rfl, rfl, rfl, rfl, fun q => ?_⟩
  simp only [wakeup_proc]
  split
  · rename_i h
    exact SlotKeeps.of_inUse (by rw [h.2.1]; simp) (by simp) rfl rfl rfl
  · exact SlotKeeps.refl _

theorem freeproc_noAlloc (p : ProcId) (k : Kernel) : NoAlloc k (freeproc p k) := by
  refine ⟨rfl, rfl, rfl, rfl, fun q => ?_⟩
  simp only [freeproc_proc]
  split
  · exact SlotKeeps.empty _
  · exact SlotKeeps.refl _

/-- 使用中の枠の親と状態の書き換え（使用中のまま）。 -/
theorem updProc_noAlloc (p : ProcId) (f : Proc → Proc) (hp : (k.proc p).state ≠ .unused)
    (hf : (f (k.proc p)).state ≠ .unused) (hn : (f (k.proc p)).ns = (k.proc p).ns)
    (hpi : (f (k.proc p)).pids = (k.proc p).pids) (hid : (f (k.proc p)).pid = (k.proc p).pid) :
    NoAlloc k (k.updProc p f) := by
  refine ⟨rfl, rfl, rfl, rfl, fun q => ?_⟩
  simp only [Kernel.updProc_proc]
  split
  · rename_i h; subst h; exact SlotKeeps.of_inUse hp hf hn hpi hid
  · exact SlotKeeps.refl _

/-- 眠っているプロセスがなければ、wakeup は何もしない。 -/
theorem wakeup_of_none_sleeping (s : ProcId) (c : Option Chan)
    (h : ∀ q, (k.proc q).state ≠ .sleeping) : wakeup s c k = k := by
  refine Kernel.ext ?_ rfl rfl rfl rfl
  funext q
  rw [wakeup_proc, if_neg fun hq => h q hq.2.1]

/-- 親が p の枠がなければ、reparent は何もしない。 -/
theorem reparent_of_no_child (h : ∀ q, (k.proc q).parent ≠ some p) : reparent p k = some k :=
  foldlM_option_fixed _ k _ fun q _ => if_neg (h q)

/-- fork と clone の後半で、使用中の子の親と状態を書く。 -/
theorem forkDone_noAlloc {np : ProcId} (hnp : (k.proc np).state ≠ .unused) :
    NoAlloc k ((k.updProc np fun q => { q with parent := some p }).updProc np
      fun q => { q with state := .runnable }) := by
  have h₁ := updProc_noAlloc (k := k) np (fun q => { q with parent := some p }) hnp hnp rfl rfl rfl
  exact h₁.trans (updProc_noAlloc np _ (by simpa using hnp) (by simp) rfl rfl rfl)

theorem forkFinish_noAlloc {np : ProcId} {u : Bool} {v : Int} (hnp : (k.proc np).state ≠ .unused)
    (h : forkFinish p np u k = some (v, k')) : NoAlloc k k' := by
  rcases forkFinish_cases h with rfl | ⟨_, _, _, rfl⟩
  · exact freeproc_noAlloc _ _
  · exact forkDone_noAlloc hnp

theorem wakeup_inUse (s : ProcId) (c : Option Chan) (k : Kernel) (q : ProcId)
    (hq : (k.proc q).state ≠ .unused) : ((wakeup s c k).proc q).state ≠ .unused := by
  simp only [wakeup_proc]
  split
  · simp
  · exact hq

/-- reparent は割り当ても解放もしない: 使用中の枠は使用中のまま。 -/
theorem reparent_noAlloc (hc : FreeClean k) (h : reparent p k = some k') :
    NoAlloc k k' ∧ ∀ q, (k.proc q).state ≠ .unused → (k'.proc q).state ≠ .unused := by
  refine foldlM_option_inv
    (fun k₁ => NoAlloc k k₁ ∧ ∀ q, (k.proc q).state ≠ .unused → (k₁.proc q).state ≠ .unused)
    _ _ k k' ⟨NoAlloc.refl k, fun _ h => h⟩ ?_ h
  intro k₁ k₂ pp _ ⟨h₁, hu₁⟩ hstep
  split at hstep
  · rename_i hpar
    cases hnp : getNsHead k₁ (k₁.proc pp).ns with
    | none => rw [hnp] at hstep; cases hstep
    | some np =>
        rw [hnp] at hstep
        simp only [Option.bind_eq_bind, Option.bind_some, Option.some.injEq] at hstep
        subst hstep
        -- 親が p の枠は空きではない（空きの枠の親は null）
        have hu : (k₁.proc pp).state ≠ .unused := by
          intro hu; rw [h₁.freeClean hc pp hu] at hpar; cases hpar
        refine ⟨h₁.trans ((updProc_noAlloc pp _ hu hu rfl rfl rfl).trans (wakeup_noAlloc _ _ _)), ?_⟩
        intro q hq
        apply wakeup_inUse
        simp only [Kernel.updProc_proc]
        split
        · rename_i e; subst e; exact hu
        · exact hu₁ q hq
  · cases hstep; exact ⟨h₁, hu₁⟩

theorem exit_noAlloc {st : Int} (hc : FreeClean k) (hp : (k.proc p).state ≠ .unused)
    (h : exit p st k = some k') : NoAlloc k k' := by
  unfold exit at h
  split at h
  · cases h
  · cases hr : reparent p k with
    | none => simp [hr] at h
    | some k₁ =>
        simp only [hr, Option.bind_eq_bind, Option.bind_some, Option.some.injEq] at h
        subst h
        obtain ⟨h₁, hu₁⟩ := reparent_noAlloc hc hr
        have h₂ := wakeup_noAlloc p ((k₁.proc p).parent.map .proc) k₁
        have hp₂ := wakeup_inUse p ((k₁.proc p).parent.map .proc) k₁ p (hu₁ p hp)
        exact (h₁.trans h₂).trans (updProc_noAlloc p _ hp₂ (by simp) rfl rfl rfl)

theorem wait_noAlloc {b : Bool} {v : Int} (h : wait p b k = some (v, k')) : NoAlloc k k' := by
  unfold wait at h
  split at h
  · split at h
    · cases h; exact NoAlloc.refl k
    · cases h; exact freeproc_noAlloc _ _
  · simp only at h
    split at h
    · cases h; exact NoAlloc.refl k
    · cases h

theorem kill_noAlloc (v : Int) (k : Kernel) : NoAlloc k (kill v k).2 := by
  unfold kill
  split
  · exact NoAlloc.refl k
  · refine ⟨rfl, rfl, rfl, rfl, fun r => ?_⟩
    simp only [Kernel.updProc_proc]
    split
    · rename_i e
      subst e
      refine Or.inl ⟨?_, rfl, rfl, rfl, fun _ => rfl⟩
      split <;> simp_all
    · exact SlotKeeps.refl _

/-- allocproc が保つ性質の規則: 割り当てのない書き換えと、空きの枠を名前空間 c のプロセスにする
ループで保たれる性質は、allocproc で保たれる。ループの規則には、その後の `nextpid` が allocproc の
後と同じであることも渡す。 -/
theorem allocproc_rule (I : Kernel → Prop) {c : NsId} {t g : Bool} {r : Option ProcId × Kernel}
    (h : allocproc (some c) t g k = some r) (hI : I k)
    (noAlloc : ∀ {k₁ k₂}, I k₁ → NoAlloc k₁ k₂ → I k₂)
    (alloc : ∀ {np k₁}, (k.proc np).state = .unused →
      fillPids np (k.namespaces c).depth (some c) (allocInit np (some c) k) = some k₁ →
      k₁.nextpid = r.2.nextpid → I k₁) : I r.2 := by
  rcases allocproc_cases h with rfl | ⟨np, c', k₁, hu, hc', hf, h'⟩
  · exact hI
  cases hc'
  rcases h' with rfl | rfl
  · exact noAlloc (alloc hu hf rfl) (freeproc_noAlloc _ _)
  · exact alloc hu hf rfl

/-! ## 名前空間の割り当て -/

/-- allocnamespace は、空きの名前空間がなければ何もせず、あれば使用中でなかった最初の枠を
初期化して返す。 -/
theorem allocnamespace_cases (k : Kernel) :
    (allocnamespace k = (none, k) ∧ ∀ n, (k.namespaces n).used = true) ∨
    ∃ n, (k.namespaces n).used = false ∧
      allocnamespace k = (some n, k.updNs n fun m =>
        { m with head := none, parent := none, used := true, numProc := 0, depth := 0,
                 nextNsPid := 1 }) := by
  unfold allocnamespace
  split
  · rename_i hn
    refine .inl ⟨rfl, fun n => ?_⟩
    simpa using firstIdx_eq_none_iff.mp hn n
  · rename_i n hn
    right
    exact ⟨n, by simpa using firstIdx_spec hn, rfl⟩

/-- `k'` は `k` から、使用中でなかった名前空間 n だけを、数が 1 と 0 の使用中の名前空間に
書き換えた状態。 -/
structure FreshNs (k k' : Kernel) (n : NsId) : Prop where
  unused : (k.namespaces n).used = false
  other : ∀ m, m ≠ n → k'.namespaces m = k.namespaces m
  proc : k'.proc = k.proc
  initproc : k'.initproc = k.initproc
  initnamespace : k'.initnamespace = k.initnamespace
  nextpid : k'.nextpid = k.nextpid
  used : (k'.namespaces n).used = true
  nextNsPid : (k'.namespaces n).nextNsPid = 1
  numProc : (k'.namespaces n).numProc = 0

/-- clone の結果は三通り: すべての名前空間が使用中で何もしない; 名前空間 n を取ったが、深さの検査で
-1 を返す; 深さを書いて n でプロセスを割り当て、取れなければ -1、取れれば head を書いて
後半を実行した。p の名前空間は使用中とする。 -/
theorem clone_cases {o : MemOutcome} {v : Int}
    (hpu : ∀ c, (k.proc p).ns = some c → (k.namespaces c).used = true)
    (h : clone p o k = some (v, k')) :
    (v = -1 ∧ k' = k ∧ ∀ n, (k.namespaces n).used = true) ∨
    (v = -1 ∧ ∃ n, FreshNs k k' n) ∨
    ∃ n c k₃ r k₄, (k.proc p).ns = some c ∧ FreshNs k k₃ n ∧
      (k₃.namespaces n).parent = some c ∧
      (k₃.namespaces n).depth = (k.namespaces c).depth + 1 ∧
      (k.namespaces c).depth + 1 < MAXDEPTH ∧
      allocproc (some n) o.trapframe o.pagetable k₃ = some (r, k₄) ∧
      ((r = none ∧ v = -1 ∧ k' = k₄) ∨ ∃ np, r = some np ∧
        forkFinish p np o.uvmcopy (k₄.updNs n fun m => { m with head := some np }) = some (v, k')) := by
  unfold clone at h
  rcases allocnamespace_cases k with ⟨ha, hall⟩ | ⟨n, hn, ha⟩
  · rw [ha] at h
    simp only [Option.some.injEq, Prod.mk.injEq] at h
    exact Or.inl ⟨h.1.symm, h.2.symm, hall⟩
  rw [ha] at h
  cases hc : (k.proc p).ns with
  | none => simp [hc] at h
  | some c =>
  simp only [Kernel.updNs_proc, hc, Option.bind_eq_bind, Option.bind_some] at h
  -- p の名前空間 c は使用中なので、取った n ではない
  have hnc : n ≠ c := by
    rintro rfl
    rw [hpu n hc] at hn; cases hn
  set k₂ := (k.updNs n fun m =>
      { m with head := none, parent := none, used := true, numProc := 0, depth := 0,
               nextNsPid := 1 }).updNs n fun m => { m with parent := some c } with hk₂
  have hdc : (k₂.namespaces c).depth = (k.namespaces c).depth := by simp [hk₂, hnc.symm]
  split at h
  · simp only [Option.some.injEq, Prod.mk.injEq] at h
    obtain ⟨rfl, rfl⟩ := h
    exact Or.inr (Or.inl ⟨rfl, n, ⟨hn, fun m hm => by simp [hk₂, hm], rfl, rfl, rfl, rfl,
      by simp [hk₂], by simp [hk₂], by simp [hk₂]⟩⟩)
  rename_i hdepth
  rw [hdc] at hdepth
  set k₃ := k₂.updNs n fun m => { m with depth := (k₂.namespaces c).depth + 1 } with hk₃
  have hf₃ : FreshNs k k₃ n := ⟨hn, fun m hm => by simp [hk₃, hk₂, hm], rfl, rfl, rfl, rfl,
    by simp [hk₃, hk₂], by simp [hk₃, hk₂], by simp [hk₃, hk₂]⟩
  cases hal : allocproc (some n) o.trapframe o.pagetable k₃ with
  | none => rw [hal] at h; cases h
  | some r =>
      obtain ⟨r, k₄⟩ := r
      rw [hal] at h
      simp only [Option.bind_some] at h
      refine Or.inr (Or.inr ⟨n, c, k₃, r, k₄, rfl, hf₃, by simp [hk₃, hk₂], by simp [hk₃, hdc],
        by omega, hal, ?_⟩)
      cases r with
      | none =>
          simp only [Option.some.injEq, Prod.mk.injEq] at h
          exact Or.inl ⟨rfl, h.1.symm, h.2.symm⟩
      | some np => exact Or.inr ⟨np, rfl, h⟩

end Xv6.Process
