import Xv6.Process.Sched
import Xv6.Process.Lemmas.Exit
import Xv6.Process.Lemmas.Names

/-!
# 状態の辺と CPU

二つに分けた fork と clone を続けると、`Ops.lean` の一まとまりの fork と clone になる
（`fork_eq_phases`, `clone_eq_phases`）。機械の到達可能な状態では、RUNNING のプロセスは
ちょうど一つの CPU の `c->proc` で、二つの CPU が同じプロセスを持つことはない。どの遷移でも、
各プロセスの状態は変わらないか、許された辺 `Edge` に沿って変わる（`mreach_schedSafe`）。

状態の変化は三通りに分けて述べる: 眠るプロセスを起こすだけ（`WakeMoves`）、空きの枠を USED に
して子として返すだけ（`StartMoves`）、そして走っているプロセス自身の変化。
-/

namespace Xv6.Process

open Xv6.Lib

variable {k k' k₁ : Kernel} {p q np : ProcId}

/-! ## 二つに分けた fork と clone -/

theorem fork_eq_phases (o : MemOutcome) (k : Kernel) :
    fork p o k = (forkStart p o k).bind fun r =>
      match r.1 with
      | none => some (-1, r.2)
      | some np => forkRelease p np r.2 := by
  unfold fork forkStart
  cases allocproc (k.proc p).ns o.trapframe o.pagetable k with
  | none => rfl
  | some r =>
    obtain ⟨np, k₁⟩ := r
    cases np with
    | none => rfl
    | some np =>
      simp only [Option.bind_eq_bind, Option.bind_some]
      cases o.uvmcopy <;> rfl

theorem clone_eq_phases (o : MemOutcome) (k : Kernel) :
    clone p o k = (cloneStart p o k).bind fun r =>
      match r.1 with
      | none => some (-1, r.2)
      | some np => forkRelease p np r.2 := by
  unfold clone cloneStart
  rcases allocnamespace k with ⟨_ | n, k₁⟩
  · rfl
  · simp only [Kernel.updNs_proc, Option.bind_eq_bind]
    cases (k₁.proc p).ns with
    | none => rfl
    | some c =>
      simp only [Option.bind_some]
      split
      · rfl
      · cases allocproc (some n) o.trapframe o.pagetable _ with
        | none => rfl
        | some r =>
          obtain ⟨np, k₂⟩ := r
          cases np with
          | none => rfl
          | some np =>
            simp only [Option.bind_some]
            cases o.uvmcopy <;> rfl

/-! ## 起こすだけの書き換え -/

/-- 各プロセスの状態は同じか、SLEEPING から RUNNABLE になる。 -/
def WakeMoves (k k' : Kernel) : Prop :=
  ∀ q, (k'.proc q).state = (k.proc q).state ∨
    ((k.proc q).state = .sleeping ∧ (k'.proc q).state = .runnable)

theorem WakeMoves.refl (k : Kernel) : WakeMoves k k := fun _ => .inl rfl

theorem WakeMoves.trans (h₁ : WakeMoves k k₁) (h₂ : WakeMoves k₁ k') : WakeMoves k k' := by
  intro q
  rcases h₂ q with h₂ | ⟨h₂, h₂'⟩ <;> rcases h₁ q with h₁ | ⟨h₁, h₁'⟩
  · exact .inl (h₂.trans h₁)
  · exact .inr ⟨h₁, h₂.trans h₁'⟩
  · exact .inr ⟨h₁.symm.trans h₂, h₂'⟩
  · rw [h₁'] at h₂
    cases h₂

theorem WakeMoves.wakeup (self : ProcId) (chan : Option Chan) (k : Kernel) :
    WakeMoves k (wakeup self chan k) := by
  intro q
  rw [wakeup_proc]
  split
  · rename_i h
    exact .inr ⟨h.2.1, rfl⟩
  · exact .inl rfl

theorem WakeMoves.setParent (x : ProcId) (np : Option ProcId) (k : Kernel) :
    WakeMoves k (k.updProc x fun q => { q with parent := np }) := by
  intro q
  rw [Kernel.updProc_proc]
  split
  · rename_i e
    subst e
    exact .inl rfl
  · exact .inl rfl

theorem WakeMoves.reparent (h : reparent p k = some k') : WakeMoves k k' := by
  refine foldlM_option_inv (WakeMoves k) _ _ k k' (WakeMoves.refl k) ?_ h
  intro k₁ k₂ x _ h₁ hstep
  rcases reparent_step_cases hstep with ⟨-, rfl⟩ | ⟨np, -, -, rfl⟩
  · exact h₁
  · exact (h₁.trans (WakeMoves.setParent x np k₁)).trans (WakeMoves.wakeup _ _ _)

theorem WakeMoves.kill (v : Int) (k : Kernel) : WakeMoves k (kill v k).2 := by
  unfold Xv6.Process.kill
  split
  · exact WakeMoves.refl k
  · intro q
    dsimp only
    rw [Kernel.updProc_proc]
    split
    · rename_i e
      subst e
      by_cases hs : (k.proc q).state = .sleeping
      · exact .inr ⟨hs, by simp [hs]⟩
      · exact .inl (by simp [hs])
    · exact .inl rfl

/-! ## 走っているプロセス自身の変化 -/

/-- exit は p を ZOMBIE にし、ほかのプロセスは起こすだけ。 -/
theorem exit_state {st : Int} (h : exit p st k = some k') :
    (k'.proc p).state = .zombie ∧ ∀ q, q ≠ p → ((k'.proc q).state = (k.proc q).state ∨
      ((k.proc q).state = .sleeping ∧ (k'.proc q).state = .runnable)) := by
  obtain ⟨-, k₁, hr, rfl⟩ := exit_cases h
  have hw := (WakeMoves.reparent hr).trans (WakeMoves.wakeup p ((k₁.proc p).parent.map .proc) k₁)
  refine ⟨by simp, fun q hq => ?_⟩
  rw [Kernel.updProc_proc, if_neg hq]
  exact hw q

theorem sleep_state (chan : Chan) (k : Kernel) (q : ProcId) :
    ((sleep p chan k).proc q).state = if q = p then .sleeping else (k.proc q).state := by
  simp only [sleep, Kernel.updProc_proc]
  split <;> rfl

theorem setState_state (st : ProcState) (k : Kernel) (q : ProcId) :
    ((k.updProc p fun r => { r with state := st }).proc q).state =
      if q = p then st else (k.proc q).state := by
  rw [Kernel.updProc_proc]
  split <;> rfl

/-- fork, clone, exit 以外のシステムコールは、眠るプロセスを起こすか、ZOMBIE の子を回収するだけ。 -/
theorem syscall_atomic_state {s : Syscall} {v : Int} (hs : s.Atomic)
    (h : syscall p s k = some (v, k')) (q : ProcId) :
    (k'.proc q).state = (k.proc q).state ∨
      ((k.proc q).state = .sleeping ∧ (k'.proc q).state = .runnable) ∨
      ((k.proc q).state = .zombie ∧ (k'.proc q).state = .unused) := by
  cases s with
  | fork o => exact absurd hs id
  | clone o => exact absurd hs id
  | exit st => exact absurd hs id
  | wait b =>
      rcases wait_cases h with ⟨-, rfl⟩ | ⟨r, -, hz, -, rfl⟩
      · exact .inl rfl
      · rw [freeproc_proc]
        split
        · rename_i e
          subst e
          exact .inr (.inr ⟨hz, rfl⟩)
        · exact .inl rfl
  | kill pid =>
      simp only [Xv6.Process.syscall, Option.some.injEq] at h
      have hw := WakeMoves.kill pid k
      rw [h] at hw
      exact (hw q).imp_right .inl
  | getpid =>
      simp only [Xv6.Process.syscall, Option.map_eq_some_iff, Prod.mk.injEq] at h
      obtain ⟨_, -, -, rfl⟩ := h
      exact .inl rfl
  | getppid =>
      simp only [Xv6.Process.syscall, Option.some.injEq, Prod.mk.injEq] at h
      obtain ⟨-, rfl⟩ := h
      exact .inl rfl
  | psList limit global copyout =>
      simp only [Xv6.Process.syscall, Option.map_eq_some_iff, Prod.mk.injEq] at h
      obtain ⟨_, -, -, rfl⟩ := h
      exact .inl rfl
  | psInfo pid ok =>
      simp only [Xv6.Process.syscall, Option.map_eq_some_iff, Prod.mk.injEq] at h
      obtain ⟨_, -, -, rfl⟩ := h
      exact .inl rfl

/-! ## 子を作る前半と後半 -/

/-- 空きの枠を USED にして子 r として返すか、どの枠の状態も変えない（割り当ててから解放した
場合も含む）。 -/
def StartMoves (k k' : Kernel) (r : Option ProcId) : Prop :=
  ∀ q, ((k'.proc q).state = (k.proc q).state ∧ r ≠ some q) ∨
    ((k.proc q).state = .unused ∧ (k'.proc q).state = .used ∧ r = some q)

/-- 返した子を解放すると、どの枠の状態も変わらない。 -/
theorem StartMoves.free (h : StartMoves k k₁ (some np)) : StartMoves k (freeproc np k₁) none := by
  intro q
  refine .inl ⟨?_, by simp⟩
  rw [freeproc_proc]
  split
  · rename_i e
    subst e
    rcases h q with ⟨-, hne⟩ | ⟨hu, -, -⟩
    · exact absurd rfl hne
    · exact hu.symm
  · rcases h q with ⟨hs, -⟩ | ⟨-, -, e⟩
    · exact hs
    · rename_i hne
      cases e
      exact absurd rfl hne

theorem allocproc_startMoves {ns : Option NsId} {t g : Bool} {r : Option ProcId}
    (h : allocproc ns t g k = some (r, k')) : StartMoves k k' r := by
  rcases allocproc_cases h with hr | ⟨np, c, k₁, hu, -, hf, hr⟩
  · cases hr
    exact fun q => .inl ⟨rfl, by simp⟩
  -- pids のループの後、np は USED で、ほかの枠の状態は変わらない
  have h₁ : StartMoves k k₁ (some np) := by
    intro q
    rw [((fillPids_countersOnly hf).proc_field q).1, allocInit_proc]
    split
    · rename_i e
      subst e
      exact .inr ⟨hu, rfl, rfl⟩
    · rename_i hne
      exact .inl ⟨rfl, fun e => hne (Option.some.inj e).symm⟩
  rcases hr with hr | hr <;> cases hr
  · exact h₁.free
  · exact h₁

theorem forkStart_startMoves {o : MemOutcome} {r : Option ProcId}
    (h : forkStart p o k = some (r, k')) : StartMoves k k' r := by
  unfold forkStart at h
  cases ha : allocproc (k.proc p).ns o.trapframe o.pagetable k with
  | none => rw [ha] at h; cases h
  | some r₁ =>
    obtain ⟨np, k₁⟩ := r₁
    rw [ha] at h
    have h₁ := allocproc_startMoves ha
    simp only [Option.bind_eq_bind, Option.bind_some] at h
    cases np with
    | none =>
        cases h
        exact h₁
    | some np =>
        cases hu : o.uvmcopy <;>
          simp only [hu, Bool.not_false, Bool.not_true, ↓reduceIte, Option.some.injEq,
            Prod.mk.injEq] at h <;> obtain ⟨rfl, rfl⟩ := h
        · exact h₁.free
        · exact h₁

/-- 名前空間の表だけを書き換えても、`StartMoves` は変わらない。 -/
theorem StartMoves.of_proc {k₀ : Kernel} {r : Option ProcId} (h₀ : k₀.proc = k.proc)
    (h : StartMoves k₀ k' r) : StartMoves k k' r := by
  intro q
  rw [← h₀]
  exact h q

theorem cloneStart_startMoves {o : MemOutcome} {r : Option ProcId}
    (h : cloneStart p o k = some (r, k')) : StartMoves k k' r := by
  unfold cloneStart at h
  rcases allocnamespace_cases k with ⟨ha, -⟩ | ⟨n, -, ha⟩
  · -- 名前空間が取れなければ何も変えない
    rw [ha] at h
    cases h
    exact fun q => .inl ⟨rfl, by simp⟩
  -- allocnamespace と名前空間の書き込みはプロセスの表を変えない
  rw [ha] at h
  simp only [Kernel.updNs_proc, Option.bind_eq_bind] at h
  cases hc : (k.proc p).ns with
  | none => simp [hc] at h
  | some c =>
    simp only [hc, Option.bind_some] at h
    split at h
    · cases h
      exact fun q => .inl ⟨rfl, by simp⟩
    · cases hal : allocproc (some n) o.trapframe o.pagetable
          (((k.updNs n _).updNs n fun m => { m with parent := some c }).updNs n
            fun m => { m with depth := _ }) with
      | none => rw [hal] at h; cases h
      | some r₁ =>
        obtain ⟨np, k₂⟩ := r₁
        rw [hal] at h
        have h₂ : StartMoves k k₂ np := (allocproc_startMoves hal).of_proc rfl
        simp only [Option.bind_some] at h
        cases np with
        | none =>
            cases h
            exact h₂
        | some np =>
            -- head の書き込みもプロセスの表を変えない
            have h₃ : StartMoves k (k₂.updNs n fun m => { m with head := some np }) (some np) := h₂
            cases hu : o.uvmcopy <;>
              simp only [hu, Bool.not_false, Bool.not_true, ↓reduceIte, Option.some.injEq,
                Prod.mk.injEq] at h <;> obtain ⟨rfl, rfl⟩ := h
            · exact h₃.free
            · exact h₃

/-- 後半は子 np を RUNNABLE にするだけ。 -/
theorem forkRelease_state {v : Int} (h : forkRelease p np k = some (v, k')) (q : ProcId) :
    (k'.proc q).state = if q = np then .runnable else (k.proc q).state := by
  unfold forkRelease at h
  cases hc : (k.proc p).ns with
  | none => simp [hc] at h
  | some c =>
    simp only [hc, Option.bind_eq_bind, Option.bind_some] at h
    cases hv : pidAt (k.proc np) (k.namespaces c).depth with
    | none => rw [hv] at h; cases h
    | some pid =>
      rw [hv] at h
      simp only [Option.bind_some, Option.some.injEq, Prod.mk.injEq] at h
      obtain ⟨-, rfl⟩ := h
      rw [setState_state, Kernel.updProc_proc]
      split <;> rfl

/-! ## 状態の辺 -/

/-- 許された状態の変化: allocproc, その失敗, fork と clone と userinit, スケジューラ, yield,
sleep, wakeup と kill, exit, wait。 -/
inductive Edge : ProcState → ProcState → Prop where
  | alloc : Edge .unused .used
  | allocFail : Edge .used .unused
  | start : Edge .used .runnable
  | schedule : Edge .runnable .running
  | yield : Edge .running .runnable
  | sleep : Edge .running .sleeping
  | wakeup : Edge .sleeping .runnable
  | exit : Edge .running .zombie
  | reap : Edge .zombie .unused

/-- 起こすか回収するだけの変化。RUNNING と USED には触れない。 -/
def Quiet (s s' : ProcState) : Prop :=
  s' = s ∨ (s = .sleeping ∧ s' = .runnable) ∨ (s = .zombie ∧ s' = .unused)

theorem Quiet.edge {s s' : ProcState} (h : Quiet s s') : s' = s ∨ Edge s s' := by
  rcases h with h | ⟨rfl, rfl⟩ | ⟨rfl, rfl⟩
  · exact .inl h
  · exact .inr .wakeup
  · exact .inr .reap

theorem Quiet.running_iff {s s' : ProcState} (h : Quiet s s') : s' = .running ↔ s = .running := by
  rcases h with rfl | ⟨rfl, rfl⟩ | ⟨rfl, rfl⟩ <;> simp

theorem Quiet.used {s s' : ProcState} (h : Quiet s s') (hs : s = .used) : s' = .used := by
  rcases h with rfl | ⟨rfl, rfl⟩ | ⟨rfl, rfl⟩
  · exact hs
  · cases hs
  · cases hs

theorem Quiet.of_wake {s s' : ProcState} (h : s' = s ∨ (s = .sleeping ∧ s' = .runnable)) :
    Quiet s s' :=
  h.imp_right .inl

/-! ## 機械の不変条件 -/

/-- CPU の欄: RUNNING のプロセスはちょうど一つの CPU の上にいる。 -/
structure CpuInv (k : Kernel) (cpus : CpuId → Option ProcId) : Prop where
  oncpu : ∀ c p, cpus c = some p → (k.proc p).state = .running
  running : ∀ p, (k.proc p).state = .running → ∃ c, cpus c = some p
  cpu_inj : ∀ c c' p, cpus c = some p → cpus c' = some p → c = c'

/-- fork と clone の二つの部分の間の子は USED で、親ごとに違う。 -/
structure ForkInv (k : Kernel) (forking : ProcId → Option ProcId) : Prop where
  used : ∀ p np, forking p = some np → (k.proc np).state = .used
  inj : ∀ p p' np, forking p = some np → forking p' = some np → p = p'

structure SchedInv (m : Machine) : Prop where
  cpu : CpuInv m.kernel m.cpus
  fork : ForkInv m.kernel m.forking

theorem onlyInit_not_running (c n : Int) (q : ProcId) : ((onlyInit c n).proc q).state ≠ .running := by
  by_cases hq : q = 0
  · subst hq
    simp [onlyInit]
  · rw [onlyInit_proc_ne hq]
    simp [Proc.empty]

variable {cpus : CpuId → Option ProcId} {f : ProcId → Option ProcId} {c : CpuId}

theorem CpuInv.of_running (h : CpuInv k cpus)
    (hr : ∀ q, (k'.proc q).state = .running ↔ (k.proc q).state = .running) : CpuInv k' cpus :=
  ⟨fun c p hc => (hr p).mpr (h.oncpu c p hc), fun p hp => h.running p ((hr p).mp hp), h.cpu_inj⟩

theorem ForkInv.of_used (h : ForkInv k f)
    (hu : ∀ q, (k.proc q).state = .used → (k'.proc q).state = .used) : ForkInv k' f :=
  ⟨fun p np hf => hu np (h.used p np hf), h.inj⟩

/-- RUNNING の p を CPU c から外す。 -/
theorem CpuInv.release (h : CpuInv k cpus) (hc : cpus c = some p)
    (hp : (k'.proc p).state ≠ .running)
    (hr : ∀ q, q ≠ p → ((k'.proc q).state = .running ↔ (k.proc q).state = .running)) :
    CpuInv k' (Function.update cpus c none) := by
  -- 外した後の欄は、前の欄から c を除いたもの
  have hsub : ∀ c' q, Function.update cpus c none c' = some q → cpus c' = some q ∧ c' ≠ c := by
    intro c' q h'
    by_cases e : c' = c
    · subst e
      simp at h'
    · rw [Function.update_of_ne e] at h'
      exact ⟨h', e⟩
  constructor
  · intro c' q h'
    obtain ⟨h', hne⟩ := hsub c' q h'
    have hqp : q ≠ p := by
      rintro rfl
      exact hne (h.cpu_inj c' c q h' hc)
    exact (hr q hqp).mpr (h.oncpu c' q h')
  · intro q hq
    have hqp : q ≠ p := by
      rintro rfl
      exact hp hq
    obtain ⟨c', hc'⟩ := h.running q ((hr q hqp).mp hq)
    have hne : c' ≠ c := by
      rintro rfl
      exact hqp (Option.some.inj (hc'.symm.trans hc))
    exact ⟨c', by rw [Function.update_of_ne hne, hc']⟩
  · intro c₁ c₂ q h₁ h₂
    exact h.cpu_inj c₁ c₂ q (hsub c₁ q h₁).1 (hsub c₂ q h₂).1

/-- 空いた CPU c が RUNNABLE の p を選ぶ。 -/
theorem CpuInv.schedule (h : CpuInv k cpus) (hc : cpus c = none)
    (hp : (k.proc p).state = .runnable) :
    CpuInv (k.updProc p fun q => { q with state := .running }) (Function.update cpus c (some p)) := by
  constructor
  · intro c' q h'
    rw [setState_state]
    by_cases e : c' = c
    · subst e
      rw [Function.update_self, Option.some_inj] at h'
      rw [if_pos h'.symm]
    · rw [Function.update_of_ne e] at h'
      rw [h.oncpu c' q h']
      split <;> rfl
  · intro q hq
    rw [setState_state] at hq
    split at hq
    · rename_i e
      exact ⟨c, by rw [e, Function.update_self]⟩
    · obtain ⟨c', hc'⟩ := h.running q hq
      have hne : c' ≠ c := by
        rintro rfl
        rw [hc] at hc'
        cases hc'
      exact ⟨c', by rw [Function.update_of_ne hne, hc']⟩
  · -- p はどの CPU の上にもいなかった
    have hfree : ∀ c', cpus c' ≠ some p := by
      intro c' h'
      rw [h.oncpu c' p h'] at hp
      cases hp
    intro c₁ c₂ q h₁ h₂
    by_cases e₁ : c₁ = c <;> by_cases e₂ : c₂ = c
    · rw [e₁, e₂]
    · subst e₁
      rw [Function.update_self, Option.some_inj] at h₁
      subst h₁
      rw [Function.update_of_ne e₂] at h₂
      exact absurd h₂ (hfree c₂)
    · subst e₂
      rw [Function.update_self, Option.some_inj] at h₂
      subst h₂
      rw [Function.update_of_ne e₁] at h₁
      exact absurd h₁ (hfree c₁)
    · rw [Function.update_of_ne e₁] at h₁
      rw [Function.update_of_ne e₂] at h₂
      exact h.cpu_inj c₁ c₂ q h₁ h₂

/-- USED のプロセスは前半で選ばれず、USED のまま。 -/
theorem StartMoves.of_used {r : Option ProcId} (h : StartMoves k k' r)
    (hu : (k.proc q).state = .used) : r ≠ some q ∧ (k'.proc q).state = .used := by
  rcases h q with ⟨hs, hr⟩ | ⟨hs, -, -⟩
  · exact ⟨hr, hs.trans hu⟩
  · rw [hu] at hs
    cases hs

theorem StartMoves.running_iff {r : Option ProcId} (h : StartMoves k k' r) (q : ProcId) :
    (k'.proc q).state = .running ↔ (k.proc q).state = .running := by
  rcases h q with ⟨hs, -⟩ | ⟨hs, hs', -⟩
  · rw [hs]
  · simp [hs, hs']

theorem ForkInv.start {r : Option ProcId} (h : ForkInv k f) (hs : StartMoves k k' r) :
    ForkInv k' (Function.update f p r) := by
  -- p 以外の親の子は前から USED なので、前半の子 r とは違う
  have hold : ∀ q nq, q ≠ p → Function.update f p r q = some nq →
      (k.proc nq).state = .used ∧ r ≠ some nq ∧ (k'.proc nq).state = .used := by
    intro q nq hq h'
    rw [Function.update_of_ne hq] at h'
    have hu := h.used q nq h'
    exact ⟨hu, hs.of_used hu⟩
  constructor
  · intro q nq h'
    by_cases e : q = p
    · subst e
      rw [Function.update_self] at h'
      rcases hs nq with ⟨-, hr⟩ | ⟨-, hu, -⟩
      · exact absurd h' hr
      · exact hu
    · exact (hold q nq e h').2.2
  · intro q₁ q₂ nq h₁ h₂
    by_cases e₁ : q₁ = p <;> by_cases e₂ : q₂ = p
    · rw [e₁, e₂]
    · subst e₁
      rw [Function.update_self] at h₁
      exact absurd h₁ (hold q₂ nq e₂ h₂).2.1
    · subst e₂
      rw [Function.update_self] at h₂
      exact absurd h₂ (hold q₁ nq e₁ h₁).2.1
    · rw [Function.update_of_ne e₁] at h₁
      rw [Function.update_of_ne e₂] at h₂
      exact h.inj q₁ q₂ nq h₁ h₂

/-- 後半が子 np を RUNNABLE にしても、ほかの親の子は USED のまま。 -/
theorem ForkInv.release (h : ForkInv k f) (hf : f p = some np)
    (hs : ∀ q, (k'.proc q).state = if q = np then .runnable else (k.proc q).state) :
    ForkInv k' (Function.update f p none) := by
  constructor
  · intro q nq h'
    by_cases e : q = p
    · subst e
      rw [Function.update_self] at h'
      cases h'
    · rw [Function.update_of_ne e] at h'
      have hne : nq ≠ np := by
        rintro rfl
        exact e (h.inj q p nq h' hf)
      rw [hs, if_neg hne]
      exact h.used q nq h'
  · intro q₁ q₂ nq h₁ h₂
    by_cases e₁ : q₁ = p
    · subst e₁
      rw [Function.update_self] at h₁
      cases h₁
    by_cases e₂ : q₂ = p
    · subst e₂
      rw [Function.update_self] at h₂
      cases h₂
    rw [Function.update_of_ne e₁] at h₁
    rw [Function.update_of_ne e₂] at h₂
    exact h.inj q₁ q₂ nq h₁ h₂

/-! ## 一歩ごとに -/

variable {m m' : Machine}

theorem SchedInv.init (h : MInit m) : SchedInv m := by
  obtain ⟨hk, hc, hf⟩ := h
  rw [init_iff] at hk
  refine ⟨⟨?_, ?_, ?_⟩, ⟨?_, ?_⟩⟩
  · intro c p h
    rw [hc c] at h
    cases h
  · intro p hp
    rw [hk] at hp
    exact absurd hp (onlyInit_not_running 2 1 p)
  · intro c _ p h
    rw [hc c] at h
    cases h
  · intro p np h
    rw [hf p] at h
    cases h
  · intro p _ np h
    rw [hf p] at h
    cases h

/-- CPU と fork の欄を変えず、起こすか回収するだけの書き換え。 -/
theorem SchedInv.kernel (hi : SchedInv m)
    (hq : ∀ q, Quiet (m.kernel.proc q).state (k'.proc q).state) :
    SchedInv { m with kernel := k' } :=
  ⟨hi.cpu.of_running fun q => (hq q).running_iff, hi.fork.of_used fun q => (hq q).used⟩

/-- CPU c の上の p が RUNNING でなくなって CPU を返し、ほかは起こされるだけ。 -/
theorem SchedInv.release (hi : SchedInv m) (hc : m.OnCpu c p) (hp : (k'.proc p).state ≠ .running)
    (hq : ∀ q, q ≠ p → Quiet (m.kernel.proc q).state (k'.proc q).state) :
    SchedInv (m.release c k') := by
  refine ⟨hi.cpu.release hc hp fun q hne => (hq q hne).running_iff, hi.fork.of_used ?_⟩
  intro q hu
  have hne : q ≠ p := by
    rintro rfl
    rw [hi.cpu.oncpu c q hc] at hu
    cases hu
  exact (hq q hne).used hu

/-- 走っているプロセス p が辺に沿って動き、ほかは起こされるか回収されるだけ。 -/
theorem edge_of_self {k k' : Kernel} (hp : Edge (k.proc p).state (k'.proc p).state)
    (hq : ∀ q, q ≠ p → Quiet (k.proc q).state (k'.proc q).state) (q : ProcId) :
    (k'.proc q).state = (k.proc q).state ∨ Edge (k.proc q).state (k'.proc q).state := by
  by_cases e : q = p
  · subst e
    exact .inr hp
  · exact (hq q e).edge

theorem setState_quiet (st : ProcState) (k : Kernel) (q : ProcId) (hq : q ≠ p) :
    Quiet (k.proc q).state ((k.updProc p fun r => { r with state := st }).proc q).state := by
  rw [setState_state, if_neg hq]
  exact .inl rfl

theorem sleep_quiet (chan : Chan) (k : Kernel) (q : ProcId) (hq : q ≠ p) :
    Quiet (k.proc q).state ((sleep p chan k).proc q).state := by
  rw [sleep_state, if_neg hq]
  exact .inl rfl

theorem exit_quiet {st : Int} (h : exit p st k = some k') (q : ProcId) (hq : q ≠ p) :
    Quiet (k.proc q).state (k'.proc q).state :=
  Quiet.of_wake ((exit_state h).2 q hq)

/-- 後半の子 np は USED なので、RUNNING のプロセスの集まりは変わらない。 -/
theorem forkRelease_running_iff {v : Int} (h : forkRelease p np k = some (v, k'))
    (hn : (k.proc np).state = .used) (q : ProcId) :
    (k'.proc q).state = .running ↔ (k.proc q).state = .running := by
  rw [forkRelease_state h]
  split
  · rename_i e
    subst e
    simp [hn]
  · rfl

/-- 遷移は不変条件を保つ。 -/
theorem SchedInv.step (hi : SchedInv m) (h : MStep m m') : SchedInv m' := by
  cases h with
  | @schedule c p hc hp =>
      refine ⟨hi.cpu.schedule hc hp, hi.fork.of_used fun q hu => ?_⟩
      have hne : q ≠ p := by
        rintro rfl
        rw [hp] at hu
        cases hu
      exact (setState_quiet _ _ q hne).used hu
  | yield hc =>
      exact hi.release hc (by simp) (setState_quiet _ _)
  | syscall hc hf hs h =>
      exact hi.kernel (syscall_atomic_state hs h)
  | exit hc hf h =>
      exact hi.release hc (by simp [(exit_state h).1]) (exit_quiet h)
  | waitSleep hc hf h =>
      exact hi.release hc (by simp [sleep_state]) (sleep_quiet _ _)
  | sleepAddr a hc hf =>
      exact hi.release hc (by simp [sleep_state]) (sleep_quiet _ _)
  | wakeupAddr self a =>
      exact hi.kernel fun q => Quiet.of_wake (WakeMoves.wakeup _ _ _ q)
  | forkStart hc hf h =>
      have hs := forkStart_startMoves h
      exact ⟨hi.cpu.of_running hs.running_iff, hi.fork.start hs⟩
  | cloneStart hc hf h =>
      have hs := cloneStart_startMoves h
      exact ⟨hi.cpu.of_running hs.running_iff, hi.fork.start hs⟩
  | forkRelease hc hf h =>
      exact ⟨hi.cpu.of_running (forkRelease_running_iff h (hi.fork.used _ _ hf)),
        hi.fork.release hf (forkRelease_state h)⟩

theorem StartMoves.edge {r : Option ProcId} (h : StartMoves k k' r) (q : ProcId) :
    (k'.proc q).state = (k.proc q).state ∨ Edge (k.proc q).state (k'.proc q).state := by
  rcases h q with ⟨hs, -⟩ | ⟨hs, hs', -⟩
  · exact .inl hs
  · rw [hs, hs']
    exact .inr .alloc

/-- 遷移の前と後で、各プロセスの状態は変わらないか、辺に沿って変わる。 -/
theorem SchedInv.edge (hi : SchedInv m) (h : MStep m m') (q : ProcId) :
    (m'.kernel.proc q).state = (m.kernel.proc q).state ∨
      Edge (m.kernel.proc q).state (m'.kernel.proc q).state := by
  cases h with
  | schedule hc hp =>
      refine edge_of_self ?_ (setState_quiet _ _) q
      rw [setState_state, if_pos rfl, hp]
      exact .schedule
  | yield hc =>
      refine edge_of_self ?_ (setState_quiet _ _) q
      rw [setState_state, if_pos rfl, hi.cpu.oncpu _ _ hc]
      exact .yield
  | syscall hc hf hs h =>
      exact Quiet.edge (syscall_atomic_state hs h q)
  | exit hc hf h =>
      refine edge_of_self ?_ (exit_quiet h) q
      rw [(exit_state h).1, hi.cpu.oncpu _ _ hc]
      exact .exit
  | waitSleep hc hf h =>
      refine edge_of_self ?_ (sleep_quiet _ _) q
      rw [sleep_state, if_pos rfl, hi.cpu.oncpu _ _ hc]
      exact .sleep
  | sleepAddr a hc hf =>
      refine edge_of_self ?_ (sleep_quiet _ _) q
      rw [sleep_state, if_pos rfl, hi.cpu.oncpu _ _ hc]
      exact .sleep
  | wakeupAddr self a =>
      exact (Quiet.of_wake (WakeMoves.wakeup _ _ _ q)).edge
  | forkStart hc hf h =>
      exact (forkStart_startMoves h).edge q
  | cloneStart hc hf h =>
      exact (cloneStart_startMoves h).edge q
  | @forkRelease c p np v k' hc hf h =>
      refine edge_of_self (p := np) ?_ (fun q' hq' => ?_) q
      · rw [forkRelease_state h, if_pos rfl, hi.fork.used _ _ hf]
        exact .start
      · rw [forkRelease_state h, if_neg hq']
        exact .inl rfl

/-! ## 到達可能な状態 -/

/-- RUNNING のプロセスはちょうど一つの CPU の `c->proc` で、二つの CPU が同じプロセスを持つことは
なく、どの遷移でも各プロセスの状態は変わらないか、辺に沿って変わる。 -/
structure SchedSafe (m : Machine) : Prop where
  running_iff : ∀ p, (m.kernel.proc p).state = .running ↔ ∃! c, m.cpus c = some p
  cpu_inj : ∀ c c' p, m.cpus c = some p → m.cpus c' = some p → c = c'
  edges : ∀ m', MStep m m' → ∀ q, (m'.kernel.proc q).state = (m.kernel.proc q).state ∨
    Edge (m.kernel.proc q).state (m'.kernel.proc q).state

theorem CpuInv.running_iff (h : CpuInv k cpus) (p : ProcId) :
    (k.proc p).state = .running ↔ ∃! c, cpus c = some p := by
  constructor
  · intro hp
    obtain ⟨c, hc⟩ := h.running p hp
    exact ⟨c, hc, fun c' hc' => h.cpu_inj c' c p hc' hc⟩
  · rintro ⟨c, hc, -⟩
    exact h.oncpu c p hc

theorem SchedInv.schedSafe (hi : SchedInv m) : SchedSafe m :=
  ⟨hi.cpu.running_iff, hi.cpu.cpu_inj, fun _ h => hi.edge h⟩

theorem mreach_schedInv (h : MReach m) : SchedInv m := by
  induction h with
  | init h₀ => exact SchedInv.init h₀
  | step _ hs ih => exact ih.step hs

theorem mreach_schedSafe (h : MReach m) : SchedSafe m :=
  (mreach_schedInv h).schedSafe

/-- 起動した直後の機械: init だけがいて、どの CPU もスケジューラの中にいる。 -/
def bootMachine : Machine := ⟨onlyInit 2 1, fun _ => none, fun _ => none⟩

theorem boot_schedSafe :
    MReach { bootMachine with
      kernel := bootMachine.kernel.updProc 0 fun q => { q with state := .running },
      cpus := Function.update bootMachine.cpus 0 (some 0) } ∧
    SchedSafe { bootMachine with
      kernel := bootMachine.kernel.updProc 0 fun q => { q with state := .running },
      cpus := Function.update bootMachine.cpus 0 (some 0) } := by
  have h₀ : MReach bootMachine := Reachable.init ⟨init_iff.mpr rfl, fun _ => rfl, fun _ => rfl⟩
  have h₁ := Reachable.step h₀ (MStep.schedule (c := 0) (p := 0) rfl rfl)
  exact ⟨h₁, mreach_schedSafe h₁⟩

end Xv6.Process
