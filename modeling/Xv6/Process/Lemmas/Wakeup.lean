import Xv6.Process.Sleep
import Xv6.Process.Lemmas.Names
import Xv6.Process.Lemmas.Cycle

/-!
# wait は起こし損ねない

wait は、子に ZOMBIE がいなければ `wait_lock` を持ったまま自分のアドレスで眠る。exit は
`wait_lock` を持ったまま、子を引き取る head を起こし、自分の親を起こしてから ZOMBIE になる。
wait の中で眠るプロセスの子に ZOMBIE がいないこと（`NoLostWakeup`）は、眠りのある遷移
`SleepStep` のどの列でも保たれる（`sleepReach_noLostWakeup`）。

exit 以外の遷移は、wait の中で眠るプロセスを増やさず、ZOMBIE とその親の組を新しく作らない
（`NoNewWait`）。exit は ZOMBIE を作って子の親を付け替えるが、付け替えるたびに新しい親を起こす
（`reparent_wakes`）。
-/

namespace Xv6.Process

open Xv6.Lib

variable {k k' k₁ : Kernel} {p q : ProcId}

/-- p が wait の中で、自分のアドレスを目印に眠っている。 -/
def SleepsInWait (k : Kernel) (p : ProcId) : Prop :=
  (k.proc p).state = .sleeping ∧ (k.proc p).chan = some (.proc p)

/-- wait の中で眠るプロセスの子に ZOMBIE はいない。 -/
def NoLostWakeup (k : Kernel) : Prop :=
  ∀ p c, SleepsInWait k p → (k.proc c).parent = some p → (k.proc c).state ≠ .zombie

/-- wait の中で眠るプロセスを増やさず、ZOMBIE とその親の組を新しく作らない書き換え。 -/
structure NoNewWait (k k' : Kernel) : Prop where
  sleeps : ∀ s, SleepsInWait k' s → SleepsInWait k s
  zombie : ∀ c s, (k'.proc c).parent = some s → (k'.proc c).state = .zombie →
    (k.proc c).parent = some s ∧ (k.proc c).state = .zombie

theorem NoNewWait.refl (k : Kernel) : NoNewWait k k :=
  ⟨fun _ h => h, fun _ _ hc hz => ⟨hc, hz⟩⟩

theorem NoNewWait.trans (h₁ : NoNewWait k k₁) (h₂ : NoNewWait k₁ k') : NoNewWait k k' where
  sleeps s h := h₁.sleeps s (h₂.sleeps s h)
  zombie c s hc hz := by
    obtain ⟨hc₁, hz₁⟩ := h₂.zombie c s hc hz
    exact h₁.zombie c s hc₁ hz₁

theorem NoLostWakeup.noNewWait (h : NoLostWakeup k) (hn : NoNewWait k k') : NoLostWakeup k' := by
  intro s c hs hc hz
  obtain ⟨hc₀, hz₀⟩ := hn.zombie c s hc hz
  exact h s c (hn.sleeps s hs) hc₀ hz₀

/-- 眠りを解くだけで、wait の中の眠りも ZOMBIE も新しく作らない状態の書き換え。親は変わりうる。 -/
structure WakesOnly (k k' : Kernel) : Prop where
  sleeps : ∀ s, SleepsInWait k' s → SleepsInWait k s
  zombie : ∀ c, (k'.proc c).state = .zombie → (k.proc c).state = .zombie

theorem WakesOnly.refl (k : Kernel) : WakesOnly k k := ⟨fun _ h => h, fun _ h => h⟩

theorem WakesOnly.trans (h₁ : WakesOnly k k₁) (h₂ : WakesOnly k₁ k') : WakesOnly k k' :=
  ⟨fun s h => h₁.sleeps s (h₂.sleeps s h), fun c h => h₁.zombie c (h₂.zombie c h)⟩

theorem NoNewWait.of_wakesOnly (h : WakesOnly k k')
    (hpar : ∀ c, (k'.proc c).parent = (k.proc c).parent) : NoNewWait k k' :=
  ⟨h.sleeps, fun c _ hc hz => ⟨(hpar c).symm.trans hc, h.zombie c hz⟩⟩

theorem WakesOnly.wakeup (self : ProcId) (chan : Option Chan) (k : Kernel) :
    WakesOnly k (wakeup self chan k) where
  sleeps s h := by
    unfold SleepsInWait at h ⊢
    rw [wakeup_proc] at h
    split at h
    · simp at h
    · exact h
  zombie c hz := by
    rw [wakeup_proc] at hz
    split at hz
    · simp at hz
    · exact hz

/-- 親だけの書き換え。 -/
theorem WakesOnly.setParent (x : ProcId) (np : Option ProcId) (k : Kernel) :
    WakesOnly k (k.updProc x fun q => { q with parent := np }) where
  sleeps s h := by
    unfold SleepsInWait at h ⊢
    rw [Kernel.updProc_proc] at h
    split at h
    · rename_i e
      subst e
      exact h
    · exact h
  zombie c hz := by
    rw [Kernel.updProc_proc] at hz
    split at hz
    · rename_i e
      subst e
      exact hz
    · exact hz

/-! ## 書き換えごとの `NoNewWait` -/

theorem NoNewWait.of_proc (h : k'.proc = k.proc) : NoNewWait k k' where
  sleeps s hs := by
    unfold SleepsInWait at hs ⊢
    rwa [h] at hs
  zombie c s hc hz := by
    rw [h] at hc hz
    exact ⟨hc, hz⟩

/-- 枠 q だけの書き換えで、q を wait の中で新しく眠らせず、ZOMBIE の q の親を変えない。 -/
theorem NoNewWait.of_slot (hother : ∀ r, r ≠ q → k'.proc r = k.proc r)
    (hs : SleepsInWait k' q → SleepsInWait k q)
    (hz : (k'.proc q).state = .zombie →
      (k.proc q).state = .zombie ∧ (k'.proc q).parent = (k.proc q).parent) :
    NoNewWait k k' where
  sleeps s h := by
    rcases eq_or_ne s q with rfl | hne
    · exact hs h
    · unfold SleepsInWait at h ⊢
      rwa [hother s hne] at h
  zombie c s hc hzc := by
    rcases eq_or_ne c q with rfl | hne
    · obtain ⟨hz₀, hpar⟩ := hz hzc
      exact ⟨hpar ▸ hc, hz₀⟩
    · rw [hother c hne] at hc hzc
      exact ⟨hc, hzc⟩

theorem NoNewWait.updProc (f : Proc → Proc)
    (hs : (f (k.proc q)).state = .sleeping → (f (k.proc q)).chan = some (.proc q) →
      SleepsInWait k q)
    (hz : (f (k.proc q)).state = .zombie →
      (k.proc q).state = .zombie ∧ (f (k.proc q)).parent = (k.proc q).parent) :
    NoNewWait k (k.updProc q f) := by
  apply NoNewWait.of_slot (q := q)
  · intro r hr
    simp [hr]
  · intro h
    simp only [SleepsInWait, Kernel.updProc_proc, if_pos] at h
    exact hs h.1 h.2
  · simpa using hz

theorem NoNewWait.wakeup (self : ProcId) (chan : Option Chan) (k : Kernel) :
    NoNewWait k (wakeup self chan k) :=
  NoNewWait.of_wakesOnly (WakesOnly.wakeup self chan k) (wakeup_proc_parent self chan k)

theorem NoNewWait.freeproc (q : ProcId) (k : Kernel) : NoNewWait k (freeproc q k) := by
  rw [freeproc_eq]
  apply NoNewWait.updProc <;> simp

theorem CountersOnly.noNewWait (h : CountersOnly q k k') : NoNewWait k k' := by
  apply NoNewWait.of_slot h.proc_other
  · unfold SleepsInWait
    rw [h.proc_self]
    exact id
  · rw [h.proc_self]
    exact fun hz => ⟨hz, rfl⟩

theorem NoNewWait.allocproc {ns : Option NsId} {t g : Bool} {r : Option ProcId}
    (h : allocproc ns t g k = some (r, k')) :
    NoNewWait k k' ∧ ∀ np, r = some np → (k'.proc np).state = .used := by
  rcases allocproc_cases h with hr | ⟨np, c, k₁, -, hns, hf, hr⟩
  · cases hr
    exact ⟨NoNewWait.refl _, fun _ h => by cases h⟩
  subst hns
  -- allocInit は枠 np を USED にし、pids のループは np の pids と名前空間の数だけを書く
  have hi : NoNewWait k (allocInit np (some c) k) := by
    apply NoNewWait.of_slot (q := np)
    · intro r hr
      simp [hr]
    · simp [SleepsInWait]
    · simp
  have h₁ := hi.trans (fillPids_countersOnly hf).noNewWait
  rcases hr with hr | hr <;> cases hr
  · exact ⟨h₁.trans (NoNewWait.freeproc np k₁), fun _ h => by cases h⟩
  · refine ⟨h₁, fun np' e => ?_⟩
    cases e
    rw [((fillPids_countersOnly hf).proc_field np).1]
    simp

theorem NoNewWait.forkFinish {np : ProcId} {u : Bool} {v : Int}
    (hnp : (k.proc np).state = .used) (h : forkFinish p np u k = some (v, k')) :
    NoNewWait k k' := by
  rcases forkFinish_cases h with rfl | ⟨_, _, _, rfl⟩
  · exact NoNewWait.freeproc np k
  · apply (NoNewWait.updProc _ _ _).trans (NoNewWait.updProc _ _ _) <;> simp [hnp]

theorem NoNewWait.fork {o : MemOutcome} {v : Int} (h : fork p o k = some (v, k')) :
    NoNewWait k k' := by
  obtain ⟨r, k₁, ha, hr⟩ := fork_cases h
  obtain ⟨h₁, hnew⟩ := NoNewWait.allocproc ha
  rcases hr with ⟨-, -, rfl⟩ | ⟨np, rfl, hf⟩
  · exact h₁
  · exact h₁.trans (NoNewWait.forkFinish (hnew np rfl) hf)

theorem NoNewWait.clone {o : MemOutcome} {v : Int}
    (hpu : ∀ c, (k.proc p).ns = some c → (k.namespaces c).used = true)
    (h : clone p o k = some (v, k')) : NoNewWait k k' := by
  rcases clone_cases hpu h with ⟨-, rfl, -⟩ | ⟨-, n, hfr⟩ |
      ⟨n, c, k₃, r, k₄, -, hfr, -, -, -, hal, hr⟩
  · exact NoNewWait.refl _
  · exact NoNewWait.of_proc hfr.proc
  obtain ⟨h₄, hnew⟩ := NoNewWait.allocproc hal
  have h₃ := (NoNewWait.of_proc hfr.proc).trans h₄
  rcases hr with ⟨-, -, rfl⟩ | ⟨np, rfl, hf⟩
  · exact h₃
  · -- head の書き込みはプロセスの表を変えない
    have h₅ : NoNewWait k₄ (k₄.updNs n fun m => { m with head := some np }) := NoNewWait.of_proc rfl
    exact (h₃.trans h₅).trans (NoNewWait.forkFinish (by simpa using hnew np rfl) hf)

theorem NoNewWait.kill (v : Int) (k : Kernel) : NoNewWait k (kill v k).2 := by
  unfold Xv6.Process.kill
  split
  · exact NoNewWait.refl k
  · dsimp only
    apply NoNewWait.updProc
    · intro hs
      split at hs <;> simp_all
    · intro hz
      split at hz <;> simp_all

theorem NoNewWait.wait {b : Bool} {v : Int} (h : wait p b k = some (v, k')) : NoNewWait k k' := by
  rcases wait_cases h with ⟨-, rfl⟩ | ⟨q, -, -, -, rfl⟩
  · exact NoNewWait.refl _
  · exact NoNewWait.freeproc q k

theorem NoNewWait.sleepAddr (p : ProcId) (a : Nat) (k : Kernel) :
    NoNewWait k (sleep p (.addr a) k) := by
  apply NoNewWait.updProc <;> simp

/-! ## exit -/

/-- 自分以外を起こす wakeup の後、目印が s のアドレスなら s は眠っていない。 -/
theorem not_sleepsInWait_wakeup {s self : ProcId} (hs : s ≠ self) (k : Kernel) :
    ¬ SleepsInWait (wakeup self (some (.proc s)) k) s := by
  unfold SleepsInWait
  rw [wakeup_proc]
  split
  · simp
  · rename_i hcond
    exact fun h => hcond ⟨hs, h.1, h.2⟩

/-- reparent は起こすだけで ZOMBIE を作らない。親が p だった枠の新しい親は、p でなければ
wait の中で眠っていない。 -/
theorem reparent_wakes (h : reparent p k = some k') :
    WakesOnly k k' ∧ ∀ c s, (k'.proc c).parent = some s → (k.proc c).parent = some s ∨
      ((k.proc c).parent = some p ∧ (s = p ∨ ¬ SleepsInWait k' s)) := by
  -- 表の前から処理した枠の集まり pre で添字を付けた不変条件。処理していない枠の親は元のまま
  let Moved : Kernel → ProcId → Prop := fun k₁ c => ∀ s, (k₁.proc c).parent = some s →
    (k.proc c).parent = some s ∨ ((k.proc c).parent = some p ∧ (s = p ∨ ¬ SleepsInWait k₁ s))
  have key := foldlM_option_prefix _ (List.finRange NPROC)
    (fun pre k₁ => WakesOnly k k₁ ∧
      ∀ c, (c ∈ pre → Moved k₁ c) ∧ (c ∉ pre → (k₁.proc c).parent = (k.proc c).parent))
    ⟨WakesOnly.refl k, fun c => ⟨fun h => by simp at h, fun _ => rfl⟩⟩ ?_ h
  · obtain ⟨hn, hc⟩ := key
    exact ⟨hn, fun c => (hc c).1 (List.mem_finRange c)⟩
  intro pre x rest k₁ k₂ hl ⟨hn₁, hc₁⟩ hstep
  have hx : x ∉ pre := by
    have hnd := List.nodup_finRange NPROC
    rw [hl] at hnd
    exact fun hm => (List.nodup_append.mp hnd).2.2 x hm x List.mem_cons_self rfl
  rcases reparent_step_cases hstep with ⟨-, rfl⟩ | ⟨np, hpx, -, rfl⟩
  · refine ⟨hn₁, fun c => ⟨fun hc => ?_, fun hc => (hc₁ c).2 fun hm => hc (by simp [hm])⟩⟩
    rcases List.mem_append.mp hc with hc | hc
    · exact (hc₁ c).1 hc
    · -- x の親は p でないので元のまま
      rw [List.mem_singleton.mp hc]
      intro s hs
      exact .inl (((hc₁ x).2 hx).symm.trans hs)
  -- x の親を np にして np を起こした
  have hw := WakesOnly.wakeup p (np.map .proc) (k₁.updProc x fun q => { q with parent := np })
  have hu := WakesOnly.setParent x np k₁
  refine ⟨hn₁.trans (hu.trans hw), fun c => ⟨fun hc s hs => ?_, fun hc => ?_⟩⟩
  · rw [wakeup_proc_parent, Kernel.updProc_proc] at hs
    split at hs
    · rename_i e
      subst e
      refine .inr ⟨((hc₁ c).2 hx).symm.trans hpx, ?_⟩
      subst hs
      rcases eq_or_ne s p with rfl | hne
      · exact .inl rfl
      · exact .inr (not_sleepsInWait_wakeup hne _)
    · rename_i e
      have hc' : c ∈ pre := by
        rcases List.mem_append.mp hc with hc | hc
        · exact hc
        · exact absurd (List.mem_singleton.mp hc) e
      rcases (hc₁ c).1 hc' s hs with h₀ | ⟨h₀, hsp⟩
      · exact .inl h₀
      · exact .inr ⟨h₀, hsp.imp_right fun hns hs' => hns ((hu.trans hw).sleeps s hs')⟩
  · have e : c ≠ x := fun e => hc (by simp [e])
    rw [wakeup_proc_parent, Kernel.updProc_proc, if_neg e]
    exact (hc₁ c).2 fun hm => hc (by simp [hm])

theorem NoLostWakeup.exit {st : Int} (h : NoLostWakeup k) (hx : exit p st k = some k') :
    NoLostWakeup k' := by
  obtain ⟨-, k₁, hr, rfl⟩ := exit_cases hx
  obtain ⟨hn₁, hpar₁⟩ := reparent_wakes hr
  set w := wakeup p ((k₁.proc p).parent.map .proc) k₁ with hw
  intro s c hs hc hz
  -- p は ZOMBIE なので、眠っている s は p でなく、s は w でも k でも眠っている
  have hsp : s ≠ p := by
    rintro rfl
    simp [SleepsInWait] at hs
  have hsw : SleepsInWait w s := by
    unfold SleepsInWait at hs ⊢
    simpa [hsp] using hs
  have hs₀ : SleepsInWait k s := hn₁.sleeps s ((NoNewWait.wakeup _ _ _).sleeps s hsw)
  rcases eq_or_ne c p with rfl | hcp
  · -- ZOMBIE になった c の親 s は、exit の wakeup で起きている
    have hpar : (k₁.proc c).parent = some s := by
      simpa [hw, wakeup_proc_parent] using hc
    rw [hw, hpar] at hsw
    exact not_sleepsInWait_wakeup hsp k₁ hsw
  · simp only [Kernel.updProc_proc, if_neg hcp] at hc hz
    obtain ⟨hc₁, hz₁⟩ := (NoNewWait.wakeup _ _ _).zombie c s hc hz
    have hz₀ := hn₁.zombie c hz₁
    rcases hpar₁ c s hc₁ with h₀ | ⟨-, hs' | hs'⟩
    · exact h s c hs₀ h₀ hz₀
    · exact hsp hs'
    · exact hs' ((NoNewWait.wakeup _ _ _).sleeps s hsw)

/-! ## wait が眠る -/

/-- wait が眠るのは、子に ZOMBIE がいないときだけ。 -/
theorem wait_eq_none {b : Bool} (h : wait p b k = none) (c : ProcId)
    (hc : (k.proc c).parent = some p) : (k.proc c).state ≠ .zombie := by
  unfold wait at h
  split at h
  · split at h <;> cases h
  · rename_i hnone
    have := firstIdx_eq_none_iff.mp hnone c
    simpa [hc] using this

theorem NoLostWakeup.waitSleep {b : Bool} (h : NoLostWakeup k) (hw : wait p b k = none) :
    NoLostWakeup (sleep p (.proc p) k) := by
  intro s c hs hc hz
  have hcp : c ≠ p := by
    rintro rfl
    simp [sleep] at hz
  simp only [sleep, Kernel.updProc_proc, if_neg hcp] at hc hz
  rcases eq_or_ne s p with rfl | hsp
  · exact wait_eq_none hw c hc hz
  · have hs₀ : SleepsInWait k s := by
      unfold SleepsInWait at hs ⊢
      simpa [sleep, hsp] using hs
    exact h s c hs₀ hc hz

/-! ## 到達可能な状態 -/

theorem sleep_noAlloc (hp : (k.proc p).state ≠ .unused) (chan : Chan) :
    NoAlloc k (sleep p chan k) :=
  updProc_noAlloc p _ hp (by simp) rfl rfl rfl

theorem NsInv.sleepStep (hk : NsInv k) (hs : SleepStep k k') : NsInv k' := by
  cases hs with
  | syscall hp h => exact hk.syscall hp.1 h
  | waitSleep hp _ => exact hk.noAlloc (sleep_noAlloc hp.1.1 _)
  | sleepAddr a hp => exact hk.noAlloc (sleep_noAlloc hp.1.1 _)
  | wakeupAddr self a => exact hk.noAlloc (wakeup_noAlloc _ _ _)

theorem NoLostWakeup.syscall {c : Syscall} {v : Int} (hk : NsInv k) (h : NoLostWakeup k)
    (hp : Live k p) (hs : syscall p c k = some (v, k')) : NoLostWakeup k' := by
  cases c with
  | fork o => exact h.noNewWait (NoNewWait.fork hs)
  | clone o => exact h.noNewWait (NoNewWait.clone (fun c hc => (hk.nsOK hp.1 hc).chain.used) hs)
  | exit status =>
      simp only [Xv6.Process.syscall, Option.map_eq_some_iff, Prod.mk.injEq] at hs
      obtain ⟨k₁, hx, -, rfl⟩ := hs
      exact h.exit hx
  | wait b => exact h.noNewWait (NoNewWait.wait hs)
  | kill pid =>
      simp only [Xv6.Process.syscall, Option.some.injEq] at hs
      have hn := NoNewWait.kill pid k
      rw [hs] at hn
      exact h.noNewWait hn
  | getpid =>
      simp only [Xv6.Process.syscall, Option.map_eq_some_iff, Prod.mk.injEq] at hs
      obtain ⟨_, -, -, rfl⟩ := hs; exact h
  | getppid =>
      simp only [Xv6.Process.syscall, Option.some.injEq, Prod.mk.injEq] at hs
      obtain ⟨-, rfl⟩ := hs; exact h
  | psList limit global copyout =>
      simp only [Xv6.Process.syscall, Option.map_eq_some_iff, Prod.mk.injEq] at hs
      obtain ⟨_, -, -, rfl⟩ := hs; exact h
  | psInfo pid ok =>
      simp only [Xv6.Process.syscall, Option.map_eq_some_iff, Prod.mk.injEq] at hs
      obtain ⟨_, -, -, rfl⟩ := hs; exact h

theorem NoLostWakeup.sleepStep (hk : NsInv k) (h : NoLostWakeup k) (hs : SleepStep k k') :
    NoLostWakeup k' := by
  cases hs with
  | syscall hp hc => exact h.syscall hk hp.1 hc
  | waitSleep _ hw => exact h.waitSleep hw
  | sleepAddr a _ => exact h.noNewWait (NoNewWait.sleepAddr _ a k)
  | wakeupAddr self a => exact h.noNewWait (NoNewWait.wakeup self _ k)

theorem NoLostWakeup.onlyInit (c n : Int) : NoLostWakeup (onlyInit c n) := by
  intro s _ hs
  rcases eq_or_ne s 0 with rfl | hs0
  · simp [SleepsInWait, Xv6.Process.onlyInit] at hs
  · simp [SleepsInWait, onlyInit_proc_ne hs0, Proc.empty] at hs

/-- 眠りのある遷移のどの列の後でも、wait の中で自分のアドレスで眠るプロセスの子に ZOMBIE は
いない。 -/
theorem sleepReach_noLostWakeup (h : SleepReach k) : NoLostWakeup k := by
  have key := h.inv (I := fun k => NsInv k ∧ NoLostWakeup k)
    (fun k hk => by
      rw [init_iff.mp hk]
      exact ⟨NsInv.onlyInit 2 1, NoLostWakeup.onlyInit 2 1⟩)
    fun _ _ ⟨hk, hl⟩ hs => ⟨hk.sleepStep hs, hl.sleepStep hk hs⟩
  exact key.2

/-- 起動の後、init が fork し、子が走っている間に wait で眠った状態。 -/
theorem initWait_noLostWakeup :
    SleepReach (sleep 0 (.proc 0) (onlyInitChild 2 1 .runnable)) ∧
      NoLostWakeup (sleep 0 (.proc 0) (onlyInitChild 2 1 .runnable)) := by
  have h₁ : SleepReach (onlyInitChild 2 1 .runnable) :=
    Reachable.step (Reachable.init (init_iff.mpr rfl))
      (SleepStep.syscall (p := 0) (c := .fork .ok) (by decide) fork_onlyInit)
  have hw : wait 0 false (onlyInitChild 2 1 .runnable) = none :=
    Option.isNone_iff_eq_none.mp (by decide +kernel)
  have h₂ : SleepReach (sleep 0 (.proc 0) (onlyInitChild 2 1 .runnable)) :=
    Reachable.step h₁ (SleepStep.waitSleep (by decide) hw)
  exact ⟨h₂, sleepReach_noLostWakeup h₂⟩

end Xv6.Process
