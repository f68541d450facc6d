import Mathlib.Tactic.SplitIfs
import Xv6.Spinlock.Basic

/-!
# 入れ子の不変条件

到達可能などの状態でも、各 CPU の `noff` はそこで走っているスレッドの `push_off` の深さに等しく、
`noff` が正なら割り込みは止まっている。プロセスのスレッドが走っていて深さが正なら、`intena` は
そのスレッドの一番外の `push_off` の前の SIE ビットに等しい。`sched` が `intena` を残して書き戻す
ので、これは別の CPU の上で走り直しても変わらない。したがってプロセスの `pop_off` は panic せず、
一番外の `pop_off` は SIE ビットを一番外の `push_off` の前の値に戻す（`ireach_nesting`）。

スケジューラのスレッドは `swtch` から戻って `intena` を書き戻さないので、その `release` の後の
SIE ビットは、`sched` を呼んだプロセスの `intena` になる。割り込みを許してから `acquire` した
スケジューラが、割り込みの止まった所で yield したプロセスから戻ると、`release` の後も割り込みは
止まったままである（`scheduler_release_keeps_intr_off`）。
-/

namespace Xv6.Spinlock

open Function Xv6.Lib

variable {C P : Type}

/-- スケジューラのスレッドが持つロックの数: `p->lock` を `acquire` してから `release` するまで 1。 -/
def SchedPc.depth : SchedPc P → Nat
  | .top | .scan => 0
  | .held _ | .back _ => 1

/-! ## 操作の補題 -/

namespace Machine

variable (m : Machine C P) (c : C)

theorem running_of_some {p : P} (h : m.cur c = some p) : m.running c = .proc p := by
  simp [running, h]

theorem running_of_none (h : m.cur c = none) : m.running c = .sched c := by
  simp [running, h]

/-- 同じ CPU の割り当ての機械は、同じスレッドを走らせる。 -/
theorem running_congr {m m' : Machine C P} (h : m'.cur = m.cur) : m'.running = m.running := by
  funext c
  simp [running, h]

variable [DecidableEq C]

@[simp] theorem setCpu_cur (x : Cpu) : (m.setCpu c x).cur = m.cur := rfl
@[simp] theorem setCpu_spc (x : Cpu) : (m.setCpu c x).spc = m.spc := rfl
@[simp] theorem setCpu_susp (x : Cpu) : (m.setCpu c x).susp = m.susp := rfl
@[simp] theorem setCpu_depth (x : Cpu) : (m.setCpu c x).depth = m.depth := rfl
@[simp] theorem setCpu_base (x : Cpu) : (m.setCpu c x).base = m.base := rfl
@[simp] theorem setCpu_cpu (x : Cpu) : (m.setCpu c x).cpu = update m.cpu c x := rfl

variable [DecidableEq P]

@[simp] theorem push_cur : (m.push c).cur = m.cur := rfl
@[simp] theorem push_spc : (m.push c).spc = m.spc := rfl
@[simp] theorem push_susp : (m.push c).susp = m.susp := rfl
@[simp] theorem push_cpu : (m.push c).cpu = update m.cpu c (pushOff (m.cpu c)) := rfl
@[simp] theorem push_depth : (m.push c).depth = update m.depth (m.running c) (m.depth (m.running c) + 1) := rfl
theorem push_base : (m.push c).base =
    if m.depth (m.running c) = 0 then update m.base (m.running c) (m.cpu c).intr else m.base := rfl

/-- `push_off` は、走っていないスレッドの幽霊の欄を変えない。 -/
theorem push_ghost_of_ne {t : Thread C P} (hne : t ≠ m.running c) :
    (m.push c).depth t = m.depth t ∧ (m.push c).base t = m.base t := by
  refine ⟨by rw [push_depth, update_of_ne hne], ?_⟩
  rw [push_base]
  split_ifs
  · rw [update_of_ne hne]
  · rfl

@[simp] theorem pop_cur (x : Cpu) : (m.pop c x).cur = m.cur := rfl
@[simp] theorem pop_spc (x : Cpu) : (m.pop c x).spc = m.spc := rfl
@[simp] theorem pop_susp (x : Cpu) : (m.pop c x).susp = m.susp := rfl
@[simp] theorem pop_base (x : Cpu) : (m.pop c x).base = m.base := rfl
@[simp] theorem pop_cpu (x : Cpu) : (m.pop c x).cpu = update m.cpu c x := rfl
@[simp] theorem pop_depth (x : Cpu) : (m.pop c x).depth = update m.depth (m.running c) (m.depth (m.running c) - 1) := rfl

end Machine

/-! ## `push_off` と `pop_off` -/

@[simp] theorem pushOff_noff (x : Cpu) : (pushOff x).noff = x.noff + 1 := by
  simp only [pushOff]
  split_ifs <;> rfl

@[simp] theorem pushOff_intr (x : Cpu) : (pushOff x).intr = false := by
  simp only [pushOff]
  split_ifs <;> rfl

theorem pushOff_intena (x : Cpu) : (pushOff x).intena = if x.noff = 0 then x.intr else x.intena := by
  simp only [pushOff]
  split_ifs <;> rfl

/-- `pop_off` が返せば、割り込みは止まっていて深さは正だった。深さは一つ減り、`intena` は
変わらず、SIE ビットは深さが 0 に戻ったときだけ `intena` になる。 -/
theorem popOff_eq_some {x y : Cpu} (h : popOff x = some y) :
    x.intr = false ∧ 1 ≤ x.noff ∧ y.noff = x.noff - 1 ∧ y.intena = x.intena ∧
      y.intr = (decide (x.noff - 1 = 0) && x.intena) := by
  simp only [popOff] at h
  split_ifs at h with h₁ h₂ h₃
  all_goals
    cases h
    simp only [Bool.not_eq_true] at h₁
    simp only [Nat.not_lt] at h₂
  · -- 0 に戻って `intena` が立っている: `intr_on()`
    simp only [h₃.1, h₃.2, h₁, h₂, decide_true, Bool.and_self, and_self]
  · refine ⟨h₁, h₂, rfl, rfl, ?_⟩
    cases hx : x.intena <;> simp_all

/-- 割り込みが止まっていて深さが正なら、`pop_off` は panic しない。 -/
theorem popOff_isSome {x : Cpu} (hi : x.intr = false) (hn : 1 ≤ x.noff) :
    ∃ y, popOff x = some y := by
  simp only [popOff, hi, Bool.false_eq_true, ↓reduceIte, if_neg (show ¬ x.noff < 1 by omega)]
  split_ifs
  · exact ⟨_, rfl⟩
  · exact ⟨_, rfl⟩

theorem schedSave_eq_some {x : Cpu} {i : Bool} (h : schedSave x = some i) :
    x.noff = 1 ∧ x.intr = false ∧ i = x.intena := by
  unfold schedSave at h
  split_ifs at h with h₁ h₂
  cases h
  simp only [ne_eq, Decidable.not_not] at h₁
  simp only [Bool.not_eq_true] at h₂
  exact ⟨h₁, h₂, rfl⟩

/-! ## 不変条件 -/

/-- CPU の欄とスレッドの幽霊の欄の関係。 -/
structure CpuInv (m : Machine C P) : Prop where
  /-- CPU の深さは、そこで走っているスレッドの深さ -/
  noff : ∀ c, (m.cpu c).noff = m.depth (m.running c)
  /-- 深さが正なら割り込みは止まっている -/
  intr : ∀ c, 0 < (m.cpu c).noff → (m.cpu c).intr = false
  /-- 走っているプロセスの深さが正なら、`intena` はその一番外の `push_off` の前の SIE ビット -/
  intena : ∀ c p, m.cur c = some p → 0 < m.depth (.proc p) → (m.cpu c).intena = m.base (.proc p)
  /-- `sched` の中で止まっているプロセスは深さ 1 で、残した `intena` はその一番外の
  `push_off` の前の SIE ビット -/
  saved : ∀ p i, (∀ c, m.cur c ≠ some p) → m.susp p = .inSched i →
    m.depth (.proc p) = 1 ∧ i = m.base (.proc p)
  /-- プロセスは高々一つの CPU で走る -/
  unique : ∀ c c' p, m.cur c = some p → m.cur c' = some p → c = c'

/-- 入れ子の不変条件: `CpuInv` と、スケジューラのループの位置。 -/
structure NestInv (m : Machine C P) : Prop extends CpuInv m where
  /-- スケジューラの深さは、ループの位置で決まる -/
  schedDepth : ∀ c, m.depth (.sched c) = (m.spc c).depth
  /-- プロセスが走っている CPU のスケジューラは、そのプロセスへの `swtch` の中にいる -/
  back : ∀ c p, m.cur c = some p → m.spc c = .back p

variable {m : Machine C P} {c : C} {p : P}

/-- 二つの CPU は同じスレッドを走らせない。 -/
theorem CpuInv.running_ne (h : CpuInv m) {c' : C} (hne : c' ≠ c) : m.running c' ≠ m.running c := by
  unfold Machine.running
  split <;> split
  · exact fun he => hne (by cases he; rfl)
  · exact fun he => by cases he
  · exact fun he => by cases he
  · rename_i q hq _ q' hq'
    intro he
    cases he
    exact hne (h.unique c' c q hq hq')

/-- 止まっているプロセスは、どの CPU でも走っていない。 -/
theorem proc_ne_running {q : P} (hq : ∀ c, m.cur c ≠ some q) (c : C) : Thread.proc q ≠ m.running c := by
  unfold Machine.running
  split
  · exact fun he => by cases he
  · rename_i q' hq'
    intro he
    cases he
    exact hq c hq'

/-- 走っているプロセスのスレッドは、そのプロセスが走る CPU のスレッド。 -/
theorem running_eq_proc {c : C} {q : P} (hq : m.cur c = some q) : m.running c = .proc q :=
  m.running_of_some c hq

theorem NestInv.init (h : IInit m) : NestInv m where
  noff c := by rw [Machine.running_of_none m c (h.1 c).1, (h.1 c).2.2.2, (h.1 c).2.2.1]
  intr c hc := by rw [(h.1 c).2.2.1] at hc; cases hc
  intena c p hc := by rw [(h.1 c).1] at hc; cases hc
  saved p i _ hs := by rw [h.2 p] at hs; cases hs
  unique c _ p hc := by rw [(h.1 c).1] at hc; cases hc
  schedDepth c := by rw [(h.1 c).2.2.2, (h.1 c).2.1]; rfl
  back c p hc := by rw [(h.1 c).1] at hc; cases hc

/-- `CpuInv` はスケジューラの位置を読まない。 -/
theorem CpuInv.withSpc (h : CpuInv m) (spc : C → SchedPc P) : CpuInv { m with spc := spc } :=
  ⟨h.noff, h.intr, h.intena, h.saved, h.unique⟩

variable [DecidableEq C] [DecidableEq P]

omit [DecidableEq P] in
/-- CPU c の欄だけを、深さと `intena` を変えずに書き換える（`intr_on` と `intr_off`）。 -/
theorem CpuInv.setCpu (h : CpuInv m) {x : Cpu} (hn : x.noff = (m.cpu c).noff)
    (he : x.intena = (m.cpu c).intena) (hi : 0 < x.noff → x.intr = false) : CpuInv (m.setCpu c x) := by
  have hr : (m.setCpu c x).running = m.running := Machine.running_congr (m.setCpu_cur c x)
  refine ⟨fun c' => ?_, fun c' => ?_, fun c' q hq hd => ?_, h.saved, h.unique⟩
  all_goals
    simp only [Machine.setCpu_cpu, Machine.setCpu_depth, Machine.setCpu_base, Machine.setCpu_cur, hr] at *
    by_cases hcc : c' = c
  · rw [hcc, update_self, hn, h.noff]
  · rw [update_of_ne hcc, h.noff]
  · rw [hcc, update_self]
    exact hi
  · rw [update_of_ne hcc]
    exact h.intr c'
  · rw [hcc, update_self, he]
    exact h.intena c q (hcc ▸ hq) hd
  · rw [update_of_ne hcc]
    exact h.intena c' q hq hd

/-- 走っているスレッドの `push_off`。 -/
theorem CpuInv.push (h : CpuInv m) : CpuInv (m.push c) := by
  have hr : (m.push c).running = m.running := Machine.running_congr (m.push_cur c)
  refine ⟨fun c' => ?_, fun c' hpos => ?_, fun c' q hq hd => ?_, fun q i hq hs => ?_, h.unique⟩
  · rw [hr, Machine.push_cpu, Machine.push_depth]
    by_cases hcc : c' = c
    · rw [hcc, update_self, update_self, pushOff_noff, h.noff]
    · rw [update_of_ne hcc, update_of_ne (h.running_ne hcc), h.noff]
  · rw [Machine.push_cpu] at hpos ⊢
    by_cases hcc : c' = c
    · rw [hcc, update_self, pushOff_intr]
    · rw [update_of_ne hcc] at hpos ⊢
      exact h.intr c' hpos
  · rw [Machine.push_cur] at hq
    have ht := running_eq_proc hq
    by_cases hcc : c' = c
    · -- q 自身: 深さが 0 から 1 になるときだけ、`intena` と幽霊の `base` が同じ SIE ビットを残す
      subst hcc
      have hn := h.noff c'
      rw [ht] at hn
      rw [Machine.push_cpu, update_self, pushOff_intena, Machine.push_base, ht, hn]
      by_cases h0 : m.depth (.proc q) = 0
      · rw [if_pos h0, if_pos h0, update_self]
      · rw [if_neg h0, if_neg h0]
        exact h.intena c' q hq (Nat.pos_of_ne_zero h0)
    · have hne : Thread.proc q ≠ m.running c := ht ▸ h.running_ne hcc
      rw [(m.push_ghost_of_ne c hne).1] at hd
      rw [Machine.push_cpu, update_of_ne hcc, (m.push_ghost_of_ne c hne).2]
      exact h.intena c' q hq hd
  · have hne := proc_ne_running hq c
    rw [(m.push_ghost_of_ne c hne).1, (m.push_ghost_of_ne c hne).2]
    exact h.saved q i hq hs

/-- 走っているスレッドの `pop_off`。 -/
theorem CpuInv.pop (h : CpuInv m) {x : Cpu} (hx : popOff (m.cpu c) = some x) : CpuInv (m.pop c x) := by
  have hr : (m.pop c x).running = m.running := Machine.running_congr (m.pop_cur c x)
  obtain ⟨-, hn, hxn, hxe, hxi⟩ := popOff_eq_some hx
  have hframe : ∀ t, t ≠ m.running c → (m.pop c x).depth t = m.depth t := fun t ht' => by
    rw [Machine.pop_depth, update_of_ne ht']
  refine ⟨fun c' => ?_, fun c' hpos => ?_, fun c' q hq hdq => ?_, fun q i hq hs => ?_, h.unique⟩
  · rw [hr, Machine.pop_cpu, Machine.pop_depth]
    by_cases hcc : c' = c
    · rw [hcc, update_self, update_self, hxn, h.noff]
    · rw [update_of_ne hcc, update_of_ne (h.running_ne hcc), h.noff]
  · rw [Machine.pop_cpu] at hpos ⊢
    by_cases hcc : c' = c
    · -- 深さが正のまま: `intr_on()` は呼ばれない
      rw [hcc, update_self] at hpos ⊢
      rw [hxi, decide_eq_false (by omega), Bool.false_and]
    · rw [update_of_ne hcc] at hpos ⊢
      exact h.intr c' hpos
  · rw [Machine.pop_cur] at hq
    have ht := running_eq_proc hq
    rw [Machine.pop_base]
    by_cases hcc : c' = c
    · subst hcc
      rw [Machine.pop_depth, ht, update_self] at hdq
      rw [Machine.pop_cpu, update_self, hxe]
      exact h.intena c' q hq (by omega)
    · rw [hframe _ (ht ▸ h.running_ne hcc)] at hdq
      rw [Machine.pop_cpu, update_of_ne hcc]
      exact h.intena c' q hq hdq
  · rw [hframe _ (proc_ne_running hq c), Machine.pop_base]
    exact h.saved q i hq hs

/-! ## 一つの遷移 -/

/-- プロセスの `push_off`: スケジューラの深さは変わらない。 -/
theorem NestInv.push (h : NestInv m) (hc : m.cur c = some p) : NestInv (m.push c) where
  toCpuInv := h.toCpuInv.push
  schedDepth c' := by
    rw [(m.push_ghost_of_ne c (by rw [running_eq_proc hc]; exact fun e => by cases e)).1]
    exact h.schedDepth c'
  back := h.back

/-- プロセスの `pop_off`。 -/
theorem NestInv.pop (h : NestInv m) (hc : m.cur c = some p) {x : Cpu} (hx : popOff (m.cpu c) = some x) :
    NestInv (m.pop c x) where
  toCpuInv := h.toCpuInv.pop hx
  schedDepth c' := by
    rw [Machine.pop_depth, running_eq_proc hc, update_of_ne (fun e => by cases e)]
    exact h.schedDepth c'
  back := h.back

omit [DecidableEq P] in
theorem NestInv.setCpu (h : NestInv m) {x : Cpu} (hn : x.noff = (m.cpu c).noff)
    (he : x.intena = (m.cpu c).intena) (hi : 0 < x.noff → x.intr = false) : NestInv (m.setCpu c x) where
  toCpuInv := h.toCpuInv.setCpu hn he hi
  schedDepth := h.schedDepth
  back := h.back

/-- プロセスが `sched` でスケジューラへ移る。スケジューラは `swtch` の中で深さ 1 のまま待っていて、
プロセスは残した `intena` とともに深さ 1 で止まる。 -/
theorem NestInv.sched (h : NestInv m) (hc : m.cur c = some p) {i : Bool} (hs : schedSave (m.cpu c) = some i) :
    NestInv { m with cur := update m.cur c none, susp := update m.susp p (.inSched i) } := by
  obtain ⟨hn, -, rfl⟩ := schedSave_eq_some hs
  have hd := h.noff c
  rw [running_eq_proc hc] at hd
  refine ⟨⟨fun c' => ?_, h.intr, fun c' q hq hdq => ?_, fun q j hq hsq => ?_, fun c₁ c₂ q h₁ h₂ => ?_⟩,
    h.schedDepth, fun c' q hq => ?_⟩
  · unfold Machine.running
    simp only
    by_cases hcc : c' = c
    · -- スケジューラが戻る: 深さはどちらも 1
      rw [hcc, update_self, h.schedDepth c, h.back c p hc, hn]
      rfl
    · rw [update_of_ne hcc]
      exact h.noff c'
  · simp only at hq hdq ⊢
    by_cases hcc : c' = c
    · rw [hcc, update_self] at hq
      cases hq
    · rw [update_of_ne hcc] at hq
      exact h.intena c' q hq hdq
  · simp only at hq hsq ⊢
    by_cases hqp : q = p
    · -- p: 深さ 1 で、残した `intena` は深さ 1 の p の `base`
      subst hqp
      rw [update_self] at hsq
      cases hsq
      exact ⟨hd.symm.trans hn, h.intena c q hc (by omega)⟩
    · rw [update_of_ne hqp] at hsq
      refine h.saved q j (fun c' hc' => ?_) hsq
      by_cases hcc : c' = c
      · rw [hcc, hc] at hc'
        exact hqp (Option.some.inj hc').symm
      · exact hq c' (by rw [update_of_ne hcc]; exact hc')
  · simp only at h₁ h₂
    by_cases hc₁ : c₁ = c
    · rw [hc₁, update_self] at h₁
      cases h₁
    · by_cases hc₂ : c₂ = c
      · rw [hc₂, update_self] at h₂
        cases h₂
      · rw [update_of_ne hc₁] at h₁
        rw [update_of_ne hc₂] at h₂
        exact h.unique c₁ c₂ q h₁ h₂
  · simp only at hq ⊢
    by_cases hcc : c' = c
    · rw [hcc, update_self] at hq
      cases hq
    · rw [update_of_ne hcc] at hq
      exact h.back c' q hq

omit [DecidableEq P] in
/-- スケジューラの位置だけを、深さの同じ位置へ進める。 -/
theorem NestInv.setSpc (h : NestInv m) (hc : m.cur c = none) {pc : SchedPc P}
    (hd : pc.depth = (m.spc c).depth) : NestInv { m with spc := update m.spc c pc } where
  toCpuInv := h.toCpuInv.withSpc _
  schedDepth c' := by
    simp only
    by_cases hcc : c' = c
    · rw [hcc, update_self, hd]
      exact h.schedDepth c
    · rw [update_of_ne hcc]
      exact h.schedDepth c'
  back c' q hq := by
    simp only at hq ⊢
    have hcc : c' ≠ c := fun e => by rw [e, hc] at hq; cases hq
    rw [update_of_ne hcc]
    exact h.back c' q hq

omit [DecidableEq P] in
/-- スケジューラの外の `for` の始めの `intr_on()`: スケジューラはロックを持たない。 -/
theorem NestInv.top (h : NestInv m) (hc : m.cur c = none) (hpc : m.spc c = .top) :
    NestInv ({ m with spc := update m.spc c .scan }.setCpu c (intrOn (m.cpu c))) := by
  have h₁ : NestInv { m with spc := update m.spc c .scan } := h.setSpc hc (by rw [hpc]; rfl)
  have h0 : (m.cpu c).noff = 0 := by
    rw [h.noff c, Machine.running_of_none m c hc, h.schedDepth c, hpc]
    rfl
  exact h₁.setCpu rfl rfl (fun hpos => absurd hpos (by simp only [intrOn]; omega))

/-- スケジューラの `acquire(&p->lock)`: スケジューラの深さが 0 から 1 になる。 -/
theorem NestInv.acquire (h : NestInv m) (hc : m.cur c = none) (hpc : m.spc c = .scan) (q : P) :
    NestInv ({ m with spc := update m.spc c (.held q) }.push c) where
  toCpuInv := (h.toCpuInv.withSpc _).push
  schedDepth c' := by
    have ht := Machine.running_of_none m c hc
    simp only [Machine.push_depth, Machine.push_spc]
    change update m.depth (m.running c) (m.depth (m.running c) + 1) (.sched c') = _
    rw [ht]
    by_cases hcc : c' = c
    · rw [hcc, update_self, update_self, h.schedDepth c, hpc]
      rfl
    · rw [update_of_ne (fun e => hcc (by cases e; rfl)), update_of_ne hcc]
      exact h.schedDepth c'
  back c' q' hq := by
    simp only [Machine.push_cur, Machine.push_spc] at hq ⊢
    have hcc : c' ≠ c := fun e => by rw [e, hc] at hq; cases hq
    rw [update_of_ne hcc]
    exact h.back c' q' hq

/-- スケジューラが止まっているプロセス p へ `swtch` する。p は `sched` の中で残した `intena` を
書き戻すか、forkret から深さ 1 で始まる。 -/
theorem NestInv.swtch (h : NestInv m) (hc : m.cur c = none) (hpc : m.spc c = .held p)
    (hp : ∀ c', m.cur c' ≠ some p) : NestInv (m.swtchTo c p) := by
  -- スケジューラは `p->lock` だけを持っている
  have hd : (m.cpu c).noff = 1 := by
    rw [h.noff c, Machine.running_of_none m c hc, h.schedDepth c, hpc]
    rfl
  -- 新しい割り当て: c で p が走り、c のスケジューラは p への `swtch` の中にいる
  have hcur : ∀ c', update m.cur c (some p) c' = if c' = c then some p else m.cur c' := fun c' => by
    by_cases hcc : c' = c
    · rw [hcc, update_self, if_pos rfl]
    · rw [update_of_ne hcc, if_neg hcc]
  have hrun : ∀ m' : Machine C P, m'.cur = update m.cur c (some p) → ∀ c',
      m'.running c' = if c' = c then .proc p else m.running c' := fun m' hm c' => by
    simp only [Machine.running, hm, hcur]
    split_ifs <;> rfl
  have hother : ∀ c', c' ≠ c → m.running c' ≠ .proc p := fun c' _ => (proc_ne_running hp c').symm
  have hunique : ∀ c₁ c₂ q, update m.cur c (some p) c₁ = some q → update m.cur c (some p) c₂ = some q →
      c₁ = c₂ := fun c₁ c₂ q h₁ h₂ => by
    rw [hcur] at h₁ h₂
    split_ifs at h₁ h₂ with hc₁ hc₂ hc₂
    · exact hc₁.trans hc₂.symm
    · cases h₁
      exact absurd h₂ (hp c₂)
    · cases h₂
      exact absurd h₁ (hp c₁)
    · exact h.unique c₁ c₂ q h₁ h₂
  have hback : ∀ c' q, update m.cur c (some p) c' = some q → update m.spc c (.back p) c' = .back q :=
    fun c' q hq => by
      by_cases hcc : c' = c
      · rw [hcc, update_self] at hq ⊢
        cases hq
        rfl
      · rw [update_of_ne hcc] at hq ⊢
        exact h.back c' q hq
  have hsched : ∀ c', m.depth (.sched c') = (update m.spc c (.back p) c').depth := fun c' => by
    by_cases hcc : c' = c
    · rw [hcc, update_self, h.schedDepth c, hpc]
      rfl
    · rw [update_of_ne hcc]
      exact h.schedDepth c'
  -- 止まっているプロセスは、前の割り当てでも止まっていて、p でない
  have hstop : ∀ q, (∀ c', update m.cur c (some p) c' ≠ some q) → q ≠ p ∧ ∀ c', m.cur c' ≠ some q :=
    fun q hq => by
      refine ⟨fun e => hq c (by rw [update_self, e]), fun c' hc' => ?_⟩
      by_cases hcc : c' = c
      · rw [hcc, hc] at hc'
        cases hc'
      · exact hq c' (by rw [update_of_ne hcc]; exact hc')
  unfold Machine.swtchTo
  cases hs : m.susp p with
  | inSched i =>
    -- `sched` から戻って `intena` を書き戻す
    simp only [hs]
    obtain ⟨hdp, rfl⟩ := h.saved p i hp hs
    refine ⟨⟨fun c' => ?_, fun c' => ?_, fun c' q hq hdq => ?_, fun q j hq hsq => ?_, hunique⟩, hsched, hback⟩
    all_goals simp only [Machine.setCpu_cpu, Machine.setCpu_depth, Machine.setCpu_base, Machine.setCpu_cur,
      Machine.setCpu_susp] at *
    · rw [hrun _ rfl]
      by_cases hcc : c' = c
      · rw [if_pos hcc, hcc, update_self, hdp]
        exact hd
      · rw [if_neg hcc, update_of_ne hcc]
        exact h.noff c'
    · by_cases hcc : c' = c
      · rw [hcc, update_self]
        exact h.intr c
      · rw [update_of_ne hcc]
        exact h.intr c'
    · by_cases hcc : c' = c
      · rw [hcc, update_self] at hq ⊢
        cases hq
        rfl
      · rw [update_of_ne hcc] at hq ⊢
        exact h.intena c' q hq hdq
    · exact h.saved q j (hstop q hq).2 hsq
  | fresh =>
    -- forkret から始まる: スケジューラの取った `p->lock` を深さ 1 として引き継ぐ
    simp only [hs]
    have hframe : ∀ q, q ≠ p → update m.depth (.proc p) 1 (.proc q) = m.depth (.proc q) ∧
        update m.base (.proc p) (m.cpu c).intena (.proc q) = m.base (.proc q) := fun q hq =>
      ⟨update_of_ne (fun e => hq (by cases e; rfl)) _ _, update_of_ne (fun e => hq (by cases e; rfl)) _ _⟩
    refine ⟨⟨fun c' => ?_, h.intr, fun c' q hq hdq => ?_, fun q j hq hsq => ?_, hunique⟩,
      fun c' => ?_, hback⟩
    · rw [hrun _ rfl]
      dsimp only
      by_cases hcc : c' = c
      · rw [if_pos hcc, hcc, update_self]
        exact hd
      · rw [if_neg hcc, update_of_ne (hother c' hcc)]
        exact h.noff c'
    · simp only at hq hdq ⊢
      by_cases hcc : c' = c
      · rw [hcc, update_self] at hq
        cases hq
        rw [hcc, update_self]
      · rw [update_of_ne hcc] at hq
        have hqp : q ≠ p := fun e => hp c' (e ▸ hq)
        rw [(hframe q hqp).1] at hdq
        rw [(hframe q hqp).2]
        exact h.intena c' q hq hdq
    · simp only at hq hsq ⊢
      obtain ⟨hqp, hq'⟩ := hstop q hq
      rw [(hframe q hqp).1, (hframe q hqp).2]
      exact h.saved q j hq' hsq
    · simp only
      rw [update_of_ne (fun e => by cases e)]
      exact hsched c'

/-- スケジューラの `release(&p->lock)`: スケジューラの深さが 1 から 0 に戻る。 -/
theorem NestInv.release (h : NestInv m) (last : Bool) (hc : m.cur c = none)
    (hpc : m.spc c = .held p ∨ m.spc c = .back p) {x : Cpu} (hx : popOff (m.cpu c) = some x) :
    NestInv { m.pop c x with spc := update m.spc c (if last then .top else .scan) } where
  toCpuInv := (h.toCpuInv.pop hx).withSpc _
  schedDepth c' := by
    simp only [Machine.pop_depth, Machine.running_of_none m c hc]
    by_cases hcc : c' = c
    · rw [hcc, update_self, update_self, h.schedDepth c]
      rcases hpc with hpc | hpc <;> rw [hpc] <;> cases last <;> rfl
    · rw [update_of_ne (fun e => hcc (by cases e; rfl)), update_of_ne hcc]
      exact h.schedDepth c'
  back c' q hq := by
    simp only [Machine.pop_cur] at hq ⊢
    have hcc : c' ≠ c := fun e => by rw [e, hc] at hq; cases hq
    rw [update_of_ne hcc]
    exact h.back c' q hq

omit [DecidableEq C] in
/-- 止まっているプロセスの欄の使い直し。 -/
theorem NestInv.reuse (h : NestInv m) : NestInv { m with susp := update m.susp p .fresh } where
  noff := h.noff
  intr := h.intr
  intena := h.intena
  saved q j hq hs := by
    simp only at hq hs ⊢
    by_cases hqp : q = p
    · rw [hqp, update_self] at hs
      cases hs
    · rw [update_of_ne hqp] at hs
      exact h.saved q j hq hs
  unique := h.unique
  schedDepth := h.schedDepth
  back := h.back

theorem NestInv.step {m m' : Machine C P} (h : NestInv m) (hs : IStep m m') : NestInv m' := by
  cases hs with
  | push hc => exact h.push hc
  | pop hc hx => exact h.pop hc hx
  | intrOn _ h0 =>
    -- ロックを持たない所だけで割り込みを許す
    exact h.setCpu rfl rfl (fun hpos => absurd h0 (by simp only [intrOn] at hpos; omega))
  | intrOff _ => exact h.setCpu rfl rfl (fun _ => rfl)
  | sched hc hsv => exact h.sched hc hsv
  | top hc hpc => exact h.top hc hpc
  | acquire q hc hpc => exact h.acquire hc hpc q
  | swtch hc hpc hp => exact h.swtch hc hpc hp
  | release last hc hpc hx => exact h.release last hc hpc hx
  | reuse _ => exact h.reuse

theorem ireach_nestInv {m : Machine C P} (h : IReach m) : NestInv m :=
  Reachable.inv (I := NestInv) (fun _ hi => NestInv.init hi) (fun _ _ hi hs => hi.step hs) h

/-! ## 入れ子 -/

/-- 到達可能などの状態でも、各 CPU の `noff` はそこで走っているスレッドの `push_off` の深さで、
`noff` が正なら割り込みは止まっている。走っているプロセスの `pop_off` は panic せずに深さを一つ
減らし、一番外の `pop_off` は SIE ビットを、そのプロセスの一番外の `push_off` の前の値に戻す。 -/
theorem ireach_nesting {m : Machine C P} (h : IReach m) (c : C) :
    (m.cpu c).noff = m.depth (m.running c) ∧ (0 < (m.cpu c).noff → (m.cpu c).intr = false) ∧
      ∀ p, m.cur c = some p → 0 < m.depth (.proc p) →
        ∃ x, popOff (m.cpu c) = some x ∧ x.noff = m.depth (.proc p) - 1 ∧
          (m.depth (.proc p) = 1 → x.intr = m.base (.proc p)) := by
  have hi := ireach_nestInv h
  refine ⟨hi.noff c, hi.intr c, fun p hc hpos => ?_⟩
  have hn := hi.noff c
  rw [running_eq_proc hc] at hn
  have hoff : (m.cpu c).intr = false := hi.intr c (by omega)
  obtain ⟨x, hx⟩ := popOff_isSome hoff (by omega)
  obtain ⟨-, -, hxn, -, hxi⟩ := popOff_eq_some hx
  refine ⟨x, hx, by rw [hxn, hn], fun h1 => ?_⟩
  -- 深さ 1 からの `pop_off` は SIE ビットを `intena` にし、`intena` はプロセスの `base`
  rw [hxi, hn, h1, hi.intena c p hc hpos]
  simp

/-- 一つの CPU と一つのプロセスの、起動の後の機械。SIE ビットは止まっている。 -/
def bootMachine : Machine Unit Unit :=
  ⟨fun _ => ⟨false, 0, false⟩, fun _ => none, fun _ => .top, fun _ => .fresh, fun _ => 0, fun _ => false⟩

/-! ## スケジューラの `release` -/

/-- 起動の後、スケジューラが `intr_on()` してから `acquire(&p->lock)` した機械。 -/
def schedHeld : Machine Unit Unit :=
  let m := ({ bootMachine with spc := update bootMachine.spc () .scan }).setCpu () (intrOn (bootMachine.cpu ()))
  ({ m with spc := update m.spc () (.held ()) }).push ()

/-- スケジューラがまだ走っていないプロセスへ `swtch` し、プロセスが forkret で
`release(&p->lock)` した機械: 深さ 0 に戻り、スケジューラの `intena` で割り込みを許す。 -/
def procForked : Machine Unit Unit := (schedHeld.swtchTo () ()).pop () ⟨true, 0, true⟩

/-- タイマ割り込みのトラップで割り込みが止まり、yield が `acquire(&p->lock)` した機械。 -/
def procLocked : Machine Unit Unit := (procForked.setCpu () (intrOff (procForked.cpu ()))).push ()

theorem ireach_procLocked : IReach procLocked := by
  have r₀ : IReach bootMachine := .init ⟨fun _ => ⟨rfl, rfl, rfl, rfl⟩, fun _ => rfl⟩
  have r₁ : IReach schedHeld := .step (.step r₀ (IStep.top rfl rfl)) (IStep.acquire () rfl rfl)
  have r₂ : IReach procForked := .step (.step r₁ (IStep.swtch rfl rfl (fun c' => by cases c'; decide)))
    (IStep.pop (p := ()) rfl (by decide))
  exact .step (.step r₂ (IStep.intrOff (p := ()) rfl)) (IStep.push (p := ()) rfl)

/-- 走っているプロセスが割り込みを止めて `acquire(&p->lock)` した機械: 深さ 1 の `pop_off` が
ある。 -/
theorem ireach_nesting_procLocked : IReach procLocked ∧ procLocked.cur () = some () ∧
    procLocked.depth (.proc ()) = 1 ∧
    ((procLocked.cpu ()).noff = procLocked.depth (procLocked.running ()) ∧
      (0 < (procLocked.cpu ()).noff → (procLocked.cpu ()).intr = false) ∧
      ∀ p, procLocked.cur () = some p → 0 < procLocked.depth (.proc p) →
        ∃ x, popOff (procLocked.cpu ()) = some x ∧ x.noff = procLocked.depth (.proc p) - 1 ∧
          (procLocked.depth (.proc p) = 1 → x.intr = procLocked.base (.proc p))) :=
  ⟨ireach_procLocked, rfl, rfl, ireach_nesting ireach_procLocked ()⟩

/-- yield の `sched` でスケジューラへ戻った機械。 -/
def schedBack : Machine Unit Unit :=
  { procLocked with cur := update procLocked.cur () none, susp := update procLocked.susp () (.inSched false) }

/-- スケジューラは割り込みを許してから `acquire(&p->lock)` し（その `base` は true）、プロセスへ
`swtch` する。プロセスは割り込みの止まった所で yield して戻る。スケジューラの
`release(&p->lock)` は深さを 0 に戻すが、SIE ビットはプロセスの `intena` の false のままで、
スケジューラの一番外の `push_off` の前の true に戻らない。 -/
theorem scheduler_release_keeps_intr_off : ∃ m : Machine Unit Unit, IReach m ∧ m.cur () = none ∧
    m.spc () = .back () ∧ m.base (.sched ()) = true ∧
    ∃ x, popOff (m.cpu ()) = some x ∧ x.noff = 0 ∧ x.intr = false := by
  have r₄ : IReach schedBack := .step ireach_procLocked (IStep.sched (p := ()) rfl (by decide))
  exact ⟨schedBack, r₄, rfl, rfl, by decide, ⟨false, 0, false⟩, by decide, rfl, rfl⟩

end Xv6.Spinlock
