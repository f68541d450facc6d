import Xv6.Ftable.Acct

/-!
# ファイル表の不変条件

`FInv` は、どの段の前後でも成り立つ勘定である。

- ファイルの `ref` は、プロセスの勘定の和（参照を持つ欄と、途中で持つ参照）。
- `ref` が 0 のファイルは `FD_NONE`。`filealloc` が返して欄をまだ書いていないファイルは
  `FD_NONE` で、`ref` は 1。
- 管の端ごとに、それを負う生きたファイルと、それを閉じる `fileclose` の後半を合わせた数は、
  端が開いていれば 1、閉じていれば 0。
- inode の参照は、それを負う生きたファイルと `fileclose` の後半と、sys_open が持つものの和。
- UNUSED、USED、ZOMBIE のプロセスはシステムコールの外にいて、UNUSED と ZOMBIE の欄は空。
  実行の位置ごとの局所変数の性質（`PcOK`）と、fork の途中の子は一つの親だけが作っていること。

段ごとの保存は、書き換える表の部分ごとの勘定の変化（`Acct`）から示す。
-/

namespace Xv6.Ftable

open Function Xv6.Lib
open Xv6.Process (ProcId ProcState)
open Xv6.Dir (NOFILE)

/-- UNUSED、USED（fork の途中の子）、ZOMBIE はシステムコールの外にいて、UNUSED と ZOMBIE の
欄は空。 -/
structure StateOK (pr : FProc) : Prop where
  idle : pr.state = .unused ∨ pr.state = .used ∨ pr.state = .zombie → pr.pc = .user ∧ pr.release = none
  empty : pr.state = .unused ∨ pr.state = .zombie → ∀ fd, pr.ofile fd = none

/-- fork の途中: 子 np は USED で、欄 i から先はまだ空。 -/
def ForkOK (s : FState) (p np : ProcId) (i : Nat) : Prop :=
  np ≠ p ∧ (s.proc np).state = .used ∧ ∀ j : Fin NOFILE, i ≤ j.val → (s.proc np).ofile j = none

/-- 実行の位置ごとに、局所変数と自分の欄について成り立つこと。 -/
def PcOK (s : FState) (p : ProcId) : Pc → Prop
  | .dup f fd nfd => fd ≠ nfd ∧ (s.proc p).ofile fd = some f ∧ (s.proc p).ofile nfd = some f
  | .openInit _ _ _ f fd => (s.proc p).ofile fd = some f
  | .pipeKalloc f0 f1 => f0 ≠ f1
  | .pipeFd1 rf _ fd0 => (s.proc p).ofile fd0 = some rf
  | .pipeCopy rf wf fd0 fd1 => fd0 ≠ fd1 ∧ (s.proc p).ofile fd0 = some rf ∧ (s.proc p).ofile fd1 = some wf
  | .pipeUndo _ wf fd1 => (s.proc p).ofile fd1 = some wf
  | .forkCopy np => ForkOK s p np 0
  | .forkDup np i => ForkOK s p np i
  | .forkSet np i f => ForkOK s p np i.val ∧ (s.proc p).ofile i = some f
  | .exit fd => ∀ j : Fin NOFILE, j.val < fd → (s.proc p).ofile j = none
  | .exitClear fd => ∀ j : Fin NOFILE, j.val < fd.val → (s.proc p).ofile j = none
  | _ => True

structure FInv (s : FState) : Prop where
  ref : ∀ f, (s.file f).ref = refSum s f
  none_of_zero : ∀ f, (s.file f).ref = 0 → (s.file f).type = .none
  fresh : ∀ p f, f ∈ freshFiles (s.proc p).pc → (s.file f).type = .none ∧ (s.file f).ref = 1
  pipe : ∀ x w, pending s (.pipe x w) = if endOpen (s.pipe x) w then 1 else 0
  inode : ∀ i, s.iref i = pending s (.inode i) + heldI s i
  state : ∀ p, StateOK (s.proc p)
  pc : ∀ p, PcOK s p (s.proc p).pc
  child : ∀ p q np, (s.proc p).pc.child = some np → (s.proc q).pc.child = some np → p = q

/-! ## 局所の性質 -/

/-- 自分の記録と、作っている子の記録が同じなら、局所の性質も同じ。 -/
theorem PcOK.congr {s s' : FState} {p : ProcId} {c : Pc} (hp : (s'.proc p).ofile = (s.proc p).ofile)
    (hc : ∀ np, c.child = some np → s'.proc np = s.proc np) (h : PcOK s p c) : PcOK s' p c := by
  cases c with
  | forkCopy np => simpa only [PcOK, ForkOK, hc np rfl] using h
  | forkDup np i => simpa only [PcOK, ForkOK, hc np rfl] using h
  | forkSet np i f => simpa only [PcOK, ForkOK, hc np rfl, hp] using h
  | _ => simp only [PcOK, hp] at h ⊢ <;> exact h

theorem PcOK.child_used {s : FState} {p np : ProcId} {c : Pc} (h : PcOK s p c) (hc : c.child = some np) :
    np ≠ p ∧ (s.proc np).state = .used := by
  cases c <;> simp only [Pc.child, Option.some.injEq, reduceCtorEq] at hc <;> subst hc
  · exact ⟨h.1, h.2.1⟩
  · exact ⟨h.1, h.2.1⟩
  · exact ⟨h.1.1, h.1.2.1⟩

/-- スケジューラが選べるプロセスは、システムコールの外の状態のどれでもない。 -/
theorem StateOK.of_live {pr : FProc} (h : live pr.state = true) : StateOK pr where
  idle hs := by rcases hs with hs | hs | hs <;> rw [hs] at h <;> cases h
  empty hs := by rcases hs with hs | hs <;> rw [hs] at h <;> cases h

theorem StateOK.of_running {pr : FProc} (h : pr.state = .running) : StateOK pr :=
  .of_live (by rw [h]; rfl)

namespace FInv

variable {s : FState} {p q : ProcId} {f : Fin NFILE}

theorem refs_le (h : FInv s) (p : ProcId) (f : Fin NFILE) : (s.proc p).refs f ≤ (s.file f).ref := by
  rw [h.ref f]
  exact le_sum (fun q => (s.proc q).refs f) p

theorem pos_of_refs (h : FInv s) (hp : 0 < (s.proc p).refs f) : 0 < (s.file f).ref :=
  Nat.lt_of_lt_of_le hp (h.refs_le p f)

theorem pos_of_counts (h : FInv s) {fd : Fin NOFILE} (hs : (s.proc p).state ≠ .unused)
    (hc : (s.proc p).Counts f fd) : 0 < (s.file f).ref := by
  apply h.pos_of_refs (p := p)
  unfold FProc.refs
  have := FProc.one_le_slots hs hc
  omega

/-- システムコールの途中のプロセスは UNUSED でない。 -/
theorem ne_unused_of_pc (h : FInv s) (hpc : (s.proc p).pc ≠ .user) : (s.proc p).state ≠ .unused :=
  fun hs => hpc ((h.state p).idle (Or.inl hs)).1

/-- 取ったばかりのファイルは、それを取ったプロセスの勘定にある。 -/
theorem one_le_refs_of_fresh (h : FInv s) (hf : f ∈ freshFiles (s.proc p).pc) : 1 ≤ (s.proc p).refs f := by
  unfold FProc.refs
  rcases mem_held_of_fresh hf with hh | ⟨ip, omode, type, fd, hc⟩
  · have := List.count_pos_iff.mpr hh
    omega
  · -- sys_open が欄 fd に書いた後: その欄が参照を持つ
    have hpc := h.pc p
    rw [hc] at hpc
    have hs := h.ne_unused_of_pc (by rw [hc]; exact Pc.noConfusion)
    have := FProc.one_le_slots hs (⟨hpc, by rw [hc]; simp [Pc.unbacked]⟩ : (s.proc p).Counts f fd)
    omega

/-- 取ったばかりのファイルの参照は、取ったプロセスだけが持つ。 -/
theorem refs_eq_zero_of_fresh (h : FInv s) (hf : f ∈ freshFiles (s.proc q).pc) (hpq : p ≠ q) :
    (s.proc p).refs f = 0 := by
  have h1 := (h.fresh q f hf).2
  have hq := h.one_le_refs_of_fresh hf
  have hsum : (s.proc p).refs f + (s.proc q).refs f ≤ refSum s f :=
    add_le_sum_of_ne (fun r => (s.proc r).refs f) hpq
  rw [← h.ref f] at hsum
  omega

/-- p の勘定にあって、p が取ったばかりではないファイルは、誰の取ったばかりのファイルでもない。 -/
theorem not_fresh_of_refs (h : FInv s) (hp : 0 < (s.proc p).refs f)
    (hpf : f ∉ freshFiles (s.proc p).pc) (q : ProcId) : f ∉ freshFiles (s.proc q).pc := by
  intro hq
  have hpq : p ≠ q := by
    rintro rfl
    exact hpf hq
  have := h.refs_eq_zero_of_fresh hq hpq
  omega

/-- USED でないプロセスは、誰の fork の子でもない。 -/
theorem not_child_of_ne_used (h : FInv s) (hp : (s.proc p).state ≠ .used) (q : ProcId) :
    (s.proc q).pc.child ≠ some p :=
  fun hc => hp ((h.pc q).child_used hc).2

theorem not_child_of_running (h : FInv s) (hrun : (s.proc p).state = .running) (q : ProcId) :
    (s.proc q).pc.child ≠ some p :=
  h.not_child_of_ne_used (by rw [hrun]; decide) q

end FInv

/-! ## 勘定を変えない段 -/

/-- p の新しい子は、前からの p の子か、誰の子でもなかったプロセス。 -/
def ChildOK (s : FState) (p : ProcId) (c : Pc) : Prop :=
  ∀ np, c.child = some np → (s.proc p).pc.child = some np ∨ ∀ q, (s.proc q).pc.child ≠ some np

theorem ChildOK.of_none {s : FState} {p : ProcId} {c : Pc} (h : c.child = none) : ChildOK s p c := by
  intro np hnp
  rw [h] at hnp
  cases hnp

theorem ChildOK.of_eq {s : FState} {p : ProcId} {c : Pc} (h : c.child = (s.proc p).pc.child) :
    ChildOK s p c := fun _ hnp => .inl (h ▸ hnp)

/-- 走っているプロセス p の記録だけが変わる段の、プロセスの側の性質。 -/
theorem FInv.procs_update {s s' : FState} {p : ProcId} {pr' : FProc} (h : FInv s)
    (hrun : (s.proc p).state = .running) (hs' : s'.proc = update s.proc p pr')
    (hst : pr'.state = .running) (hchild : ChildOK s p pr'.pc) (hpc : PcOK s' p pr'.pc) :
    (∀ q, StateOK (s'.proc q)) ∧ (∀ q, PcOK s' q (s'.proc q).pc) ∧
      ∀ q q' np, (s'.proc q).pc.child = some np → (s'.proc q').pc.child = some np → q = q' := by
  refine ⟨fun q => ?_, fun q => ?_, fun q q' np hq hq' => ?_⟩
  · by_cases hq : q = p
    · subst hq
      rw [hs', update_self]
      exact StateOK.of_running hst
    · rw [hs', update_of_ne hq]
      exact h.state q
  · by_cases hq : q = p
    · subst hq
      rw [hs', update_self]
      exact hpc
    · rw [hs', update_of_ne hq]
      apply (h.pc q).congr (by rw [hs', update_of_ne hq])
      intro np hnp
      have hne : np ≠ p := fun e => h.not_child_of_running hrun q (e ▸ hnp)
      rw [hs', update_of_ne hne]
  · -- p の新しい子は、前からの子か誰の子でもなかったので、ほかの親と重ならない
    have old : ∀ r, r ≠ p → (s'.proc r).pc.child = (s.proc r).pc.child := by
      intro r hr
      rw [hs', update_of_ne hr]
    have side : ∀ r, r ≠ p → (s'.proc p).pc.child = some np → (s.proc r).pc.child = some np → p = r := by
      intro r hr hp hr'
      rw [hs', update_self] at hp
      rcases hchild np hp with hc | hc
      · exact h.child p r np hc hr'
      · exact absurd hr' (hc r)
    by_cases hqp : q = p <;> by_cases hq'p : q' = p
    · rw [hqp, hq'p]
    · subst hqp
      exact side q' hq'p hq (old q' hq'p ▸ hq')
    · subst hq'p
      exact (side q hqp hq' (old q hqp ▸ hq)).symm
    · exact h.child q q' np (old q hqp ▸ hq) (old q' hq'p ▸ hq')

/-- 走っているプロセス p の記録だけを書き換え、勘定も後始末も inode の参照も変えない段。 -/
theorem FInv.setProc {s : FState} {p : ProcId} {pr' : FProc} (h : FInv s)
    (hrun : (s.proc p).state = .running) (hst : pr'.state = .running)
    (hrefs : ∀ g, pr'.refs g = (s.proc p).refs g) (hrel : pr'.release = (s.proc p).release)
    (hI : heldInode pr'.pc = heldInode (s.proc p).pc)
    (hfresh : ∀ f ∈ freshFiles pr'.pc, f ∈ freshFiles (s.proc p).pc) (hchild : ChildOK s p pr'.pc)
    (hpc : PcOK (s.setProc p pr') p pr'.pc) : FInv (s.setProc p pr') := by
  obtain ⟨hstate, hpcs, hch⟩ := h.procs_update hrun rfl hst hchild hpc
  refine ⟨fun g => ?_, h.none_of_zero, fun q f hf => ?_, fun x w => ?_, fun i => ?_, hstate, hpcs, hch⟩
  · rw [refSum_setProc_of_refs hrefs]
    exact h.ref g
  · by_cases hq : q = p
    · subst hq
      simp only [FState.setProc_proc, update_self] at hf
      exact h.fresh q f (hfresh f hf)
    · simp only [FState.setProc_proc, update_of_ne hq] at hf
      exact h.fresh q f hf
  · rw [pending_setProc_of_eq hrel]
    exact h.pipe x w
  · rw [pending_setProc_of_eq hrel, heldI_setProc_of_eq hI]
    exact h.inode i

/-- プロセス q の状態だけを変える段。q は誰の子でもなく、欄の勘定は変わらない。 -/
theorem FInv.setState {s : FState} {q : ProcId} {st : ProcState} (h : FInv s)
    (hslots : (st = .unused ↔ (s.proc q).state = .unused) ∨ ∀ fd, (s.proc q).ofile fd = none)
    (hok : StateOK { s.proc q with state := st }) (hnc : ∀ r, (s.proc r).pc.child ≠ some q) :
    FInv (s.setProc q { s.proc q with state := st }) := by
  let pr' : FProc := { s.proc q with state := st }
  change FInv (s.setProc q pr')
  have hsame : ∀ r, (s.setProc q pr').proc r = s.proc r ∨ (r = q ∧ (s.setProc q pr').proc r = pr') := by
    intro r
    by_cases hr : r = q
    · subst hr
      exact .inr ⟨rfl, by simp⟩
    · exact .inl (by simp [update_of_ne hr])
  have hpcs : ∀ r, ((s.setProc q pr').proc r).pc = (s.proc r).pc := by
    intro r
    rcases hsame r with e | ⟨rfl, e⟩ <;> rw [e]
  have hrefs : ∀ g, pr'.refs g = (s.proc q).refs g := by
    intro g
    unfold FProc.refs
    congr 1
    rcases hslots with hu | he
    · exact FProc.slots_congr hu fun fd => Iff.rfl
    · rw [FProc.slots_of_empty he, @FProc.slots_of_empty pr' _ he]
  refine ⟨fun g => ?_, h.none_of_zero, fun r f hf => ?_, fun x w => ?_, fun i => ?_, fun r => ?_,
    fun r => ?_, fun r r' np hr hr' => ?_⟩
  · rw [refSum_setProc_of_refs hrefs]
    exact h.ref g
  · rw [hpcs r] at hf
    exact h.fresh r f hf
  · rw [@pending_setProc_of_eq _ _ pr' rfl]
    exact h.pipe x w
  · rw [@pending_setProc_of_eq _ _ pr' rfl, @heldI_setProc_of_eq _ _ pr' rfl]
    exact h.inode i
  · rcases hsame r with e | ⟨rfl, e⟩ <;> rw [e]
    · exact h.state r
    · exact hok
  · -- 自分の記録の欄と、作っている子の記録は変わらない
    rw [hpcs r]
    apply (h.pc r).congr (by rcases hsame r with e | ⟨rfl, e⟩ <;> rw [e])
    intro np hnp
    have hne : np ≠ q := fun e => hnc r (e ▸ hnp)
    simp [update_of_ne hne]
  · rw [hpcs] at hr hr'
    exact h.child r r' np hr hr'

/-- fork の終わり: p は呼び出しを終え、子 np の状態を st にする（uvmcopy の失敗なら UNUSED、
複写が終われば RUNNABLE）。 -/
theorem FInv.endFork {s : FState} {p np : ProcId} {st : ProcState} (h : FInv s)
    (hrun : (s.proc p).state = .running) (hch : (s.proc p).pc.child = some np)
    (hheld : heldFiles (s.proc p).pc = []) (hub : (s.proc p).pc.unbacked = none)
    (hI : heldInode (s.proc p).pc = [])
    (hslots : (st = .unused ↔ (s.proc np).state = .unused) ∨ ∀ fd, (s.proc np).ofile fd = none)
    (hok : StateOK { s.proc np with state := st }) :
    FInv ((s.setProc np { s.proc np with state := st }).setPc p .user) := by
  have hnp : np ≠ p := ((h.pc p).child_used hch).1
  rw [FState.setPc_setProc_comm s hnp]
  have h₁ : FInv (s.setPc p .user) := by
    rw [FState.setPc_def]
    exact h.setProc hrun hrun (FProc.refs_congr Iff.rfl rfl hub.symm hheld.symm) rfl hI.symm
      (fun f hf => by simp [freshFiles] at hf) (.of_none rfl) trivial
  have hnp₁ : (s.setPc p .user).proc np = s.proc np := by
    simp [FState.setPc_def, update_of_ne hnp]
  -- p が子を手放したので、np は誰の子でもない
  have hnc : ∀ r, ((s.setPc p .user).proc r).pc.child ≠ some np := by
    intro r hr
    by_cases hrp : r = p
    · subst hrp
      simp [FState.setPc_def, Pc.child] at hr
    · simp only [FState.setPc_def, FState.setProc_proc, update_of_ne hrp] at hr
      exact hrp (h.child r p np hr hch)
  have h₂ := @FInv.setState _ np st h₁ (by rw [hnp₁]; exact hslots) (by rw [hnp₁]; exact hok) hnc
  rwa [hnp₁] at h₂

/-- p の実行の位置だけが変わり、呼び出しが持つ inode の参照の数の変化を、inode の `ref` が
同じだけ追う段: namei か create が返した参照を取ることと、`iunlockput` で返すこと。 -/
theorem FInv.setPcIref {s : FState} {p : ProcId} {c : Pc} {iref' : Nat → Int} (h : FInv s)
    (hrun : (s.proc p).state = .running)
    (hiref : ∀ i, iref' i + (heldInode (s.proc p).pc).count i = s.iref i + (heldInode c).count i)
    (hheld : heldFiles c = heldFiles (s.proc p).pc) (hub : c.unbacked = (s.proc p).pc.unbacked)
    (hfresh : freshFiles c = []) (hchild : c.child = none) (hpc : PcOK s p c) :
    FInv (({ s with iref := iref' } : FState).setPc p c) := by
  let s₁ : FState := { s with iref := iref' }
  let pr' : FProc := { s.proc p with pc := c }
  change FInv (s₁.setProc p pr')
  have hrefs : ∀ g, pr'.refs g = (s.proc p).refs g := FProc.refs_congr Iff.rfl rfl hub hheld
  obtain ⟨hstate, hpcs, hch⟩ := @FInv.procs_update _ (s₁.setProc p pr') _ _ h hrun rfl hrun (.of_none hchild)
    (hpc.congr (by simp [pr']) fun np hnp => by rw [hchild] at hnp; cases hnp)
  refine ⟨fun g => ?_, h.none_of_zero, fun q f hf => ?_, fun x w => ?_, fun i => ?_, hstate, hpcs, hch⟩
  · rw [refSum_setProc_of_refs (s := s₁) hrefs]
    exact h.ref g
  · by_cases hq : q = p
    · subst hq
      simp [pr', hfresh] at hf
    · simp only [FState.setProc_proc, update_of_ne hq] at hf
      exact h.fresh q f hf
  · rw [@pending_setProc_of_eq s₁ _ pr' rfl]
    exact h.pipe x w
  · have h1 := heldI_setProc s₁ p pr' i
    have h2 := hiref i
    have h3 := h.inode i
    rw [@pending_setProc_of_eq s₁ _ pr' rfl]
    change iref' i = (pending s (.inode i) : Int) + (heldI (s₁.setProc p pr') i : Int)
    change _ + (heldInode (s.proc p).pc).count i = heldI s i + (heldInode c).count i at h1
    omega

/-- `fileclose` の後半: p が負っていた後始末 r を終える段。管の端の印か inode の `ref` が、
消える後始末のぶんだけ動く。 -/
theorem FInv.finishRelease {s s₁ : FState} {p : ProcId} {r : Release} (h : FInv s)
    (hrun : (s.proc p).state = .running) (hrel : (s.proc p).release = some r)
    (hfile : s₁.file = s.file) (hproc : s₁.proc = s.proc)
    (hpipe : ∀ x w, (if endOpen (s₁.pipe x) w then 1 else 0) + (if r = .pipe x w then 1 else 0) =
      if endOpen (s.pipe x) w then 1 else 0)
    (hiref : ∀ i, s₁.iref i + (if r = .inode i then 1 else 0) = s.iref i) :
    FInv (s₁.setProc p { s.proc p with release := none }) := by
  let pr' : FProc := { s.proc p with release := none }
  change FInv (s₁.setProc p pr')
  -- 勘定と途中で持つ inode の参照は release を読まない
  have hsame : ∀ q, (s₁.setProc p pr').proc q = s.proc q ∨ (q = p ∧ (s₁.setProc p pr').proc q = pr') := by
    intro q
    by_cases hq : q = p
    · subst hq
      exact .inr ⟨rfl, by simp⟩
    · exact .inl (by simp [hproc, update_of_ne hq])
  have hrefs : ∀ g, refSum (s₁.setProc p pr') g = refSum s g := by
    intro g
    refine Finset.sum_congr rfl fun q _ => ?_
    rcases hsame q with e | ⟨rfl, e⟩ <;> rw [e]
    rfl
  have hI : ∀ i, heldI (s₁.setProc p pr') i = heldI s i := by
    intro i
    refine Finset.sum_congr rfl fun q _ => ?_
    rcases hsame q with e | ⟨rfl, e⟩ <;> rw [e]
  have hpend : ∀ r', pending (s₁.setProc p pr') r' + (if r = r' then 1 else 0) = pending s r' := by
    intro r'
    have := pending_setProc s₁ p pr' r'
    rw [show pending s₁ r' = pending s r' by simp only [pending, hfile, hproc]] at this
    simp only [pr', hproc, hrel, Option.some.injEq, reduceCtorEq, if_false, Nat.add_zero] at this
    exact this
  obtain ⟨hstate, hpcs, hch⟩ := @FInv.procs_update _ (s₁.setProc p pr') _ pr' h hrun
    (by rw [FState.setProc_proc, hproc]) hrun
    (.of_eq rfl) ((h.pc p).congr (by simp [pr']) fun np hnp => by
      have hne : np ≠ p := ((h.pc p).child_used hnp).1
      simp [hproc, update_of_ne hne])
  refine ⟨fun g => ?_, fun g hg => ?_, fun q f hf => ?_, fun x w => ?_, fun i => ?_, hstate, hpcs, hch⟩
  · rw [hrefs g]
    simp only [FState.setProc_file, hfile]
    exact h.ref g
  · simp only [FState.setProc_file, hfile] at hg ⊢
    exact h.none_of_zero g hg
  · have hpc : ((s₁.setProc p pr').proc q).pc = (s.proc q).pc := by
      by_cases hq : q = p
      · subst hq
        simp [pr']
      · simp [hproc, update_of_ne hq]
    rw [hpc] at hf
    simpa only [FState.setProc_file, hfile] using h.fresh q f hf
  · have h1 := hpend (.pipe x w)
    have h2 := hpipe x w
    have h3 := h.pipe x w
    have : pending (s₁.setProc p pr') (.pipe x w) = if endOpen (s₁.pipe x) w then 1 else 0 := by omega
    exact this
  · have h1 := hpend (.inode i)
    have h2 := hiref i
    have h3 := h.inode i
    rw [hI i]
    have : s₁.iref i = (pending (s₁.setProc p pr') (.inode i) : Int) + heldI s i := by
      by_cases hr : r = .inode i
      · rw [if_pos hr] at h1 h2
        omega
      · rw [if_neg hr] at h1 h2
        omega
    exact this

/-! ## ファイル表の操作 -/

/-- `filealloc` が返したファイル f を、p が呼び出しの手に取る段。 -/
theorem FInv.alloc {s : FState} {p : ProcId} {f : Fin NFILE} {c : Pc} (h : FInv s)
    (hrun : (s.proc p).state = .running) (h0 : (s.file f).ref = 0)
    (hheld : ∀ g, (heldFiles c).count g = (heldFiles (s.proc p).pc).count g + if f = g then 1 else 0)
    (hub : c.unbacked = (s.proc p).pc.unbacked) (hI : heldInode c = heldInode (s.proc p).pc)
    (hfresh : ∀ g ∈ freshFiles c, g = f ∨ g ∈ freshFiles (s.proc p).pc) (hchild : c.child = none)
    (hpc : PcOK s p c) : FInv ((s.setFile f { s.file f with ref := 1 }).setPc p c) := by
  let x : File := { s.file f with ref := 1 }
  let pr' : FProc := { s.proc p with pc := c }
  change FInv ((s.setFile f x).setProc p pr')
  have hrefs : ∀ g, pr'.refs g = (s.proc p).refs g + if f = g then 1 else 0 := by
    intro g
    unfold FProc.refs
    rw [@FProc.slots_congr (s.proc p) pr' _ Iff.rfl
      fun fd => by simp only [FProc.Counts, pr', hub], hheld g]
    omega
  have hsum : ∀ g, refSum ((s.setFile f x).setProc p pr') g = refSum s g + if f = g then 1 else 0 := by
    intro g
    have := refSum_setProc (s.setFile f x) p pr' g
    rw [refSum_setFile, hrefs g] at this
    change _ + (s.proc p).refs g = _ at this
    omega
  have hnone := h.none_of_zero f h0
  have hpend : ∀ r, pending ((s.setFile f x).setProc p pr') r = pending s r := by
    intro r
    rw [@pending_setProc_of_eq (s.setFile f x) _ pr' rfl, pending_setFile_of_eq]
    rw [File.owes_of_none (x := x) hnone, File.owes, if_neg (by omega)]
  -- 取ったばかりのファイルは、ref が 1 なので f ではない
  have hfne : ∀ q g, g ∈ freshFiles (s.proc q).pc → g ≠ f := by
    rintro q g hg rfl
    have := (h.fresh q g hg).2
    omega
  obtain ⟨hstate, hpcs, hch⟩ := @FInv.procs_update _ ((s.setFile f x).setProc p pr') _ _ h hrun rfl hrun
    (.of_none hchild) (hpc.congr (by simp [pr']) fun np hnp => by rw [hchild] at hnp; cases hnp)
  refine ⟨fun g => ?_, fun g hg => ?_, fun q g hg => ?_, fun y w => ?_, fun i => ?_, hstate, hpcs, hch⟩
  · rw [hsum g]
    by_cases hg : g = f
    · subst hg
      simp [x, ← h.ref g, h0]
    · simp [update_of_ne hg, if_neg (Ne.symm hg), h.ref g]
  · by_cases hgf : g = f
    · subst hgf
      simp [x] at hg
    · simp only [FState.setProc_file, FState.setFile_file, update_of_ne hgf] at hg ⊢
      exact h.none_of_zero g hg
  · by_cases hq : q = p
    · subst hq
      simp only [FState.setProc_proc, update_self, pr'] at hg
      rcases hfresh g hg with rfl | hg'
      · simp [x, hnone]
      · simpa [update_of_ne (hfne q g hg')] using h.fresh q g hg'
    · simp only [FState.setProc_proc, update_of_ne hq] at hg
      simpa [update_of_ne (hfne q g hg)] using h.fresh q g hg
  · rw [hpend]
    exact h.pipe y w
  · rw [hpend, heldI_setProc_of_eq hI, heldI_setFile]
    exact h.inode i

/-- `filedup(f)` が増やした参照を、p の勘定が一つ受け取る段。 -/
theorem FInv.dup {s : FState} {p : ProcId} {f : Fin NFILE} {pr' : FProc} (h : FInv s)
    (hrun : (s.proc p).state = .running) (hpos : 0 < (s.proc p).refs f)
    (hnf : f ∉ freshFiles (s.proc p).pc) (hst : pr'.state = .running)
    (hrefs : ∀ g, pr'.refs g = (s.proc p).refs g + if f = g then 1 else 0)
    (hrel : pr'.release = (s.proc p).release) (hI : heldInode pr'.pc = heldInode (s.proc p).pc)
    (hfresh : freshFiles pr'.pc = []) (hchild : pr'.pc.child = none ∨ pr'.pc.child = (s.proc p).pc.child)
    (hpc : PcOK s p pr'.pc) (hof : pr'.ofile = (s.proc p).ofile) :
    FInv ((s.setFile f { s.file f with ref := (s.file f).ref + 1 }).setProc p pr') := by
  let x : File := { s.file f with ref := (s.file f).ref + 1 }
  change FInv ((s.setFile f x).setProc p pr')
  have hf := h.pos_of_refs hpos
  have hsum : ∀ g, refSum ((s.setFile f x).setProc p pr') g = refSum s g + if f = g then 1 else 0 := by
    intro g
    have := refSum_setProc (s.setFile f x) p pr' g
    rw [refSum_setFile, hrefs g] at this
    change _ + (s.proc p).refs g = _ at this
    omega
  have hpend : ∀ r, pending ((s.setFile f x).setProc p pr') r = pending s r := by
    intro r
    rw [@pending_setProc_of_eq (s.setFile f x) _ pr' hrel, pending_setFile_of_eq]
    exact File.owes_congr (x := x) (by simp [x]) hf rfl rfl rfl rfl
  have hfne : ∀ q g, g ∈ freshFiles (s.proc q).pc → g ≠ f := by
    rintro q g hg rfl
    exact h.not_fresh_of_refs hpos hnf q hg
  -- 作っている子は走っていないので、p ではない
  have hnp : ∀ np, pr'.pc.child = some np → np ≠ p := by
    intro np hnp
    rcases hchild with hc | hc
    · rw [hc] at hnp; cases hnp
    · rw [hc] at hnp
      exact fun e => h.not_child_of_running hrun p (e ▸ hnp)
  obtain ⟨hstate, hpcs, hch⟩ := @FInv.procs_update _ ((s.setFile f x).setProc p pr') _ _ h hrun rfl hst
    (hchild.elim ChildOK.of_none ChildOK.of_eq) (hpc.congr (by simp [hof]) fun np hc => by simp [update_of_ne (hnp np hc)])
  refine ⟨fun g => ?_, fun g hg => ?_, fun q g hg => ?_, fun y w => ?_, fun i => ?_, hstate, hpcs, hch⟩
  · rw [hsum g]
    by_cases hg : g = f
    · subst hg
      simp [x, h.ref g]
    · simp [update_of_ne hg, if_neg (Ne.symm hg), h.ref g]
  · by_cases hgf : g = f
    · subst hgf
      simp [x] at hg
    · simp only [FState.setProc_file, FState.setFile_file, update_of_ne hgf] at hg ⊢
      exact h.none_of_zero g hg
  · by_cases hq : q = p
    · subst hq
      simp [hfresh] at hg
    · simp only [FState.setProc_proc, update_of_ne hq] at hg
      simpa [update_of_ne (hfne q g hg)] using h.fresh q g hg
  · rw [hpend]
    exact h.pipe y w
  · rw [hpend, @heldI_setProc_of_eq (s.setFile f x) _ pr' hI, heldI_setFile]
    exact h.inode i

/-- `fileclose(f)` の前半で、p の勘定から f の参照が一つ減る段。参照が 0 になれば、f が負う
後始末が p の `release` に移る。 -/
theorem FInv.close1 {s s₁ : FState} {p : ProcId} {f : Fin NFILE} {r : Option Release} {c : Pc}
    (h : FInv s) (hrun : (s.proc p).state = .running) (hrel : (s.proc p).release = none)
    (hnf : f ∉ freshFiles (s.proc p).pc)
    (hrefs : ∀ g, ({ s.proc p with pc := c } : FProc).refs g + (if f = g then 1 else 0) = (s.proc p).refs g)
    (hI : heldInode c = heldInode (s.proc p).pc) (hfresh : freshFiles c = []) (hchild : c.child = none)
    (hpc : PcOK s p c) (hcl : fileclose s f = some (s₁, r)) :
    FInv (s₁.setProc p { s₁.proc p with pc := c, release := r }) := by
  have hpos : 0 < (s.proc p).refs f := by
    have := hrefs f
    rw [if_pos rfl] at this
    omega
  have hf := h.pos_of_refs hpos
  have hfne : ∀ q g, g ∈ freshFiles (s.proc q).pc → g ≠ f := by
    rintro q g hg rfl
    exact h.not_fresh_of_refs hpos hnf q hg
  -- ファイルの書き換えの後で、p の記録を書き換える
  have key : ∀ x : File, x.ref = (s.file f).ref - 1 → (x.ref = 0 → x.type = .none) →
      (∀ r', pending (s.setFile f x) r' + (if r = some r' then 1 else 0) = pending s r') →
      FInv ((s.setFile f x).setProc p { s.proc p with pc := c, release := r }) := by
    intro x hx hx0 hpx
    let pr' : FProc := { s.proc p with pc := c, release := r }
    change FInv ((s.setFile f x).setProc p pr')
    have hsum : ∀ g, refSum ((s.setFile f x).setProc p pr') g + (if f = g then 1 else 0) = refSum s g := by
      intro g
      have h1 := refSum_setProc (s.setFile f x) p pr' g
      have h2 := hrefs g
      rw [refSum_setFile] at h1
      change _ + (s.proc p).refs g = _ + pr'.refs g at h1
      change pr'.refs g + _ = _ at h2
      omega
    -- f が負う後始末は、p の release に移るか、f に残る
    have hpend : ∀ r', pending ((s.setFile f x).setProc p pr') r' = pending s r' := by
      intro r'
      have h1 := pending_setProc (s.setFile f x) p pr' r'
      have h2 := hpx r'
      simp only [FState.setFile_proc, hrel, reduceCtorEq, if_false, Nat.add_zero] at h1
      change _ = _ + (if r = some r' then 1 else 0) at h1
      omega
    obtain ⟨hstate, hpcs, hch⟩ := @FInv.procs_update _ ((s.setFile f x).setProc p pr') _ _ h hrun rfl hrun
      (.of_none hchild) (hpc.congr (by simp [pr']) fun np hnp => by rw [hchild] at hnp; cases hnp)
    refine ⟨fun g => ?_, fun g hg => ?_, fun q g hg => ?_, fun y w => ?_, fun i => ?_, hstate, hpcs, hch⟩
    · have := hsum g
      by_cases hg : g = f
      · subst hg
        rw [if_pos rfl] at this
        simp only [FState.setProc_file, FState.setFile_file, update_self, hx]
        rw [h.ref g] at hf ⊢
        omega
      · simp only [if_neg (Ne.symm hg), Nat.add_zero] at this
        simp [update_of_ne hg, h.ref g, this]
    · by_cases hgf : g = f
      · subst hgf
        simp only [FState.setProc_file, FState.setFile_file, update_self] at hg ⊢
        exact hx0 hg
      · simp only [FState.setProc_file, FState.setFile_file, update_of_ne hgf] at hg ⊢
        exact h.none_of_zero g hg
    · by_cases hq : q = p
      · subst hq
        simp [pr', hfresh] at hg
      · simp only [FState.setProc_proc, update_of_ne hq] at hg
        simpa [update_of_ne (hfne q g hg)] using h.fresh q g hg
    · rw [hpend (.pipe y w)]
      exact h.pipe y w
    · rw [hpend (.inode i), @heldI_setProc_of_eq (s.setFile f x) _ pr' hI, heldI_setFile]
      exact h.inode i
  rcases Nat.lt_or_ge 1 (s.file f).ref with h1 | h1
  · -- 参照が残る: 後始末はない
    rw [fileclose_of_one_lt h1] at hcl
    cases hcl
    refine key _ rfl (fun h0 => by simp at h0; omega) fun r' => ?_
    rw [pending_setFile_of_eq (x := { s.file f with ref := (s.file f).ref - 1 })
      (File.owes_congr (show 0 < (s.file f).ref - 1 by omega) hf rfl rfl rfl rfl)]
    simp
  · -- 最後の参照: f が負う後始末が p に移る
    have h1' : (s.file f).ref = 1 := by omega
    rw [fileclose_of_eq_one h1'] at hcl
    cases hcl
    refine key _ (by simp [h1']) (fun _ => rfl) fun r' => ?_
    have := pending_setFile s f { s.file f with ref := 0, type := .none } r'
    rw [File.owes_of_pos hf] at this
    simp only [File.owes, lt_self_iff_false, if_false, reduceCtorEq] at this
    omega

end Xv6.Ftable
