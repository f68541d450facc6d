import Xv6.Ftable.Steps

/-!
# ファイル表の定理

どの段も `FInv` を保ち、panic しない（`act_inv`）。起動の後の状態で `FInv` が成り立つので、
到達可能なすべての状態で成り立つ（`FInv.reach`）。そこから、開いたファイルの参照の勘定を
言明する（`FileSafe`）。

`ref` は、UNUSED でないプロセスの欄のうち参照を持つものと、走っているシステムコールが持つ
参照の和である。sys_dup は `fdalloc` で欄を書いてから `filedup` し、exit は `fileclose` を
してから欄を空けるので、その間の欄は参照を持たない。exit の間の欄は、`ref` が 0 になった
ファイルを指しうる（`exit_slot_ref_zero`）。
-/

namespace Xv6.Ftable

open Function Xv6.Lib
open Xv6.Process (ProcId ProcState)
open Xv6.Dir (NOFILE)

variable {s s' : FState} {p : ProcId}

/-! ## 一段 -/

/-- システムコールの始め。 -/
theorem call_inv (h : FInv s) (hrun : (s.proc p).state = .running) (hpc : (s.proc p).pc = .user)
    (c : Call) : FInv (call s p c) := by
  cases c with
  | close fd => exact sysClose_inv h hrun hpc fd
  | dup fd => exact sysDup_inv h hrun hpc fd
  | «open» r omode => exact sysOpen_inv h hrun hpc r omode
  | pipe => exact sysPipe_inv h hrun hpc
  | fork ok => exact fork_inv h hrun hpc ok
  | clone ns ok => exact clone_inv h hrun hpc ns ok
  | exit => exact exit_inv h hrun hpc
  | wait c => exact wait_inv h c
  | exec => exact h

/-- 走っているプロセスの一段は panic せず、`FInv` を保つ。kalloc が返す管のページは、使って
いる管のものではない。 -/
theorem act_inv (h : FInv s) (hrun : (s.proc p).state = .running) (e : Env)
    (hpi : ∀ x, e.pi = some x → s.pipe x = none) : ∃ s', act s p e = some s' ∧ FInv s' := by
  unfold act
  split
  · next r hr => exact closeRelease_inv h hrun hr
  · next hr =>
    -- `fileclose` の後半が無ければ、実行の位置ごとの段
    split
    · next hpc => exact ⟨_, rfl, call_inv h hrun hpc e.call⟩
    · next fs put hpc => exact closeStep_inv h hrun hr hpc
    · next f fd nfd hpc => exact dupFinish_inv h hrun hpc
    · next ip omode type hpc => exact ⟨_, rfl, openAlloc_inv h hrun hpc⟩
    · next ip omode type f hpc => exact ⟨_, rfl, openFd_inv h hrun hpc⟩
    · next ip omode type f fd hpc => exact ⟨_, rfl, openInit_inv h hrun hpc⟩
    · next f0 hpc => exact ⟨_, rfl, pipeAlloc_inv h hrun hpc⟩
    · next f0 f1 hpc => exact ⟨_, rfl, pipeKalloc_inv h hrun hpc e.pi hpi⟩
    · next rf wf hpc => exact ⟨_, rfl, pipeFd0_inv h hrun hpc⟩
    · next rf wf fd0 hpc => exact ⟨_, rfl, pipeFd1_inv h hrun hpc⟩
    · next rf wf fd0 fd1 hpc => exact ⟨_, rfl, pipeCopy_inv h hrun hpc e.ok⟩
    · next rf wf fd1 hpc => exact ⟨_, rfl, pipeUndo_inv h hrun hpc⟩
    · next np hpc => exact ⟨_, rfl, forkCopy_inv h hrun hpc e.ok⟩
    · next np i hpc => exact forkDup_inv h hrun hpc
    · next np i f hpc => exact ⟨_, rfl, forkSet_inv h hrun hpc⟩
    · next fd hpc => exact exitLoop_inv h hrun hr hpc
    · next fd hpc => exact ⟨_, rfl, exitClear_inv h hrun hpc⟩

theorem FInv.step (h : FInv s) (hs : FStep s s') : FInv s' := by
  cases hs with
  | sched p st hp hst => exact h.sched hp hst
  | act p e hrun hpi ha =>
      obtain ⟨s₁, hs₁, hinv⟩ := act_inv h hrun e hpi
      rw [ha] at hs₁
      cases hs₁
      exact hinv

/-! ## 起動と到達 -/

theorem FInv.init : FInv FState.init := by
  have hrefs : ∀ p f, (FState.init.proc p).refs f = 0 := by
    intro p f
    unfold FProc.refs
    rw [FProc.slots_of_empty fun _ => rfl]
    rfl
  have hpend : ∀ r, pending FState.init r = 0 := by
    intro r
    simp [pending, FState.init, File.owes, File.empty]
  have hheld : ∀ i, heldI FState.init i = 0 := by
    intro i
    simp [heldI, FState.init, heldInode]
  refine ⟨fun f => ?_, fun _ _ => rfl, fun p f hf => ?_, fun x w => ?_, fun i => ?_, fun p => ?_,
    fun _ => trivial, fun p q np hp _ => ?_⟩
  · simp [refSum, hrefs]
    rfl
  · simp [FState.init, freshFiles] at hf
  · rw [hpend]
    cases w <;> rfl
  · rw [hpend, hheld]
    rfl
  · exact ⟨fun _ => ⟨rfl, rfl⟩, fun _ _ => rfl⟩
  · simp [FState.init, Pc.child] at hp

/-- 到達可能なすべての状態で `FInv` が成り立つ。 -/
theorem FInv.reach (h : FReach s) : FInv s :=
  Reachable.inv (fun _ hs => hs ▸ FInv.init) (fun _ _ hi hs => hi.step hs) h

/-! ## 開いたファイルの参照の勘定 -/

/-- 欄が指すファイルの参照は 0 でない。ただし exit が `fileclose` をして、まだ空けていない欄は
除く。 -/
theorem FInv.slot_ref_pos (h : FInv s) {fd : Fin NOFILE} {f : Fin NFILE}
    (hp : (s.proc p).ofile fd = some f) : 0 < (s.file f).ref ∨ (s.proc p).pc = .exitClear fd := by
  have hs : (s.proc p).state ≠ .unused := by
    intro hu
    rw [(h.state p).empty (.inl hu) fd] at hp
    cases hp
  by_cases hub : (s.proc p).pc.unbacked = some fd
  · -- 参照を持たない欄は、sys_dup が書いた新しい欄か、exit が閉じた欄
    cases hc : (s.proc p).pc with
    | dup f' fd' nfd =>
        have hok := h.pc p
        rw [hc] at hok
        obtain ⟨hne, hfd', hnfd⟩ := hok
        rw [hc] at hub
        simp only [Pc.unbacked, Option.some.injEq] at hub
        subst hub
        rw [hnfd] at hp
        cases hp
        -- 同じファイルを指す元の欄 fd' が参照を持つ
        refine .inl (h.pos_of_counts hs ⟨hfd', ?_⟩)
        rw [hc]
        simpa [Pc.unbacked] using Ne.symm hne
    | exitClear fd' =>
        rw [hc] at hub
        simp only [Pc.unbacked, Option.some.injEq] at hub
        rw [hub]
        exact .inr rfl
    | _ =>
        rw [hc] at hub
        simp [Pc.unbacked] at hub
  · exact .inl (h.pos_of_counts hs ⟨hp, hub⟩)

/-- 開いたファイルの参照の勘定。

- ファイルの `ref` は、UNUSED でないプロセスの欄のうち参照を持つもの（`slotCount`）と、
  走っているシステムコールが持つ参照（`heldCount`）の和。
- 欄が指すファイルの `ref` は 0 でない。ただし exit が `fileclose` をして、まだ空けていない
  欄は除く。
- 管の端ごとに、それを閉じる `fileclose` の後半（生きたファイルが負うものと、前半の後で
  プロセスが負うもの）は、端が開いていれば一つ、閉じていれば無い。inode の参照は、それを
  put する後始末と、sys_open が持つものの和。
- 走っているプロセスの一段は panic しない。 -/
structure FileSafe (s : FState) : Prop where
  ref : ∀ f, (s.file f).ref = slotCount s f + heldCount s f
  slot : ∀ p fd f, (s.proc p).ofile fd = some f → 0 < (s.file f).ref ∨ (s.proc p).pc = .exitClear fd
  pipe : ∀ x w, pending s (.pipe x w) = if endOpen (s.pipe x) w then 1 else 0
  inode : ∀ i, s.iref i = pending s (.inode i) + heldI s i
  progress : ∀ p e, (s.proc p).state = .running → (∀ x, e.pi = some x → s.pipe x = none) →
    ∃ s', act s p e = some s' ∧ FStep s s'

theorem freach_fileSafe (h : FReach s) : FileSafe s := by
  have hi := FInv.reach h
  refine ⟨fun f => ?_, fun p fd f hp => hi.slot_ref_pos hp, hi.pipe, hi.inode, fun p e hrun hpi => ?_⟩
  · rw [hi.ref f, refSum_eq]
  · obtain ⟨s', hs', -⟩ := act_inv hi hrun e hpi
    exact ⟨s', hs', .act p e hrun hpi hs'⟩

/-- 最初のプロセスが走り、open でファイルを取って欄 0 に置くまでの五段。 -/
theorem freach_openInit : FReach (openInit (openFd (openAlloc (sysOpen
    (FState.init.setProc 0 { FState.init.proc 0 with state := .running }) 0 (some (1, .file, 0)) 0)
    0 1 0 .file) 0 1 0 .file 0) 0 1 0 .file 0) := by
  let s₁ := FState.init.setProc 0 { FState.init.proc 0 with state := .running }
  let s₂ := sysOpen s₁ 0 (some (1, .file, 0)) 0
  let s₃ := openAlloc s₂ 0 1 0 .file
  let s₄ := openFd s₃ 0 1 0 .file 0
  have hpi : ∀ (s : FState) x, (none : Option Nat) = some x → s.pipe x = none := fun _ _ h => by cases h
  -- 途中の段では、始める呼び出しは読まれない
  have r₁ : FReach s₁ := .step (.init rfl) (FStep.sched 0 .running rfl rfl)
  have r₂ : FReach s₂ := .step r₁ (FStep.act 0 ⟨.open (some (1, .file, 0)) 0, none, true⟩ rfl (hpi s₁) rfl)
  have r₃ : FReach s₃ := .step r₂ (FStep.act 0 ⟨.exec, none, true⟩ rfl (hpi s₂) rfl)
  have r₄ : FReach s₄ := .step r₃ (FStep.act 0 ⟨.exec, none, true⟩ rfl (hpi s₃) rfl)
  exact .step r₄ (FStep.act 0 ⟨.exec, none, true⟩ rfl (hpi s₄) rfl)

/-- 最初のプロセスがファイルを開いて欄 0 に置いた状態。 -/
theorem openInit_fileSafe : ∃ s, FReach s ∧ (s.proc 0).ofile 0 = some 0 ∧ FileSafe s :=
  ⟨_, freach_openInit, rfl, freach_fileSafe freach_openInit⟩

/-- exit の `fileclose` と `p->ofile[fd] = 0` の間では、UNUSED でないプロセスの欄が `ref` の
0 のファイルを指す: 最初のプロセスがファイルを開き、exit が欄 0 のファイルを閉じた直後。 -/
theorem exit_slot_ref_zero : ∃ s, FReach s ∧ ∃ p fd f, (s.proc p).state ≠ .unused ∧
    (s.proc p).ofile fd = some f ∧ (s.file f).ref = 0 := by
  let s₅ := openInit (openFd (openAlloc (sysOpen
    (FState.init.setProc 0 { FState.init.proc 0 with state := .running }) 0 (some (1, .file, 0)) 0)
    0 1 0 .file) 0 1 0 .file 0) 0 1 0 .file 0
  let s₆ := exit s₅ 0
  let s₇ := (exitLoop s₆ 0 0).getD s₆
  have hpi : ∀ (s : FState) x, (none : Option Nat) = some x → s.pipe x = none := fun _ _ h => by cases h
  have r₆ : FReach s₆ := .step freach_openInit (FStep.act 0 ⟨.exit, none, true⟩ rfl (hpi s₅) rfl)
  have r₇ : FReach s₇ := .step r₆ (FStep.act 0 ⟨.exec, none, true⟩ rfl (hpi s₆) rfl)
  exact ⟨s₇, r₇, 0, 0, 0, by decide, rfl, rfl⟩

end Xv6.Ftable
