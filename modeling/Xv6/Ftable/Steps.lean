import Xv6.Ftable.Inv

/-!
# 段ごとの保存

`FInv` が、プロセスの一段ごとに保たれること。関数ごとに一つの補題で、返す道筋ごとに、
どの勘定がどれだけ動くかを示す。参照が欄と呼び出しの手の間を移るだけの段は
`FInv.setProc` と `FProc.refs_eq_of_move` に帰着する。
-/

namespace Xv6.Ftable

open Function Xv6.Lib
open Xv6.Process (ProcId ProcState)
open Xv6.Dir (NOFILE)

variable {s s' : FState} {p : ProcId}

theorem running_ne_unused {pr : FProc} (h : pr.state = .running) : pr.state ≠ .unused := by
  rw [h]
  decide

/-- sys_close: 欄の参照が、`fileclose` を待つ呼び出しの手に移る。 -/
theorem sysClose_inv (h : FInv s) (hrun : (s.proc p).state = .running) (hpc : (s.proc p).pc = .user)
    (fd : Int) : FInv (sysClose s p fd) := by
  unfold sysClose
  split
  · exact h
  · rename_i i f ha
    have hof := argfd_eq_some ha
    rw [FState.setPc_def, FState.setOfile_def, FState.setProc_proc_self, FState.setProc_setProc]
    have hs := running_ne_unused hrun
    refine h.setProc hrun hrun (FProc.refs_eq_of_move i hs hs ?_ ?_ ?_) rfl ?_ ?_ ?_ ?_
    · intro j hj
      simp [update_of_ne hj]
    · intro j _
      simp [hpc, Pc.unbacked]
    · intro g
      simp [FProc.Counts, hof, hpc, Pc.unbacked, heldFiles, List.count_cons]
    · simp [hpc, heldInode]
    · simp [freshFiles]
    · exact .of_none rfl
    · simp [PcOK]

/-- sys_dup: `fdalloc` が書いた欄は、`filedup` の前には参照を持たない。 -/
theorem sysDup_inv (h : FInv s) (hrun : (s.proc p).state = .running) (hpc : (s.proc p).pc = .user)
    (fd : Int) : FInv (sysDup s p fd) := by
  unfold sysDup
  split
  · exact h
  · rename_i i f ha
    have hof := argfd_eq_some ha
    split
    · exact h
    · rename_i nfd s₁ hfd
      obtain ⟨hnone, rfl⟩ := fdalloc_eq_some hfd
      rw [FState.setPc_def, FState.setOfile_def, FState.setProc_proc_self, FState.setProc_setProc]
      have hs := running_ne_unused hrun
      have hne : i ≠ nfd := by
        rintro rfl
        rw [hof] at hnone
        cases hnone
      refine h.setProc hrun hrun (FProc.refs_eq_of_move nfd hs hs ?_ ?_ ?_) rfl ?_ ?_ ?_ ?_
      · intro j hj
        simp [update_of_ne hj]
      · intro j hj
        simp [hpc, Pc.unbacked, Ne.symm hj]
      · intro g
        simp [FProc.Counts, hnone, hpc, Pc.unbacked, heldFiles]
      · simp [hpc, heldInode]
      · simp [freshFiles]
      · exact .of_none rfl
      · simp [PcOK, hne, hof]

/-- exit の始め。 -/
theorem exit_inv (h : FInv s) (hrun : (s.proc p).state = .running) (hpc : (s.proc p).pc = .user) :
    FInv (exit s p) := by
  unfold exit
  rw [FState.setPc_def]
  refine h.setProc hrun hrun (FProc.refs_congr Iff.rfl rfl ?_ ?_) rfl ?_ ?_ (.of_none rfl) ?_
  · simp [hpc, Pc.unbacked]
  · simp [hpc, heldFiles]
  · simp [hpc, heldInode]
  · simp [freshFiles]
  · intro j hj
    omega

/-- exit が閉じた欄を空ける: 参照を持たない欄が消えるだけ。 -/
theorem exitClear_inv (h : FInv s) (hrun : (s.proc p).state = .running) {fd : Fin NOFILE}
    (hpc : (s.proc p).pc = .exitClear fd) : FInv (exitClear s p fd) := by
  have hok := h.pc p
  rw [hpc] at hok
  unfold exitClear
  rw [FState.setPc_def, FState.setOfile_def, FState.setProc_proc_self, FState.setProc_setProc]
  have hs := running_ne_unused hrun
  refine h.setProc hrun hrun (FProc.refs_eq_of_move fd hs hs ?_ ?_ ?_) rfl ?_ ?_ (.of_none rfl) ?_
  · intro j hj
    simp [update_of_ne hj]
  · intro j hj
    simp [hpc, Pc.unbacked, Ne.symm hj]
  · intro g
    simp [FProc.Counts, hpc, Pc.unbacked, heldFiles]
  · simp [hpc, heldInode]
  · simp [freshFiles]
  · intro j hj
    by_cases hjf : j = fd
    · subst hjf
      simp
    · simp only [FState.setProc_proc, update_self, update_of_ne hjf]
      exact hok j (by omega)

/-- sys_pipe の `fdalloc(rf)`。 -/
theorem pipeFd0_inv (h : FInv s) (hrun : (s.proc p).state = .running) {rf wf : Fin NFILE}
    (hpc : (s.proc p).pc = .pipeFd0 rf wf) : FInv (pipeFd0 s p rf wf) := by
  unfold pipeFd0
  have hs := running_ne_unused hrun
  split
  · rw [FState.setPc_def]
    refine h.setProc hrun hrun (FProc.refs_congr Iff.rfl rfl ?_ ?_) rfl ?_ ?_ (.of_none rfl) ?_
    · simp [hpc, Pc.unbacked]
    · simp [hpc, heldFiles]
    · simp [hpc, heldInode]
    · simp [freshFiles]
    · simp [PcOK]
  · rename_i fd0 s₁ hfd
    obtain ⟨hnone, rfl⟩ := fdalloc_eq_some hfd
    rw [FState.setPc_def, FState.setOfile_def, FState.setProc_proc_self, FState.setProc_setProc]
    refine h.setProc hrun hrun (FProc.refs_eq_of_move fd0 hs hs ?_ ?_ ?_) rfl ?_ ?_ (.of_none rfl) ?_
    · intro j hj
      simp [update_of_ne hj]
    · intro j _
      simp [hpc, Pc.unbacked]
    · intro g
      simp [FProc.Counts, hnone, hpc, Pc.unbacked, heldFiles, List.count_cons]
      omega
    · simp [hpc, heldInode]
    · simp [freshFiles]
    · simp [PcOK]

/-- sys_pipe の `fdalloc(wf)`。失敗すれば `p->ofile[fd0] = 0` で rf の参照が手に戻る。 -/
theorem pipeFd1_inv (h : FInv s) (hrun : (s.proc p).state = .running) {rf wf : Fin NFILE}
    {fd0 : Fin NOFILE} (hpc : (s.proc p).pc = .pipeFd1 rf wf fd0) : FInv (pipeFd1 s p rf wf fd0) := by
  have hok := h.pc p
  rw [hpc] at hok
  simp only [PcOK] at hok
  unfold pipeFd1
  have hs := running_ne_unused hrun
  split
  · rw [FState.setPc_def, FState.setOfile_def, FState.setProc_proc_self, FState.setProc_setProc]
    refine h.setProc hrun hrun (FProc.refs_eq_of_move fd0 hs hs ?_ ?_ ?_) rfl ?_ ?_ (.of_none rfl) ?_
    · intro j hj
      simp [update_of_ne hj]
    · intro j _
      simp [hpc, Pc.unbacked]
    · intro g
      simp [FProc.Counts, hok, hpc, Pc.unbacked, heldFiles, List.count_cons]
      omega
    · simp [hpc, heldInode]
    · simp [freshFiles]
    · simp [PcOK]
  · rename_i fd1 s₁ hfd
    obtain ⟨hnone, rfl⟩ := fdalloc_eq_some hfd
    have hne : fd0 ≠ fd1 := by
      rintro rfl
      rw [hok] at hnone
      cases hnone
    rw [FState.setPc_def, FState.setOfile_def, FState.setProc_proc_self, FState.setProc_setProc]
    refine h.setProc hrun hrun (FProc.refs_eq_of_move fd1 hs hs ?_ ?_ ?_) rfl ?_ ?_ (.of_none rfl) ?_
    · intro j hj
      simp [update_of_ne hj]
    · intro j _
      simp [hpc, Pc.unbacked]
    · intro g
      simp [FProc.Counts, hnone, hpc, Pc.unbacked, heldFiles, List.count_cons]
    · simp [hpc, heldInode]
    · simp [freshFiles]
    · simp [PcOK, hne, hok]

/-- sys_pipe の二つの copyout。失敗すれば `p->ofile[fd0] = 0`。 -/
theorem pipeCopy_inv (h : FInv s) (hrun : (s.proc p).state = .running) {rf wf : Fin NFILE}
    {fd0 fd1 : Fin NOFILE} (hpc : (s.proc p).pc = .pipeCopy rf wf fd0 fd1) (ok : Bool) :
    FInv (pipeCopy s p rf wf fd0 fd1 ok) := by
  have hok := h.pc p
  rw [hpc] at hok
  obtain ⟨hne, h0, h1⟩ := hok
  unfold pipeCopy
  have hs := running_ne_unused hrun
  split
  · rw [FState.setPc_def]
    refine h.setProc hrun hrun (FProc.refs_congr Iff.rfl rfl ?_ ?_) rfl ?_ ?_ (.of_none rfl) ?_
    · simp [hpc, Pc.unbacked]
    · simp [hpc, heldFiles]
    · simp [hpc, heldInode]
    · simp [freshFiles]
    · simp [PcOK]
  · rw [FState.setPc_def, FState.setOfile_def, FState.setProc_proc_self, FState.setProc_setProc]
    refine h.setProc hrun hrun (FProc.refs_eq_of_move fd0 hs hs ?_ ?_ ?_) rfl ?_ ?_ (.of_none rfl) ?_
    · intro j hj
      simp [update_of_ne hj]
    · intro j _
      simp [hpc, Pc.unbacked]
    · intro g
      simp [FProc.Counts, h0, hpc, Pc.unbacked, heldFiles, List.count_cons]
    · simp [hpc, heldInode]
    · simp [freshFiles]
    · simp [PcOK, update_of_ne (Ne.symm hne), h1]

/-- copyout の失敗の `p->ofile[fd1] = 0`。 -/
theorem pipeUndo_inv (h : FInv s) (hrun : (s.proc p).state = .running) {rf wf : Fin NFILE}
    {fd1 : Fin NOFILE} (hpc : (s.proc p).pc = .pipeUndo rf wf fd1) : FInv (pipeUndo s p rf wf fd1) := by
  have hok := h.pc p
  rw [hpc] at hok
  simp only [PcOK] at hok
  unfold pipeUndo
  have hs := running_ne_unused hrun
  rw [FState.setPc_def, FState.setOfile_def, FState.setProc_proc_self, FState.setProc_setProc]
  refine h.setProc hrun hrun (FProc.refs_eq_of_move fd1 hs hs ?_ ?_ ?_) rfl ?_ ?_ (.of_none rfl) ?_
  · intro j hj
    simp [update_of_ne hj]
  · intro j _
    simp [hpc, Pc.unbacked]
  · intro g
    simp [FProc.Counts, hok, hpc, Pc.unbacked, heldFiles, List.count_cons]
  · simp [hpc, heldInode]
  · simp [freshFiles]
  · simp [PcOK]

/-- sys_open の `fdalloc(f)`。失敗すれば f を閉じて ip を put する道に進む。 -/
theorem openFd_inv (h : FInv s) (hrun : (s.proc p).state = .running) {ip : Nat} {omode : Int}
    {type : Xv6.Dir.IType} {f : Fin NFILE} (hpc : (s.proc p).pc = .openFd ip omode type f) :
    FInv (openFd s p ip omode type f) := by
  unfold openFd
  have hs := running_ne_unused hrun
  split
  · rw [FState.setPc_def]
    refine h.setProc hrun hrun (FProc.refs_congr Iff.rfl rfl ?_ ?_) rfl ?_ ?_ (.of_none rfl) ?_
    · simp [hpc, Pc.unbacked]
    · simp [hpc, heldFiles]
    · simp [hpc, heldInode]
    · simp [freshFiles]
    · simp [PcOK]
  · rename_i fd s₁ hfd
    obtain ⟨hnone, rfl⟩ := fdalloc_eq_some hfd
    rw [FState.setPc_def, FState.setOfile_def, FState.setProc_proc_self, FState.setProc_setProc]
    refine h.setProc hrun hrun (FProc.refs_eq_of_move fd hs hs ?_ ?_ ?_) rfl ?_ ?_ (.of_none rfl) ?_
    · intro j hj
      simp [update_of_ne hj]
    · intro j _
      simp [hpc, Pc.unbacked]
    · intro g
      simp [FProc.Counts, hnone, hpc, Pc.unbacked, heldFiles, List.count_cons]
    · simp [hpc, heldInode]
    · simp [hpc, freshFiles]
    · simp [PcOK]

/-- sys_open の `filealloc`。 -/
theorem openAlloc_inv (h : FInv s) (hrun : (s.proc p).state = .running) {ip : Nat} {omode : Int}
    {type : Xv6.Dir.IType} (hpc : (s.proc p).pc = .openAlloc ip omode type) :
    FInv (openAlloc s p ip omode type) := by
  unfold openAlloc
  split
  · rw [FState.setPc_def]
    refine h.setProc hrun hrun (FProc.refs_congr Iff.rfl rfl ?_ ?_) rfl ?_ ?_ (.of_none rfl) ?_
    · simp [hpc, Pc.unbacked]
    · simp [hpc, heldFiles]
    · simp [hpc, heldInode]
    · simp [freshFiles]
    · simp [PcOK]
  · rename_i f s₁ ha
    obtain ⟨h0, rfl⟩ := filealloc_eq_some ha
    refine h.alloc hrun h0 ?_ ?_ ?_ ?_ rfl ?_
    · intro g
      simp [hpc, heldFiles, List.count_cons]
    · simp [hpc, Pc.unbacked]
    · simp [hpc, heldInode]
    · intro g hg
      simp only [freshFiles, List.mem_singleton] at hg
      exact .inl hg
    · simp [PcOK]

/-- sys_pipe の始め: pipealloc の一つ目の `filealloc`。 -/
theorem sysPipe_inv (h : FInv s) (hrun : (s.proc p).state = .running) (hpc : (s.proc p).pc = .user) :
    FInv (sysPipe s p) := by
  unfold sysPipe
  split
  · exact h
  · rename_i f s₁ ha
    obtain ⟨h0, rfl⟩ := filealloc_eq_some ha
    refine h.alloc hrun h0 ?_ ?_ ?_ ?_ rfl ?_
    · intro g
      simp [hpc, heldFiles, List.count_cons]
    · simp [hpc, Pc.unbacked]
    · simp [hpc, heldInode]
    · intro g hg
      simp only [freshFiles, List.mem_singleton] at hg
      exact .inl hg
    · simp [PcOK]

/-- pipealloc の二つ目の `filealloc`。失敗すれば一つ目を閉じる。 -/
theorem pipeAlloc_inv (h : FInv s) (hrun : (s.proc p).state = .running) {f0 : Fin NFILE}
    (hpc : (s.proc p).pc = .pipeAlloc f0) : FInv (pipeAlloc s p f0) := by
  unfold pipeAlloc
  split
  · rw [FState.setPc_def]
    refine h.setProc hrun hrun (FProc.refs_congr Iff.rfl rfl ?_ ?_) rfl ?_ ?_ (.of_none rfl) ?_
    · simp [hpc, Pc.unbacked]
    · simp [hpc, heldFiles]
    · simp [hpc, heldInode]
    · simp [freshFiles]
    · simp [PcOK]
  · rename_i f1 s₁ ha
    obtain ⟨h0, rfl⟩ := filealloc_eq_some ha
    have hf0 := h.fresh p f0 (by simp [hpc, freshFiles])
    have hne : f0 ≠ f1 := by
      rintro rfl
      omega
    refine h.alloc hrun h0 ?_ ?_ ?_ ?_ rfl ?_
    · intro g
      simp [hpc, heldFiles, List.count_cons]
      omega
    · simp [hpc, Pc.unbacked]
    · simp [hpc, heldInode]
    · intro g hg
      simp only [freshFiles, List.mem_cons, List.not_mem_nil, or_false] at hg
      rw [hpc]
      rcases hg with rfl | rfl
      · exact .inr (by simp [freshFiles])
      · exact .inl rfl
    · exact hne

/-- sys_dup の `filedup(f)`: `fdalloc` が書いた欄が参照を持つ。 -/
theorem dupFinish_inv (h : FInv s) (hrun : (s.proc p).state = .running) {f : Fin NFILE}
    {fd nfd : Fin NOFILE} (hpc : (s.proc p).pc = .dup f fd nfd) :
    ∃ s', dupFinish s p f = some s' ∧ FInv s' := by
  have hok := h.pc p
  rw [hpc] at hok
  obtain ⟨hne, hfd, hnfd⟩ := hok
  have hs := running_ne_unused hrun
  have hc : (s.proc p).Counts f fd := ⟨hfd, by rw [hpc]; intro e; exact hne (Option.some.inj e).symm⟩
  have hpos : 0 < (s.proc p).refs f := by
    have := FProc.one_le_slots hs hc
    unfold FProc.refs
    omega
  refine ⟨_, by rw [dupFinish, filedup_of_pos (h.pos_of_counts hs hc)]; rfl, ?_⟩
  rw [FState.setPc_def]
  refine h.dup hrun hpos (by simp [hpc, freshFiles]) hrun (fun g => ?_) rfl (by simp [hpc, heldInode])
    rfl (.inl rfl) (by simp [PcOK]) rfl
  -- 欄 nfd が参照を持つようになる
  have := @FProc.refs_add_eq_of_eq_off (s.proc p) { s.proc p with pc := .user } g
    nfd hs hs fun j hj => by simp [FProc.Counts, hpc, Pc.unbacked, Ne.symm hj]
  simp [FProc.Counts, hnfd, hpc, Pc.unbacked, heldFiles] at this
  simp only [FState.setFile_proc]
  omega

/-- `close fs put` の一段: 次のファイルの `fileclose` の前半か、`iunlockput(ip)`。 -/
theorem closeStep_inv (h : FInv s) (hrun : (s.proc p).state = .running)
    (hrel : (s.proc p).release = none) {fs : List (Fin NFILE)} {put : Option Nat}
    (hpc : (s.proc p).pc = .close fs put) : ∃ s', closeStep s p fs put = some s' ∧ FInv s' := by
  cases fs with
  | cons f fs =>
      have hpos : 0 < (s.proc p).refs f := by
        have : 0 < (heldFiles (s.proc p).pc).count f := by simp [hpc, heldFiles]
        unfold FProc.refs
        omega
      have hf := h.pos_of_refs hpos
      obtain ⟨s₁, r, hcl⟩ := fileclose_of_pos hf
      refine ⟨s₁.setProc p { s₁.proc p with pc := .close fs put, release := r }, by simp [closeStep, hcl], ?_⟩
      refine h.close1 hrun hrel (by simp [hpc, freshFiles]) (fun g => ?_) (by simp [hpc, heldInode])
        rfl rfl (by simp [PcOK]) hcl
      have hsl : ({ s.proc p with pc := .close fs put } : FProc).slots g = (s.proc p).slots g :=
        FProc.slots_congr Iff.rfl fun fd => by simp [FProc.Counts, hpc, Pc.unbacked]
      unfold FProc.refs
      simp only [hsl, hpc, heldFiles, List.count_cons, beq_iff_eq]
      omega
  | nil =>
      cases put with
      | none =>
          refine ⟨_, rfl, ?_⟩
          rw [FState.setPc_def]
          refine h.setProc hrun hrun (FProc.refs_congr Iff.rfl rfl ?_ ?_) rfl ?_ ?_ (.of_none rfl) ?_
          · simp [hpc, Pc.unbacked]
          · simp [hpc, heldFiles]
          · simp [hpc, heldInode]
          · simp [freshFiles]
          · simp [PcOK]
      | some ip =>
          -- `iunlockput(ip)`: sys_open が持っていた参照を返す
          refine ⟨_, rfl, h.setPcIref hrun (fun i => ?_) (by simp [hpc, heldFiles])
            (by simp [hpc, Pc.unbacked]) rfl rfl (by simp [PcOK])⟩
          by_cases hi : i = ip
          · subst hi
            simp [hpc, heldInode]
          · simp [hpc, heldInode, update_of_ne hi, Ne.symm hi]

/-- `fileclose` の後半: 管の端を閉じるか、inode を put する。閉じる端はまだ開いていて、管は
解放されていない。 -/
theorem closeRelease_inv (h : FInv s) (hrun : (s.proc p).state = .running) {r : Release}
    (hrel : (s.proc p).release = some r) : ∃ s', closeRelease s p r = some s' ∧ FInv s' := by
  have hone : 1 ≤ pending s r := by
    have := le_sum (fun q => if (s.proc q).release = some r then 1 else 0) p
    rw [hrel, if_pos rfl] at this
    unfold pending
    omega
  cases r with
  | pipe x w =>
      -- 後始末が残っているので、その端は開いている
      have hopen : endOpen (s.pipe x) w = true := by
        have := h.pipe x w
        cases he : endOpen (s.pipe x) w
        · rw [he, if_neg Bool.false_ne_true] at this
          omega
        · rfl
      obtain ⟨pp, hpp⟩ : ∃ pp, s.pipe x = some pp := by
        cases hx : s.pipe x with
        | none =>
            rw [hx] at hopen
            cases w <;> cases hopen
        | some pp => exact ⟨pp, rfl⟩
      refine ⟨({ s with pipe := update s.pipe x (closeEnd pp w) } : FState).setProc p
        { s.proc p with release := none }, by rw [closeRelease, pipeclose_of_some hpp]; rfl, ?_⟩
      refine h.finishRelease hrun hrel rfl rfl (fun y w' => ?_) fun i => by simp
      by_cases hy : y = x
      · subst hy
        by_cases hw : w' = w
        · subst hw
          simp [endOpen_closeEnd_self, hopen]
        · simp [endOpen_closeEnd_other pp hw, hpp, Ne.symm hw]
      · simp [update_of_ne hy, Ne.symm hy]
  | inode ip =>
      refine ⟨(iput s ip).setProc p { s.proc p with release := none }, rfl,
        h.finishRelease hrun hrel rfl rfl (fun y w => ?_) fun i => ?_⟩
      · simp only [reduceCtorEq, if_false, Nat.add_zero]
        rfl
      by_cases hi : i = ip
      · subst hi
        simp
      · simp [update_of_ne hi, Ne.symm hi]

/-- sys_open の namei か create: 返った inode の参照を手に取る。検査に落ちれば `iunlockput` へ。 -/
theorem sysOpen_inv (h : FInv s) (hrun : (s.proc p).state = .running) (hpc : (s.proc p).pc = .user)
    (r : Option (Nat × Xv6.Dir.IType × Int)) (omode : Int) : FInv (sysOpen s p r omode) := by
  unfold sysOpen
  split
  · exact h
  · rename_i ip type major
    have key : ∀ c : Pc, heldInode c = [ip] → heldFiles c = [] → c.unbacked = none → freshFiles c = [] →
        c.child = none → PcOK s p c →
        FInv (({ s with iref := update s.iref ip (s.iref ip + 1) } : FState).setPc p c) := by
      intro c hI hh hub hf hc hok
      refine h.setPcIref hrun (fun i => ?_) (by rw [hh, hpc]; rfl) (by rw [hub, hpc]; rfl) hf hc hok
      rw [hI, hpc]
      by_cases hi : i = ip
      · subst hi
        simp [heldInode]
      · simp [heldInode, update_of_ne hi, Ne.symm hi]
    split
    · exact key _ rfl rfl rfl rfl rfl trivial
    · split
      · exact key _ rfl rfl rfl rfl rfl trivial
      · exact key _ rfl rfl rfl rfl rfl trivial

/-- sys_open が f の欄を書く: ip の参照が、呼び出しの手から f の負う後始末に移る。 -/
theorem openInit_inv (h : FInv s) (hrun : (s.proc p).state = .running) {ip : Nat} {omode : Int}
    {type : Xv6.Dir.IType} {f : Fin NFILE} {fd : Fin NOFILE}
    (hpc : (s.proc p).pc = .openInit ip omode type f fd) : FInv (openInit s p ip omode type f) := by
  have hfr := h.fresh p f (by simp [hpc, freshFiles])
  have hmine : 1 ≤ (s.proc p).refs f := h.one_le_refs_of_fresh (by simp [hpc, freshFiles])
  let x : File := { s.file f with
      type := if type = .device then .device else .inode
      ip := ip
      readable := decide (Int.land omode O_WRONLY = 0)
      writable := decide (Int.land omode O_WRONLY ≠ 0 ∨ Int.land omode O_RDWR ≠ 0) }
  let pr' : FProc := { s.proc p with pc := .user }
  change FInv ((s.setFile f x).setProc p pr')
  have hrefs : ∀ g, pr'.refs g = (s.proc p).refs g :=
    FProc.refs_congr Iff.rfl rfl (by simp [pr', hpc, Pc.unbacked]) (by simp [pr', hpc, heldFiles])
  have hxowes : x.owes = some (.inode ip) := by
    by_cases ht : type = .device <;> simp [x, File.owes, File.release, hfr.2, ht]
  -- f の負う後始末が一つ増える
  have hpend : ∀ r, pending ((s.setFile f x).setProc p pr') r = pending s r +
      if Release.inode ip = r then 1 else 0 := by
    intro r
    have := pending_setFile s f x r
    rw [File.owes_of_none hfr.1, hxowes] at this
    rw [@pending_setProc_of_eq (s.setFile f x) _ pr' rfl]
    simp only [reduceCtorEq, if_false, Nat.add_zero, Option.some.injEq] at this
    exact this
  have hfne : ∀ q g, g ∈ freshFiles (s.proc q).pc → q ≠ p → g ≠ f := by
    rintro q g hg hq rfl
    have := h.refs_eq_zero_of_fresh hg (Ne.symm hq)
    omega
  obtain ⟨hstate, hpcs, hch⟩ := @FInv.procs_update _ ((s.setFile f x).setProc p pr') _ pr' h hrun rfl
    hrun (.of_none rfl) (by simp [PcOK])
  refine ⟨fun g => ?_, fun g hg => ?_, fun q g hg => ?_, fun y w => ?_, fun i => ?_, hstate, hpcs, hch⟩
  · rw [refSum_setProc_of_refs (s := s.setFile f x) hrefs, refSum_setFile]
    by_cases hg : g = f
    · subst hg
      simpa [x] using h.ref g
    · simpa [update_of_ne hg] using h.ref g
  · by_cases hgf : g = f
    · subst hgf
      simp [x, hfr.2] at hg
    · simp only [FState.setProc_file, FState.setFile_file, update_of_ne hgf] at hg ⊢
      exact h.none_of_zero g hg
  · by_cases hq : q = p
    · subst hq
      simp [pr', freshFiles] at hg
    · simp only [FState.setProc_proc, update_of_ne hq] at hg
      simpa [update_of_ne (hfne q g hg hq)] using h.fresh q g hg
  · rw [hpend, if_neg (by simp), Nat.add_zero]
    exact h.pipe y w
  · have h1 := heldI_setProc (s.setFile f x) p pr' i
    rw [heldI_setFile] at h1
    change _ + (heldInode (s.proc p).pc).count i = _ + (heldInode pr'.pc).count i at h1
    have h3 := h.inode i
    rw [hpend]
    simp only [FState.setProc_iref, FState.setFile_iref]
    by_cases hi : i = ip
    · subst hi
      simp only [hpc, heldInode, pr', List.count_singleton_self, List.count_nil, ↓reduceIte] at h1 ⊢
      omega
    · simp only [hpc, heldInode, pr', List.count_singleton, List.count_nil, beq_iff_eq, Ne.symm hi,
        if_false, Nat.add_zero, Release.inode.injEq] at h1 ⊢
      omega

/-- pipealloc の kalloc。成功すれば、新しい管の二つの端を取ったばかりの二つのファイルが負い、
失敗すれば二つを閉じる道に進む。 -/
theorem pipeKalloc_inv (h : FInv s) (hrun : (s.proc p).state = .running) {f0 f1 : Fin NFILE}
    (hpc : (s.proc p).pc = .pipeKalloc f0 f1) (pi : Option Nat)
    (hpi : ∀ x, pi = some x → s.pipe x = none) : FInv (pipeKalloc s p f0 f1 pi) := by
  have hne : f0 ≠ f1 := by
    have := h.pc p
    rwa [hpc] at this
  have hf0 := h.fresh p f0 (by simp [hpc, freshFiles])
  have hf1 := h.fresh p f1 (by simp [hpc, freshFiles])
  cases pi with
  | none =>
      rw [pipeKalloc, FState.setPc_def]
      refine h.setProc hrun hrun (FProc.refs_congr Iff.rfl rfl ?_ ?_) rfl ?_ ?_ (.of_none rfl) ?_
      · simp [hpc, Pc.unbacked]
      · simp [hpc, heldFiles]
      · simp [hpc, heldInode]
      · simp [freshFiles]
      · simp [PcOK]
  | some x =>
      have hx := hpi x rfl
      let s₁ : FState := { s with pipe := update s.pipe x (some ⟨true, true⟩) }
      let X0 : File := { s.file f0 with type := .pipe, readable := true, writable := false, pipe := x }
      let X1 : File := { s.file f1 with type := .pipe, readable := false, writable := true, pipe := x }
      let pr' : FProc := { s.proc p with pc := .pipeFd0 f0 f1 }
      have heq : pipeKalloc s p f0 f1 (some x) = ((s₁.setFile f0 X0).setFile f1 X1).setProc p pr' := by
        simp only [pipeKalloc, FState.setPc_def, FState.setFile_file, FState.setFile_proc,
          update_of_ne (Ne.symm hne)]
        rfl
      rw [heq]
      have hrefs : ∀ g, pr'.refs g = (s.proc p).refs g :=
        FProc.refs_congr Iff.rfl rfl (by simp [pr', hpc, Pc.unbacked]) (by simp [pr', hpc, heldFiles])
      have hX0 : X0.owes = some (.pipe x false) := by simp [X0, File.owes, File.release, hf0.2]
      have hX1 : X1.owes = some (.pipe x true) := by simp [X1, File.owes, File.release, hf1.2]
      -- 二つのファイルが、新しい管の読む端と書く端を負う
      have hpend : ∀ r, pending (((s₁.setFile f0 X0).setFile f1 X1).setProc p pr') r =
          pending s r + (if Release.pipe x false = r then 1 else 0) +
            if Release.pipe x true = r then 1 else 0 := by
        intro r
        have h0 := pending_setFile s₁ f0 X0 r
        have h1 := pending_setFile (s₁.setFile f0 X0) f1 X1 r
        rw [@pending_setProc_of_eq ((s₁.setFile f0 X0).setFile f1 X1) _ pr' rfl]
        simp only [FState.setFile_file, update_of_ne (Ne.symm hne), hX0, hX1,
          Option.some.injEq] at h0 h1
        change _ + (if (s.file f0).owes = some r then 1 else 0) = pending s r + _ at h0
        rw [File.owes_of_none hf0.1] at h0
        rw [File.owes_of_none hf1.1] at h1
        simp only [reduceCtorEq, if_false, Nat.add_zero] at h0 h1
        omega
      have hfne : ∀ q g, g ∈ freshFiles (s.proc q).pc → q ≠ p → g ≠ f0 ∧ g ≠ f1 := by
        intro q g hg hq
        constructor
        · rintro rfl
          have := h.refs_eq_zero_of_fresh hg (Ne.symm hq)
          have := h.one_le_refs_of_fresh (p := p) (f := g) (by simp [hpc, freshFiles])
          omega
        · rintro rfl
          have := h.refs_eq_zero_of_fresh hg (Ne.symm hq)
          have := h.one_le_refs_of_fresh (p := p) (f := g) (by simp [hpc, freshFiles])
          omega
      obtain ⟨hstate, hpcs, hch⟩ := @FInv.procs_update _
        (((s₁.setFile f0 X0).setFile f1 X1).setProc p pr') _ pr' h hrun rfl hrun (.of_none rfl)
        (by simp [PcOK])
      refine ⟨fun g => ?_, fun g hg => ?_, fun q g hg => ?_, fun y w => ?_, fun i => ?_, hstate, hpcs, hch⟩
      · rw [refSum_setProc_of_refs (s := (s₁.setFile f0 X0).setFile f1 X1) hrefs, refSum_setFile,
          refSum_setFile]
        change (update (update s.file f0 X0) f1 X1 g).ref = refSum s g
        by_cases hg1 : g = f1
        · subst hg1
          simpa [X1] using h.ref g
        · by_cases hg0 : g = f0
          · subst hg0
            simpa [X0, update_of_ne hg1] using h.ref g
          · simpa [update_of_ne hg1, update_of_ne hg0] using h.ref g
      · by_cases hg1 : g = f1
        · subst hg1
          simp [X1, hf1.2] at hg
        · by_cases hg0 : g = f0
          · subst hg0
            simp [X0, hf0.2, update_of_ne hg1] at hg
          · simp only [FState.setProc_file, FState.setFile_file, update_of_ne hg1, update_of_ne hg0] at hg ⊢
            exact h.none_of_zero g hg
      · by_cases hq : q = p
        · subst hq
          simp [pr', freshFiles] at hg
        · simp only [FState.setProc_proc, update_of_ne hq] at hg
          obtain ⟨hg0, hg1⟩ := hfne q g hg hq
          simpa [update_of_ne hg0, update_of_ne hg1] using h.fresh q g hg
      · have h3 := h.pipe y w
        rw [hpend]
        by_cases hy : y = x
        · -- 新しい管: 前は無かったので、どちらの端の勘定も 0 だった
          subst hy
          rw [hx] at h3
          cases w <;> simp [endOpen] at h3 ⊢ <;> simp [h3, s₁]
        · have : ∀ w', Release.pipe x w' ≠ Release.pipe y w := fun w' e => hy (Release.pipe.inj e).1.symm
          simp only [if_neg (this false), if_neg (this true), Nat.add_zero]
          simpa [s₁, update_of_ne hy] using h3
      · rw [hpend]
        simp only [reduceCtorEq, if_false, Nat.add_zero]
        rw [@heldI_setProc_of_eq ((s₁.setFile f0 X0).setFile f1 X1) _ pr'
          (by change heldInode (.pipeFd0 f0 f1) = heldInode (s.proc p).pc; rw [hpc]; rfl),
          heldI_setFile, heldI_setFile]
        exact h.inode i

/-! ## fork、exit、wait -/

/-- fork の allocproc: UNUSED だった np を USED にして、p の子とする。 -/
theorem fork_inv (h : FInv s) (hrun : (s.proc p).state = .running) (hpc : (s.proc p).pc = .user)
    (ok : Bool) : FInv (fork s p ok) := by
  unfold fork
  split
  · exact h
  · rename_i np s₁ ha
    obtain ⟨hun, rfl⟩ := allocproc_eq_some ha
    split
    · have hnp : np ≠ p := by
        rintro rfl
        rw [hrun] at hun
        cases hun
      have hempty := (h.state np).empty (.inl hun)
      -- np は UNUSED だったので、欄は空で、誰の子でもない
      have hnc := h.not_child_of_ne_used (p := np) (by rw [hun]; decide)
      have h₁ : FInv (s.setProc np { s.proc np with state := .used }) :=
        h.setState (.inr hempty) ⟨fun _ => (h.state np).idle (.inl hun), by rintro (hs | hs) <;> cases hs⟩
          hnc
      have hold : ∀ q, q ≠ np → (s.setProc np { s.proc np with state := .used }).proc q = s.proc q :=
        fun q hq => by simp [update_of_ne hq]
      have hrun₁ := (hold p (Ne.symm hnp)).symm ▸ hrun
      rw [FState.setPc_def]
      refine h₁.setProc hrun₁ hrun₁ (FProc.refs_congr Iff.rfl rfl ?_ ?_) rfl ?_ ?_ ?_ ?_
      · simp [hold p (Ne.symm hnp), hpc, Pc.unbacked]
      · simp [hold p (Ne.symm hnp), hpc, heldFiles]
      · simp [hold p (Ne.symm hnp), hpc, heldInode]
      · simp [freshFiles]
      · intro np' hc
        simp only [Pc.child, Option.some.injEq] at hc
        subst hc
        refine .inr fun q hq => ?_
        by_cases hqn : q = np
        · subst hqn
          simp only [FState.setProc_proc, update_self] at hq
          exact hnc q hq
        · rw [hold q hqn] at hq
          exact hnc q hq
      · refine ⟨hnp, by simp [update_of_ne hnp], fun j _ => ?_⟩
        simp [update_of_ne hnp, hempty j]
    · exact h

/-- clone は、名前空間が取れれば fork と同じ。 -/
theorem clone_inv (h : FInv s) (hrun : (s.proc p).state = .running) (hpc : (s.proc p).pc = .user)
    (ns ok : Bool) : FInv (clone s p ns ok) := by
  unfold clone
  split
  · exact fork_inv h hrun hpc ok
  · exact h

/-- uvmcopy。失敗すれば `freeproc(np)` で np は UNUSED に戻る。 -/
theorem forkCopy_inv (h : FInv s) (hrun : (s.proc p).state = .running) {np : ProcId}
    (hpc : (s.proc p).pc = .forkCopy np) (ok : Bool) : FInv (forkCopy s p np ok) := by
  have hok := h.pc p
  rw [hpc] at hok
  obtain ⟨hnp, hused, hempty⟩ := hok
  unfold forkCopy
  split
  · rw [FState.setPc_def]
    refine h.setProc hrun hrun (FProc.refs_congr Iff.rfl rfl ?_ ?_) rfl ?_ ?_ (.of_eq ?_) ?_
    · simp [hpc, Pc.unbacked]
    · simp [hpc, heldFiles]
    · simp [hpc, heldInode]
    · simp [freshFiles]
    · simp [hpc, Pc.child]
    · exact ⟨hnp, by simpa [update_of_ne hnp] using hused, fun j hj => by simpa [update_of_ne hnp] using hempty j hj⟩
  · refine h.endFork hrun (by simp [hpc, Pc.child]) (by simp [hpc, heldFiles]) (by simp [hpc, Pc.unbacked])
      (by simp [hpc, heldInode]) (.inr fun fd => hempty fd (Nat.zero_le _))
      ⟨fun _ => (h.state np).idle (.inr (.inl hused)), fun _ fd => hempty fd (Nat.zero_le _)⟩

/-- fork の複写の一回: 欄 i のファイルを `filedup` して、その参照を子の欄に書くまで手に持つ。
終われば np を RUNNABLE にする。 -/
theorem forkDup_inv (h : FInv s) (hrun : (s.proc p).state = .running) {np : ProcId} {i : Nat}
    (hpc : (s.proc p).pc = .forkDup np i) : ∃ s', forkDup s p np i = some s' ∧ FInv s' := by
  have hok := h.pc p
  rw [hpc] at hok
  obtain ⟨hnp, hused, hempty⟩ := hok
  have hs := running_ne_unused hrun
  unfold forkDup
  split
  · rename_i hi
    split
    · rename_i hnone
      refine ⟨_, rfl, ?_⟩
      rw [FState.setPc_def]
      refine h.setProc hrun hrun (FProc.refs_congr Iff.rfl rfl ?_ ?_) rfl ?_ ?_ (.of_eq ?_) ?_
      · simp [hpc, Pc.unbacked]
      · simp [hpc, heldFiles]
      · simp [hpc, heldInode]
      · simp [freshFiles]
      · simp [hpc, Pc.child]
      · exact ⟨hnp, by simpa [update_of_ne hnp] using hused,
          fun j hj => by simpa [update_of_ne hnp] using hempty j (by omega)⟩
    · rename_i f hf
      have hc : (s.proc p).Counts f ⟨i, hi⟩ := ⟨hf, by simp [hpc, Pc.unbacked]⟩
      have hpos : 0 < (s.proc p).refs f := by
        have := FProc.one_le_slots hs hc
        unfold FProc.refs
        omega
      refine ⟨_, by rw [filedup_of_pos (h.pos_of_counts hs hc)]; rfl, ?_⟩
      rw [FState.setPc_def]
      refine h.dup hrun hpos (by simp [hpc, freshFiles]) hrun (fun g => ?_) rfl (by simp [hpc, heldInode])
        rfl (.inr (by simp [hpc, Pc.child])) ⟨⟨hnp, hused, hempty⟩, hf⟩ rfl
      -- filedup の参照は、子の欄に書くまで呼び出しの手にある
      have hsl : ({ s.proc p with pc := .forkSet np ⟨i, hi⟩ f } : FProc).slots g = (s.proc p).slots g :=
        FProc.slots_congr Iff.rfl fun fd => by simp [FProc.Counts, hpc, Pc.unbacked]
      unfold FProc.refs
      simp only [FState.setFile_proc, hsl, hpc, heldFiles, List.count_cons, List.count_nil, beq_iff_eq]
      omega
  · refine ⟨_, rfl, h.endFork hrun (by simp [hpc, Pc.child]) (by simp [hpc, heldFiles])
      (by simp [hpc, Pc.unbacked]) (by simp [hpc, heldInode]) (.inl ?_) (.of_live rfl)⟩
    rw [hused]
    exact iff_of_false (by decide) (by decide)

/-- `np->ofile[i] = nf`: 呼び出しの手にあった参照が、子の欄に移る。 -/
theorem forkSet_inv (h : FInv s) (hrun : (s.proc p).state = .running) {np : ProcId} {i : Fin NOFILE}
    {f : Fin NFILE} (hpc : (s.proc p).pc = .forkSet np i f) : FInv (forkSet s p np i f) := by
  have hok := h.pc p
  rw [hpc] at hok
  obtain ⟨⟨hnp, hused, hempty⟩, hf⟩ := hok
  have hnpi := hempty i le_rfl
  have hnpc := ((h.state np).idle (.inr (.inl hused))).1
  have hs := running_ne_unused hrun
  have hsn : (s.proc np).state ≠ .unused := by
    rw [hused]
    decide
  let npr : FProc := { s.proc np with ofile := update (s.proc np).ofile i (some f) }
  let ppr : FProc := { s.proc p with pc := .forkDup np (i.val + 1) }
  have heq : forkSet s p np i f = (s.setProc np npr).setProc p ppr := by
    simp only [forkSet, FState.setPc_def, FState.setOfile_def, FState.setProc_proc,
      update_of_ne (Ne.symm hnp)]
    rfl
  rw [heq]
  have hold : ∀ q, q ≠ np → q ≠ p → ((s.setProc np npr).setProc p ppr).proc q = s.proc q :=
    fun q hqn hqp => by simp [update_of_ne hqn, update_of_ne hqp]
  have hnew : ((s.setProc np npr).setProc p ppr).proc np = npr := by simp [update_of_ne hnp]
  have hnewp : ((s.setProc np npr).setProc p ppr).proc p = ppr := by simp
  -- 子の勘定が欄 i のぶん増え、p の手の参照が一つ減る
  have hnrefs : ∀ g, npr.refs g = (s.proc np).refs g + if f = g then 1 else 0 := by
    intro g
    have key := @FProc.refs_add_eq_of_eq_off (s.proc np) npr g i hsn hsn
      fun j hj => by simp [npr, FProc.Counts, update_of_ne hj]
    have hc0 : ¬ (s.proc np).Counts g i := by
      intro hc
      have := hc.1
      rw [hnpi] at this
      cases this
    have hc1 : npr.Counts g i ↔ f = g := by simp [npr, FProc.Counts, hnpc, Pc.unbacked]
    rw [if_neg hc0, if_congr hc1 rfl rfl] at key
    have hh : heldFiles npr.pc = heldFiles (s.proc np).pc := rfl
    rw [hh] at key
    omega
  have hprefs : ∀ g, ppr.refs g + (if f = g then 1 else 0) = (s.proc p).refs g := by
    intro g
    have hsl : ppr.slots g = (s.proc p).slots g :=
      FProc.slots_congr Iff.rfl fun fd => by simp [ppr, FProc.Counts, hpc, Pc.unbacked]
    unfold FProc.refs
    simp only [hsl, ppr, hpc, heldFiles, List.count_cons, List.count_nil, beq_iff_eq]
    omega
  have hsum : ∀ g, refSum ((s.setProc np npr).setProc p ppr) g = refSum s g := by
    intro g
    have h1 := refSum_setProc s np npr g
    have h2 := refSum_setProc (s.setProc np npr) p ppr g
    have h3 := hnrefs g
    have h4 := hprefs g
    simp only [FState.setProc_proc, update_of_ne (Ne.symm hnp)] at h2
    omega
  have hpcs : ∀ q, q ≠ p → (((s.setProc np npr).setProc p ppr).proc q).pc = (s.proc q).pc := by
    intro q hq
    by_cases hqn : q = np
    · subst hqn
      rw [hnew]
    · rw [hold q hqn hq]
  have hrel : ∀ q, (((s.setProc np npr).setProc p ppr).proc q).release = (s.proc q).release := by
    intro q
    by_cases hqp : q = p
    · subst hqp
      rw [hnewp]
    · by_cases hqn : q = np
      · subst hqn
        rw [hnew]
      · rw [hold q hqn hqp]
  have hpend : ∀ r, pending ((s.setProc np npr).setProc p ppr) r = pending s r :=
    fun r => by simp only [pending, hrel]; rfl
  have hI : ∀ i', heldI ((s.setProc np npr).setProc p ppr) i' = heldI s i' := by
    intro i'
    refine Finset.sum_congr rfl fun q _ => ?_
    by_cases hqp : q = p
    · subst hqp
      rw [hnewp]
      simp [ppr, hpc, heldInode]
    · rw [hpcs q hqp]
  refine ⟨fun g => ?_, h.none_of_zero, fun q g hg => ?_, fun x w => ?_, fun i' => ?_, fun q => ?_,
    fun q => ?_, fun q q' np' hq hq' => ?_⟩
  · rw [hsum g]
    exact h.ref g
  · by_cases hqp : q = p
    · subst hqp
      simp [ppr, freshFiles] at hg
    · rw [hpcs q hqp] at hg
      exact h.fresh q g hg
  · rw [hpend]
    exact h.pipe x w
  · rw [hpend, hI]
    exact h.inode i'
  · by_cases hqp : q = p
    · subst hqp
      rw [hnewp]
      exact .of_running hrun
    · by_cases hqn : q = np
      · -- 子は USED のままで、欄が一つ埋まる
        subst hqn
        rw [hnew]
        exact ⟨fun _ => (h.state q).idle (.inr (.inl hused)), fun hs' => by rcases hs' with hs' | hs' <;>
          simp [npr, hused] at hs'⟩
      · rw [hold q hqn hqp]
        exact h.state q
  · by_cases hqp : q = p
    · subst hqp
      rw [hnewp]
      refine ⟨hnp, by rw [hnew]; exact hused, fun j hj => ?_⟩
      rw [hnew]
      simp only [npr, update_of_ne (show j ≠ i from fun e => by subst e; simp at hj)]
      exact hempty j (by omega)
    · by_cases hqn : q = np
      · subst hqn
        rw [hnew]
        have := ((h.state q).idle (.inr (.inl hused))).1
        simp only [npr, this, PcOK]
      · rw [hold q hqn hqp]
        -- q の子は np でも p でもないので、その記録は変わらない
        apply (h.pc q).congr (hold q hqn hqp ▸ rfl)
        intro c hc
        have hcn : c ≠ np := fun e => hqp (h.child q p np (e ▸ hc) (by simp [hpc, Pc.child]))
        have hcp : c ≠ p := fun e => h.not_child_of_running hrun q (e ▸ hc)
        exact hold c hcn hcp
  · have hch : ∀ r, (((s.setProc np npr).setProc p ppr).proc r).pc.child = (s.proc r).pc.child := by
      intro r
      by_cases hrp : r = p
      · subst hrp
        rw [hnewp]
        simp [ppr, hpc, Pc.child]
      · rw [hpcs r hrp]
    rw [hch] at hq hq'
    exact h.child q q' np' hq hq'

/-- exit の繰り返しの一回: 欄 fd のファイルの `fileclose` の前半で、その欄は参照を持たなく
なる。終われば欄はどれも空で、ZOMBIE になる。 -/
theorem exitLoop_inv (h : FInv s) (hrun : (s.proc p).state = .running) (hrel : (s.proc p).release = none)
    {fd : Nat} (hpc : (s.proc p).pc = .exit fd) : ∃ s', exitLoop s p fd = some s' ∧ FInv s' := by
  have hok : ∀ j : Fin NOFILE, j.val < fd → (s.proc p).ofile j = none := by
    have := h.pc p
    rwa [hpc] at this
  have hs := running_ne_unused hrun
  unfold exitLoop
  split
  · rename_i hfd
    split
    · rename_i hnone
      refine ⟨_, rfl, ?_⟩
      rw [FState.setPc_def]
      refine h.setProc hrun hrun (FProc.refs_congr Iff.rfl rfl ?_ ?_) rfl ?_ ?_ (.of_none rfl) ?_
      · simp [hpc, Pc.unbacked]
      · simp [hpc, heldFiles]
      · simp [hpc, heldInode]
      · simp [freshFiles]
      · intro j hj
        simp only [FState.setProc_proc, update_self]
        rcases Nat.lt_succ_iff_lt_or_eq.mp hj with hj | hj
        · exact hok j hj
        · have : j = ⟨fd, hfd⟩ := Fin.ext hj
          subst this
          exact hnone
    · rename_i f hf
      have hc : (s.proc p).Counts f ⟨fd, hfd⟩ := ⟨hf, by simp [hpc, Pc.unbacked]⟩
      obtain ⟨s₁, r, hcl⟩ := fileclose_of_pos (h.pos_of_counts hs hc)
      refine ⟨s₁.setProc p { s₁.proc p with pc := .exitClear ⟨fd, hfd⟩, release := r }, by simp [hcl], ?_⟩
      refine h.close1 hrun hrel (by simp [hpc, freshFiles]) (fun g => ?_) (by simp [hpc, heldInode])
        rfl rfl hok hcl
      -- 閉じた欄は、空けるまで参照を持たない
      have := @FProc.refs_add_eq_of_eq_off (s.proc p)
        { s.proc p with pc := .exitClear ⟨fd, hfd⟩ } g ⟨fd, hfd⟩ hs hs
        fun j hj => by simp [FProc.Counts, hpc, Pc.unbacked, Ne.symm hj]
      simp [FProc.Counts, hf, hpc, Pc.unbacked, heldFiles] at this
      omega
  · rename_i hfd
    refine ⟨_, rfl, ?_⟩
    have hempty : ∀ j, (s.proc p).ofile j = none := fun j => hok j (by omega)
    have h₁ : FInv (s.setPc p .user) := by
      rw [FState.setPc_def]
      refine h.setProc hrun hrun (FProc.refs_congr Iff.rfl rfl ?_ ?_) rfl ?_
        (fun f hf => by simp [freshFiles] at hf) (.of_none rfl) trivial
      · simp [hpc, Pc.unbacked]
      · simp [hpc, heldFiles]
      · simp [hpc, heldInode]
    have hp₁ : (s.setPc p .user).proc p = { s.proc p with pc := .user } := by
      simp [FState.setPc_def]
    -- 欄はどれも空なので、ZOMBIE にしても勘定は変わらない
    have h₂ := @FInv.setState _ p .zombie h₁ (.inr (by rw [hp₁]; exact hempty))
      (by rw [hp₁]; exact ⟨fun _ => ⟨rfl, hrel⟩, fun _ => hempty⟩)
      (h₁.not_child_of_running (by rw [hp₁]; exact hrun))
    rw [hp₁, FState.setPc_def, FState.setProc_setProc] at h₂
    exact h₂

/-- wait が ZOMBIE の子を `freeproc` する。ZOMBIE の欄は空。 -/
theorem wait_inv (h : FInv s) (c : ProcId) : FInv (wait s c) := by
  unfold wait
  split
  · rename_i hz
    have hst := h.state c
    exact h.setState (.inr (hst.empty (.inr hz)))
      ⟨fun _ => hst.idle (.inr (.inr hz)), fun _ => hst.empty (.inr hz)⟩
      (h.not_child_of_ne_used (by rw [hz]; decide))
  · exact h

/-- スケジューラか sleep と wakeup が、生きたプロセスの状態を変える。 -/
theorem FInv.sched (h : FInv s) {st : ProcState} (hp : live (s.proc p).state = true)
    (hst : live st = true) : FInv (s.setProc p { s.proc p with state := st }) := by
  have hne : ∀ {x : ProcState}, live x = true → x ≠ .unused := by
    rintro x hx rfl
    cases hx
  refine h.setState (.inl (iff_of_false (hne hst) (hne hp))) (.of_live hst)
    (h.not_child_of_ne_used ?_)
  intro hu
  rw [hu] at hp
  cases hp

end Xv6.Ftable
