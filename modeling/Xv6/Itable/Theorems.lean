import Xv6.Itable.Inv

/-!
# inode の表: 一意性、参照の数、解放

到達できるどの状態でも、

* ref が正の二つの入口は同じ (dev, inum) を持たず、ref は入口を指すポインタの数である。
* iput は sleeplock で待たず、解放の区間に入るのは ref が 1（呼び出し元のポインタが最後の
  一つ）で、入口が valid で、nlink が 0 のときだけである。このとき入口の nlink はディスクの
  inode の nlink と同じである。
* ディスクの inode の type を 0 にするのは、解放の区間の `iupdate` だけである。

valid は、iget が入口を取ってから ilock がディスクを読むまで落ちている。ilock を通らずに
iput すれば、nlink が 0 でも inode は解放されない（`iput_unlocked_keeps_inode`）。
-/

namespace Xv6.Itable

open Function Xv6.Lib

variable {H : Type} [DecidableEq H] {s : IState H}

/-! ## 最後のポインタ -/

/-- ref が 1 の入口を指すポインタは一つだけ。 -/
theorem IInv.last_ref (hs : IInv s) {h : H} {ip : InodeId} (hm : (h, ip) ∈ s.ptrs)
    (h1 : (s.inode ip).ref = 1) : ∀ p ∈ s.ptrs, p.2 = ip → p = (h, ip) :=
  eq_of_ptrCount_eq_one hm ((hs.refs ip).symm.trans h1)

/-- 最後のポインタの持ち主が区間の外にいれば、どの持ち主もこの入口の解放の区間にいない。 -/
theorem IInv.no_stage_of_last_ref (hs : IInv s) {h : H} {ip : InodeId} (hm : (h, ip) ∈ s.ptrs)
    (h1 : (s.inode ip).ref = 1) (hidle : s.pc h = .idle) (g : H) : (s.pc g).target ≠ some ip := by
  intro ht
  have hg := hs.last_ref hm h1 _ (hs.target_mem ht) rfl
  rw [Prod.mk.injEq] at hg
  rw [hg.1, hidle] at ht
  cases ht

/-- 最後のポインタの持ち主が区間の外にいれば、valid な入口はディスクの inode と一致する。 -/
theorem IInv.disk_of_last_ref (hs : IInv s) {h : H} {ip : InodeId} (hm : (h, ip) ∈ s.ptrs)
    (h1 : (s.inode ip).ref = 1) (hidle : s.pc h = .idle) (hv : (s.inode ip).valid = true) :
    s.disk (s.inode ip).dev (s.inode ip).inum = ⟨(s.inode ip).type, (s.inode ip).nlink⟩ :=
  (hs.coherent ip (hs.ref_pos hm) hv fun g hcl =>
    hs.no_stage_of_last_ref hm h1 hidle g (Pc.target_of_holding (Pc.holding_of_typeCleared hcl))).1

/-! ## iput の判断 -/

/-- iput は待たずに進み、解放の区間に入るのは `freeOnPut` のときだけ。ref が 1 なら、ほかの
持ち主はポインタを持たないので sleeplock も持たない。 -/
theorem IInv.iput_step (hs : IInv s) {h : H} {ip : InodeId} (hidle : s.pc h = .idle) (hm : (h, ip) ∈ s.ptrs)
    (hl : s.lock ip ≠ some h) :
    ∃ s', (IOp.iput h ip).step s = some s' ∧ (s'.pc h = .trunc ip ↔ (s.inode ip).freeOnPut = true) := by
  by_cases hf : (s.inode ip).freeOnPut = true
  · have hfree : s.lock ip = none := by
      cases hlk : s.lock ip with
      | none => rfl
      | some g =>
        have hg := hs.last_ref hm (Inode.freeOnPut_iff.mp hf).1 _ (hs.lockHeld ip g hlk) rfl
        rw [Prod.mk.injEq] at hg
        rw [hg.1] at hlk
        exact absurd hlk hl
    refine ⟨{ s with lock := update s.lock ip (some h), pc := update s.pc h (.trunc ip) }, ?_, ?_⟩
    · simp [IOp.step, hidle, hm, hf, hfree]
    · simp [hf]
  · refine ⟨{ s.setInode ip (fun x => { x with ref := x.ref - 1 }) with ptrs := s.ptrs.erase (h, ip) }, ?_, ?_⟩
    · simp [IOp.step, hidle, hm, hl, hf]
    · simp [hidle, hf]

/-- 持ち主 h の位置を変えるのは、h の iput が解放の区間に入るときと、h の区間の次の文だけ。 -/
theorem IOp.step_pc {op : IOp H} {s' : IState H} (hst : op.step s = some s') (h : H) :
    s'.pc h = s.pc h ∨ op = .cont h ∨
      ∃ ip, op = .iput h ip ∧ (s.inode ip).freeOnPut = true ∧ s'.pc h = .trunc ip := by
  cases op with
  | iput g ip =>
    simp only [IOp.step] at hst
    split_ifs at hst with hc hf
    · cases hst
      by_cases hg : g = h
      · subst hg
        exact .inr (.inr ⟨ip, rfl, hf, update_self _ _ _⟩)
      · exact .inl (update_of_ne (Ne.symm hg) _ _)
    · cases hst
      exact .inl rfl
  | cont g =>
    by_cases hg : g = h
    · exact .inr (.inl (hg ▸ rfl))
    · simp only [IOp.step] at hst
      split at hst <;> cases hst <;> exact .inl (update_of_ne (Ne.symm hg) _ _)
  | iget g dev inum =>
    simp only [IOp.step] at hst
    split at hst <;> cases hst
    exact .inl rfl
  | ilock g ip =>
    simp only [IOp.step] at hst
    split_ifs at hst
    split at hst <;> cases hst
    exact .inl rfl
  | ialloc dev type =>
    simp only [IOp.step] at hst
    split_ifs at hst
    split at hst <;> cases hst <;> exact .inl rfl
  | idup | pass | iunlock | write =>
    simp only [IOp.step] at hst
    split_ifs at hst
    cases hst
    exact .inl rfl

/-- 区間の外の持ち主が区間に入るのは、`freeOnPut` の入口への iput だけ。 -/
theorem IOp.leave_idle {op : IOp H} {s' : IState H} {h : H} (hst : op.step s = some s')
    (hidle : s.pc h = .idle) (hne : s'.pc h ≠ .idle) :
    ∃ ip, op = .iput h ip ∧ (s.inode ip).freeOnPut = true ∧ s'.pc h = .trunc ip := by
  rcases IOp.step_pc hst h with hpc | rfl | hip
  · exact absurd (hpc.trans hidle) hne
  · simp [IOp.step, hidle] at hst
  · exact hip

/-! ## ディスクの inode の解放 -/

/-- ディスクの inode を書くのは、nlink の書き込み、解放の区間の iupdate、ialloc だけ。 -/
theorem IOp.step_disk {op : IOp H} {s' : IState H} (hst : op.step s = some s') :
    s'.disk = s.disk ∨ (∃ g ip m, op = .write g ip m) ∨ (∃ g, op = .cont g) ∨ ∃ dev type, op = .ialloc dev type := by
  cases op with
  | write g ip m => exact .inr (.inl ⟨g, ip, m, rfl⟩)
  | cont g => exact .inr (.inr (.inl ⟨g, rfl⟩))
  | ialloc dev type => exact .inr (.inr (.inr ⟨dev, type, rfl⟩))
  | iget g dev inum =>
    simp only [IOp.step] at hst
    split at hst <;> cases hst
    exact .inl rfl
  | ilock g ip =>
    simp only [IOp.step] at hst
    split_ifs at hst
    split at hst <;> cases hst
    exact .inl rfl
  | iput g ip =>
    simp only [IOp.step] at hst
    split_ifs at hst <;> cases hst <;> exact .inl rfl
  | idup | pass | iunlock =>
    simp only [IOp.step] at hst
    split_ifs at hst
    cases hst
    exact .inl rfl

/-- ディスクの inode の type を 0 にする遷移は、解放の区間の iupdate だけで、そのとき入口の
type と nlink は 0。nlink を書く持ち主は sleeplock を持つので、入口は区間の外で type は 0 で
なく、ialloc は 0 でない型を書く。 -/
theorem IInv.disk_type_zero (hs : IInv s) {op : IOp H} {s' : IState H} (hst : op.step s = some s')
    {d n : Nat} (h0 : (s.disk d n).type ≠ 0) (h1 : (s'.disk d n).type = 0) :
    ∃ h ip, op = .cont h ∧ s.pc h = .update ip ∧ (s.inode ip).dev = d ∧ (s.inode ip).inum = n ∧
      (s.inode ip).type = 0 ∧ (s.inode ip).nlink = 0 := by
  rcases IOp.step_disk hst with hd | ⟨g, ip, m, rfl⟩ | ⟨g, rfl⟩ | ⟨dev, type, rfl⟩
  · rw [hd] at h1
    exact absurd h1 h0
  · simp only [IOp.step] at hst
    split_ifs at hst with hc
    cases hst
    have hcl : ∀ g', ¬ (s.pc g').typeCleared ip := fun g' hcl =>
      hs.not_holding hc.2.1 hc.1 (Pc.holding_of_typeCleared hcl)
    have ht := (hs.coherent ip (hs.ref_pos (hs.lockHeld ip g hc.2.1)) hc.2.2 hcl).2
    dsimp only [iupdate] at h1
    split_ifs at h1
    · exact absurd h1 ht
    · exact absurd h1 h0
  · simp only [IOp.step] at hst
    split at hst
    · cases hst
    all_goals
      rename_i ip hpc
      cases hst
    · exact absurd h1 h0
    · have hst : StageOK s g (.update ip) := hpc ▸ hs.stage g
      dsimp only [iupdate] at h1
      split_ifs at h1 with hk
      · exact ⟨g, ip, rfl, hpc, hk.1.symm, hk.2.symm, hst.2.2.1, hst.2.2.2⟩
      · exact absurd h1 h0
    · exact absurd h1 h0
    · exact absurd h1 h0
    · exact absurd h1 h0
  · simp only [IOp.step] at hst
    split_ifs at hst with ht
    split at hst
    · rename_i inum dd hd
      cases hst
      obtain ⟨-, rfl⟩ := ialloc_spec hd
      dsimp only at h1
      split_ifs at h1
      · exact absurd h1 ht
      · exact absurd h1 h0
    · cases hst
      exact absurd h1 h0

/-- 解放の区間は止まらない: `itrunc` の次は iupdate で、iupdate はディスクの inode を
type も nlink も 0 で書く。 -/
theorem IOp.cont_trunc {h : H} {ip : InodeId} (hpc : s.pc h = .trunc ip) :
    ∃ s', (IOp.cont h).step s = some s' ∧ s'.pc h = .update ip ∧ s'.inode ip = { s.inode ip with type := 0 } :=
  ⟨_, by simp only [IOp.step, hpc]; rfl, update_self _ _ _, update_self _ _ _⟩

theorem IInv.cont_update (hs : IInv s) {h : H} {ip : InodeId} (hpc : s.pc h = .update ip) :
    ∃ s', (IOp.cont h).step s = some s' ∧ s'.disk (s.inode ip).dev (s.inode ip).inum = ⟨0, 0⟩ := by
  have hst : StageOK s h (.update ip) := hpc ▸ hs.stage h
  refine ⟨_, by simp only [IOp.step, hpc]; rfl, ?_⟩
  dsimp only
  rw [iupdate_self, hst.2.2.1, hst.2.2.2]

/-! ## 到達できる状態で -/

/-- 到達できるどの状態でも、ref が正の入口の (dev, inum) は一意で、ref はポインタの数である。
iput は待たずに進み、解放の区間に入るのは ref が 1 で valid で nlink が 0 のときだけで、その
とき呼び出し元のポインタが最後の一つで、nlink はディスクの inode と同じ。区間に入るのはこの
iput だけで、区間は止まらずにディスクの inode を type 0 で書き、ディスクの inode の type を 0 に
するのはこの区間の iupdate だけ。 -/
theorem itable_refs_and_free {s : IState H} (hr : IReach s) :
    KeysUnique s.inode ∧
    (∀ ip, (s.inode ip).ref = ptrCount s.ptrs ip) ∧
    (∀ h ip, s.pc h = .idle → (h, ip) ∈ s.ptrs → s.lock ip ≠ some h →
      ∃ s', (IOp.iput h ip).step s = some s' ∧
        (s'.pc h = .trunc ip ↔ (s.inode ip).ref = 1 ∧ (s.inode ip).valid = true ∧ (s.inode ip).nlink = 0)) ∧
    (∀ h ip, s.pc h = .idle → (h, ip) ∈ s.ptrs → (s.inode ip).ref = 1 → (s.inode ip).valid = true →
      (∀ p ∈ s.ptrs, p.2 = ip → p = (h, ip)) ∧
        (s.disk (s.inode ip).dev (s.inode ip).inum).nlink = (s.inode ip).nlink) ∧
    (∀ (op : IOp H) s' h, op.step s = some s' → s.pc h = .idle → s'.pc h ≠ .idle →
      ∃ ip, op = .iput h ip ∧ (s.inode ip).ref = 1 ∧ (s.inode ip).valid = true ∧ (s.inode ip).nlink = 0) ∧
    (∀ h ip, s.pc h = .trunc ip → ∃ s', (IOp.cont h).step s = some s' ∧ s'.pc h = .update ip) ∧
    (∀ h ip, s.pc h = .update ip →
      ∃ s', (IOp.cont h).step s = some s' ∧ s'.disk (s.inode ip).dev (s.inode ip).inum = ⟨0, 0⟩) ∧
    (∀ (op : IOp H) s' d n, op.step s = some s' → (s.disk d n).type ≠ 0 → (s'.disk d n).type = 0 →
      ∃ h ip, op = .cont h ∧ s.pc h = .update ip ∧ (s.inode ip).dev = d ∧ (s.inode ip).inum = n ∧
        (s.inode ip).type = 0 ∧ (s.inode ip).nlink = 0) := by
  have hs := ireach_iinv hr
  refine ⟨hs.unique, hs.refs, ?_, ?_, ?_, ?_, fun h ip hpc => hs.cont_update hpc, ?_⟩
  · intro h ip hidle hm hl
    obtain ⟨s', hst, hpc⟩ := hs.iput_step hidle hm hl
    exact ⟨s', hst, hpc.trans Inode.freeOnPut_iff⟩
  · intro h ip hidle hm h1 hv
    refine ⟨hs.last_ref hm h1, ?_⟩
    rw [hs.disk_of_last_ref hm h1 hidle hv]
  · intro op s' h hst hidle hne
    obtain ⟨ip, hop, hf, -⟩ := IOp.leave_idle hst hidle hne
    exact ⟨ip, hop, Inode.freeOnPut_iff.mp hf⟩
  · intro h ip hpc
    obtain ⟨s', hst, hpc', -⟩ := IOp.cont_trunc hpc
    exact ⟨s', hst, hpc'⟩
  · intro op s' d n hst h0 h1
    exact hs.disk_type_zero hst h0 h1

/-- 起動の後の状態の一つ: ディスクの inode はすべて空きで、`sb.ninodes` は 4。 -/
def bootState : IState Unit :=
  ⟨fun _ => ⟨0, 0, 0, false, 0, 0⟩, fun _ => none, fun _ _ => ⟨0, 0⟩, 4, fun _ => .idle, []⟩

theorem bootState_init : IInit bootState := ⟨fun _ => rfl, fun _ => rfl, fun _ => rfl, rfl⟩

/-- ialloc が inode を作り、iget がその入口を取った状態。 -/
theorem itable_refs_and_free_iget :
    ∃ s : IState Unit, IReach s ∧ s.ptrs = [((), 0)] ∧
    KeysUnique s.inode ∧
    (∀ ip, (s.inode ip).ref = ptrCount s.ptrs ip) ∧
    (∀ h ip, s.pc h = .idle → (h, ip) ∈ s.ptrs → s.lock ip ≠ some h →
      ∃ s', (IOp.iput h ip).step s = some s' ∧
        (s'.pc h = .trunc ip ↔ (s.inode ip).ref = 1 ∧ (s.inode ip).valid = true ∧
          (s.inode ip).nlink = 0)) ∧
    (∀ h ip, s.pc h = .idle → (h, ip) ∈ s.ptrs → (s.inode ip).ref = 1 →
      (s.inode ip).valid = true →
      (∀ p ∈ s.ptrs, p.2 = ip → p = (h, ip)) ∧
        (s.disk (s.inode ip).dev (s.inode ip).inum).nlink = (s.inode ip).nlink) ∧
    (∀ (op : IOp Unit) s' h, op.step s = some s' → s.pc h = .idle → s'.pc h ≠ .idle →
      ∃ ip, op = .iput h ip ∧ (s.inode ip).ref = 1 ∧ (s.inode ip).valid = true ∧
        (s.inode ip).nlink = 0) ∧
    (∀ h ip, s.pc h = .trunc ip → ∃ s', (IOp.cont h).step s = some s' ∧ s'.pc h = .update ip) ∧
    (∀ h ip, s.pc h = .update ip →
      ∃ s', (IOp.cont h).step s = some s' ∧
        s'.disk (s.inode ip).dev (s.inode ip).inum = ⟨0, 0⟩) ∧
    (∀ (op : IOp Unit) s' d n, op.step s = some s' → (s.disk d n).type ≠ 0 →
      (s'.disk d n).type = 0 →
      ∃ h ip, op = .cont h ∧ s.pc h = .update ip ∧ (s.inode ip).dev = d ∧
        (s.inode ip).inum = n ∧ (s.inode ip).type = 0 ∧ (s.inode ip).nlink = 0) :=
  have hr := Reachable.step (Reachable.step (.init bootState_init) ⟨.ialloc 1 2, rfl⟩) ⟨.iget () 1 1, rfl⟩
  ⟨_, hr, rfl, itable_refs_and_free hr⟩

/-- ilock を通らずに iput すると、nlink が 0 のディスクの inode は解放されずに残る。ialloc が
作った inode（nlink は 0）を iget して、valid のまま落ちている入口を iput する。最後のポインタが
なくなり、解放の区間にいる持ち主もいないが、ディスクの inode の type は 2 のまま。 -/
theorem iput_unlocked_keeps_inode :
    ∃ s s' : IState Unit, IReach s ∧ (IOp.iput () 0).step s = some s' ∧
      s.ptrs = [((), 0)] ∧ (s.inode 0).dev = 1 ∧ (s.inode 0).inum = 1 ∧ (s.inode 0).nlink = 0 ∧
      (s.disk 1 1).nlink = 0 ∧ s'.ptrs = [] ∧ s'.pc () = .idle ∧ (s'.disk 1 1).type = 2 ∧
      (s'.disk 1 1).nlink = 0 :=
  ⟨_, _, .step (.step (.init bootState_init) ⟨.ialloc 1 2, rfl⟩) ⟨.iget () 1 1, rfl⟩, rfl, by decide⟩

end Xv6.Itable
