import Xv6.Process.Lemmas.Frame

/-!
# 起動の後の状態

`userinit` の後は、init だけがいる状態 `onlyInit 2 1` になる。fork と exit と wait を一回ずつ
すると、init だけがいる状態に数の欄だけが進んで戻る（`Lemmas/Cycle.lean`）。
-/

namespace Xv6.Process

open Xv6.Lib

/-- init だけがいる状態: 枠 0 に RUNNABLE の init（大域の pid 1、根の名前空間の pid 1）、名前空間 0
が根。根の `next_ns_pid` と大域の `nextpid` は c、根の `num_proc` は n。 -/
def onlyInit (c n : Int) : Kernel where
  proc := Function.update (fun _ => Proc.empty) 0
    { Proc.empty with state := .runnable, pid := 1, ns := some 0,
                      pids := Function.update (fun _ => 0) 0 1 }
  namespaces := Function.update (fun _ => Namespace.empty) 0
    { Namespace.empty with head := some 0, used := true, nextNsPid := c, numProc := n }
  initproc := some 0
  initnamespace := some 0
  nextpid := c

theorem onlyInit_proc_ne {c n : Int} {q : ProcId} (hq : q ≠ 0) : (onlyInit c n).proc q = Proc.empty := by
  simp [onlyInit, hq]

theorem onlyInit_namespaces_ne {c n : Int} {m : NsId} (hm : m ≠ 0) :
    (onlyInit c n).namespaces m = Namespace.empty := by
  simp [onlyInit, hm]

private theorem firstIdx_boot_ns : firstIdx (fun n : NsId => !(boot.namespaces n).used) = some 0 := by
  rw [firstIdx_eq_some_iff]; simp [boot, Namespace.empty]

private theorem firstIdx_boot_proc :
    firstIdx (fun _ : ProcId => Proc.empty.state == .unused) = some 0 := by
  rw [firstIdx_eq_some_iff]; simp [Proc.empty]

theorem userinit_boot_ok : userinit true true boot = some (onlyInit 2 1) := by
  have w : wrap32 2 = 2 := by decide
  simp only [userinit, allocnamespace, firstIdx_boot_ns, allocproc, Kernel.updNs_proc]
  simp only [show boot.proc = fun _ => Proc.empty from rfl, firstIdx_boot_proc]
  simp [fillPids, assignPid, allocInit, allocpid]
  apply Kernel.ext
  · funext q
    by_cases hq : q = 0
    · subst hq; simp [onlyInit, Proc.empty, boot]
    · simp [hq, onlyInit, boot]
  · funext n
    by_cases hn : n = 0
    · subst hn; simp [onlyInit, Namespace.empty, boot, w]
    · simp [hn, onlyInit, boot]
  · rfl
  · rfl
  · simp [onlyInit, boot, w]

/-- 起動の後の状態は一つ。割り当てに失敗すると、userinit は `p->pagetable` の参照外しで止まる。 -/
theorem userinit_boot {t g : Bool} {k : Kernel} (h : userinit t g boot = some k) :
    k = onlyInit 2 1 := by
  cases t <;> cases g
  all_goals
    first
    | (rw [userinit_boot_ok] at h; cases h; rfl)
    | (simp only [userinit, allocnamespace, firstIdx_boot_ns, allocproc, Kernel.updNs_proc] at h
       simp only [show boot.proc = fun _ => Proc.empty from rfl, firstIdx_boot_proc] at h
       simp [fillPids, assignPid, allocInit] at h)

theorem init_iff {k : Kernel} : Init k ↔ k = onlyInit 2 1 := by
  constructor
  · rintro ⟨t, g, h⟩; exact userinit_boot h
  · rintro rfl; exact ⟨true, true, userinit_boot_ok⟩

theorem reach_onlyInit : Reach (onlyInit 2 1) := Reachable.init (init_iff.mpr rfl)

end Xv6.Process
