import Xv6.Process.Lemmas.Exit

/-!
# fork, exit, wait の一巡

init だけがいる状態 `onlyInit c n` から、init が fork し、子が exit し、init が wait すると、
数の欄だけが進んだ `onlyInit (c + 1) (n + 1)` に戻る（32 ビットで丸める）。これを繰り返すと、
根の `next_ns_pid` と `nextpid` は回って負になる。
-/

namespace Xv6.Process

open Xv6.Lib

/-- `onlyInit` の次の状態に、枠 1 に状態 st の init の子（大域の pid と根の pid は c）がいる。 -/
def onlyInitChild (c n : Int) (st : ProcState) : Kernel :=
  (onlyInit (wrap32 (c + 1)) (wrap32 (n + 1))).updProc 1 fun _ =>
    { Proc.empty with state := st, pid := c, parent := some 0, ns := some 0,
                      pids := Function.update (fun _ => 0) 0 c }

variable {c n : Int}

theorem onlyInitChild_proc_ne {st : ProcState} {q : ProcId} (h0 : q ≠ 0) (h1 : q ≠ 1) :
    (onlyInitChild c n st).proc q = Proc.empty := by
  simp [onlyInitChild, h1, onlyInit_proc_ne h0]

private theorem firstIdx_onlyInit_unused :
    firstIdx (fun i => ((onlyInit c n).proc i).state == .unused) = some 1 := by
  rw [firstIdx_eq_some_iff]
  refine ⟨by simp [onlyInit_proc_ne (show (1 : ProcId) ≠ 0 by decide), Proc.empty], ?_⟩
  intro j hj
  have : j = 0 := by
    rw [Fin.lt_def] at hj
    ext
    simp at hj ⊢
    omega
  subst this
  simp [onlyInit]

theorem fork_onlyInit : fork 0 .ok (onlyInit c n) = some (c, onlyInitChild c n .runnable) := by
  simp only [fork, allocproc, firstIdx_onlyInit_unused]
  simp [onlyInit, fillPids, assignPid, allocInit, allocpid, forkFinish, MemOutcome.ok, pidAt,
    Namespace.empty, Proc.empty]
  refine Kernel.ext ?_ ?_ rfl rfl rfl
  · funext q
    by_cases h1 : q = 1
    · subst h1
      simp [onlyInitChild, Proc.empty]
    · simp [onlyInitChild, onlyInit, h1, Proc.empty]
  · funext m
    by_cases h0 : m = 0
    · subst h0; simp [onlyInitChild, onlyInit, Namespace.empty]
    · simp [onlyInitChild, onlyInit, h0, Namespace.empty]

theorem exit_onlyInitChild :
    exit 1 0 (onlyInitChild c n .runnable) = some (onlyInitChild c n .zombie) := by
  have hpar : ∀ q, ((onlyInitChild c n .runnable).proc q).parent ≠ some 1 := by
    intro q
    by_cases h0 : q = 0
    · subst h0; simp [onlyInitChild, onlyInit]
    by_cases h1 : q = 1
    · subst h1; simp [onlyInitChild]
    · simp [onlyInitChild_proc_ne h0 h1]
  have hsleep : ∀ q, ((onlyInitChild c n .runnable).proc q).state ≠ .sleeping := by
    intro q
    by_cases h0 : q = 0
    · subst h0; simp [onlyInitChild, onlyInit]
    by_cases h1 : q = 1
    · subst h1; simp [onlyInitChild]
    · simp [onlyInitChild_proc_ne h0 h1]
  unfold exit
  rw [if_neg (by simp [onlyInitChild, onlyInit]), reparent_of_no_child hpar]
  simp only [Option.bind_eq_bind, Option.bind_some, wakeup_of_none_sleeping _ _ hsleep,
    Option.some.injEq]
  simp [onlyInitChild, Kernel.updProc, Function.update_idem, Proc.empty]

private theorem firstIdx_onlyInitChild_zombie :
    firstIdx (fun pp => ((onlyInitChild c n .zombie).proc pp).parent == some 0 &&
      ((onlyInitChild c n .zombie).proc pp).state == .zombie) = some 1 := by
  rw [firstIdx_eq_some_iff]
  refine ⟨by simp [onlyInitChild], ?_⟩
  intro j hj
  have : j = 0 := by
    rw [Fin.lt_def] at hj
    ext
    simp at hj ⊢
    omega
  subst this
  simp [onlyInitChild, onlyInit]

theorem wait_onlyInitChild :
    wait 0 false (onlyInitChild c n .zombie) =
      some (c, onlyInit (wrap32 (c + 1)) (wrap32 (n + 1))) := by
  simp only [wait, firstIdx_onlyInitChild_zombie, Bool.false_eq_true, if_false]
  refine congrArg some (Prod.ext (by simp [onlyInitChild]) ?_)
  rw [freeproc_eq]
  refine Kernel.ext ?_ rfl rfl rfl rfl
  funext q
  by_cases h1 : q = 1
  · subst h1
    simp [onlyInitChild, onlyInit_proc_ne (show (1 : ProcId) ≠ 0 by decide)]
  · simp [onlyInitChild, h1]

/-! ## 一巡を繰り返す -/

/-- init だけの到達可能な状態から、init の fork、子の exit、init の wait で、数の欄が一つ進んだ
init だけの状態に着く。 -/
theorem reach_onlyInit_cycle (h : Reach (onlyInit c n)) :
    Reach (onlyInit (wrap32 (c + 1)) (wrap32 (n + 1))) := by
  have h₁ : Reach (onlyInitChild c n .runnable) :=
    Reachable.step h ⟨0, .fork .ok, c, by simp [Live, onlyInit], fork_onlyInit⟩
  have h₂ : Reach (onlyInitChild c n .zombie) :=
    Reachable.step h₁ ⟨1, .exit 0, 0, by simp [Live, onlyInitChild],
      by simp [syscall, exit_onlyInitChild]⟩
  exact Reachable.step h₂
    ⟨0, .wait false, c, by simp [Live, onlyInitChild, onlyInit], wait_onlyInitChild⟩

/-- 起動の後 m 回の一巡で、根の `next_ns_pid` と `nextpid` は 2 + m、根の `num_proc` は 1 + m を
32 ビットに丸めた値になる。 -/
theorem reach_onlyInit_iter (m : Nat) : Reach (onlyInit (wrap32 (2 + m)) (wrap32 (1 + m))) := by
  induction m with
  | zero =>
      rw [Nat.cast_zero, add_zero, add_zero, (by decide : wrap32 2 = 2),
        (by decide : wrap32 1 = 1)]
      exact reach_onlyInit
  | succ m ih =>
      have h := reach_onlyInit_cycle ih
      rw [wrap32_wrap32_add, wrap32_wrap32_add] at h
      rwa [Nat.cast_succ, ← add_assoc, ← add_assoc]

end Xv6.Process
