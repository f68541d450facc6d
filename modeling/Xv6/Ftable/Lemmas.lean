import Xv6.Ftable.Basic

/-!
# ファイル表の関数の仕様

表の書き換えの欄ごとの等式と、`file.c`、`pipe.c`、`sysfile.c`、`proc.c` の関数の、値を返す
道筋ごとの結果。後の証明はこれを名前で引き、関数を開かない。
-/

namespace Xv6.Ftable

open Function Xv6.Lib
open Xv6.Process (ProcId ProcState)
open Xv6.Dir (NOFILE)

namespace FState

variable (s : FState)

@[simp] theorem setFile_file (f : Fin NFILE) (x : File) : (s.setFile f x).file = update s.file f x := rfl
@[simp] theorem setFile_proc (f : Fin NFILE) (x : File) : (s.setFile f x).proc = s.proc := rfl
@[simp] theorem setFile_pipe (f : Fin NFILE) (x : File) : (s.setFile f x).pipe = s.pipe := rfl
@[simp] theorem setFile_iref (f : Fin NFILE) (x : File) : (s.setFile f x).iref = s.iref := rfl

@[simp] theorem setProc_proc (p : ProcId) (pr : FProc) : (s.setProc p pr).proc = update s.proc p pr := rfl
@[simp] theorem setProc_file (p : ProcId) (pr : FProc) : (s.setProc p pr).file = s.file := rfl
@[simp] theorem setProc_pipe (p : ProcId) (pr : FProc) : (s.setProc p pr).pipe = s.pipe := rfl
@[simp] theorem setProc_iref (p : ProcId) (pr : FProc) : (s.setProc p pr).iref = s.iref := rfl

@[simp] theorem setProc_proc_self (p : ProcId) (pr : FProc) : (s.setProc p pr).proc p = pr :=
  update_self _ _ _

@[simp] theorem setProc_setProc (p : ProcId) (a b : FProc) : (s.setProc p a).setProc p b = s.setProc p b := by
  simp only [setProc, update_idem]

/-- 違う二つのプロセスの記録の書き換えは、順を入れ替えてもよい。 -/
theorem setPc_setProc_comm {p q : ProcId} (h : q ≠ p) (a : FProc) (c : Pc) :
    (s.setProc q a).setPc p c = (s.setPc p c).setProc q a := by
  simp only [setPc, setProc, update_of_ne (Ne.symm h), FState.mk.injEq, true_and]
  exact update_comm h _ _ _

theorem setPc_def (p : ProcId) (c : Pc) : s.setPc p c = s.setProc p { s.proc p with pc := c } := rfl

theorem setOfile_def (p : ProcId) (fd : Fin NOFILE) (v : Option (Fin NFILE)) :
    s.setOfile p fd v = s.setProc p { s.proc p with ofile := update (s.proc p).ofile fd v } := rfl

end FState

@[simp] theorem iput_file (s : FState) (ip : Nat) : (iput s ip).file = s.file := rfl
@[simp] theorem iput_proc (s : FState) (ip : Nat) : (iput s ip).proc = s.proc := rfl
@[simp] theorem iput_pipe (s : FState) (ip : Nat) : (iput s ip).pipe = s.pipe := rfl
@[simp] theorem iput_iref (s : FState) (ip : Nat) : (iput s ip).iref = update s.iref ip (s.iref ip - 1) := rfl

variable {s s' : FState} {p : ProcId} {f : Fin NFILE}

/-! ## file.c -/

theorem filealloc_eq_some {f : Fin NFILE} (h : filealloc s = some (f, s')) :
    (s.file f).ref = 0 ∧ s' = s.setFile f { s.file f with ref := 1 } := by
  unfold filealloc at h
  split at h
  · cases h
  · rename_i f' hf
    cases h
    exact ⟨by simpa using firstIdx_spec hf, rfl⟩

theorem filedup_of_pos (h : 0 < (s.file f).ref) :
    filedup s f = some (s.setFile f { s.file f with ref := (s.file f).ref + 1 }) := by
  rw [filedup, if_neg (by omega)]

theorem fileclose_of_one_lt (h : 1 < (s.file f).ref) :
    fileclose s f = some (s.setFile f { s.file f with ref := (s.file f).ref - 1 }, none) := by
  rw [fileclose, if_neg (by omega), if_pos (by omega)]

theorem fileclose_of_eq_one (h : (s.file f).ref = 1) :
    fileclose s f = some (s.setFile f { s.file f with ref := 0, type := .none }, (s.file f).release) := by
  rw [fileclose, if_neg (by omega), if_neg (by omega)]

/-- 参照のあるファイルの `fileclose` の前半は panic しない。 -/
theorem fileclose_of_pos (h : 0 < (s.file f).ref) : ∃ s₁ r, fileclose s f = some (s₁, r) := by
  rcases Nat.lt_or_ge 1 (s.file f).ref with h1 | h1
  · exact ⟨_, _, fileclose_of_one_lt h1⟩
  · exact ⟨_, _, fileclose_of_eq_one (by omega)⟩

/-! ## pipe.c -/

/-- 管の端 w を閉じた後の管。両方の端が閉じれば `kfree` されて無い。 -/
def closeEnd (pp : Pipe) (w : Bool) : Option Pipe :=
  let pp := if w then { pp with writeopen := false } else { pp with readopen := false }
  if !pp.readopen && !pp.writeopen then none else some pp

theorem pipeclose_of_some {x : Nat} {pp : Pipe} (h : s.pipe x = some pp) (w : Bool) :
    pipeclose s x w = some { s with pipe := update s.pipe x (closeEnd pp w) } := by
  unfold pipeclose closeEnd
  simp only [h]
  -- 端の印の組ごとに、両辺の if は同じ枝を取る
  rcases pp with ⟨r, w'⟩
  cases w <;> cases r <;> cases w' <;> rfl

/-! ## sysfile.c -/

theorem fdalloc_eq_some {fd : Fin NOFILE} (h : fdalloc s p f = some (fd, s')) :
    (s.proc p).ofile fd = none ∧ s' = s.setOfile p fd (some f) := by
  unfold fdalloc at h
  split at h
  · cases h
  · rename_i fd' hfd
    cases h
    exact ⟨by simpa using firstIdx_spec hfd, rfl⟩

theorem argfd_eq_some {pr : FProc} {fd : Int} {i : Fin NOFILE} (h : argfd pr fd = some (i, f)) :
    pr.ofile i = some f := by
  unfold argfd at h
  split at h
  · rename_i hr
    cases ho : pr.ofile ⟨fd.toNat, by omega⟩ with
    | none => rw [ho] at h; cases h
    | some g =>
        rw [ho] at h
        cases h
        exact ho
  · cases h

/-! ## proc.c -/

theorem allocproc_eq_some {q : ProcId} (h : allocproc s = some (q, s')) :
    (s.proc q).state = .unused ∧ s' = s.setProc q { s.proc q with state := .used } := by
  unfold allocproc at h
  split at h
  · cases h
  · rename_i q' hq
    cases h
    exact ⟨by simpa using firstIdx_spec hq, rfl⟩

end Xv6.Ftable
