import Xv6.Ftable.Lemmas
import Xv6.Lib.Count

/-!
# 参照の勘定

ファイルの `ref` を、プロセスごとの勘定の和として読む。プロセスの勘定は、UNUSED でない
プロセスの欄のうち参照を持つもの（`slots`）と、システムコールの途中で持つ参照
（`heldFiles`）である。sys_dup は `fdalloc` で欄を書いてから `filedup` し、exit は
`fileclose` をしてから欄を空けるので、その間の欄は参照を持たない（`Pc.unbacked`）。

参照が 0 になったときにすること（管の端を閉じるか inode を put するか）は、生きたファイルが
負い（`File.owes`）、`fileclose` の前半の後はプロセスの `release` に移る。二つを合わせた
`pending` が、管の端が開いていることと inode の参照の勘定に合う。

一つのプロセスか一つのファイルだけを書き換えると、それぞれの和はその勘定の差だけ変わる
（`Lib.sum_add_eq_of_eq_off` の使い方）。
-/

namespace Xv6.Ftable

open Function Xv6.Lib
open Xv6.Process (ProcId ProcState)
open Xv6.Dir (NOFILE)

/-- 参照を持たない欄: sys_dup が書いて `filedup` の前の欄と、exit が閉じて空ける前の欄。 -/
def Pc.unbacked : Pc → Option (Fin NOFILE)
  | .dup _ _ nfd => some nfd
  | .exitClear fd => some fd
  | _ => none

/-- 呼び出しの途中でプロセスが持つファイルの参照。 -/
def heldFiles : Pc → List (Fin NFILE)
  | .close fs _ => fs
  | .openFd _ _ _ f => [f]
  | .pipeAlloc f0 => [f0]
  | .pipeKalloc f0 f1 => [f0, f1]
  | .pipeFd0 rf wf => [rf, wf]
  | .pipeFd1 _ wf _ => [wf]
  | .pipeUndo rf _ _ => [rf]
  | .forkSet _ _ f => [f]
  | _ => []

/-- 呼び出しの途中でプロセスが持つ inode の参照: sys_open の ip。 -/
def heldInode : Pc → List Nat
  | .close _ put => put.toList
  | .openAlloc ip _ _ | .openFd ip _ _ _ | .openInit ip _ _ _ _ => [ip]
  | _ => []

/-- `filealloc` が返して、まだ欄を書いていないファイル。 -/
def freshFiles : Pc → List (Fin NFILE)
  | .openFd _ _ _ f | .openInit _ _ _ f _ => [f]
  | .pipeAlloc f0 => [f0]
  | .pipeKalloc f0 f1 => [f0, f1]
  | _ => []

/-- 取ったばかりのファイルは、呼び出しの手にあるか、sys_open が欄に書いたばかりのもの。 -/
theorem mem_held_of_fresh {c : Pc} {f : Fin NFILE} (h : f ∈ freshFiles c) :
    f ∈ heldFiles c ∨ ∃ ip omode type fd, c = .openInit ip omode type f fd := by
  cases c with
  | openInit ip omode type f' fd =>
      simp only [freshFiles, List.mem_singleton] at h
      exact .inr ⟨ip, omode, type, fd, by rw [h]⟩
  | _ => simp_all [freshFiles, heldFiles]

/-- fork の途中なら、作っている子。 -/
def Pc.child : Pc → Option ProcId
  | .forkCopy np | .forkDup np _ | .forkSet np _ _ => some np
  | _ => none

namespace FProc

/-- 欄 fd が f を指し、その参照を持つ。 -/
def Counts (pr : FProc) (f : Fin NFILE) (fd : Fin NOFILE) : Prop :=
  pr.ofile fd = some f ∧ pr.pc.unbacked ≠ some fd

instance (pr : FProc) (f : Fin NFILE) (fd : Fin NOFILE) : Decidable (pr.Counts f fd) :=
  inferInstanceAs (Decidable (_ ∧ _))

/-- UNUSED でないプロセスの、f を指して参照を持つ欄の数。 -/
def slots (pr : FProc) (f : Fin NFILE) : Nat :=
  if pr.state = .unused then 0 else ∑ fd, if pr.Counts f fd then 1 else 0

/-- プロセスの勘定: 参照を持つ欄と、呼び出しの途中で持つ参照。 -/
def refs (pr : FProc) (f : Fin NFILE) : Nat := pr.slots f + (heldFiles pr.pc).count f

variable {pr pr' : FProc} {f : Fin NFILE}

theorem slots_congr (hu : pr'.state = .unused ↔ pr.state = .unused)
    (h : ∀ fd, pr'.Counts f fd ↔ pr.Counts f fd) : pr'.slots f = pr.slots f := by
  unfold slots
  by_cases hs : pr.state = .unused
  · rw [if_pos (hu.mpr hs), if_pos hs]
  · rw [if_neg (fun h' => hs (hu.mp h')), if_neg hs]
    exact Finset.sum_congr rfl fun fd _ => if_congr (h fd) rfl rfl

/-- 一つの欄 fd の外で同じなら、欄の数はその欄の違いだけ違う。 -/
theorem slots_add_eq_of_eq_off (fd : Fin NOFILE) (hs' : pr'.state ≠ .unused) (hs : pr.state ≠ .unused)
    (h : ∀ j, j ≠ fd → (pr'.Counts f j ↔ pr.Counts f j)) :
    pr'.slots f + (if pr.Counts f fd then 1 else 0) = pr.slots f + (if pr'.Counts f fd then 1 else 0) := by
  unfold slots
  rw [if_neg hs', if_neg hs]
  exact sum_add_eq_of_eq_off fd fun j hj => if_congr (h j hj) rfl rfl

/-- 一つの欄 fd の外で同じなら、勘定はその欄と、途中で持つ参照の違いだけ違う。 -/
theorem refs_add_eq_of_eq_off (fd : Fin NOFILE) (hs' : pr'.state ≠ .unused) (hs : pr.state ≠ .unused)
    (h : ∀ j, j ≠ fd → (pr'.Counts f j ↔ pr.Counts f j)) :
    pr'.refs f + (if pr.Counts f fd then 1 else 0) + (heldFiles pr.pc).count f =
      pr.refs f + (if pr'.Counts f fd then 1 else 0) + (heldFiles pr'.pc).count f := by
  have := slots_add_eq_of_eq_off fd hs' hs h
  unfold refs
  omega

/-- 欄 fd のほかは欄も参照を持たない欄も同じで、fd の勘定と途中で持つ参照の合計が同じなら、
勘定は同じ: 参照が欄と呼び出しの手の間を移るだけの段。 -/
theorem refs_eq_of_move (fd : Fin NOFILE) (hs' : pr'.state ≠ .unused) (hs : pr.state ≠ .unused)
    (hoff : ∀ j, j ≠ fd → pr'.ofile j = pr.ofile j)
    (hub : ∀ j, j ≠ fd → (pr'.pc.unbacked = some j ↔ pr.pc.unbacked = some j))
    (hat : ∀ g, (if pr.Counts g fd then 1 else 0) + (heldFiles pr.pc).count g =
      (if pr'.Counts g fd then 1 else 0) + (heldFiles pr'.pc).count g) (g : Fin NFILE) :
    pr'.refs g = pr.refs g := by
  have key := refs_add_eq_of_eq_off (f := g) fd hs' hs fun j hj => by
    simp only [Counts, hoff j hj, ne_eq, hub j hj]
  have := hat g
  omega

/-- 状態が UNUSED かどうかと欄と参照を持たない欄が同じで、途中で持つ参照も同じなら、勘定は同じ。 -/
theorem refs_congr (hu : pr'.state = .unused ↔ pr.state = .unused) (ho : pr'.ofile = pr.ofile)
    (hub : pr'.pc.unbacked = pr.pc.unbacked) (hh : heldFiles pr'.pc = heldFiles pr.pc) (g : Fin NFILE) :
    pr'.refs g = pr.refs g := by
  unfold refs
  rw [slots_congr hu fun fd => by simp only [Counts, ho, hub], hh]

theorem slots_of_empty (h : ∀ fd, pr.ofile fd = none) : pr.slots f = 0 := by
  unfold slots
  split
  · rfl
  · refine Finset.sum_eq_zero fun fd _ => if_neg fun hc => ?_
    have ho := hc.1
    rw [h fd] at ho
    cases ho

/-- 参照を持つ欄があれば、その欄のぶん勘定がある。 -/
theorem one_le_slots {fd : Fin NOFILE} (hs : pr.state ≠ .unused) (hc : pr.Counts f fd) :
    1 ≤ pr.slots f := by
  unfold slots
  rw [if_neg hs]
  have := le_sum (fun j => if pr.Counts f j then 1 else 0) fd
  simp only [if_pos hc] at this
  exact this

end FProc

/-! ## 和 -/

/-- ファイル f の参照の勘定の和。 -/
def refSum (s : FState) (f : Fin NFILE) : Nat := ∑ p, (s.proc p).refs f

/-- UNUSED でないプロセスの、f を指して参照を持つ欄の数。 -/
def slotCount (s : FState) (f : Fin NFILE) : Nat := ∑ p, (s.proc p).slots f

/-- 走っているシステムコールが持つ f の参照の数。 -/
def heldCount (s : FState) (f : Fin NFILE) : Nat := ∑ p, (heldFiles (s.proc p).pc).count f

theorem refSum_eq (s : FState) (f : Fin NFILE) : refSum s f = slotCount s f + heldCount s f :=
  Finset.sum_add_distrib

/-- 生きたファイルが負う後始末: 参照が 0 になったとき `fileclose` の後半がすること。 -/
def File.owes (fl : File) : Option Release := if 0 < fl.ref then fl.release else none

/-- 後始末 r を負う生きたファイルと、r をまだしていない `fileclose` の数。 -/
def pending (s : FState) (r : Release) : Nat :=
  (∑ f, if (s.file f).owes = some r then 1 else 0) + ∑ p, if (s.proc p).release = some r then 1 else 0

/-- 走っているシステムコールが持つ inode i の参照の数。 -/
def heldI (s : FState) (i : Nat) : Nat := ∑ p, (heldInode (s.proc p).pc).count i

/-- 管 pi の端 w が開いているか。 -/
def endOpen : Option Pipe → Bool → Bool
  | some pp, false => pp.readopen
  | some pp, true => pp.writeopen
  | none, _ => false

/-- `pipeclose` が閉じた端は閉じている。 -/
theorem endOpen_closeEnd_self (pp : Pipe) (w : Bool) : endOpen (closeEnd pp w) w = false := by
  rcases pp with ⟨r, w'⟩
  cases w <;> cases r <;> cases w' <;> rfl

/-- `pipeclose` はもう一方の端を変えない。 -/
theorem endOpen_closeEnd_other (pp : Pipe) {w w' : Bool} (h : w' ≠ w) :
    endOpen (closeEnd pp w) w' = endOpen (some pp) w' := by
  rcases pp with ⟨r, wo⟩
  cases w <;> cases w' <;> cases r <;> cases wo <;> first | rfl | exact absurd rfl h

variable {s : FState} {p : ProcId} {f g : Fin NFILE}

theorem refSum_setProc (s : FState) (p : ProcId) (pr' : FProc) (g : Fin NFILE) :
    refSum (s.setProc p pr') g + (s.proc p).refs g = refSum s g + pr'.refs g := by
  exact sum_update_add s.proc (fun pr => pr.refs g) p pr'

@[simp] theorem refSum_setFile (s : FState) (f : Fin NFILE) (x : File) (g : Fin NFILE) :
    refSum (s.setFile f x) g = refSum s g := rfl

theorem heldI_setProc (s : FState) (p : ProcId) (pr' : FProc) (i : Nat) :
    heldI (s.setProc p pr') i + (heldInode (s.proc p).pc).count i = heldI s i + (heldInode pr'.pc).count i := by
  exact sum_update_add s.proc (fun pr => (heldInode pr.pc).count i) p pr'

@[simp] theorem heldI_setFile (s : FState) (f : Fin NFILE) (x : File) (i : Nat) :
    heldI (s.setFile f x) i = heldI s i := rfl

theorem pending_setProc (s : FState) (p : ProcId) (pr' : FProc) (r : Release) :
    pending (s.setProc p pr') r + (if (s.proc p).release = some r then 1 else 0) =
      pending s r + (if pr'.release = some r then 1 else 0) := by
  have h := sum_update_add s.proc (fun pr => if pr.release = some r then 1 else 0) p pr'
  show (∑ f, if (s.file f).owes = some r then 1 else 0) +
    (∑ q, if (update s.proc p pr' q).release = some r then 1 else 0) + _ = _
  unfold pending
  omega

theorem pending_setFile (s : FState) (f : Fin NFILE) (x : File) (r : Release) :
    pending (s.setFile f x) r + (if (s.file f).owes = some r then 1 else 0) =
      pending s r + (if x.owes = some r then 1 else 0) := by
  have h := sum_update_add s.file (fun y => if y.owes = some r then 1 else 0) f x
  show (∑ g, if (update s.file f x g).owes = some r then 1 else 0) +
    (∑ q, if (s.proc q).release = some r then 1 else 0) + _ = _
  unfold pending
  omega

/-- 勘定を変えない書き換え: 欄の数、持つ参照、後始末の数、inode の参照のどれも変わらない。 -/
theorem refSum_setProc_of_refs {pr' : FProc} (h : ∀ g, pr'.refs g = (s.proc p).refs g) (g : Fin NFILE) :
    refSum (s.setProc p pr') g = refSum s g := by
  have := refSum_setProc s p pr' g
  rw [h g] at this
  omega

theorem heldI_setProc_of_eq {pr' : FProc} (h : heldInode pr'.pc = heldInode (s.proc p).pc) (i : Nat) :
    heldI (s.setProc p pr') i = heldI s i := by
  have := heldI_setProc s p pr' i
  rw [h] at this
  omega

theorem pending_setProc_of_eq {pr' : FProc} (h : pr'.release = (s.proc p).release) (r : Release) :
    pending (s.setProc p pr') r = pending s r := by
  have := pending_setProc s p pr' r
  rw [h] at this
  omega

theorem pending_setFile_of_eq {x : File} (h : x.owes = (s.file f).owes) (r : Release) :
    pending (s.setFile f x) r = pending s r := by
  have := pending_setFile s f x r
  rw [h] at this
  omega

/-- 参照が 0 より大きいままで型と管と inode の欄が同じなら、負う後始末も同じ。 -/
theorem File.owes_congr {x y : File} (hx : 0 < x.ref) (hy : 0 < y.ref) (ht : x.type = y.type)
    (hp : x.pipe = y.pipe) (hw : x.writable = y.writable) (hi : x.ip = y.ip) : x.owes = y.owes := by
  simp only [File.owes, if_pos hx, if_pos hy, File.release, ht, hp, hw, hi]

theorem File.owes_of_none {x : File} (h : x.type = .none) : x.owes = none := by
  simp only [File.owes, File.release, h]
  split <;> rfl

theorem File.owes_of_pos {x : File} (h : 0 < x.ref) : x.owes = x.release := if_pos h

end Xv6.Ftable
