import Xv6.Lib.Ring
import Xv6.Lib.Reach

/-!
# 管の読み書き（`kernel/pipe.c` の pipewrite、piperead、pipeclose）

一つの管を、複数のプロセスが pipewrite と piperead で読み書きする。`pi->lock` の中の繰り返しの
一回を一つの段とする。sleep は lock を放すので、そこで他のプロセスが割り込む。sleep と wakeup は
プロセスの予定だけを変えるので、管が満ちているか空のときの段は何も変えず、そのプロセスは後で
もう一度試す。

copyin と copyout の成否、copyin が読むバイト、killed は外から与える（`PEnv`）。

管に書かれたバイトの列 `written`、管から取られたバイトの列 `consumed`、piperead が利用者に
返したバイトの列 `delivered` は、モデルだけが持つ記録。
-/

namespace Xv6.Pipes

open Function Xv6.Lib

abbrev PIPESIZE : Nat := 512

instance : NeZero PIPESIZE := ⟨by decide⟩

/-- `struct pipe`。 -/
structure Pipe where
  data : Fin PIPESIZE → UInt8
  nread : UInt32
  nwrite : UInt32
  readopen : Bool
  writeopen : Bool

namespace Pipe

/-- `pi->data[pi->nwrite++ % PIPESIZE] = ch`。 -/
def push (pi : Pipe) (ch : UInt8) : Pipe :=
  { pi with data := update pi.data (Fin.ofNat PIPESIZE pi.nwrite.toNat) ch, nwrite := pi.nwrite + 1 }

/-- `pi->data[pi->nread % PIPESIZE]`。 -/
def head (pi : Pipe) : UInt8 := pi.data (Fin.ofNat PIPESIZE pi.nread.toNat)

/-- `pi->nread++`。 -/
def pop (pi : Pipe) : Pipe := { pi with nread := pi.nread + 1 }

/-- 管の中のバイトの数（32 ビットの引き算）。 -/
def count (pi : Pipe) : Nat := (pi.nwrite - pi.nread).toNat

/-- 管の中のバイトを、読まれる順に。 -/
def view (pi : Pipe) : List UInt8 := ringView pi.data pi.nread.toNat pi.count

end Pipe

/-- プロセスの、管の呼び出しの中の位置と局所変数。 -/
inductive Call where
  | idle
  /-- 呼び出しが返した値 -/
  | ret (r : Int)
  /-- pipewrite の繰り返し: n バイトのうち i バイトを書いた -/
  | write (n : Int) (i : Nat)
  /-- piperead: 空の管を待つ繰り返し -/
  | readWait (n : Int)
  /-- piperead: 写す繰り返し。i バイトを返した -/
  | readCopy (n : Int) (i : Nat)
  deriving DecidableEq, Repr

/-- 呼び出しの外。 -/
def Call.outside : Call → Bool
  | .idle | .ret _ => true
  | _ => false

structure PState (P : Type) where
  pipe : Pipe
  call : P → Call
  written : List UInt8
  consumed : List UInt8
  delivered : List UInt8

/-- 外から決まること: killed、copyin か copyout の成否、copyin が読むバイト。 -/
structure PEnv where
  killed : Bool
  ok : Bool
  ch : UInt8

variable {P : Type} [DecidableEq P]

def PState.setCall (s : PState P) (p : P) (c : Call) : PState P := { s with call := update s.call p c }

/-- pipewrite の繰り返しの一回。読む端が閉じたか killed なら -1、満ちていれば sleep、copyin が
失敗すれば書いたバイトの数を返す。 -/
def pipewrite (s : PState P) (p : P) (n : Int) (i : Nat) (e : PEnv) : PState P :=
  if (i : Int) < n then
    if !s.pipe.readopen || e.killed then s.setCall p (.ret (-1))
    else if s.pipe.nwrite = s.pipe.nread + UInt32.ofNat PIPESIZE then s
    else if !e.ok then s.setCall p (.ret i)
    else { s with pipe := s.pipe.push e.ch, written := s.written ++ [e.ch] }.setCall p (.write n (i + 1))
  else s.setCall p (.ret i)

/-- piperead の、空の管を待つ繰り返しの一回。 -/
def pipereadWait (s : PState P) (p : P) (n : Int) (e : PEnv) : PState P :=
  if s.pipe.nread = s.pipe.nwrite ∧ s.pipe.writeopen = true then
    if e.killed then s.setCall p (.ret (-1)) else s
  else s.setCall p (.readCopy n 0)

/-- piperead の写す繰り返しの一回: `nread` を進めてから copyout する。copyout が失敗すれば、
取ったバイトを返さずに止まる。 -/
def pipereadCopy (s : PState P) (p : P) (n : Int) (i : Nat) (e : PEnv) : PState P :=
  if (i : Int) < n then
    if s.pipe.nread = s.pipe.nwrite then s.setCall p (.ret i)
    else
      let ch := s.pipe.head
      let s := { s with pipe := s.pipe.pop, consumed := s.consumed ++ [ch] }
      if !e.ok then s.setCall p (.ret i)
      else { s with delivered := s.delivered ++ [ch] }.setCall p (.readCopy n (i + 1))
  else s.setCall p (.ret i)

/-- `pipeclose(pi, writable)` の端の印。両方閉じた管は kfree され、もう呼ばれない。 -/
def pipeclose (s : PState P) (writable : Bool) : PState P :=
  if writable then { s with pipe := { s.pipe with writeopen := false } }
  else { s with pipe := { s.pipe with readopen := false } }

/-- 一つの段。pipewrite は書く端の、piperead は読む端の開いたファイルから呼ばれる。 -/
inductive PStep : PState P → PState P → Prop where
  | beginWrite {s : PState P} (p : P) (n : Int) (hc : (s.call p).outside = true)
      (ho : s.pipe.writeopen = true) : PStep s (s.setCall p (.write n 0))
  | beginRead {s : PState P} (p : P) (n : Int) (hc : (s.call p).outside = true)
      (ho : s.pipe.readopen = true) : PStep s (s.setCall p (.readWait n))
  | write {s : PState P} (p : P) {n : Int} {i : Nat} (e : PEnv) (hc : s.call p = .write n i) :
      PStep s (pipewrite s p n i e)
  | readWait {s : PState P} (p : P) {n : Int} (e : PEnv) (hc : s.call p = .readWait n) :
      PStep s (pipereadWait s p n e)
  | readCopy {s : PState P} (p : P) {n : Int} {i : Nat} (e : PEnv) (hc : s.call p = .readCopy n i) :
      PStep s (pipereadCopy s p n i e)
  | close {s : PState P} (w : Bool) : PStep s (pipeclose s w)

/-- pipealloc の後: 二つの端が開き、添字は 0。kalloc のページの中身は何でもよい。 -/
def PInit (s : PState P) : Prop :=
  s.pipe.nread = 0 ∧ s.pipe.nwrite = 0 ∧ s.pipe.readopen = true ∧ s.pipe.writeopen = true ∧
    (∀ p, s.call p = .idle) ∧ s.written = [] ∧ s.consumed = [] ∧ s.delivered = []

def PReach : PState P → Prop := Reachable PInit PStep

/-! ## 管の添字 -/

namespace Pipe

variable (pi : Pipe)

@[simp] theorem push_nread (ch : UInt8) : (pi.push ch).nread = pi.nread := rfl
@[simp] theorem push_readopen (ch : UInt8) : (pi.push ch).readopen = pi.readopen := rfl
@[simp] theorem push_writeopen (ch : UInt8) : (pi.push ch).writeopen = pi.writeopen := rfl
@[simp] theorem pop_nwrite : pi.pop.nwrite = pi.nwrite := rfl
@[simp] theorem pop_data : pi.pop.data = pi.data := rfl
@[simp] theorem pop_readopen : pi.pop.readopen = pi.readopen := rfl
@[simp] theorem pop_writeopen : pi.pop.writeopen = pi.writeopen := rfl

/-- 満ちているという検査 `nwrite == nread + PIPESIZE` は、中のバイトが PIPESIZE 個あること。 -/
theorem full_iff : pi.nwrite = pi.nread + UInt32.ofNat PIPESIZE ↔ pi.count = PIPESIZE := by
  unfold count
  rw [← UInt32.toNat_inj, UInt32.toNat_add, UInt32.toNat_sub, UInt32.toNat_ofNat']
  have := pi.nread.toNat_lt
  have := pi.nwrite.toNat_lt
  have hP : PIPESIZE = 512 := rfl
  omega

/-- 空だという検査 `nread == nwrite` は、中にバイトが無いこと。 -/
theorem empty_iff : pi.nread = pi.nwrite ↔ pi.count = 0 := by
  unfold count
  rw [UInt32.toNat_sub, dist_eq_zero_iff pi.nread.toNat_lt pi.nwrite.toNat_lt, UInt32.toNat_inj]
  exact eq_comm

theorem count_push {ch : UInt8} (h : pi.count < PIPESIZE) : (pi.push ch).count = pi.count + 1 := by
  unfold count at *
  simp only [push, UInt32.toNat_sub, UInt32.toNat_add, UInt32.toNat_one] at h ⊢
  have : PIPESIZE < 2 ^ 32 := by decide
  exact dist_succ_right pi.nread.toNat_lt pi.nwrite.toNat_lt (by omega)

theorem count_pop (h : pi.nread ≠ pi.nwrite) : pi.pop.count + 1 = pi.count := by
  unfold count
  simp only [pop, UInt32.toNat_sub, UInt32.toNat_add, UInt32.toNat_one]
  exact dist_succ_left pi.nread.toNat_lt pi.nwrite.toNat_lt fun e => h (UInt32.toNat_inj.mp e)

/-- 満ちていない管に書いたバイトは、読まれる列の末尾に加わる。 -/
theorem view_push {ch : UInt8} (h : pi.count < PIPESIZE) : (pi.push ch).view = pi.view ++ [ch] := by
  unfold view count at *
  simp only [push, UInt32.toNat_sub, UInt32.toNat_add, UInt32.toNat_one] at h ⊢
  exact ringView_write_mod (by decide) (by decide) pi.data pi.nread.toNat_lt pi.nwrite.toNat_lt h ch

/-- 空でない管から取るバイトは、読まれる列の先頭。 -/
theorem view_pop (h : pi.nread ≠ pi.nwrite) : pi.view = pi.head :: pi.pop.view := by
  unfold view count head
  simp only [pop, UInt32.toNat_sub, UInt32.toNat_add, UInt32.toNat_one]
  exact ringView_advance_mod (by decide) pi.data pi.nread.toNat_lt pi.nwrite.toNat_lt
    fun e => h (UInt32.toNat_inj.mp e)

end Pipe

end Xv6.Pipes
