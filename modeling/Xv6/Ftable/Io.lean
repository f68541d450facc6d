import Xv6.Ftable.Basic
import Xv6.Fs.Basic
import Xv6.Lib.CInt

/-!
# 読み書きの呼び出しと、バイトの勘定（`kernel/file.c`, `kernel/sysfile.c`）

`fileread` と `filewrite` は `int` を返し、失敗すれば -1 を返す。`sys_read` と `sys_write` は
argfd が通れば、その値を `uint64 bytes` に入れてプロセスの `uint` の勘定 `read_b`（`write_b`）に
足す。したがって勘定は、argfd を通った呼び出しが返した `int` の和を 2^32 で割った余りになり
（`ioRun_count`）、fileread が -1 を返せば勘定は 1 減る（`sysRead_fail`）。

管、デバイス、inode の下の層（piperead、`devsw[major].read`、readi、pipewrite、writei）が返す値は
`RwEnv` で外から与える。`n` は下の層に渡るだけなので、fileread のモデルは読まない。
-/

namespace Xv6.Ftable

open Function Xv6.Lib
open Xv6.Process (ProcId)
open Xv6.Dir (NDEV NOFILE)
open Xv6.Fs (BSIZE)

abbrev MAXOPBLOCKS : Nat := 10

/-- filewrite が一度の `writei` に渡す上限: `((MAXOPBLOCKS-1-1-2) / 2) * BSIZE`。 -/
def maxWrite : Int := ((MAXOPBLOCKS - 1 - 1 - 2) / 2 : Nat) * BSIZE

/-- 読み書きの下の層が返すもの。 -/
structure RwEnv where
  /-- `f->major` -/
  major : Int
  /-- `devsw[f->major]` の read（write）が 0 でないこと -/
  devsw : Bool
  /-- piperead、`devsw[major].read`、readi（pipewrite、`devsw[major].write`）の返す値 -/
  r : Int
  /-- filewrite の繰り返しで、i バイト書いた後の `writei(f->ip, 1, addr + i, f->off, n1)` の値 -/
  writei : Int → Int → Int

/-- `fileread(f, addr, n)`: 返す値と、新しい `f->off`。`none` は `panic("fileread")`。 -/
def fileread (f : File) (off : Nat) (e : RwEnv) : Option (Int × Nat) :=
  if f.readable = false then some (-1, off)
  else
    match f.type with
    | .pipe => some (e.r, off)
    | .device => if e.major < 0 ∨ NDEV ≤ e.major ∨ e.devsw = false then some (-1, off) else some (e.r, off)
    | .inode => some (e.r, if 0 < e.r then off + e.r.toNat else off)
    | .none => none

theorem maxWrite_eq : maxWrite = 3072 := rfl

theorem min_maxWrite_pos {k : Int} (hk : 0 < k) : 0 < min k maxWrite := by
  rw [maxWrite_eq]
  omega

/-- filewrite の inode の繰り返し: i バイト書いた所から。書いたバイト数と新しい `f->off` を
返す。`writei` が `n1` に足りなければ止まる。 -/
def filewriteLoop (writei : Int → Int → Int) (n i : Int) (off : Nat) : Int × Nat :=
  if hi : i < n then
    let n1 := min (n - i) maxWrite
    let r := writei i n1
    let off := if 0 < r then off + r.toNat else off
    if hr : r ≠ n1 then (i, off)
    else filewriteLoop writei n (i + r) off
  else (i, off)
termination_by (n - i).toNat
decreasing_by
  -- 書けたぶん r は n1 に等しく、n1 は正
  have hpos := min_maxWrite_pos (k := n - i) (by omega)
  have hr' : writei i (min (n - i) maxWrite) = min (n - i) maxWrite := Decidable.of_not_not hr
  omega

/-- `filewrite(f, addr, n)`: inode なら、全部書けたときだけ n を返し、そうでなければ -1。 -/
def filewrite (f : File) (off : Nat) (e : RwEnv) (n : Int) : Option (Int × Nat) :=
  if f.writable = false then some (-1, off)
  else
    match f.type with
    | .pipe => some (e.r, off)
    | .device => if e.major < 0 ∨ NDEV ≤ e.major ∨ e.devsw = false then some (-1, off) else some (e.r, off)
    | .inode =>
      let (i, off) := filewriteLoop e.writei n 0 off
      some (if i = n then n else -1, off)
    | .none => none

/-! ## 勘定 -/

/-- プロセスの読み書きの勘定（`uint read_b`, `uint write_b`）と、ファイルの `off`。 -/
structure IoState where
  readB : ProcId → UInt32
  writeB : ProcId → UInt32
  off : Fin NFILE → Nat

/-- `ps->read_b += bytes`: `uint` の勘定に `uint64` を足して、`uint` に丸める。 -/
def addBytes (c : UInt32) (bytes : UInt64) : UInt32 := (c.toUInt64 + bytes).toUInt32

/-- `sys_read(fd, p, n)`: argfd が失敗すれば -1 を返し、勘定を変えない。`none` は panic。 -/
def sysRead (s : FState) (io : IoState) (p : ProcId) (fd : Int) (e : RwEnv) : Option (UInt64 × IoState) :=
  match argfd (s.proc p) fd with
  | none => some (UInt64.ofInt (-1), io)
  | some (_, f) =>
    (fileread (s.file f) (io.off f) e).map fun (r, off) =>
      let bytes := UInt64.ofInt r
      (bytes, { io with readB := update io.readB p (addBytes (io.readB p) bytes), off := update io.off f off })

/-- `sys_write(fd, p, n)`。 -/
def sysWrite (s : FState) (io : IoState) (p : ProcId) (fd n : Int) (e : RwEnv) :
    Option (UInt64 × IoState) :=
  match argfd (s.proc p) fd with
  | none => some (UInt64.ofInt (-1), io)
  | some (_, f) =>
    (filewrite (s.file f) (io.off f) e n).map fun (r, off) =>
      let bytes := UInt64.ofInt r
      (bytes, { io with writeB := update io.writeB p (addBytes (io.writeB p) bytes), off := update io.off f off })

/-- 読み書きの呼び出し。 -/
inductive IoCall where
  | read (fd : Int) (e : RwEnv)
  | write (fd n : Int) (e : RwEnv)

def ioCall (s : FState) (io : IoState) (p : ProcId) : IoCall → Option (UInt64 × IoState)
  | .read fd e => sysRead s io p fd e
  | .write fd n e => sysWrite s io p fd n e

/-- 呼び出しが `read_b` と `write_b` に足す `int`: argfd を通れば fileread（filewrite）の返す値、
通らなければ 0。 -/
def IoCall.adds (s : FState) (io : IoState) (p : ProcId) : IoCall → Int × Int
  | .read fd e =>
    match argfd (s.proc p) fd with
    | none => (0, 0)
    | some (_, f) => (((fileread (s.file f) (io.off f) e).map Prod.fst).getD 0, 0)
  | .write fd n e =>
    match argfd (s.proc p) fd with
    | none => (0, 0)
    | some (_, f) => (0, ((filewrite (s.file f) (io.off f) e n).map Prod.fst).getD 0)

/-- 呼び出しの列: どのプロセスの呼び出しも、そのときのファイル表で行う。後の状態と、呼び出しごとの
プロセスと勘定に足した値を返す。 -/
def ioRun : IoState → List (FState × ProcId × IoCall) → Option (IoState × List (ProcId × Int × Int))
  | io, [] => some (io, [])
  | io, (s, p, c) :: cs => do
    let (_, io') ← ioCall s io p c
    let (io'', tr) ← ioRun io' cs
    some (io'', (p, c.adds s io p) :: tr)

/-- p の勘定に足された値の和。 -/
def addsOf (p : ProcId) (tr : List (ProcId × Int × Int)) : Int × Int :=
  (((tr.filter (·.1 = p)).map (·.2.1)).sum, ((tr.filter (·.1 = p)).map (·.2.2)).sum)

/-! ## 一つの呼び出し -/

theorem addBytes_ofInt (c : UInt32) (r : Int) :
    ((addBytes c (UInt64.ofInt r)).toNat : Int) = (c.toNat + r) % 2 ^ 32 := by
  rw [addBytes, UInt64.toNat_toUInt32, UInt64.toNat_add, UInt32.toNat_toUInt64]
  push_cast
  rw [toNat_uint64_ofInt]
  omega

/-- 勘定に 0 を足しても変わらない。 -/
theorem uint32_toNat_emod (c : UInt32) : ((c.toNat : Int) + 0) % 2 ^ 32 = c.toNat := by
  have := c.toNat_lt
  omega

/-- 勘定の一つの更新: p の勘定は足した値だけ進み、ほかのプロセスの勘定は変わらない。 -/
structure Counts (io io' : IoState) (p : ProcId) (r w : Int) : Prop where
  read : ((io'.readB p).toNat : Int) = ((io.readB p).toNat + r) % 2 ^ 32
  write : ((io'.writeB p).toNat : Int) = ((io.writeB p).toNat + w) % 2 ^ 32
  readOther : ∀ q, q ≠ p → io'.readB q = io.readB q
  writeOther : ∀ q, q ≠ p → io'.writeB q = io.writeB q

theorem Counts.refl (io : IoState) (p : ProcId) : Counts io io p 0 0 where
  read := (uint32_toNat_emod _).symm
  write := (uint32_toNat_emod _).symm
  readOther _ _ := rfl
  writeOther _ _ := rfl

/-- 一つの呼び出しは、呼んだプロセスの勘定を `IoCall.adds` だけ進める。 -/
theorem ioCall_counts {s : FState} {io io' : IoState} {p : ProcId} {c : IoCall} {ret : UInt64}
    (h : ioCall s io p c = some (ret, io')) : Counts io io' p (c.adds s io p).1 (c.adds s io p).2 := by
  cases c with
  | read fd e =>
    simp only [ioCall, sysRead, IoCall.adds] at h ⊢
    split at h
    · cases h
      exact Counts.refl io p
    · rename_i f _
      obtain ⟨⟨r, off⟩, hr, h⟩ := Option.map_eq_some_iff.mp h
      cases h
      rw [hr]
      exact ⟨by simp [addBytes_ofInt], (uint32_toNat_emod _).symm,
        fun q hq => update_of_ne hq _ _, fun _ _ => rfl⟩
  | write fd n e =>
    simp only [ioCall, sysWrite, IoCall.adds] at h ⊢
    split at h
    · cases h
      exact Counts.refl io p
    · rename_i f _
      obtain ⟨⟨r, off⟩, hr, h⟩ := Option.map_eq_some_iff.mp h
      cases h
      rw [hr]
      exact ⟨(uint32_toNat_emod _).symm, by simp [addBytes_ofInt], fun _ _ => rfl,
        fun q hq => update_of_ne hq _ _⟩

/-- 読めないファイルの fileread は -1 を返す。 -/
theorem fileread_unreadable {f : File} (off : Nat) (e : RwEnv) (h : f.readable = false) :
    fileread f off e = some (-1, off) := by
  rw [fileread, if_pos h]

/-- argfd を通った sys_read で fileread が -1 を返すと、`read_b` は 1 減る（0 なら 2^32 - 1 に
なる）。 -/
theorem sysRead_fail {s : FState} {io : IoState} {p : ProcId} {fd : Int} {e : RwEnv} {i : Fin NOFILE}
    {f : Fin NFILE} {off : Nat} (hf : argfd (s.proc p) fd = some (i, f))
    (hr : fileread (s.file f) (io.off f) e = some (-1, off)) :
    ∃ io', sysRead s io p fd e = some (UInt64.ofInt (-1), io') ∧
      ((io'.readB p).toNat : Int) = ((io.readB p).toNat + 2 ^ 32 - 1) % 2 ^ 32 := by
  have h : sysRead s io p fd e = some (UInt64.ofInt (-1),
      { io with readB := update io.readB p (addBytes (io.readB p) (UInt64.ofInt (-1))),
                off := update io.off f off }) := by
    rw [sysRead, hf]
    simp only [hr, Option.map_some]
  refine ⟨_, h, ?_⟩
  have hc := (ioCall_counts (c := .read fd e) h).read
  simp only [IoCall.adds, hf, hr, Option.map_some, Option.getD_some] at hc
  rw [hc]
  omega

/-! ## 呼び出しの列 -/

theorem addsOf_cons (p q : ProcId) (a : Int × Int) (tr : List (ProcId × Int × Int)) :
    addsOf p ((q, a) :: tr) = if q = p then (a.1 + (addsOf p tr).1, a.2 + (addsOf p tr).2) else addsOf p tr := by
  by_cases hq : q = p <;> simp [addsOf, hq]

theorem ioRun_cons {io io'' : IoState} {s : FState} {q : ProcId} {c : IoCall} {cs} {tr}
    (h : ioRun io ((s, q, c) :: cs) = some (io'', tr)) :
    ∃ ret io' tr', ioCall s io q c = some (ret, io') ∧ ioRun io' cs = some (io'', tr') ∧
      tr = (q, c.adds s io q) :: tr' := by
  simp only [ioRun, Option.bind_eq_bind, Option.bind_eq_some_iff] at h
  obtain ⟨⟨ret, io'⟩, h₁, ⟨io₂, tr'⟩, h₂, h⟩ := h
  cases h
  exact ⟨ret, io', tr', h₁, h₂, rfl⟩

/-- 呼び出しの列の後、どのプロセスの勘定も、そのプロセスの呼び出しが足した値の和だけ進んでいる
（2^32 で割った余り）。 -/
theorem ioRun_count : ∀ (cs : List (FState × ProcId × IoCall)) {io io' : IoState} {tr},
    ioRun io cs = some (io', tr) → ∀ p,
      ((io'.readB p).toNat : Int) = ((io.readB p).toNat + (addsOf p tr).1) % 2 ^ 32 ∧
      ((io'.writeB p).toNat : Int) = ((io.writeB p).toNat + (addsOf p tr).2) % 2 ^ 32
  | [], io, io', tr, h, p => by
    simp only [ioRun, Option.some.injEq, Prod.mk.injEq] at h
    obtain ⟨rfl, rfl⟩ := h
    exact ⟨uint32_toNat_emod _ |>.symm, uint32_toNat_emod _ |>.symm⟩
  | (s, q, c) :: cs, io, io', tr, h, p => by
    obtain ⟨ret, io₁, tr', h₁, h₂, rfl⟩ := ioRun_cons h
    obtain ⟨ih₁, ih₂⟩ := ioRun_count cs h₂ p
    have hc := ioCall_counts h₁
    rw [addsOf_cons]
    by_cases hq : q = p
    · -- p の呼び出し: 一つ目の呼び出しのぶんを足してから、残りのぶんを足す
      subst hq
      rw [if_pos rfl]
      constructor
      · rw [ih₁, hc.read]
        omega
      · rw [ih₂, hc.write]
        omega
    · rw [if_neg hq, ih₁, ih₂, hc.readOther p (Ne.symm hq), hc.writeOther p (Ne.symm hq)]
      exact ⟨rfl, rfl⟩

/-! ## 書き込みだけで開いたファイルの読み出し -/

/-- 最初のプロセスが inode 1 のファイルを `O_WRONLY` で開き、欄 0 に置いた状態。 -/
def openWriteOnly : FState :=
  let s₁ := FState.init.setProc 0 { FState.init.proc 0 with state := .running }
  let s₂ := sysOpen s₁ 0 (some (1, .file, 0)) O_WRONLY
  let s₃ := openAlloc s₂ 0 1 O_WRONLY .file
  let s₄ := openFd s₃ 0 1 O_WRONLY .file 0
  openInit s₄ 0 1 O_WRONLY .file 0

theorem reach_openWriteOnly : FReach openWriteOnly := by
  have hpi : ∀ (s : FState) x, (none : Option Nat) = some x → s.pipe x = none := fun _ _ h => by cases h
  -- 途中の段では、始める呼び出しは読まれない
  refine .step (.step (.step (.step (.step (.init rfl) (FStep.sched 0 .running rfl rfl))
    (FStep.act 0 ⟨.open (some (1, .file, 0)) O_WRONLY, none, true⟩ rfl (hpi _) rfl))
    (FStep.act 0 ⟨.exec, none, true⟩ rfl (hpi _) rfl))
    (FStep.act 0 ⟨.exec, none, true⟩ rfl (hpi _) rfl))
    (FStep.act 0 ⟨.exec, none, true⟩ rfl (hpi _) rfl)

/-- どの勘定も 0 で、どのファイルの `off` も 0 の状態。 -/
def ioZero : IoState := ⟨fun _ => 0, fun _ => 0, fun _ => 0⟩

/-- 書き込みだけで開いた fd 0 を読むと、read は -1 を返し、0 だった `read_b` は 4294967295 に
なる。 -/
theorem read_writeonly_wraps_count : ∃ s, FReach s ∧ ∀ e : RwEnv, ∃ io',
    sysRead s ioZero 0 0 e = some (UInt64.ofInt (-1), io') ∧ io'.readB 0 = 4294967295 := by
  refine ⟨openWriteOnly, reach_openWriteOnly, fun e => ?_⟩
  obtain ⟨io', h, hc⟩ := @sysRead_fail openWriteOnly ioZero 0 0 e 0 0 0 (by decide)
    (fileread_unreadable 0 e (by decide))
  refine ⟨io', h, UInt32.toNat_inj.mp ?_⟩
  rw [show (4294967295 : UInt32).toNat = 4294967295 from rfl]
  rw [show ioZero.readB 0 = 0 from rfl] at hc
  norm_num at hc
  omega

end Xv6.Ftable
