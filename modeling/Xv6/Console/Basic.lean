import Xv6.Lib.Ring
import Xv6.Lib.Reach

/-!
# コンソールの入力（`kernel/console.c` の consoleintr、consoleread）

`cons.buf` は INPUT_BUF_SIZE 個の枠の環で、三つの `uint` の添字 r（読む）、w（書いた）、
e（編集）は回りながら進む。consoleintr は入力の一文字ごとに呼ばれ、^U と backspace で e を
戻し、ほかの文字を e の枠に書く。'\n'、^D か環が満ちれば w を e まで進めて、行を読む側に渡す。
consoleread は w より手前のバイトを r から一つずつ読む。

`cons.lock` の中の一続きを一つの段とする。consoleread の繰り返しは一回ずつの段にする（sleep
でしか lock を放さないので、実際の実行はこの段の並びの一つ）。copyout の成否と killed は外から
与える（`CEnv`）。^P の procdump と、文字を端末に返す consputc は入力の状態を変えない。

行として渡されたバイトの列 `committed`、consoleread が取ったバイトの列 `taken`、利用者に
返したバイトの列 `delivered` は、モデルだけが持つ記録。
-/

namespace Xv6.Console

open Function Xv6.Lib

abbrev INPUT_BUF_SIZE : Nat := 128

instance : NeZero INPUT_BUF_SIZE := ⟨by decide⟩

/-- 文字のバイト。 -/
def byte (x : Char) : UInt8 := x.toUInt8

/-- `C(x)`: Control-x。 -/
def C (x : Char) : UInt8 := byte x - byte '@'

/-- `cons` の入力の部分。 -/
structure Cons where
  buf : Fin INPUT_BUF_SIZE → UInt8
  /-- 読む添字 -/
  r : UInt32
  /-- 書いた添字: ここより手前は行として渡された -/
  w : UInt32
  /-- 編集の添字 -/
  e : UInt32

namespace Cons

/-- `cons.buf[cons.e++ % INPUT_BUF_SIZE] = c`。 -/
def put (c : Cons) (v : UInt8) : Cons :=
  { c with buf := update c.buf (Fin.ofNat INPUT_BUF_SIZE c.e.toNat) v, e := c.e + 1 }

/-- 行として渡され、まだ読まれていないバイト。 -/
def unread (c : Cons) : List UInt8 := ringView c.buf c.r.toNat (c.w - c.r).toNat

/-- 編集中の行。 -/
def line (c : Cons) : List UInt8 := ringView c.buf c.w.toNat (c.e - c.w).toNat

end Cons

/-- プロセスの、consoleread の中の位置と局所変数。 -/
inductive Call where
  | idle
  /-- 呼び出しが返した値 -/
  | ret (v : Int)
  /-- 繰り返しの中: 最初の n が target、残りが n -/
  | read (target n : Int)
  deriving DecidableEq, Repr

/-- 呼び出しの外。 -/
def Call.outside : Call → Bool
  | .idle | .ret _ => true
  | .read _ _ => false

structure CState (P : Type) where
  cons : Cons
  call : P → Call
  committed : List UInt8
  taken : List UInt8
  delivered : List UInt8

/-- 外から決まること: killed と、either_copyout の成否。 -/
structure CEnv where
  killed : Bool
  ok : Bool

variable {P : Type} [DecidableEq P]

def CState.setCall (s : CState P) (p : P) (c : Call) : CState P := { s with call := update s.call p c }

/-- `cons.w = cons.e`: 編集中の行を読む側に渡す。 -/
def CState.commit (s : CState P) : CState P :=
  { s with cons := { s.cons with w := s.cons.e }, committed := s.committed ++ s.cons.line }

/-- ^U の繰り返し: e が w でなく、一つ前の枠が '\n' でない間、e を戻す。燃料は `(e - w).toNat`
で、e が w に着くまでの回数（`killLine_stop`）。 -/
def killLine (buf : Fin INPUT_BUF_SIZE → UInt8) (w : UInt32) : Nat → UInt32 → UInt32
  | 0, e => e
  | k + 1, e =>
    if e ≠ w ∧ buf (Fin.ofNat INPUT_BUF_SIZE (e - 1).toNat) ≠ byte '\n' then killLine buf w k (e - 1) else e

/-- `consoleintr(c)`。c は UART から読んだ一バイト。 -/
def consoleintr (s : CState P) (c : UInt8) : CState P :=
  if c = C 'P' then s
  else if c = C 'U' then
    { s with cons := { s.cons with e := killLine s.cons.buf s.cons.w (s.cons.e - s.cons.w).toNat s.cons.e } }
  else if c = C 'H' ∨ c = 0x7f then
    if s.cons.e ≠ s.cons.w then { s with cons := { s.cons with e := s.cons.e - 1 } } else s
  else if c ≠ 0 ∧ (s.cons.e - s.cons.r).toNat < INPUT_BUF_SIZE then
    let c := if c = byte '\r' then byte '\n' else c
    let s := { s with cons := s.cons.put c }
    -- 行が揃えば consoleread を起こす
    if c = byte '\n' ∨ c = C 'D' ∨ (s.cons.e - s.cons.r).toNat = INPUT_BUF_SIZE then s.commit else s
  else s

/-- consoleread の繰り返しの一回。`target - n` は `uint` の引き算だが、n は 0 から target の
間にあるか（0 より大きい n で始まった呼び出し）、target と同じ（それ以外）なので、`Int` の
引き算と同じ値になる。 -/
def consoleread (s : CState P) (p : P) (target n : Int) (ev : CEnv) : CState P :=
  if 0 < n then
    if s.cons.r = s.cons.w then
      -- 読めるバイトが無い: killed なら -1、そうでなければ sleep して後でもう一度試す
      if ev.killed then s.setCall p (.ret (-1)) else s
    else
      let c := s.cons.buf (Fin.ofNat INPUT_BUF_SIZE s.cons.r.toNat)
      let cons := { s.cons with r := s.cons.r + 1 }
      if c = C 'D' then
        if n < target then
          -- ^D を次の呼び出しに残す: `cons.r--`
          { s with cons := { cons with r := cons.r - 1 } }.setCall p (.ret (target - n))
        else { s with cons := cons, taken := s.taken ++ [c] }.setCall p (.ret (target - n))
      else if !ev.ok then
        -- copyout の失敗: 取ったバイトを返さずに止まる
        { s with cons := cons, taken := s.taken ++ [c] }.setCall p (.ret (target - n))
      else
        let s := { s with cons := cons, taken := s.taken ++ [c], delivered := s.delivered ++ [c] }
        if c = byte '\n' then s.setCall p (.ret (target - (n - 1)))
        else s.setCall p (.read target (n - 1))
  else s.setCall p (.ret (target - n))

/-- 一つの段: 入力の一文字、consoleread の始め、その繰り返しの一回。 -/
inductive CStep : CState P → CState P → Prop where
  | intr {s : CState P} (c : UInt8) : CStep s (consoleintr s c)
  | beginRead {s : CState P} (p : P) (n : Int) (hc : (s.call p).outside = true) :
      CStep s (s.setCall p (.read n n))
  | read {s : CState P} (p : P) {target n : Int} (ev : CEnv) (hc : s.call p = .read target n) :
      CStep s (consoleread s p target n ev)

/-- 起動の後: 三つの添字は 0。 -/
def CInit (s : CState P) : Prop :=
  s.cons.r = 0 ∧ s.cons.w = 0 ∧ s.cons.e = 0 ∧ (∀ p, s.call p = .idle) ∧ s.committed = [] ∧
    s.taken = [] ∧ s.delivered = []

def CReach : CState P → Prop := Reachable CInit CStep

end Xv6.Console
