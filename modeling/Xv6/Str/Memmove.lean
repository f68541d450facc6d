import Xv6.Lib.Copy
import Xv6.Lib.Memory

/-!
# memmove（`kernel/string.c`, `user/ulib.c`）

カーネルとユーザの `memmove` は、写す向きを違う比較で選ぶ。カーネルは元が先にあって区間が
重なるとき（`s < d && s + n > d`）だけ後ろから写し、ユーザは元が後ろにあれば（`src > dst`）
前から、そうでなければ後ろから写す。どちらの選び方でも、まだ読んでいない元のバイトを先に
書きつぶす向きは選ばれないので、結果は元の区間を写し取ったもの（`Lib.moved`）になる。

ポインタはメモリの中の番地 `Nat` で、`s + n` は桁あふれしない。カーネルの `n` は `uint`、
ユーザの `n` は `int` で、負なら何も写さない。
-/

namespace Xv6.Str

open Xv6.Lib

/-- カーネルの `memmove(dst, src, n)`。 -/
def memmove (mem : Nat → UInt8) (dst src n : Nat) : Nat → UInt8 :=
  if n = 0 then mem
  else if src < dst ∧ src + n > dst then copyDown mem (dst + n) (src + n) n
  else copyUp mem dst src n

/-- `memcpy` は `memmove` を呼ぶ。 -/
def memcpy (mem : Nat → UInt8) (dst src n : Nat) : Nat → UInt8 := memmove mem dst src n

theorem memmove_eq_moved (mem : Nat → UInt8) (dst src n : Nat) :
    memmove mem dst src n = moved mem dst src n := by
  unfold memmove
  split_ifs with hn hover
  · -- n = 0: 何も写さない
    subst hn
    funext a
    rw [moved, if_neg (by omega)]
  · exact copyDown_eq_moved n (.inl (Nat.le_of_lt hover.1))
  · -- 後ろから写さないのは、元が後ろにあるか区間が離れているとき
    exact copyUp_eq_moved n (by omega)

/-- 重なった区間を後ろへずらす: 番地 2 には元の番地 1 の値が入る。 -/
example : memmove (fun a => a.toUInt8) 1 0 3 2 = 1 := by decide

end Xv6.Str

namespace Xv6.Ulib

open Xv6.Lib

/-- ユーザの `memmove(vdst, vsrc, n)`。n が負なら `while(n-- > 0)` は一度も回らない。 -/
def memmove (mem : Nat → UInt8) (vdst vsrc : Nat) (n : Int) : Nat → UInt8 :=
  if vsrc > vdst then copyUp mem vdst vsrc n.toNat
  else copyDown mem (vdst + n.toNat) (vsrc + n.toNat) n.toNat

theorem memmove_eq_moved (mem : Nat → UInt8) (vdst vsrc : Nat) (n : Int) :
    memmove mem vdst vsrc n = moved mem vdst vsrc n.toNat := by
  unfold memmove
  split_ifs with h
  · exact copyUp_eq_moved n.toNat (.inl (Nat.le_of_lt h))
  · exact copyDown_eq_moved n.toNat (.inl (Nat.le_of_not_lt h))

/-- どちらの `memmove` も、重なった区間でも、元の `[src, src + n)` を `[dst, dst + n)` に写し、
ほかのバイトを変えない。 -/
theorem memmove_overlap_safe (mem : Nat → UInt8) (dst src : Nat) :
    (∀ n : Nat, Moved mem (Str.memmove mem dst src n) dst src n) ∧
    ∀ n : Int, Moved mem (memmove mem dst src n) dst src n.toNat := by
  refine ⟨fun n => ?_, fun n => ?_⟩
  · rw [Str.memmove_eq_moved]
    exact moved_moved mem dst src n
  · rw [memmove_eq_moved]
    exact moved_moved mem dst src n.toNat

end Xv6.Ulib
