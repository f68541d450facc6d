import Xv6.Lib.Memory

/-!
# 物理ページの割り当て（`kernel/kalloc.c`）

`kinit`, `freerange`, `kfree`, `kalloc` を写す。物理メモリはバイトのメモリで、空きのページは
その先頭の 8 バイト（`struct run` の `next`）で次の空きのページを指す。`kmem.freelist` が頭で、
0 が null である。`kfree` は境界の検査に外れると panic し、それを `none` で表す。

アドレスは `Nat` で持つ。`PGROUNDUP` の `& ~(PGSIZE - 1)` は、`PGSIZE` が 2 の冪なので、
`PGSIZE` で割った余りを引くことと同じである。`end` はリンカが置く、カーネルの後の最初の
アドレスで、引数 `kernEnd` で与える。
-/

namespace Xv6.Kalloc

open Xv6.Lib

abbrev PGSIZE : Nat := 4096
abbrev KERNBASE : Nat := 0x80000000
abbrev PHYSTOP : Nat := KERNBASE + 128 * 1024 * 1024

/-- `PGROUNDUP(sz)`: `(sz + PGSIZE - 1) & ~(PGSIZE - 1)`。 -/
def PGROUNDUP (sz : Nat) : Nat := (sz + PGSIZE - 1) - (sz + PGSIZE - 1) % PGSIZE

/-- 物理メモリと `kmem.freelist`。 -/
structure Kmem where
  mem : Nat → UInt8
  freelist : Nat

/-- `((struct run *)r)->next`: ページ r の先頭の 8 バイト。 -/
def Kmem.next (s : Kmem) (r : Nat) : Nat := loadLE s.mem r 8

/-- `kfree(pa)`。境界の検査の後、ページを 1 で埋め、先頭に今の頭を書いて頭にする。 -/
def kfree (kernEnd pa : Nat) (s : Kmem) : Option Kmem :=
  if pa % PGSIZE ≠ 0 ∨ pa < kernEnd ∨ PHYSTOP ≤ pa then none
  else
    let mem := memset s.mem pa 1 PGSIZE
    some { mem := storeLE mem pa s.freelist 8, freelist := pa }

/-- `kalloc()`。頭を外し、その `next` を新しい頭にしてから、ページを 5 で埋める。 -/
def kalloc (s : Kmem) : Nat × Kmem :=
  let r := s.freelist
  if r ≠ 0 then (r, { mem := memset s.mem r 5 PGSIZE, freelist := s.next r }) else (0, s)

/-- `freerange` のループ `for(; p + PGSIZE <= (char*)pa_end; p += PGSIZE) kfree(p);`。 -/
def freerangeLoop (kernEnd paEnd p : Nat) (s : Kmem) : Option Kmem :=
  if p + PGSIZE ≤ paEnd then do
    let s ← kfree kernEnd p s
    freerangeLoop kernEnd paEnd (p + PGSIZE) s
  else some s
termination_by paEnd - p
decreasing_by
  simp only [PGSIZE] at *
  omega

/-- `freerange(pa_start, pa_end)`。 -/
def freerange (kernEnd paStart paEnd : Nat) (s : Kmem) : Option Kmem :=
  freerangeLoop kernEnd paEnd (PGROUNDUP paStart) s

/-- `kinit()`: `freerange(end, (void*)PHYSTOP)`。 -/
def kinit (kernEnd : Nat) (s : Kmem) : Option Kmem :=
  freerange kernEnd kernEnd PHYSTOP s

theorem PGROUNDUP_mod (sz : Nat) : PGROUNDUP sz % PGSIZE = 0 := by
  simp only [PGROUNDUP, PGSIZE]
  omega

theorem le_PGROUNDUP (sz : Nat) : sz ≤ PGROUNDUP sz := by
  simp only [PGROUNDUP, PGSIZE]
  omega

end Xv6.Kalloc
