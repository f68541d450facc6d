import Xv6.Kalloc.Basic

/-!
# ページ表（`kernel/vm.c` の walk、walkaddr、mappages、uvmunmap、copyout、copyin）

ページ表は物理メモリの中の三段の木で、各ページは 512 個の 8 バイトの PTE を持つ。物理メモリと
空きのページのリストは `Kalloc.Kmem` で、walk が中間のページを割り当てるときは `kalloc` を呼ぶ。
アドレスと PTE は `Nat` で持つ。`&` と `>>`、`<<` は `Nat` のビット演算で、`PGROUNDDOWN` の
`& ~(PGSIZE - 1)` は `PGSIZE` で割った余りを引くことと同じ。

panic は `none` で表す。copyout の `src` はカーネルの中のバイトの列として与える。
-/

namespace Xv6.Vm

open Xv6.Lib Xv6.Kalloc

abbrev PGSHIFT : Nat := 12
abbrev PTE_V : Nat := 1
abbrev PTE_R : Nat := 2
abbrev PTE_W : Nat := 4
abbrev PTE_X : Nat := 8
abbrev PTE_U : Nat := 16
abbrev PXMASK : Nat := 0x1FF
/-- `MAXVA`: Sv39 の最大より 1 ビット少ない。 -/
abbrev MAXVA : Nat := 2 ^ (9 + 9 + 9 + 12 - 1)

/-- `PGROUNDDOWN(a)`: `a & ~(PGSIZE - 1)`。 -/
def PGROUNDDOWN (a : Nat) : Nat := a - a % PGSIZE

def PA2PTE (pa : Nat) : Nat := (pa >>> 12) <<< 10

/-- `PTE2PA(pte)`: `(pte >> 10) << 12` は uint64 で計算するので、PTE の上の 2 ビットは左送りで落ちる。 -/
def PTE2PA (pte : Nat) : Nat := ((pte >>> 10) <<< 12) % 2 ^ 64

def PTE_FLAGS (pte : Nat) : Nat := pte &&& 0x3FF

def PXSHIFT (level : Nat) : Nat := PGSHIFT + 9 * level

def PX (level va : Nat) : Nat := (va >>> PXSHIFT level) &&& PXMASK

/-- アドレス a の PTE（`*pte`）。 -/
def getPte (mem : Nat → UInt8) (a : Nat) : Nat := loadLE mem a 8

/-- `*pte = v`。 -/
def setPte (mem : Nat → UInt8) (a v : Nat) : Nat → UInt8 := storeLE mem a v 8

/-- walk の繰り返し: `for(level = 2; level > 0; level--)`。level 0 の PTE のアドレスを返し、
中間の PTE が無くて割り当てもできなければ `none`（`return 0`）。 -/
def walkLoop (va : Nat) (alloc : Bool) : Nat → Nat → Kmem → Option Nat × Kmem
  | 0, pagetable, s => (some (pagetable + 8 * PX 0 va), s)
  | level + 1, pagetable, s =>
    let pte := pagetable + 8 * PX (level + 1) va
    if getPte s.mem pte &&& PTE_V ≠ 0 then walkLoop va alloc level (PTE2PA (getPte s.mem pte)) s
    else if !alloc then (none, s)
    else
      let (p, s) := kalloc s
      if p = 0 then (none, s)
      else
        let mem := memset s.mem p 0 PGSIZE
        walkLoop va alloc level p { s with mem := setPte mem pte (PA2PTE p ||| PTE_V) }

/-- `walk(pagetable, va, alloc)`。`va >= MAXVA` なら panic。 -/
def walk (s : Kmem) (pagetable va : Nat) (alloc : Bool) : Option (Option Nat × Kmem) :=
  if va ≥ MAXVA then none else some (walkLoop va alloc 2 pagetable s)

/-- `walkaddr(pagetable, va)`: 利用者のページの物理アドレス、写されていなければ 0。
`va < MAXVA` を先に確かめるので、walk は panic しない。 -/
def walkaddr (s : Kmem) (pagetable va : Nat) : Nat :=
  if va ≥ MAXVA then 0
  else
    match (walkLoop va false 2 pagetable s).1 with
    | none => 0
    | some pte =>
      if getPte s.mem pte &&& PTE_V = 0 then 0
      else if getPte s.mem pte &&& PTE_U = 0 then 0
      else PTE2PA (getPte s.mem pte)

/-- walk が返るのは va が MAXVA より下のときだけ。 -/
theorem lt_MAXVA_of_walk {s : Kmem} {pagetable va : Nat} {alloc : Bool} {r : Option Nat × Kmem}
    (h : walk s pagetable va alloc = some r) : va < MAXVA := by
  unfold walk at h
  split at h
  · cases h
  · omega

/-- mappages の `for(;;)`。a が last に着けば 0 を返す。last は uint64 で計算した値なので a より下にも
なりうるが、そのときも a が MAXVA に着いたところで walk が panic して終わる。a は MAXVA より下だけを
動くので `a += PGSIZE` は回らず、`pa += PGSIZE` は 2^64 で回る。 -/
def mappagesLoop (pagetable perm last : Nat) (a pa : Nat) (s : Kmem) : Option (Int × Kmem) :=
  match hw : walk s pagetable a true with
  | none => none
  | some (none, s) => some (-1, s)
  | some (some pte, s) =>
    if getPte s.mem pte &&& PTE_V ≠ 0 then none  -- panic("mappages: remap")
    else
      let s := { s with mem := setPte s.mem pte (PA2PTE pa ||| perm ||| PTE_V) }
      if a = last then some (0, s)
      else mappagesLoop pagetable perm last (a + PGSIZE) ((pa + PGSIZE) % 2 ^ 64) s
termination_by MAXVA - a
decreasing_by
  have := lt_MAXVA_of_walk hw
  have hP : PGSIZE = 4096 := rfl
  omega

/-- `mappages(pagetable, va, size, pa, perm)`。`size == 0` なら panic。`last` の `va + size - 1` は
uint64 で計算する。 -/
def mappages (s : Kmem) (pagetable va size pa perm : Nat) : Option (Int × Kmem) :=
  if size = 0 then none
  else mappagesLoop pagetable perm (PGROUNDDOWN ((va + size - 1) % 2 ^ 64)) (PGROUNDDOWN va) pa s

/-- uvmunmap の繰り返し `for(a = va; a < va + npages*PGSIZE; a += PGSIZE)`。残りの回数 k で
数える。 -/
def uvmunmapLoop (kernEnd pagetable : Nat) (doFree : Bool) : Nat → Nat → Kmem → Option Kmem
  | 0, _, s => some s
  | k + 1, a, s =>
    match walk s pagetable a false with
    | none => none
    | some (none, _) => none  -- panic("uvmunmap: walk")
    | some (some pte, _) =>
      if getPte s.mem pte &&& PTE_V = 0 then none  -- panic("uvmunmap: not mapped")
      else if PTE_FLAGS (getPte s.mem pte) = PTE_V then none  -- panic("uvmunmap: not a leaf")
      else do
        let s ← if doFree then kfree kernEnd (PTE2PA (getPte s.mem pte)) s else some s
        uvmunmapLoop kernEnd pagetable doFree k (a + PGSIZE) { s with mem := setPte s.mem pte 0 }

/-- `uvmunmap(pagetable, va, npages, do_free)`。va が揃っていなければ panic。上限 `va + npages*PGSIZE`
は uint64 で計算するので 2^64 で回り、繰り返しの回数は va からその回った上限までのページの数になる。 -/
def uvmunmap (kernEnd : Nat) (s : Kmem) (pagetable va npages : Nat) (doFree : Bool) : Option Kmem :=
  if va % PGSIZE ≠ 0 then none
  else uvmunmapLoop kernEnd pagetable doFree (((va + npages * PGSIZE) % 2 ^ 64 - va) / PGSIZE) va s

theorem sub_PGROUNDDOWN_lt (a : Nat) : a - PGROUNDDOWN a < PGSIZE := by
  unfold PGROUNDDOWN
  rw [show PGSIZE = 4096 from rfl]
  omega

/-- `copyout(pagetable, dstva, src, len)`。len は `src` の長さ。 -/
def copyout (s : Kmem) (pagetable dstva : Nat) (src : List UInt8) : Int × Kmem :=
  if 0 < src.length then
    let va0 := PGROUNDDOWN dstva
    let pa0 := walkaddr s pagetable va0
    if pa0 = 0 then (-1, s)
    else
      let n := min (PGSIZE - (dstva - va0)) src.length
      let s := { s with mem := storeBytes s.mem (pa0 + (dstva - va0)) (src.take n) }
      copyout s pagetable (va0 + PGSIZE) (src.drop n)
  else (0, s)
termination_by src.length
decreasing_by
  have := sub_PGROUNDDOWN_lt dstva
  simp only [List.length_drop]
  omega

/-- `copyin(pagetable, dst, srcva, len)`。戻り値と、dst に写したバイトの列。 -/
def copyin (s : Kmem) (pagetable srcva len : Nat) : Int × List UInt8 :=
  if 0 < len then
    let va0 := PGROUNDDOWN srcva
    let pa0 := walkaddr s pagetable va0
    if pa0 = 0 then (-1, [])
    else
      let n := min (PGSIZE - (srcva - va0)) len
      let r := copyin s pagetable (va0 + PGSIZE) (len - n)
      (r.1, loadBytes s.mem (pa0 + (srcva - va0)) n ++ r.2)
  else (0, [])
termination_by len
decreasing_by
  have := sub_PGROUNDDOWN_lt srcva
  omega

end Xv6.Vm
