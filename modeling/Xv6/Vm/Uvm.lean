import Mathlib.Algebra.Group.Int.Defs
import Xv6.Vm.Basic
import Xv6.Str.Memmove

/-!
# 利用者の空間を作り、伸ばし、縮め、写し、捨てる（`kernel/vm.c`, `kernel/proc.c`）

uvmcreate、uvmalloc、uvmdealloc、freewalk、uvmfree、uvmcopy と、proc.c の proc_pagetable、
growproc、proc_freepagetable。panic は `none` で、`p->heap_pages` は引数と戻り値で持ち回る。
freewalk の再帰には C では深さの上限が無いので、深さ fuel を与えて使い切れば `none` とする。
`trampoline` はカーネルの中の trampoline のページ、`trapframe` は `p->trapframe` の物理アドレスである。
-/

namespace Xv6.Vm

open Xv6.Lib Xv6.Kalloc

/-- `TRAMPOLINE`: 利用者の空間のいちばん上のページ。 -/
abbrev TRAMPOLINE : Nat := MAXVA - PGSIZE

/-- `TRAPFRAME`: trampoline の一つ下のページ。 -/
abbrev TRAPFRAME : Nat := TRAMPOLINE - PGSIZE

/-- `uvmcreate()`: 0 で埋めたページを根にする。空きが無ければ 0。 -/
def uvmcreate (s : Kmem) : Nat × Kmem :=
  let (pagetable, s) := kalloc s
  if pagetable = 0 then (0, s) else (pagetable, { s with mem := memset s.mem pagetable 0 PGSIZE })

/-- `uvmdealloc(pagetable, oldsz, newsz)`: 新しい sz。`npages` は `int` だが、MAXVA より下の大きさ
では収まる。 -/
def uvmdealloc (kernEnd : Nat) (s : Kmem) (pagetable oldsz newsz : Nat) : Option (Nat × Kmem) :=
  if newsz ≥ oldsz then some (oldsz, s)
  else if PGROUNDUP newsz < PGROUNDUP oldsz then
    let npages := (PGROUNDUP oldsz - PGROUNDUP newsz) / PGSIZE
    (uvmunmap kernEnd s pagetable (PGROUNDUP newsz) npages true).map fun s => (newsz, s)
  else some (newsz, s)

/-- uvmalloc の `for(a = oldsz; a < newsz; a += PGSIZE)`。oldsz は切り上げた後の値、hp は
`p->heap_pages` で、kalloc が成功するたびに増え、失敗の後始末では戻らない。 -/
def uvmallocLoop (kernEnd pagetable oldsz newsz xperm : Nat) (a : Nat) (s : Kmem) (hp : Nat) :
    Option (Nat × Kmem × Nat) :=
  if a < newsz then
    let (mem, s) := kalloc s
    if mem = 0 then (uvmdealloc kernEnd s pagetable a oldsz).map fun r => (0, r.2, hp)
    else
      let hp := hp + 1
      let s := { s with mem := memset s.mem mem 0 PGSIZE }
      match mappages s pagetable a PGSIZE mem (PTE_R ||| PTE_U ||| xperm) with
      | none => none
      | some (r, s) =>
        if r ≠ 0 then do
          let s ← kfree kernEnd mem s
          let r ← uvmdealloc kernEnd s pagetable a oldsz
          some (0, r.2, hp)
        else uvmallocLoop kernEnd pagetable oldsz newsz xperm (a + PGSIZE) s hp
  else some (newsz, s, hp)
termination_by newsz - a
decreasing_by
  have hP : PGSIZE = 4096 := rfl
  omega

/-- `uvmalloc(pagetable, oldsz, newsz, xperm)`: 新しい sz、失敗すれば 0。 -/
def uvmalloc (kernEnd : Nat) (s : Kmem) (hp pagetable oldsz newsz xperm : Nat) : Option (Nat × Kmem × Nat) :=
  if newsz < oldsz then some (oldsz, s, hp)
  else uvmallocLoop kernEnd pagetable (PGROUNDUP oldsz) newsz xperm (PGROUNDUP oldsz) s hp

/-- freewalk の `for(int i = 0; i < 512; i++)` の一回。`free` は子の表への再帰の呼び出し。 -/
def freewalkEntry (free : Nat → Kmem → Option Kmem) (pagetable : Nat) (s : Kmem) (i : Nat) : Option Kmem :=
  let pte := getPte s.mem (pagetable + 8 * i)
  if pte &&& PTE_V ≠ 0 ∧ pte &&& (PTE_R ||| PTE_W ||| PTE_X) = 0 then do
    let s ← free (PTE2PA pte) s
    some { s with mem := setPte s.mem (pagetable + 8 * i) 0 }
  else if pte &&& PTE_V ≠ 0 then none  -- panic("freewalk: leaf")
  else some s

/-- `freewalk(pagetable)`: 子の表を先に捨て、最後に表そのものを kfree する。 -/
def freewalk (kernEnd : Nat) : Nat → Nat → Kmem → Option Kmem
  | 0, _, _ => none
  | fuel + 1, pagetable, s =>
    ((List.range 512).foldlM (freewalkEntry (freewalk kernEnd fuel) pagetable) s).bind (kfree kernEnd pagetable)

/-- `uvmfree(pagetable, sz)`。 -/
def uvmfree (kernEnd fuel : Nat) (s : Kmem) (pagetable sz : Nat) : Option Kmem := do
  let s ← if sz > 0 then uvmunmap kernEnd s pagetable 0 (PGROUNDUP sz / PGSIZE) true else some s
  freewalk kernEnd fuel pagetable s

/-- uvmcopy の `err:`。写し終えた `i / PGSIZE` ページを外して解放する。 -/
def uvmcopyErr (kernEnd new i : Nat) (s : Kmem) : Option (Int × Kmem) :=
  (uvmunmap kernEnd s new 0 (i / PGSIZE) true).map fun s => (-1, s)

/-- uvmcopy の `for(i = 0; i < sz; i += PGSIZE)`。 -/
def uvmcopyLoop (kernEnd old new sz : Nat) (i : Nat) (s : Kmem) : Option (Int × Kmem) :=
  if i < sz then
    match walk s old i false with
    | none => none
    | some (none, _) => none  -- panic("uvmcopy: pte should exist")
    | some (some pte, _) =>
      if getPte s.mem pte &&& PTE_V = 0 then none  -- panic("uvmcopy: page not present")
      else
        let pa := PTE2PA (getPte s.mem pte)
        let flags := PTE_FLAGS (getPte s.mem pte)
        let (mem, s) := kalloc s
        if mem = 0 then uvmcopyErr kernEnd new i s
        else
          let s := { s with mem := Str.memmove s.mem mem pa PGSIZE }
          match mappages s new i PGSIZE mem flags with
          | none => none
          | some (r, s) =>
            if r ≠ 0 then (kfree kernEnd mem s).bind (uvmcopyErr kernEnd new i)
            else uvmcopyLoop kernEnd old new sz (i + PGSIZE) s
  else some (0, s)
termination_by sz - i
decreasing_by
  have hP : PGSIZE = 4096 := rfl
  omega

/-- `uvmcopy(old, new, sz)`: 0、失敗すれば -1。 -/
def uvmcopy (kernEnd : Nat) (s : Kmem) (old new sz : Nat) : Option (Int × Kmem) :=
  uvmcopyLoop kernEnd old new sz 0 s

/-- `proc_pagetable(p)`: trampoline と trapframe だけを写した表。失敗すれば 0。 -/
def proc_pagetable (kernEnd fuel trampoline trapframe : Nat) (s : Kmem) : Option (Nat × Kmem) :=
  let (pagetable, s) := uvmcreate s
  if pagetable = 0 then some (0, s)
  else
    match mappages s pagetable TRAMPOLINE PGSIZE trampoline (PTE_R ||| PTE_X) with
    | none => none
    | some (r, s) =>
      if r < 0 then (uvmfree kernEnd fuel s pagetable 0).map fun s => (0, s)
      else
        match mappages s pagetable TRAPFRAME PGSIZE trapframe (PTE_R ||| PTE_W) with
        | none => none
        | some (r, s) =>
          if r < 0 then do
            let s ← uvmunmap kernEnd s pagetable TRAMPOLINE 1 false
            let s ← uvmfree kernEnd fuel s pagetable 0
            some (0, s)
          else some (pagetable, s)

/-- `growproc(n)`: 戻り値、新しい `p->sz`、`p->heap_pages`。`sz + n` は uint64 の和で、uvmalloc が 0 を
返せば -1 を返し、`p->sz` は変えない。 -/
def growproc (kernEnd : Nat) (s : Kmem) (hp pagetable sz : Nat) (n : Int) : Option (Int × Nat × Kmem × Nat) :=
  let newsz := ((sz + n) % 2 ^ 64).toNat
  if n > 0 then
    (uvmalloc kernEnd s hp pagetable sz newsz PTE_W).map fun r =>
      if r.1 = 0 then (-1, sz, r.2.1, r.2.2) else (0, r.1, r.2.1, r.2.2)
  else if n < 0 then (uvmdealloc kernEnd s pagetable sz newsz).map fun r => (0, r.1, r.2, hp)
  else some (0, sz, s, hp)

/-- `proc_freepagetable(pagetable, sz)`。 -/
def proc_freepagetable (kernEnd fuel : Nat) (s : Kmem) (pagetable sz : Nat) : Option Kmem := do
  let s ← uvmunmap kernEnd s pagetable TRAMPOLINE 1 false
  let s ← uvmunmap kernEnd s pagetable TRAPFRAME 1 false
  uvmfree kernEnd fuel s pagetable sz

end Xv6.Vm
