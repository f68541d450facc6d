import Mathlib.Tactic.Ring

/-!
# 利用者の malloc と free（`user/umalloc.c`）、sbrk と growproc（`kernel/sysproc.c`, `kernel/proc.c`）

K&R の割り当て器。空きの区画は `Header` の輪で、`freep` がその一つを指し、番兵 `base` は大きさ 0 の
区画である。区画の大きさは `Header` の単位（16 バイト）で数え、`p + n` は `p + 16 * n` のバイトの
アドレスである。

利用者の空間の語は `hdr : Nat → Header` で表し、header として読み書きする語だけを持つ。break は
`sz`（`p->sz`）で、`sbrk` は growproc でそれを動かす。uvmalloc が成功するかは環境 `ok` が決め、
ページ表は持たない。二つの `for` は回数 `fuel` で数え、使い切ると `none` を返す。
-/

namespace Xv6.Umalloc

open Function

/-- `union header` の `s`: 次の空きの区画と、単位の数。 -/
structure Header where
  ptr : Nat
  size : UInt32
  deriving DecidableEq, Repr

/-- `sizeof(Header)`: ポインタと `uint` で 16 バイト。 -/
abbrev HSIZE : Nat := 16

/-- 利用者の空間の header の語、`freep`、break。 -/
structure UHeap where
  hdr : Nat → Header
  freep : Nat
  sz : Nat

/-- `q->s.ptr = v`。 -/
def setPtr (hdr : Nat → Header) (q v : Nat) : Nat → Header := update hdr q { hdr q with ptr := v }

/-- `q->s.size = v`。 -/
def setSize (hdr : Nat → Header) (q : Nat) (v : UInt32) : Nat → Header := update hdr q { hdr q with size := v }

/-- 64 ビットの `sz + n`（n は符号付きの 32 ビット）。 -/
def addSigned (sz : Nat) (n : Int) : Nat := ((sz + n) % 2 ^ 64).toNat

/-- `uvmalloc(pagetable, oldsz, newsz, xperm)`: 新しい sz、割り当てに失敗すれば 0。 -/
def uvmalloc (ok : Nat → Nat → Bool) (oldsz newsz : Nat) : Nat :=
  if newsz < oldsz then oldsz else if ok oldsz newsz then newsz else 0

/-- `uvmdealloc(pagetable, oldsz, newsz)` の返す sz。 -/
def uvmdealloc (oldsz newsz : Nat) : Nat := if newsz ≥ oldsz then oldsz else newsz

/-- `growproc(n)`: 新しい sz、失敗なら `none`。 -/
def growproc (ok : Nat → Nat → Bool) (n : Int) (sz : Nat) : Option Nat :=
  if n > 0 then
    let sz' := uvmalloc ok sz (addSigned sz n)
    if sz' = 0 then none else some sz'
  else if n < 0 then some (uvmdealloc sz (addSigned sz n))
  else some sz

/-- `sbrk(n)`: 前の break を返す。growproc が失敗すれば `none`（`(char*)-1`）。 -/
def sbrk (ok : Nat → Nat → Bool) (n : Int32) (s : UHeap) : Option (Nat × UHeap) :=
  match growproc ok n.toInt s.sz with
  | none => none
  | some sz => some (s.sz, { s with sz := sz })

/-- free の探す繰り返し: bp を挟む p、または輪の継ぎ目で bp が端の外にある p を探す。 -/
def freeFind (hdr : Nat → Header) (bp : Nat) : Nat → Nat → Option Nat
  | 0, _ => none
  | fuel + 1, p =>
    if bp > p ∧ bp < (hdr p).ptr then some p
    else if p ≥ (hdr p).ptr ∧ (bp > p ∨ bp < (hdr p).ptr) then some p
    else freeFind hdr bp fuel (hdr p).ptr

/-- `free(ap)`。bp を p の後ろに入れ、後ろの区画と、前の区画 p と、接していれば合わせる。 -/
def free (fuel ap : Nat) (s : UHeap) : Option UHeap := do
  let bp := ap - HSIZE
  let p ← freeFind s.hdr bp fuel s.freep
  let hdr := s.hdr
  let hdr :=
    if bp + HSIZE * (hdr bp).size.toNat = (hdr p).ptr then
      let hdr := setSize hdr bp ((hdr bp).size + (hdr (hdr p).ptr).size)
      setPtr hdr bp (hdr (hdr p).ptr).ptr
    else setPtr hdr bp (hdr p).ptr
  let hdr :=
    if p + HSIZE * (hdr p).size.toNat = bp then
      let hdr := setSize hdr p ((hdr p).size + (hdr bp).size)
      setPtr hdr p (hdr bp).ptr
    else setPtr hdr p bp
  some { s with hdr := hdr, freep := p }

/-- `morecore(nu)`: 少なくとも 4096 単位を sbrk で取り、free で輪に入れて `freep` を返す。
sbrk の引数 `nu * sizeof(Header)` は 64 ビットの積で、`int` の引数に切って渡る。失敗なら 0。 -/
def morecore (ok : Nat → Nat → Bool) (fuel : Nat) (nu : UInt32) (s : UHeap) : Option (Nat × UHeap) :=
  let nu := if nu < 4096 then 4096 else nu
  match sbrk ok (nu.toUInt64 * 16).toUInt32.toInt32 s with
  | none => some (0, s)
  | some (p, s) => do
    let s ← free fuel (p + HSIZE) { s with hdr := setSize s.hdr p nu }
    some (s.freep, s)

/-- `nunits = (nbytes + sizeof(Header) - 1)/sizeof(Header) + 1;`。`sizeof` は 64 ビットなので、
和は 64 ビットで計算し、結果を `uint` に切る。 -/
def nunitsOf (nbytes : UInt32) : UInt32 := ((nbytes.toUInt64 + 16 - 1) / 16 + 1).toUInt32

/-- malloc の `for`。足りる区画があれば、ちょうどなら輪から外し、大きければ後ろを切り出す。
輪を一周して `freep` に戻ると morecore を呼ぶ。 -/
def mallocLoop (ok : Nat → Nat → Bool) (nunits : UInt32) : Nat → Nat → Nat → UHeap → Option (Nat × UHeap)
  | 0, _, _, _ => none
  | fuel + 1, prevp, p, s =>
    if (s.hdr p).size ≥ nunits then
      if (s.hdr p).size = nunits then
        some (p + HSIZE, { s with hdr := setPtr s.hdr prevp (s.hdr p).ptr, freep := prevp })
      else
        let hdr := setSize s.hdr p ((s.hdr p).size - nunits)
        let q := p + HSIZE * (hdr p).size.toNat
        some (q + HSIZE, { s with hdr := setSize hdr q nunits, freep := prevp })
    else if p = s.freep then
      match morecore ok fuel nunits s with
      | none => none
      | some (p, s) => if p = 0 then some (0, s) else mallocLoop ok nunits fuel p (s.hdr p).ptr s
    else mallocLoop ok nunits fuel p (s.hdr p).ptr s

/-- `malloc(nbytes)`。初めての呼び出しで、番兵 `base`（アドレス base）だけの輪を作る。 -/
def malloc (ok : Nat → Nat → Bool) (base fuel : Nat) (nbytes : UInt32) (s : UHeap) : Option (Nat × UHeap) :=
  let s := if s.freep = 0 then { s with hdr := update s.hdr base ⟨base, 0⟩, freep := base } else s
  mallocLoop ok (nunitsOf nbytes) fuel s.freep (s.hdr s.freep).ptr s

end Xv6.Umalloc
