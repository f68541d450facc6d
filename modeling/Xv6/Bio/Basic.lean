import Mathlib.Algebra.GroupWithZero.Nat
import Xv6.Lib.DList

/-!
# バッファキャッシュ（`kernel/bio.c`）の写し

`bcache.buf` の各バッファと番兵 `bcache.head` の `prev`・`next` の欄は、節点を
`Option BufId`（`none` が `&bcache.head`）とする `Links` で表す。ポインタの付け替えは
`Links.unlink` と `Links.pushFront` の書き込みの列そのものである。`bget` の二つのループは
`walk` で、燃料はバッファの数 `NBUF` とする。

`bcache.lock` とバッファの sleeplock は写さない。どの関数も `bcache.lock` を持って走るので、
各呼び出しは一つの遷移である。`holdingsleep` による panic は、呼び出し元が持つバッファに
だけ `brelse` を呼ぶという前提として `Xv6.Bio.Cache` の遷移に置く。バッファの中身 `data` と
`disk` の欄、`bwrite` は、ここで読み書きされる欄を変えないので写さない。
-/

namespace Xv6.Bio

open Xv6.Lib Function

/-- `NBUF`（`MAXOPBLOCKS*3`）。 -/
abbrev NBUF : Nat := 30

instance : NeZero NBUF := ⟨by decide⟩

/-- バッファの番号（`bcache.buf` の添字）。 -/
abbrev BufId := Fin NBUF

/-- `struct buf` の、bio.c が読み書きする欄。`prev` と `next` は `Bcache.links` に置く。 -/
structure Buf where
  valid : Bool
  dev : Nat
  blockno : Nat
  refcnt : Nat
  deriving DecidableEq, Repr

/-- `bcache`。 -/
structure Bcache where
  buf : BufId → Buf
  links : Links BufId

/-- バッファ b の欄を f で書き換える。 -/
def Bcache.updBuf (c : Bcache) (b : BufId) (f : Buf → Buf) : Bcache :=
  { c with buf := update c.buf b (f (c.buf b)) }

@[simp] theorem Bcache.updBuf_buf_self (c : Bcache) (b : BufId) (f : Buf → Buf) :
    (c.updBuf b f).buf b = f (c.buf b) := by
  simp [updBuf]

@[simp] theorem Bcache.updBuf_buf_of_ne (c : Bcache) {b b' : BufId} (f : Buf → Buf) (h : b' ≠ b) :
    (c.updBuf b f).buf b' = c.buf b' := by
  simp [updBuf, h]

@[simp] theorem Bcache.updBuf_links (c : Bcache) (b : BufId) (f : Buf → Buf) :
    (c.updBuf b f).links = c.links := rfl

/-- `b->refcnt++`。 -/
def Buf.incRef (x : Buf) : Buf := { x with refcnt := x.refcnt + 1 }

/-- `b->refcnt--`。 -/
def Buf.decRef (x : Buf) : Buf := { x with refcnt := x.refcnt - 1 }

/-- `bget` が割り当てる: `b->dev = dev; b->blockno = blockno; b->valid = 0; b->refcnt = 1;` -/
def Buf.assign (dev blockno : Nat) (x : Buf) : Buf :=
  { x with dev := dev, blockno := blockno, valid := false, refcnt := 1 }

/-! ## bio.c の手続き -/

/-- `binit()`: `head.prev = head.next = &head` として、`bcache.buf` を添字の順に番兵の直後へ
入れる。`bcache` は静的な領域なので各欄は 0 で始まる。バッファの `prev` と `next` は入れる
ときに書かれ、それまで読まれない。 -/
def binit : Bcache where
  buf := fun _ => ⟨false, 0, 0, 0⟩
  links := (List.finRange NBUF).foldl Links.pushFront ⟨fun _ => none, fun _ => none⟩

/-- `bget` の一つ目のループ: `head.next` から `next` をたどり、`(dev, blockno)` のバッファを探す。 -/
def lookup (dev blockno : Nat) (c : Bcache) : Option (Option BufId) :=
  walk c.links.next (fun b => (c.buf b).dev == dev && (c.buf b).blockno == blockno) NBUF
    (c.links.next none)

/-- `bget` の二つ目のループ: `head.prev` から `prev` をたどり、`refcnt == 0` のバッファを探す。 -/
def recycle (c : Bcache) : Option (Option BufId) :=
  walk c.links.prev (fun b => (c.buf b).refcnt == 0) NBUF (c.links.prev none)

/-- `bget(dev, blockno)`。`none` は `panic("bget: no buffers")` か、ループが燃料を使い切ること。 -/
def bget (dev blockno : Nat) (c : Bcache) : Option (BufId × Bcache) :=
  match lookup dev blockno c with
  | some (some b) => some (b, c.updBuf b Buf.incRef)
  | some none =>
    match recycle c with
    | some (some b) => some (b, c.updBuf b (Buf.assign dev blockno))
    | _ => none
  | none => none

theorem bget_cases {dev blockno : Nat} {c c' : Bcache} {b : BufId}
    (h : bget dev blockno c = some (b, c')) :
    (lookup dev blockno c = some (some b) ∧ c' = c.updBuf b Buf.incRef) ∨
      (lookup dev blockno c = some none ∧ recycle c = some (some b) ∧
        c' = c.updBuf b (Buf.assign dev blockno)) := by
  unfold bget at h
  rcases hl : lookup dev blockno c with _ | _ | b₁ <;> rw [hl] at h
  · cases h
  · rcases hr : recycle c with _ | _ | b₂ <;> rw [hr] at h <;> simp only [reduceCtorEq] at h
    obtain ⟨rfl, rfl⟩ := Prod.mk.inj (Option.some.inj h)
    exact .inr ⟨rfl, rfl, rfl⟩
  · obtain ⟨rfl, rfl⟩ := Prod.mk.inj (Option.some.inj h)
    exact .inl ⟨rfl, rfl⟩

/-- `bread(dev, blockno)`。`virtio_disk_rw` はバッファの中身だけを書くので、`valid` を立てる
ことだけを写す。 -/
def bread (dev blockno : Nat) (c : Bcache) : Option (BufId × Bcache) :=
  match bget dev blockno c with
  | some (b, c) =>
    if (c.buf b).valid then some (b, c) else some (b, c.updBuf b fun x => { x with valid := true })
  | none => none

theorem bread_cases {dev blockno : Nat} {c c' : Bcache} {b : BufId}
    (h : bread dev blockno c = some (b, c')) :
    ∃ c₁, bget dev blockno c = some (b, c₁) ∧
      (c' = c₁ ∨ c' = c₁.updBuf b fun x => { x with valid := true }) := by
  unfold bread at h
  rcases hg : bget dev blockno c with _ | ⟨b₁, c₁⟩ <;> simp only [hg, reduceCtorEq] at h
  refine ⟨c₁, ?_⟩
  split at h <;> obtain ⟨rfl, rfl⟩ := Prod.mk.inj (Option.some.inj h)
  · exact ⟨rfl, .inl rfl⟩
  · exact ⟨rfl, .inr rfl⟩

/-- `brelse(b)`: 参照を一つ減らし、0 になればリストの先頭（最も最近使った側）へ付け替える。 -/
def brelse (b : BufId) (c : Bcache) : Bcache :=
  let c := c.updBuf b Buf.decRef
  if (c.buf b).refcnt = 0 then { c with links := (c.links.unlink b).pushFront b } else c

theorem brelse_eq (b : BufId) (c : Bcache) :
    brelse b c = if (c.buf b).refcnt - 1 = 0 then
      { c.updBuf b Buf.decRef with links := (c.links.unlink b).pushFront b }
    else c.updBuf b Buf.decRef := by
  simp [brelse, Buf.decRef]

/-- `bpin(b)`。 -/
def bpin (b : BufId) (c : Bcache) : Bcache := c.updBuf b Buf.incRef

/-- `bunpin(b)`。 -/
def bunpin (b : BufId) (c : Bcache) : Bcache := c.updBuf b Buf.decRef

end Xv6.Bio
