import Xv6.Bio.Basic
import Xv6.Lib.Reach
import Mathlib.Data.Fintype.Card

/-!
# バッファキャッシュの表現の不変条件

呼び出し元の操作の列（`bread`、持っているバッファへの `brelse`、`bpin`、pin したバッファへの
`bunpin`）でたどり着く状態を考える。状態には記録として、リストの順 `order`（最も最近使った
ものが先）、各バッファを `bread` で得てまだ `brelse` していない呼び出しの数 `holds`、pin の
数 `pins`、`bget` がブロックを割り当て直したか `assigned` を持たせる。

不変条件 `BioInv` は、ポインタが `order` を持つ環状の双方向リストをなし、`order` がすべての
バッファを含み、`refcnt` が `holds` と `pins` の和で、割り当て直したバッファのブロックを
ほかのどのバッファも持たないことである。このもとで `bget` の二つのループは `order` の上の
`List.find?` になる（`BioInv.lookup_eq`、`BioInv.recycle_eq`）。
-/

namespace Xv6.Bio

open Xv6.Lib Function

/-- 呼び出し元がバッファキャッシュに対して行う操作。 -/
inductive BioOp where
  | bread (dev blockno : Nat)
  | brelse (b : BufId)
  | bpin (b : BufId)
  | bunpin (b : BufId)
  deriving DecidableEq, Repr

/-- キャッシュと、それについての記録。 -/
structure BioState where
  cache : Bcache
  order : List BufId
  holds : BufId → Nat
  pins : BufId → Nat
  assigned : BufId → Bool

/-- `binit()` の後。`binit` は添字の順に先頭へ入れるので、リストは添字の逆順である。 -/
def BioState.init : BioState where
  cache := binit
  order := (List.finRange NBUF).reverse
  holds := fun _ => 0
  pins := fun _ => 0
  assigned := fun _ => false

/-- 一つの操作。`brelse` は持っているバッファにだけ、`bunpin` は pin したバッファにだけ呼ぶ。 -/
def BioOp.step : BioOp → BioState → Option BioState
  | .bread dev blockno, s =>
    match Xv6.Bio.bread dev blockno s.cache with
    | some (b, c) => some { s with
        cache := c
        holds := update s.holds b (s.holds b + 1)
        assigned := if lookup dev blockno s.cache = some none then update s.assigned b true
          else s.assigned }
    | none => none
  | .brelse b, s =>
    if 0 < s.holds b then some { s with
        cache := Xv6.Bio.brelse b s.cache
        order := if (s.cache.buf b).refcnt - 1 = 0 then b :: s.order.erase b else s.order
        holds := update s.holds b (s.holds b - 1) }
    else none
  | .bpin b, s =>
    some { s with cache := Xv6.Bio.bpin b s.cache, pins := update s.pins b (s.pins b + 1) }
  | .bunpin b, s =>
    if 0 < s.pins b then
      some { s with cache := Xv6.Bio.bunpin b s.cache, pins := update s.pins b (s.pins b - 1) }
    else none

def BioStep (s s' : BioState) : Prop := ∃ op : BioOp, op.step s = some s'

abbrev BioReach : BioState → Prop := Reachable (· = BioState.init) BioStep

/-- 割り当て直したバッファのブロック `(dev, blockno)` を、ほかのどのバッファも持たない。 -/
def UniqueIds (c : Bcache) (assigned : BufId → Bool) : Prop :=
  ∀ b b', assigned b = true → (c.buf b').dev = (c.buf b).dev →
    (c.buf b').blockno = (c.buf b).blockno → b' = b

structure BioInv (s : BioState) : Prop where
  list : IsList s.cache.links s.order
  complete : ∀ b, b ∈ s.order
  refcnt : ∀ b, (s.cache.buf b).refcnt = s.holds b + s.pins b
  unique : UniqueIds s.cache s.assigned

variable {s : BioState} {b : BufId} {dev blockno : Nat}

/-! ## ブロックの一意性 -/

theorem UniqueIds.updBuf_of_keep {c : Bcache} {a : BufId → Bool} {f : Buf → Buf}
    (hu : UniqueIds c a) (hd : (f (c.buf b)).dev = (c.buf b).dev)
    (hn : (f (c.buf b)).blockno = (c.buf b).blockno) : UniqueIds (c.updBuf b f) a := by
  have hk : ∀ x, ((c.updBuf b f).buf x).dev = (c.buf x).dev ∧
      ((c.updBuf b f).buf x).blockno = (c.buf x).blockno := by
    intro x
    by_cases hx : x = b
    · subst hx
      simp [hd, hn]
    · simp [hx]
  intro x y hx hdxy hnxy
  rw [(hk x).1, (hk y).1] at hdxy
  rw [(hk x).2, (hk y).2] at hnxy
  exact hu x y hx hdxy hnxy

/-- どのバッファも持たないブロックを b に割り当てても、一意性は保たれる。 -/
theorem UniqueIds.assign {c : Bcache} {a : BufId → Bool} (hu : UniqueIds c a)
    (hmiss : ∀ x, (c.buf x).dev = dev → (c.buf x).blockno = blockno → False) :
    UniqueIds (c.updBuf b (Buf.assign dev blockno)) (update a b true) := by
  intro x y hx hdxy hnxy
  by_cases hxb : x = b
  · subst hxb
    by_cases hyb : y = x
    · exact hyb
    · simp only [Bcache.updBuf_buf_of_ne _ _ hyb, Bcache.updBuf_buf_self, Buf.assign] at hdxy hnxy
      exact (hmiss y hdxy hnxy).elim
  · rw [update_of_ne hxb] at hx
    rw [Bcache.updBuf_buf_of_ne _ _ hxb] at hdxy hnxy
    by_cases hyb : y = b
    · subst hyb
      simp only [Bcache.updBuf_buf_self, Buf.assign] at hdxy hnxy
      exact (hmiss x hdxy.symm hnxy.symm).elim
    · rw [Bcache.updBuf_buf_of_ne _ _ hyb] at hdxy hnxy
      exact hu x y hx hdxy hnxy

/-! ## 二つのループ -/

theorem BioInv.length_le (hs : BioInv s) : s.order.length ≤ NBUF := by
  simpa using hs.list.nodup.length_le_card

/-- 一つ目のループは `order` を前から見る。 -/
theorem BioInv.lookup_eq (hs : BioInv s) (dev blockno : Nat) :
    lookup dev blockno s.cache =
      some (s.order.find? fun b => (s.cache.buf b).dev == dev && (s.cache.buf b).blockno == blockno) :=
  hs.list.walk_next _ hs.length_le

/-- 二つ目のループは `order` を後ろ（最も前に使った側）から見る。 -/
theorem BioInv.recycle_eq (hs : BioInv s) :
    recycle s.cache = some (s.order.reverse.find? fun b => (s.cache.buf b).refcnt == 0) :=
  hs.list.walk_prev _ hs.length_le

theorem BioInv.lookup_miss (hs : BioInv s) (hl : lookup dev blockno s.cache = some none) (x : BufId)
    (hd : (s.cache.buf x).dev = dev) (hn : (s.cache.buf x).blockno = blockno) : False := by
  rw [hs.lookup_eq] at hl
  exact List.find?_eq_none.mp (Option.some.inj hl) x (hs.complete x) (by simp [hd, hn])

/-- 割り当て直すバッファは、誰も持たず pin もされていない。 -/
theorem BioInv.recycle_free (hs : BioInv s) (hr : recycle s.cache = some (some b)) :
    (s.cache.buf b).refcnt = 0 ∧ s.holds b = 0 ∧ s.pins b = 0 := by
  rw [hs.recycle_eq] at hr
  have h0 : (s.cache.buf b).refcnt = 0 := by simpa using List.find?_some (Option.some.inj hr)
  have h1 := hs.refcnt b
  omega

/-- 割り当て済みのバッファのブロックを読めば、そのバッファが返る。 -/
theorem BioInv.lookup_assigned (hs : BioInv s) (ha : s.assigned b = true) :
    lookup (s.cache.buf b).dev (s.cache.buf b).blockno s.cache = some (some b) := by
  rw [hs.lookup_eq]
  have hsome : (s.order.find? fun x => (s.cache.buf x).dev == (s.cache.buf b).dev &&
      (s.cache.buf x).blockno == (s.cache.buf b).blockno).isSome :=
    List.find?_isSome.mpr ⟨b, hs.complete b, by simp⟩
  obtain ⟨x, hx⟩ := Option.isSome_iff_exists.mp hsome
  have hpx := List.find?_some hx
  simp only [Bool.and_eq_true, beq_iff_eq] at hpx
  rw [hx, hs.unique b x ha hpx.1 hpx.2]

/-! ## 各操作が不変条件を保つこと -/

/-- リストに触れず、b の `refcnt` と `holds + pins` を合わせて動かす更新。 -/
theorem BioInv.updBuf (hs : BioInv s) {f : Buf → Buf} {holds pins : BufId → Nat}
    {assigned : BufId → Bool} (href : (f (s.cache.buf b)).refcnt = holds b + pins b)
    (hh : ∀ x, x ≠ b → holds x = s.holds x) (hp : ∀ x, x ≠ b → pins x = s.pins x)
    (hu : UniqueIds (s.cache.updBuf b f) assigned) :
    BioInv { s with
      cache := s.cache.updBuf b f, holds := holds, pins := pins, assigned := assigned } where
  list := by simpa using hs.list
  complete := hs.complete
  refcnt x := by
    by_cases hx : x = b
    · subst hx
      simpa using href
    · simp [hx, hh x hx, hp x hx, hs.refcnt x]
  unique := hu

/-- `brelse` の付け替えは、`order` で b を先頭に移すことである。 -/
theorem BioInv.relink (hs : BioInv s) (b : BufId) :
    BioInv { s with
      cache := { s.cache with links := (s.cache.links.unlink b).pushFront b }
      order := b :: s.order.erase b } where
  list := hs.list.moveFront (hs.complete b)
  complete x := by
    by_cases hx : x = b
    · subst hx
      exact List.mem_cons_self
    · exact List.mem_cons_of_mem _ ((List.mem_erase_of_ne hx).mpr (hs.complete x))
  refcnt := hs.refcnt
  unique := hs.unique

theorem BioInv.of_bget (hs : BioInv s) {c : Bcache} (h : bget dev blockno s.cache = some (b, c)) :
    BioInv { s with
      cache := c
      holds := update s.holds b (s.holds b + 1)
      assigned := if lookup dev blockno s.cache = some none then update s.assigned b true
        else s.assigned } := by
  have hh : ∀ x, x ≠ b → update s.holds b (s.holds b + 1) x = s.holds x :=
    fun x hx => update_of_ne hx _ _
  rcases bget_cases h with ⟨hl, rfl⟩ | ⟨hl, hr, rfl⟩
  · -- 見つかったバッファの参照を一つ足す
    have ha : (if lookup dev blockno s.cache = some none then update s.assigned b true
        else s.assigned) = s.assigned := by simp [hl]
    rw [ha]
    refine hs.updBuf ?_ hh (fun _ _ => rfl) (hs.unique.updBuf_of_keep rfl rfl)
    simp [Buf.incRef, hs.refcnt b]
    omega
  · -- 割り当て直す
    rw [hl, if_pos rfl]
    obtain ⟨-, h0, h1⟩ := hs.recycle_free hr
    refine hs.updBuf ?_ hh (fun _ _ => rfl) (hs.unique.assign (hs.lookup_miss hl))
    simp [Buf.assign, h0, h1]

theorem BioInv.of_bread (hs : BioInv s) {c : Bcache} (h : bread dev blockno s.cache = some (b, c)) :
    BioInv { s with
      cache := c
      holds := update s.holds b (s.holds b + 1)
      assigned := if lookup dev blockno s.cache = some none then update s.assigned b true
        else s.assigned } := by
  obtain ⟨c₁, hg, rfl | rfl⟩ := bread_cases h
  · exact hs.of_bget hg
  · -- `valid` を立てても、不変条件の読む欄は変わらない
    have h₁ := hs.of_bget hg
    exact h₁.updBuf (h₁.refcnt b) (fun _ _ => rfl) (fun _ _ => rfl)
      (h₁.unique.updBuf_of_keep rfl rfl)

theorem BioInv.of_brelse (hs : BioInv s) (hh : 0 < s.holds b) :
    BioInv { s with
      cache := Xv6.Bio.brelse b s.cache
      order := if (s.cache.buf b).refcnt - 1 = 0 then b :: s.order.erase b else s.order
      holds := update s.holds b (s.holds b - 1) } := by
  have h₁ : BioInv { s with
      cache := s.cache.updBuf b Buf.decRef, holds := update s.holds b (s.holds b - 1) } := by
    refine hs.updBuf ?_ (fun x hx => update_of_ne hx _ _) (fun _ _ => rfl)
      (hs.unique.updBuf_of_keep rfl rfl)
    simp [Buf.decRef, hs.refcnt b]
    omega
  rw [brelse_eq]
  split_ifs with hz
  · exact h₁.relink b
  · exact h₁

theorem BioInv.of_bpin (hs : BioInv s) (b : BufId) :
    BioInv { s with
      cache := Xv6.Bio.bpin b s.cache, pins := update s.pins b (s.pins b + 1) } := by
  refine hs.updBuf ?_ (fun _ _ => rfl) (fun x hx => update_of_ne hx _ _)
    (hs.unique.updBuf_of_keep rfl rfl)
  simp [Buf.incRef, hs.refcnt b]
  omega

theorem BioInv.of_bunpin (hs : BioInv s) (hp : 0 < s.pins b) :
    BioInv { s with
      cache := Xv6.Bio.bunpin b s.cache, pins := update s.pins b (s.pins b - 1) } := by
  refine hs.updBuf ?_ (fun _ _ => rfl) (fun x hx => update_of_ne hx _ _)
    (hs.unique.updBuf_of_keep rfl rfl)
  simp [Buf.decRef, hs.refcnt b]
  omega

theorem BioInv.step (hs : BioInv s) {op : BioOp} {s' : BioState} (h : op.step s = some s') :
    BioInv s' := by
  cases op with
  | bread dev blockno =>
    simp only [BioOp.step] at h
    split at h
    · cases h
      exact hs.of_bread ‹_›
    · cases h
  | brelse b =>
    by_cases hh : 0 < s.holds b
    · simp only [BioOp.step, if_pos hh, Option.some.injEq] at h
      subst h
      exact hs.of_brelse hh
    · simp [BioOp.step, hh] at h
  | bpin b =>
    cases h
    exact hs.of_bpin b
  | bunpin b =>
    simp only [BioOp.step] at h
    split_ifs at h with hp
    cases h
    exact hs.of_bunpin hp

theorem BioInv.init : BioInv BioState.init where
  list := by
    have hnd : ((List.finRange NBUF).reverse ++ []).Nodup := by
      simpa using List.nodup_finRange NBUF
    have h₀ : IsList (⟨fun _ => none, fun _ => none⟩ : Links BufId) [] := IsList.empty rfl rfl
    have h := IsList.foldl_pushFront (List.finRange NBUF) h₀ hnd
    rwa [List.append_nil] at h
  complete b := by simp [BioState.init]
  refcnt _ := rfl
  unique _ _ h := by simp [BioState.init] at h

theorem bioReach_inv {s : BioState} (h : BioReach s) : BioInv s :=
  Reachable.inv (fun _ e => e ▸ BioInv.init) (fun _ _ hs ⟨_, hst⟩ => hs.step hst) h

/-! ## 不変条件から言えること -/

/-- 到達可能な状態でバッファキャッシュが満たすこと。 -/
structure BcacheSpec (s : BioState) : Prop where
  /-- `head` から `next` でたどるリストは `order` を持つ環状の双方向リストで、 -/
  list : IsList s.cache.links s.order
  /-- 各バッファをちょうど一度含み、 -/
  once : ∀ b, s.order.count b = 1
  /-- どの節点でも `b->next->prev == b`。 -/
  prev_next : ∀ u, s.cache.links.prev (s.cache.links.next u) = u
  unique : ∀ b b', s.assigned b = true → s.assigned b' = true →
    (s.cache.buf b).dev = (s.cache.buf b').dev →
    (s.cache.buf b).blockno = (s.cache.buf b').blockno → b = b'
  refcnt : ∀ b, (s.cache.buf b).refcnt = s.holds b + s.pins b
  /-- 割り当て済みのバッファのブロックを `bread` すると、そのバッファが返る。 -/
  bread_cached : ∀ b dev blockno, s.assigned b = true → (s.cache.buf b).dev = dev →
    (s.cache.buf b).blockno = blockno → ∃ c, bread dev blockno s.cache = some (b, c)
  /-- `bget` が割り当て直すバッファは、誰も持たず pin もされていない。 -/
  recycle_free : ∀ dev blockno b c, lookup dev blockno s.cache = some none →
    bget dev blockno s.cache = some (b, c) →
    (s.cache.buf b).refcnt = 0 ∧ s.holds b = 0 ∧ s.pins b = 0

theorem BioInv.bread_cached (hs : BioInv s) (ha : s.assigned b = true) :
    ∃ c, bread (s.cache.buf b).dev (s.cache.buf b).blockno s.cache = some (b, c) := by
  have hg : bget (s.cache.buf b).dev (s.cache.buf b).blockno s.cache =
      some (b, s.cache.updBuf b Buf.incRef) := by
    simp [bget, hs.lookup_assigned ha]
  unfold Xv6.Bio.bread
  simp only [hg]
  split <;> exact ⟨_, rfl⟩

theorem BioInv.spec (hs : BioInv s) : BcacheSpec s where
  list := hs.list
  once b := List.count_eq_one_of_mem hs.list.nodup (hs.complete b)
  prev_next u := by
    refine hs.list.prev_next ?_
    cases u with
    | none => exact .inl rfl
    | some x => exact .inr ⟨x, hs.complete x, rfl⟩
  unique b b' ha _ hd hn := (hs.unique b b' ha hd.symm hn.symm).symm
  refcnt := hs.refcnt
  bread_cached b _ _ ha hd hn := hd ▸ hn ▸ hs.bread_cached ha
  recycle_free _ _ b _ hl h := by
    rcases bget_cases h with ⟨hl', -⟩ | ⟨-, hr, -⟩
    · rw [hl] at hl'
      cases hl'
    · exact hs.recycle_free hr

theorem reach_bcacheSpec {s : BioState} (h : BioReach s) : BcacheSpec s :=
  (bioReach_inv h).spec

/-- ブロック 5 と 7 を読み、5 のバッファを返してから 5 をもう一度読んだ状態。 -/
theorem bread_brelse_bcacheSpec :
    ∃ s, [BioOp.bread 1 5, .bread 1 7, .brelse 0, .bread 1 5].foldlM (fun s (op : BioOp) => op.step s)
      BioState.init = some s ∧ BioReach s ∧ BcacheSpec s := by
  obtain ⟨s, hs⟩ := Option.isSome_iff_exists.mp (by decide +kernel :
    ([BioOp.bread 1 5, .bread 1 7, .brelse 0, .bread 1 5].foldlM (fun s (op : BioOp) => op.step s)
      BioState.init).isSome)
  have hr : BioReach s := foldlM_option_inv BioReach _ _ _ _ (.init rfl)
    (fun _ _ op _ h₁ h => .step h₁ ⟨op, h⟩) hs
  exact ⟨s, hs, hr, reach_bcacheSpec hr⟩

end Xv6.Bio
