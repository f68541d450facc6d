import Mathlib.Data.List.Chain
import Mathlib.Data.List.Nodup
import Mathlib.Data.Option.Basic

/-!
# 番兵つきの環状の双方向リスト

節点は `Option β` で、`none` が番兵（リストの頭）、`some x` が要素 x である。各節点の
`next` と `prev` の欄を二つの関数で表す（`Links`）。要素の列 `l` を持つリストとは、番兵から
`l` を順にたどって番兵に戻る節点の列 `cycleNodes l` の隣り合う二つが、`next` と `prev` で
互いを指していることである（`IsList`）。

`walk` は `next` か `prev` をたどって条件を満たす最初の要素を探すループで、`IsList` のもとでは
`l` を前から、あるいは後ろから見る。取り外し `unlink` と番兵の直後への挿入 `pushFront` は
ポインタの書き込みの列として定義し、`IsList` を保つことを示す。
-/

namespace Xv6.Lib

open Function

variable {β : Type}

/-- 各節点の `next` と `prev` の欄。 -/
structure Links (β : Type) where
  next : Option β → Option β
  prev : Option β → Option β

/-- u の `next` が v で、v の `prev` が u。 -/
def Links.Link (L : Links β) (u v : Option β) : Prop := L.next u = v ∧ L.prev v = u

open Links

/-- u の `next` と v の `prev` が変わらなければ、u と v の間の辺は残る。 -/
theorem Links.Link.congr {L L' : Links β} {u v : Option β} (h : L.Link u v)
    (hn : L'.next u = L.next u) (hp : L'.prev v = L.prev v) : L'.Link u v :=
  ⟨hn.trans h.1, hp.trans h.2⟩

/-- 番兵から l をたどって番兵に戻る節点の列。 -/
def cycleNodes (l : List β) : List (Option β) := none :: (l.map some ++ [none])

theorem cycleNodes_reverse (l : List β) : cycleNodes l.reverse = (cycleNodes l).reverse := by
  simp [cycleNodes]

/-- 番兵の後の節点の列には重複がない。 -/
theorem nodup_map_some_append_none {l : List β} (h : l.Nodup) : (l.map some ++ [none]).Nodup := by
  rw [List.nodup_append]
  exact ⟨h.map (Option.some_injective β), List.nodup_singleton _, by simp⟩

/-- 連鎖の最後の一つより前の節点には、関係で結ばれた次の節点がある。 -/
theorem exists_rel_of_mem_of_isChain {α : Type} {R : α → α → Prop} {xs : List α} {z u : α}
    (h : (xs ++ [z]).IsChain R) (hu : u ∈ xs) : ∃ v, R u v := by
  obtain ⟨s, t, rfl⟩ := List.append_of_mem hu
  rw [List.append_assoc, List.cons_append, List.isChain_split] at h
  cases t with
  | nil => exact ⟨z, List.isChain_pair.mp h.2⟩
  | cons v t => exact ⟨v, (List.isChain_cons_cons.mp h.2).1⟩

/-- L が要素の列 l を持つ環状の双方向リストである。 -/
structure IsList (L : Links β) (l : List β) : Prop where
  nodup : l.Nodup
  chain : (cycleNodes l).IsChain L.Link

variable {L : Links β} {l : List β} {b : β}

/-- 番兵が自分を指すリストは空である。 -/
theorem IsList.empty (hn : L.next none = none) (hp : L.prev none = none) : IsList L [] :=
  ⟨List.nodup_nil, by simp [cycleNodes, Link, hn, hp]⟩

/-- 番兵と各要素では、次の節点の前の節点は自分である（`b->next->prev == b`）。 -/
theorem IsList.prev_next (h : IsList L l) {u : Option β} (hu : u = none ∨ ∃ x ∈ l, u = some x) :
    L.prev (L.next u) = u := by
  have hc : ((none :: l.map some) ++ [none]).IsChain L.Link := h.chain
  have hmem : u ∈ none :: l.map some := by
    rcases hu with rfl | ⟨x, hx, rfl⟩
    · exact List.mem_cons_self
    · exact List.mem_cons_of_mem _ (List.mem_map_of_mem hx)
  obtain ⟨v, hn, hp⟩ := exists_rel_of_mem_of_isChain hc hmem
  rw [hn, hp]

/-! ## リストをたどるループ -/

/-- 節点 u から `step` でたどり、`p` を満たす最初の要素を探すループ。番兵に戻れば
`some none`、燃料が尽きれば `none`。 -/
def walk (step : Option β → Option β) (p : β → Bool) : Nat → Option β → Option (Option β)
  | _, none => some none
  | 0, some _ => none
  | fuel + 1, some x => if p x then some (some x) else walk step p fuel (step (some x))

/-- u から `step` で l を順にたどって番兵に着くなら、ループは l で最初に `p` を満たす要素を返す。 -/
theorem walk_of_isChain {step : Option β → Option β} (p : β → Bool) :
    ∀ {l : List β} {u : Option β} {fuel : Nat},
      (u :: (l.map some ++ [none])).IsChain (fun a c => step a = c) → l.length ≤ fuel →
        walk step p fuel (step u) = some (l.find? p)
  | [], u, fuel, h, _ => by
    rw [List.isChain_pair.mp h]
    cases fuel <;> rfl
  | x :: l, u, fuel + 1, h, hf => by
    obtain ⟨hx, h⟩ := List.isChain_cons_cons.mp h
    rw [hx, walk, List.find?_cons]
    cases p x with
    | true => rfl
    | false => exact walk_of_isChain p h (by simpa using hf)

/-- `next` をたどるループは l を前から見る。 -/
theorem IsList.walk_next (h : IsList L l) (p : β → Bool) {fuel : Nat} (hf : l.length ≤ fuel) :
    walk L.next p fuel (L.next none) = some (l.find? p) :=
  walk_of_isChain p (h.chain.imp fun _ _ huv => huv.1) hf

/-- `prev` をたどるループは l を後ろから見る。 -/
theorem IsList.walk_prev (h : IsList L l) (p : β → Bool) {fuel : Nat} (hf : l.length ≤ fuel) :
    walk L.prev p fuel (L.prev none) = some (l.reverse.find? p) := by
  have hc : (cycleNodes l.reverse).IsChain (fun a c => L.prev a = c) := by
    rw [cycleNodes_reverse, List.isChain_reverse]
    exact h.chain.imp fun _ _ huv => huv.2
  exact walk_of_isChain p hc (by simpa using hf)

/-! ## ポインタの書き換え -/

variable [DecidableEq β]

namespace Links

def setNext (L : Links β) (u v : Option β) : Links β := { L with next := update L.next u v }

def setPrev (L : Links β) (u v : Option β) : Links β := { L with prev := update L.prev u v }

@[simp] theorem setNext_next (L : Links β) (u v : Option β) :
    (L.setNext u v).next = update L.next u v := rfl
@[simp] theorem setNext_prev (L : Links β) (u v : Option β) : (L.setNext u v).prev = L.prev := rfl
@[simp] theorem setPrev_next (L : Links β) (u v : Option β) : (L.setPrev u v).next = L.next := rfl
@[simp] theorem setPrev_prev (L : Links β) (u v : Option β) :
    (L.setPrev u v).prev = update L.prev u v := rfl

/-- 要素 b を外す: `b->next->prev = b->prev; b->prev->next = b->next;` -/
def unlink (L : Links β) (b : β) : Links β :=
  let L₁ := L.setPrev (L.next (some b)) (L.prev (some b))
  L₁.setNext (L₁.prev (some b)) (L₁.next (some b))

/-- 要素 b を番兵の直後に入れる:
`b->next = head.next; b->prev = &head; head.next->prev = b; head.next = b;` -/
def pushFront (L : Links β) (b : β) : Links β :=
  let L₁ := (L.setNext (some b) (L.next none)).setPrev (some b) none
  let L₂ := L₁.setPrev (L₁.next none) (some b)
  L₂.setNext none (some b)

/-- 二つ目の書き込みが読む `b->prev` は、一つ目の書き込みの後も元のままである。 -/
@[simp] theorem unlink_next (L : Links β) (b : β) :
    (L.unlink b).next = update L.next (L.prev (some b)) (L.next (some b)) := by
  by_cases h : L.next (some b) = some b
  · simp [unlink, h]
  · simp [unlink, update_of_ne (Ne.symm h)]

@[simp] theorem unlink_prev (L : Links β) (b : β) :
    (L.unlink b).prev = update L.prev (L.next (some b)) (L.prev (some b)) := rfl

@[simp] theorem pushFront_next (L : Links β) (b : β) :
    (L.pushFront b).next = update (update L.next (some b) (L.next none)) none (some b) := rfl

@[simp] theorem pushFront_prev (L : Links β) (b : β) :
    (L.pushFront b).prev = update (update L.prev (some b) none) (L.next none) (some b) := by
  simp [pushFront]

end Links

/-- 先頭への挿入は、リストの前に b を足す。 -/
theorem IsList.pushFront (h : IsList L l) (hb : b ∉ l) : IsList (L.pushFront b) (b :: l) := by
  have hnd : (l.map some ++ [none]).Nodup := nodup_map_some_append_none h.nodup
  have hbC : some b ∉ l.map some ++ [none] := by simpa using hb
  -- 番兵の後の節点の列を、先頭 c₀ とその後に分ける
  obtain ⟨c₀, C, hC⟩ : ∃ c₀ C, l.map some ++ [none] = c₀ :: C := by
    cases l <;> exact ⟨_, _, rfl⟩
  rw [hC] at hnd hbC
  have hc : (none :: c₀ :: C).IsChain L.Link := by rw [← hC]; exact h.chain
  obtain ⟨⟨hn₀, -⟩, hcC⟩ := List.isChain_cons_cons.mp hc
  have hc₀ : c₀ ∉ C := (List.nodup_cons.mp hnd).1
  have hbc₀ : c₀ ≠ some b := fun e => hbC (e ▸ List.mem_cons_self)
  refine ⟨List.nodup_cons.mpr ⟨hb, h.nodup⟩, ?_⟩
  have hcyc : cycleNodes (b :: l) = none :: some b :: c₀ :: C := by
    simp only [cycleNodes, List.map_cons, List.cons_append, ← hC]
  rw [hcyc, List.isChain_cons_cons, List.isChain_cons_cons]
  refine ⟨⟨by simp, by simp [hn₀, update_of_ne hbc₀.symm]⟩,
    ⟨by simp [hn₀], by simp [hn₀]⟩, ?_⟩
  -- 残りの辺は書き込まれない節点の間にある
  refine hcC.imp_of_mem_tail_imp fun u v hu hv huv => huv.congr ?_ ?_
  · have hu₀ : u ≠ none := by
      rintro rfl
      exact hc₀ (hn₀ ▸ huv.1 ▸ hv)
    have hub : u ≠ some b := fun e => hbC (e ▸ hu)
    simp [update_of_ne hu₀, update_of_ne hub]
  · have hvc₀ : v ≠ c₀ := fun e => hc₀ (e ▸ hv)
    have hvb : v ≠ some b := fun e => hbC (List.mem_of_mem_tail (e ▸ hv))
    simp [hn₀, update_of_ne hvc₀, update_of_ne hvb]

/-- 取り外しは、リストから b を除く。 -/
theorem IsList.unlink (h : IsList L l) (hb : b ∈ l) : IsList (L.unlink b) (l.erase b) := by
  obtain ⟨l₁, l₂, rfl⟩ := List.append_of_mem hb
  have hmid := List.nodup_cons.mp (List.nodup_middle.mp h.nodup)
  have hb₁ : b ∉ l₁ := fun hm => hmid.1 (List.mem_append_left _ hm)
  have hb₂ : b ∉ l₂ := fun hm => hmid.1 (List.mem_append_right _ hm)
  have hdisj : ∀ x ∈ l₁, x ∉ l₂ := fun x hx₁ hx₂ =>
    (List.nodup_append.mp hmid.2).2.2 x hx₁ x hx₂ rfl
  rw [List.erase_append_right _ hb₁, List.erase_cons_head]
  refine ⟨hmid.2, ?_⟩
  -- 前半 A（番兵と l₁）と後半 q :: B（l₂ と番兵）。b はその間にある
  set A : List (Option β) := none :: l₁.map some with hA
  obtain ⟨q, B, hB⟩ : ∃ q B, l₂.map some ++ [none] = q :: B := by
    cases l₂ <;> exact ⟨_, _, rfl⟩
  have hBnd : (q :: B).Nodup :=
    hB ▸ nodup_map_some_append_none (List.nodup_append.mp hmid.2).2.1
  have hbB : some b ∉ q :: B := by rw [← hB]; simpa using hb₂
  have hqA : q ∉ l₁.map some := by
    intro hq
    obtain ⟨x, hx, rfl⟩ := List.mem_map.mp hq
    have hxB : some x ∈ l₂.map some ++ [none] := hB ▸ List.mem_cons_self
    exact hdisj x hx (by simpa using hxB)
  have hcyc : cycleNodes (l₁ ++ b :: l₂) = A ++ some b :: q :: B := by
    simp [cycleNodes, hA, ← hB]
  have hcyc' : cycleNodes (l₁ ++ l₂) = A ++ q :: B := by
    simp [cycleNodes, hA, ← hB]
  have hc := h.chain
  rw [hcyc, List.isChain_split] at hc
  obtain ⟨hcA, hcB⟩ := hc
  obtain ⟨⟨hnb, -⟩, hcB⟩ := List.isChain_cons_cons.mp hcB
  -- b の前の節点 p は A の最後
  have hAne : A ≠ [] := List.cons_ne_nil _ _
  set p := A.getLast hAne with hp
  have hlast : L.Link p (some b) :=
    List.IsChain.rel_getLast_head_of_append hcA hAne (List.cons_ne_nil _ _)
  have hnext : (L.unlink b).next = update L.next p q := by
    rw [unlink_next, hnb, hlast.2]
  have hprev : (L.unlink b).prev = update L.prev q p := by
    rw [unlink_prev, hnb, hlast.2]
  -- 書き換わるのは p の next と q の prev だけで、p の next は b を指していた
  have keep : ∀ u v, L.Link u v → v ≠ some b → v ≠ q → (L.unlink b).Link u v := by
    intro u v huv hvb hvq
    refine huv.congr ?_ ?_
    · have hup : u ≠ p := by
        rintro rfl
        exact hvb (huv.1.symm.trans hlast.1)
      rw [hnext, update_of_ne hup]
    · rw [hprev, update_of_ne hvq]
  rw [hcyc']
  refine List.IsChain.append ?_ ?_ ?_
  · refine hcA.left_of_append.imp_of_mem_tail_imp fun u v _ hv huv => keep u v huv ?_ ?_
    · rintro rfl
      exact hb₁ (by simpa [hA] using hv)
    · rintro rfl
      exact hqA (by simpa [hA] using hv)
  · refine hcB.imp_of_mem_tail_imp fun u v _ hv huv => keep u v huv ?_ ?_
    · rintro rfl
      exact hbB (List.mem_of_mem_tail hv)
    · rintro rfl
      exact (List.nodup_cons.mp hBnd).1 hv
  · intro x hx y hy
    rw [List.getLast?_eq_some_getLast hAne, Option.mem_some_iff] at hx
    rw [List.head?_cons, Option.mem_some_iff] at hy
    subst hx hy
    exact ⟨by rw [hnext, update_self], by rw [hprev, update_self]⟩

/-- `brelse` の付け替え: 外してから先頭に入れると、b がリストの先頭に移る。 -/
theorem IsList.moveFront (h : IsList L l) (hb : b ∈ l) :
    IsList ((L.unlink b).pushFront b) (b :: l.erase b) :=
  (h.unlink hb).pushFront (h.nodup.not_mem_erase)

/-- 列 bs の順に先頭へ挿入すると、bs を逆順に前に足したリストになる。 -/
theorem IsList.foldl_pushFront :
    ∀ {L : Links β} {l : List β} (bs : List β), IsList L l → (bs.reverse ++ l).Nodup →
      IsList (bs.foldl Links.pushFront L) (bs.reverse ++ l)
  | _, _, [], h, _ => h
  | _, l, x :: bs, h, hnd => by
    have e : (x :: bs).reverse ++ l = bs.reverse ++ x :: l := by simp
    rw [e] at hnd ⊢
    have hx : x ∉ l := (List.nodup_cons.mp (List.nodup_append.mp hnd).2.1).1
    exact IsList.foldl_pushFront bs (h.pushFront hx) hnd

end Xv6.Lib
