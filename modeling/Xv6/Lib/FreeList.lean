import Mathlib.Data.List.Nodup
import Mathlib.Logic.Function.Iterate

/-!
# 節点の中に次を持つ片方向リストと、二つに分けた資源の集まり

各節点が自分の中に次の節点を持つ片方向リストを、節点から次を読む関数 `next` と終わりの印
`null` で表す。`ListSeg next null p xs` は、p から `next` をたどると節点の列 xs を順に通って
null に着くことである。この鎖はどの節点も二度は通らない（`ListSeg.nodup`）。鎖の節点の `next` を
変えない書き込みは鎖を保ち（`ListSeg.congr`）、新しい節点の `next` を頭に向ける書き込みは一つ
長い鎖を作る（`ListSeg.push`）。

`Split U F A` は、集まり U を重複のない二つの列 F と A に分けることである。F の先頭を A に
移すこと（`Split.take`）と、A の要素を F の先頭に戻すこと（`Split.give`）で保たれる。
-/

namespace Xv6.Lib

variable {α : Type} (next : α → α) (null : α)

/-- p から `next` をたどると、節点の列 xs を順に通って null に着く。 -/
def ListSeg : α → List α → Prop
  | p, [] => p = null
  | p, x :: xs => p = x ∧ x ≠ null ∧ ListSeg (next x) xs

variable {next null} {p : α} {xs : List α}

theorem ListSeg.ne_null : ∀ {p : α} {xs : List α}, ListSeg next null p xs → ∀ x ∈ xs, x ≠ null
  | _, [], _, x, hx => by simp at hx
  | _, y :: xs, ⟨_, hy, h⟩, x, hx => by
    rcases List.mem_cons.mp hx with rfl | hx
    · exact hy
    · exact ListSeg.ne_null h x hx

/-- 鎖の i 番目の節点は p から `next` を i 回たどった節点で、列の長さだけたどると null に着く。 -/
theorem ListSeg.iterate : ∀ {p : α} {xs : List α}, ListSeg next null p xs →
    (∀ i (hi : i < xs.length), next^[i] p = xs[i]) ∧ next^[xs.length] p = null
  | _, [], h => ⟨fun i hi => absurd hi (Nat.not_lt_zero i), h⟩
  | _, x :: xs, ⟨rfl, _, h⟩ => by
    obtain ⟨hget, hend⟩ := ListSeg.iterate h
    refine ⟨fun i hi => ?_, hend⟩
    cases i with
    | zero => rfl
    | succ i => exact hget i (by simpa using hi)

/-- 鎖は同じ節点を二度通らない。 -/
theorem ListSeg.nodup (h : ListSeg next null p xs) : xs.Nodup := by
  obtain ⟨hget, hend⟩ := h.iterate
  -- i < j 番目が同じ節点なら、i 番目から `length - j` だけ進んだ節点は null のはずだが、
  -- それは列の中の節点である
  have key : ∀ i j (hi : i < xs.length) (hj : j < xs.length), i < j → xs[i] ≠ xs[j] := by
    intro i j hi hj hij heq
    have hlt : xs.length - j + i < xs.length := by omega
    have hnull : next^[xs.length - j + i] p = null := by
      rw [Function.iterate_add_apply, hget i hi, heq, ← hget j hj, ← Function.iterate_add_apply,
        Nat.sub_add_cancel (Nat.le_of_lt hj), hend]
    exact h.ne_null _ (List.getElem_mem hlt) ((hget _ hlt).symm.trans hnull)
  rw [List.nodup_iff_injective_get]
  intro a b hab
  rcases Nat.lt_trichotomy a.val b.val with hlt | heq | hgt
  · exact absurd hab (key _ _ a.isLt b.isLt hlt)
  · exact Fin.ext heq
  · exact absurd hab.symm (key _ _ b.isLt a.isLt hgt)

/-- 鎖の節点の `next` が変わらなければ、鎖は残る。 -/
theorem ListSeg.congr {next' : α → α} : ∀ {p : α} {xs : List α}, (∀ x ∈ xs, next' x = next x) →
    ListSeg next null p xs → ListSeg next' null p xs
  | _, [], _, h => h
  | _, x :: xs, he, ⟨hp, hx, h⟩ => by
    refine ⟨hp, hx, ?_⟩
    rw [he x List.mem_cons_self]
    exact ListSeg.congr (fun y hy => he y (List.mem_cons_of_mem _ hy)) h

/-- null でない節点 x の `next` を頭 p に向け、鎖の節点の `next` を変えなければ、x から
`x :: xs` をたどる鎖ができる。 -/
theorem ListSeg.push {next' : α → α} {x : α} (h : ListSeg next null p xs) (hx : x ≠ null)
    (hnext : next' x = p) (he : ∀ y ∈ xs, next' y = next y) : ListSeg next' null x (x :: xs) :=
  ⟨rfl, hx, hnext ▸ h.congr he⟩

/-! ## 二つに分けた集まり -/

/-- 集まり U を、重複のない二つの列 F と A に分ける。 -/
structure Split (U : α → Prop) (F A : List α) : Prop where
  nodup_left : F.Nodup
  nodup_right : A.Nodup
  disjoint : ∀ x ∈ F, x ∉ A
  mem_iff : ∀ x, U x ↔ x ∈ F ∨ x ∈ A

variable {U : α → Prop} {F A : List α} {x : α}

theorem Split.of_left (h : Split U F A) (hx : x ∈ F) : U x := (h.mem_iff x).mpr (.inl hx)

theorem Split.of_right (h : Split U F A) (hx : x ∈ A) : U x := (h.mem_iff x).mpr (.inr hx)

/-- F の先頭を A に移す。 -/
theorem Split.take (h : Split U (x :: F) A) : Split U F (x :: A) where
  nodup_left := (List.nodup_cons.mp h.nodup_left).2
  nodup_right := List.nodup_cons.mpr ⟨h.disjoint x List.mem_cons_self, h.nodup_right⟩
  disjoint y hy := by
    rw [List.mem_cons, not_or]
    exact ⟨fun e => (List.nodup_cons.mp h.nodup_left).1 (e ▸ hy),
      h.disjoint y (List.mem_cons_of_mem _ hy)⟩
  mem_iff y := by
    rw [h.mem_iff y, List.mem_cons, List.mem_cons, or_assoc, or_left_comm]

/-- A の要素 x を F の先頭に戻す。 -/
theorem Split.give [DecidableEq α] (h : Split U F A) (hx : x ∈ A) : Split U (x :: F) (A.erase x) where
  nodup_left := List.nodup_cons.mpr ⟨fun hF => h.disjoint x hF hx, h.nodup_left⟩
  nodup_right := h.nodup_right.erase x
  disjoint y hy := by
    rcases List.mem_cons.mp hy with rfl | hy
    · exact h.nodup_right.not_mem_erase
    · exact fun he => h.disjoint y hy (List.mem_of_mem_erase he)
  mem_iff y := by
    rw [h.mem_iff y, List.mem_cons, h.nodup_right.mem_erase_iff]
    by_cases e : y = x
    · subst e
      simp [hx]
    · simp [e]

end Xv6.Lib
