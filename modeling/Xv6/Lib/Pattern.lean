/-!
# 星と錨だけの正規表現

原子（一つの記号か、どの記号にも当たる `any`）に星を付けてよい列と、始めと終わりの錨からなる
パターンの意味。本体の言語 `PLang` は原子の列を左から読む帰納的な関係で、星の付いた原子は 0 回
以上の繰り返し。`Occurs` は語のどこかの部分が本体の言語に入ること（始めの錨があれば部分は語の
始めから、終わりの錨があれば語の終わりまで）。

照合の手続きの正しさは、語の頭の部分が言語に入ること（`PrefixIn`）を本体の先頭の原子と語の
先頭で分けた同値（`prefixIn_nil`、`prefixIn_one_cons`、`prefixIn_star_cons` と、空の語の場合）と、
錨のない探索を語の先頭で分けた同値（`occurs_false_nil`、`occurs_false_cons`）に帰着する。
-/

namespace Xv6.Lib

/-- 一つの記号に当たるもの: その記号か、どの記号にも当たる `any`。 -/
inductive Atom (α : Type) where
  | lit (a : α)
  | any
  deriving DecidableEq, Repr

/-- 星が付けば、原子の 0 回以上の繰り返し。 -/
structure Piece (α : Type) where
  atom : Atom α
  star : Bool
  deriving DecidableEq, Repr

variable {α : Type} [DecidableEq α]

def Atom.hits : Atom α → α → Bool
  | .lit a, x => x == a
  | .any, _ => true

/-- 本体の言語。 -/
inductive PLang : List (Piece α) → List α → Prop where
  | nil : PLang [] []
  | one {a : Atom α} {x : α} {ps : List (Piece α)} {w : List α} :
      a.hits x = true → PLang ps w → PLang (⟨a, false⟩ :: ps) (x :: w)
  | skip {a : Atom α} {ps : List (Piece α)} {w : List α} : PLang ps w → PLang (⟨a, true⟩ :: ps) w
  | more {a : Atom α} {x : α} {ps : List (Piece α)} {w : List α} :
      a.hits x = true → PLang (⟨a, true⟩ :: ps) w → PLang (⟨a, true⟩ :: ps) (x :: w)

/-- 語の頭の部分が本体の言語に入る。`fin` なら、その部分は語の全体。 -/
def PrefixIn (ps : List (Piece α)) (fin : Bool) (w : List α) : Prop :=
  ∃ u v, w = u ++ v ∧ PLang ps u ∧ (fin = true → v = [])

/-- パターンが語のどこかに当たる。 -/
def Occurs (start fin : Bool) (ps : List (Piece α)) (w : List α) : Prop :=
  ∃ t u v, w = t ++ u ++ v ∧ PLang ps u ∧ (start = true → t = []) ∧ (fin = true → v = [])

/-! ## 先頭の原子で分ける -/

theorem prefixIn_nil {fin : Bool} {w : List α} : PrefixIn [] fin w ↔ (fin = true → w = []) := by
  constructor
  · rintro ⟨u, v, rfl, hu, hv⟩
    cases hu
    exact hv
  · intro hw
    exact ⟨[], w, rfl, .nil, hw⟩

theorem prefixIn_one_nil {a : Atom α} {ps : List (Piece α)} {fin : Bool} :
    ¬ PrefixIn (⟨a, false⟩ :: ps) fin [] := by
  rintro ⟨u, v, h, hu, -⟩
  cases hu with
  | one _ _ => simp at h

theorem prefixIn_one_cons {a : Atom α} {ps : List (Piece α)} {fin : Bool} {x : α} {w : List α} :
    PrefixIn (⟨a, false⟩ :: ps) fin (x :: w) ↔ a.hits x = true ∧ PrefixIn ps fin w := by
  constructor
  · rintro ⟨u, v, h, hu, hv⟩
    cases hu with
    | one hx hw =>
        simp only [List.cons_append, List.cons.injEq] at h
        obtain ⟨rfl, rfl⟩ := h
        exact ⟨hx, _, v, rfl, hw, hv⟩
  · rintro ⟨hx, u, v, rfl, hu, hv⟩
    exact ⟨x :: u, v, rfl, .one hx hu, hv⟩

/-- 星の付いた原子は、空の語には 0 回だけ当たる。 -/
theorem prefixIn_star_nil {a : Atom α} {ps : List (Piece α)} {fin : Bool} :
    PrefixIn (⟨a, true⟩ :: ps) fin [] ↔ PrefixIn ps fin [] := by
  constructor
  · rintro ⟨u, v, h, hu, hv⟩
    cases hu with
    | skip hw => exact ⟨u, v, h, hw, hv⟩
    | more _ _ => simp at h
  · rintro ⟨u, v, h, hu, hv⟩
    exact ⟨u, v, h, .skip hu, hv⟩

/-- 星の付いた原子は 0 回当たるか、先頭の記号に当たってもう一度試す。 -/
theorem prefixIn_star_cons {a : Atom α} {ps : List (Piece α)} {fin : Bool} {x : α} {w : List α} :
    PrefixIn (⟨a, true⟩ :: ps) fin (x :: w) ↔
      PrefixIn ps fin (x :: w) ∨ (a.hits x = true ∧ PrefixIn (⟨a, true⟩ :: ps) fin w) := by
  constructor
  · rintro ⟨u, v, h, hu, hv⟩
    cases hu with
    | skip hw => exact .inl ⟨u, v, h, hw, hv⟩
    | more hx hw =>
        simp only [List.cons_append, List.cons.injEq] at h
        obtain ⟨rfl, rfl⟩ := h
        exact .inr ⟨hx, _, v, rfl, hw, hv⟩
  · rintro (⟨u, v, h, hu, hv⟩ | ⟨hx, u, v, rfl, hu, hv⟩)
    · exact ⟨u, v, h, .skip hu, hv⟩
    · exact ⟨x :: u, v, rfl, .more hx hu, hv⟩

/-! ## 探索 -/

/-- 始めの錨があれば、当たる部分は語の頭。 -/
theorem occurs_true {fin : Bool} {ps : List (Piece α)} {w : List α} :
    Occurs true fin ps w ↔ PrefixIn ps fin w := by
  constructor
  · rintro ⟨t, u, v, rfl, hu, ht, hv⟩
    rw [ht rfl]
    exact ⟨u, v, rfl, hu, hv⟩
  · rintro ⟨u, v, rfl, hu, hv⟩
    exact ⟨[], u, v, rfl, hu, fun _ => rfl, hv⟩

theorem occurs_false_nil {fin : Bool} {ps : List (Piece α)} :
    Occurs false fin ps [] ↔ PrefixIn ps fin [] := by
  constructor
  · rintro ⟨t, u, v, h, hu, -, hv⟩
    obtain ⟨rfl, rfl, rfl⟩ : t = [] ∧ u = [] ∧ v = [] := by simpa using h.symm
    exact ⟨[], [], rfl, hu, hv⟩
  · rintro ⟨u, v, h, hu, hv⟩
    exact ⟨[], u, v, h, hu, fun _ => rfl, hv⟩

/-- 錨が無ければ、当たる部分は語の頭から始まるか、先頭の記号の後ろにある。 -/
theorem occurs_false_cons {fin : Bool} {ps : List (Piece α)} {x : α} {w : List α} :
    Occurs false fin ps (x :: w) ↔ PrefixIn ps fin (x :: w) ∨ Occurs false fin ps w := by
  constructor
  · rintro ⟨t, u, v, h, hu, -, hv⟩
    cases t with
    | nil => exact .inl ⟨u, v, h, hu, hv⟩
    | cons y t =>
        simp only [List.cons_append, List.cons.injEq] at h
        exact .inr ⟨t, u, v, h.2, hu, nofun, hv⟩
  · rintro (⟨u, v, h, hu, hv⟩ | ⟨t, u, v, rfl, hu, -, hv⟩)
    · exact ⟨[], u, v, h, hu, fun _ => rfl, hv⟩
    · exact ⟨x :: t, u, v, rfl, hu, nofun, hv⟩

end Xv6.Lib
