import Xv6.Grep.Basic
import Xv6.Lib.Pattern

/-!
# grep の照合の正しさ

文法 re ::= '^'? (atom '*'?)* '$'? のパターンを、錨の有無と原子の列（`Lib.Piece`）から
組み立てる（`pattern`）。原子は '.' か、'^'、'$'、'*'、'.' でない文字。

`matchhere` は、本体の残りと終わりの錨の文字列に対して、語の頭が本体の言語に入るかを決め
（`matchhere_iff`）、`match` はパターンが語のどこかに当たるかを決める（`match_iff_occurs`）。
証明は本体の原子の列についての帰納法で、星の付いた原子では `matchstar` が進める語についての
帰納法を重ねる。
-/

namespace Xv6.Grep

open Xv6.Lib

/-- パターンの特別な文字。 -/
def special (c : Char) : Bool := c == '^' || c == '$' || c == '*' || c == '.'

/-- 原子の文字。 -/
def atomChar : Atom Char → Char
  | .lit c => c
  | .any => '.'

/-- 文法の原子: '.' か、特別でない文字。 -/
def plainAtom : Atom Char → Bool
  | .lit c => !special c
  | .any => true

/-- 原子の文字と、星があれば '*'。 -/
def Piece.render (p : Piece Char) : List Char := atomChar p.atom :: if p.star then ['*'] else []

/-- 本体の文字列と、終わりの錨。 -/
def body (ps : List (Piece Char)) (fin : Bool) : List Char :=
  ps.flatMap Piece.render ++ if fin then ['$'] else []

def pattern (start : Bool) (ps : List (Piece Char)) (fin : Bool) : List Char :=
  (if start then ['^'] else []) ++ body ps fin

/-! ## 原子の文字 -/

section

variable {a : Atom Char} (ha : plainAtom a = true)
include ha

/-- 原子の文字は、'.' でない特別な文字ではない。 -/
theorem atomChar_ne {c : Char} (hc : special c = true) (hd : c ≠ '.') : atomChar a ≠ c := by
  cases a with
  | lit x =>
      rintro rfl
      simp only [plainAtom, Bool.not_eq_true'] at ha
      simp only [atomChar, ha] at hc
      cases hc
  | any =>
      intro h
      exact hd h.symm

/-- matchhere の比較 `re[0]=='.' || re[0]==*text` は、原子が当たること。 -/
theorem hereTest_eq (t : Char) : (atomChar a == '.' || atomChar a == t) = a.hits t := by
  cases a with
  | lit c =>
      have hc : c ≠ '.' := by
        intro h
        simp [plainAtom, special, h] at ha
      rw [atomChar, beq_false_of_ne hc, Bool.false_or, Atom.hits, Bool.beq_comm]
  | any => simp [atomChar, Atom.hits]

/-- matchstar の比較 `*text==c || c=='.'` も、原子が当たること。 -/
theorem starTest_eq (t : Char) : (t == atomChar a || atomChar a == '.') = a.hits t := by
  rw [← hereTest_eq ha t, Bool.or_comm]
  congr 1
  exact Bool.beq_comm

end

/-- 本体の文字列の最初の文字は原子の文字か '$' で、'*' でも '^' でもない。 -/
theorem body_head {ps : List (Piece Char)} (hps : ∀ p ∈ ps, plainAtom p.atom = true) (fin : Bool) :
    (body ps fin).head? ≠ some '*' ∧ (body ps fin).head? ≠ some '^' := by
  cases ps with
  | nil => cases fin <;> simp [body]
  | cons p ps =>
      have hp := hps p List.mem_cons_self
      simp only [body, List.flatMap_cons, Piece.render, List.cons_append, List.head?_cons, ne_eq,
        Option.some.injEq]
      exact ⟨atomChar_ne hp (by decide) (by decide), atomChar_ne hp (by decide) (by decide)⟩

/-! ## matchhere と matchstar -/

/-- 星の付いた原子: `matchstar` は、原子に当たる文字を一つずつ読み進めながら残りを試す。 -/
theorem matchstar_iff {a : Atom Char} {ps : List (Piece Char)} {fin : Bool} (ha : plainAtom a = true)
    (ih : ∀ text, matchhere (body ps fin) text = true ↔ PrefixIn ps fin text) :
    ∀ text, matchstar (atomChar a) (body ps fin) text = true ↔ PrefixIn (⟨a, true⟩ :: ps) fin text := by
  intro text
  induction text with
  | nil => rw [matchstar_nil, ih, prefixIn_star_nil]
  | cons t text ihs =>
      rw [matchstar_cons, starTest_eq ha, prefixIn_star_cons, Bool.or_eq_true, Bool.and_eq_true, ih, ihs]

theorem matchhere_iff (fin : Bool) :
    ∀ (ps : List (Piece Char)), (∀ p ∈ ps, plainAtom p.atom = true) →
      ∀ text, matchhere (body ps fin) text = true ↔ PrefixIn ps fin text := by
  intro ps
  induction ps with
  | nil =>
      intro _ text
      rw [prefixIn_nil]
      cases fin <;> simp [body]
  | cons p ps ih =>
      intro hps text
      have hp := hps p List.mem_cons_self
      have ih' := ih fun q hq => hps q (List.mem_cons_of_mem p hq)
      rcases p with ⟨a, star⟩
      cases star with
      | true =>
          -- re[1] が '*': matchstar に任せる
          have hb : body (⟨a, true⟩ :: ps) fin = atomChar a :: '*' :: body ps fin := by
            simp [body, Piece.render]
          rw [hb, matchhere_star]
          exact matchstar_iff hp ih' text
      | false =>
          have hb : body (⟨a, false⟩ :: ps) fin = atomChar a :: body ps fin := by
            simp [body, Piece.render]
          have hhead := (body_head (fun q hq => hps q (List.mem_cons_of_mem _ hq)) fin).1
          rw [hb]
          cases text with
          | nil =>
              rw [matchhere_cons_nil hhead (atomChar_ne hp (by decide) (by decide))]
              exact iff_of_false Bool.false_ne_true prefixIn_one_nil
          | cons t text =>
              rw [matchhere_cons hhead (atomChar_ne hp (by decide) (by decide)), hereTest_eq hp,
                Bool.and_eq_true, ih' text, prefixIn_one_cons]

/-! ## match -/

/-- 錨が無ければ、`match` の繰り返しは語の後ろの部分を一つずつ試す。 -/
theorem matchLoop_iff {ps : List (Piece Char)} {fin : Bool}
    (h : ∀ text, matchhere (body ps fin) text = true ↔ PrefixIn ps fin text) :
    ∀ text, matchLoop (body ps fin) text = true ↔ Occurs false fin ps text := by
  intro text
  induction text with
  | nil => rw [matchLoop, h, occurs_false_nil]
  | cons t text ih => rw [matchLoop, Bool.or_eq_true, h, ih, occurs_false_cons]

/-- grep の `match` は、文法のどのパターンとどの語についても、パターンが語のどこかの部分に
当たるとき、そのときに限り 1 を返す。 -/
theorem match_iff_occurs (start fin : Bool) (ps : List (Piece Char))
    (hps : ∀ p ∈ ps, plainAtom p.atom = true) (text : List Char) :
    «match» (pattern start ps fin) text = true ↔ Occurs start fin ps text := by
  have hhere := matchhere_iff fin ps hps
  cases start with
  | true =>
      simp only [«match», pattern, ↓reduceIte, List.cons_append, List.nil_append, List.head?_cons,
        List.tail_cons]
      rw [hhere, occurs_true]
  | false =>
      simp only [«match», pattern, Bool.false_eq_true, ↓reduceIte, List.nil_append]
      rw [if_neg (body_head hps fin).2]
      exact matchLoop_iff hhere text

theorem match_caret_star_dollar :
    (∀ p ∈ [(⟨.lit 'a', true⟩ : Piece Char), ⟨.any, false⟩], plainAtom p.atom = true) ∧
      («match» (pattern true [⟨.lit 'a', true⟩, ⟨.any, false⟩] true) ['a', 'a', 'b'] = true ↔
        Occurs true true [⟨.lit 'a', true⟩, ⟨.any, false⟩] ['a', 'a', 'b']) :=
  ⟨by decide, match_iff_occurs true true _ (by decide) _⟩

end Xv6.Grep
