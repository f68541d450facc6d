/-!
# grep の照合（`user/grep.c` の match、matchhere、matchstar）

C の文字列は、NUL より前の文字の列で表す。`re[0] == '\0'` は列が空であること、`re[1]` は
二つ目の文字（無ければ NUL）、`re+1` は列の後ろ。三つの関数はパターンと語の長さの辞書式の順で
短くなる呼び出ししかしないので、どの入力でも止まる。
-/

namespace Xv6.Grep

mutual

/-- `matchhere`: text の始めで re を探す。 -/
def matchhere : List Char → List Char → Bool
  | [], _ => true
  | c :: re, text =>
    if re.head? = some '*' then matchstar c re.tail text
    else if c = '$' ∧ re = [] then text.isEmpty
    else
      match text with
      | t :: text => (c == '.' || c == t) && matchhere re text
      | [] => false
  termination_by re text => (re.length, text.length)
  decreasing_by
    · -- re[1] が '*' なら、re+2 は re より二つ短い
      cases re with
      | nil => simp at *
      | cons r re => exact Prod.Lex.left _ _ (by simp)
    · exact Prod.Lex.left _ _ (by simp)

/-- `matchstar`: text の始めで c*re を探す。do-while なので、空の繰り返しから試す。 -/
def matchstar (c : Char) (re : List Char) : List Char → Bool
  | [] => matchhere re []
  | t :: text => matchhere re (t :: text) || (t == c || c == '.') && matchstar c re text
  termination_by text => (re.length + 1, text.length)
  decreasing_by
    · exact Prod.Lex.left _ _ (by simp)
    · exact Prod.Lex.left _ _ (by simp)
    · exact Prod.Lex.right _ (by simp)

end

/-- `match` の do-while: text と、その後ろの部分ごとに（空の部分も）`matchhere` を試す。 -/
def matchLoop (re : List Char) : List Char → Bool
  | [] => matchhere re []
  | t :: text => matchhere re (t :: text) || matchLoop re text

/-- `match`: re が '^' で始まれば text の始めだけを、そうでなければどの位置も試す。 -/
def «match» (re text : List Char) : Bool :=
  if re.head? = some '^' then matchhere re.tail text else matchLoop re text

/-! ## 場合ごとの等式 -/

variable {c t : Char} {re text : List Char}

@[simp] theorem matchhere_nil : matchhere [] text = true := by
  rw [matchhere]

theorem matchhere_star : matchhere (c :: '*' :: re) text = matchstar c re text := by
  rw [matchhere.eq_def]
  simp

@[simp] theorem matchhere_dollar : matchhere ['$'] text = text.isEmpty := by
  rw [matchhere.eq_def]
  simp

/-- 星の付かない原子は、text の先頭の一文字に当たる。 -/
theorem matchhere_cons (h1 : re.head? ≠ some '*') (h2 : c ≠ '$') :
    matchhere (c :: re) (t :: text) = ((c == '.' || c == t) && matchhere re text) := by
  rw [matchhere.eq_def]
  dsimp only
  rw [if_neg h1, if_neg fun h => h2 h.1]

theorem matchhere_cons_nil (h1 : re.head? ≠ some '*') (h2 : c ≠ '$') : matchhere (c :: re) [] = false := by
  rw [matchhere.eq_def]
  dsimp only
  rw [if_neg h1, if_neg fun h => h2 h.1]

@[simp] theorem matchstar_nil : matchstar c re [] = matchhere re [] := by
  rw [matchstar]

theorem matchstar_cons :
    matchstar c re (t :: text) = (matchhere re (t :: text) || (t == c || c == '.') && matchstar c re text) := by
  rw [matchstar]

end Xv6.Grep
