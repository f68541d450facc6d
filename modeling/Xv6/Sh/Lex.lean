import Mathlib.Tactic.SplitIfs
import Xv6.Str.Strchr

/-!
# sh の字句（`user/sh.c` の gettoken と peek）

入力の行は NUL を含まない文字の列 s で、`*ps` は s の中の位置 i、`es` は s の長さにあたる。
`*s` は es から後ろで NUL を読む（`charAt`）。

gettoken を 0 を返すまで繰り返して得る字句の列を `lexFrom s i` とする。peek と gettoken は
どちらも `lexFrom` の先頭の字句だけを見る（`peek_eq`、`lexFrom_of_gettoken`）。構文解析の証明は
この二つの補題を通して字句の列で進め、字の列には戻らない。
-/

namespace Xv6.Sh

open Xv6.Ulib

/-- `whitespace[] = " \t\r\n\v"`。 -/
def whitespace : List Char := [' ', '\t', '\r', '\n', '\x0b']

/-- `symbols[] = "<|>&;()"`。 -/
def symbols : List Char := ['<', '|', '>', '&', ';', '(', ')']

/-- `*s`: 行の終わり（es）から後ろは NUL。 -/
def charAt (s : List Char) (i : Nat) : Char := s.getD i '\x00'

/-- `while(s < es && strchr(whitespace, *s)) s++;` -/
def skipWhite (s : List Char) (i : Nat) : Nat :=
  if i < s.length ∧ (strchr whitespace (charAt s i)).isSome then skipWhite s (i + 1) else i
termination_by s.length - i

/-- gettoken の語の while: 空白でも記号でもない字の間、進む。 -/
def skipWord (s : List Char) (i : Nat) : Nat :=
  if i < s.length ∧ (strchr whitespace (charAt s i)).isNone ∧ (strchr symbols (charAt s i)).isNone then
    skipWord s (i + 1)
  else i
termination_by s.length - i

/-- `gettoken(ps, es, &q, &eq)`: 返すのは (ret, q, eq, 新しい *ps)。switch の case を if の列で
書く: NUL ならそのまま、一字の記号は一字進み、'>' は次も '>' なら '+'、ほかは語で 'a'。 -/
def gettoken (s : List Char) (i : Nat) : Char × Nat × Nat × Nat :=
  let q := skipWhite s i
  let c := charAt s q
  let r : Char × Nat :=
    if c = '\x00' then (c, q)
    else if c ∈ ['|', '(', ')', ';', '&', '<'] then (c, q + 1)
    else if c = '>' then (if charAt s (q + 1) = '>' then ('+', q + 2) else ('>', q + 1))
    else ('a', skipWord s q)
  (r.1, q, r.2, skipWhite s r.2)

/-- `peek(ps, es, toks)`: 次の字が toks にあるかと、新しい *ps。 -/
def peek (s : List Char) (i : Nat) (toks : List Char) : Bool × Nat :=
  let i := skipWhite s i
  (charAt s i != '\x00' && (strchr toks (charAt s i)).isSome, i)

/-! ## 空白と語を飛ばす -/

variable {s : List Char} {i : Nat}

theorem charAt_of_le (h : s.length ≤ i) : charAt s i = '\x00' := by
  simp [charAt, List.getD_eq_getElem?_getD, List.getElem?_eq_none h]

theorem lt_of_charAt_ne (h : charAt s i ≠ '\x00') : i < s.length := by
  by_contra hi
  exact h (charAt_of_le (Nat.le_of_not_lt hi))

theorem mem_whitespace_iff {c : Char} : (strchr whitespace c).isSome ↔ c ∈ whitespace :=
  strchr_isSome_iff (by decide)

theorem mem_symbols_iff {c : Char} : (strchr symbols c).isSome ↔ c ∈ symbols :=
  strchr_isSome_iff (by decide)

theorem le_skipWhite (s : List Char) (i : Nat) : i ≤ skipWhite s i := by
  fun_induction skipWhite s i with
  | case1 i _ ih => omega
  | case2 => exact Nat.le_refl _

theorem skipWhite_le (h : i ≤ s.length) : skipWhite s i ≤ s.length := by
  fun_induction skipWhite s i with
  | case1 i hi ih => exact ih hi.1
  | case2 => exact h

/-- 空白を飛ばした所は行の終わりか、空白でない字。 -/
theorem skipWhite_stop (h : skipWhite s i < s.length) : charAt s (skipWhite s i) ∉ whitespace := by
  fun_induction skipWhite s i with
  | case1 i _ ih => exact ih h
  | case2 i hi =>
    intro hw
    exact hi ⟨h, mem_whitespace_iff.mpr hw⟩

theorem skipWhite_idem (s : List Char) (i : Nat) : skipWhite s (skipWhite s i) = skipWhite s i := by
  fun_induction skipWhite s i with
  | case1 i _ ih => exact ih
  | case2 i hi =>
    rw [skipWhite, if_neg hi]

theorem le_skipWord (s : List Char) (i : Nat) : i ≤ skipWord s i := by
  fun_induction skipWord s i with
  | case1 i _ ih => omega
  | case2 => exact Nat.le_refl _

theorem skipWord_le (h : i ≤ s.length) : skipWord s i ≤ s.length := by
  fun_induction skipWord s i with
  | case1 i hi ih => exact ih hi.1
  | case2 => exact h

/-- 語の字: 空白でも記号でもない字。 -/
def wordChar (c : Char) : Prop := c ∉ whitespace ∧ c ∉ symbols

/-- 語は、飛ばした字がどれも語の字で、止まった所は行の終わりか語の字でない字。 -/
theorem skipWord_spec (s : List Char) (i : Nat) :
    (∀ k, i ≤ k → k < skipWord s i → wordChar (charAt s k)) ∧
      (skipWord s i < s.length → ¬ wordChar (charAt s (skipWord s i))) := by
  fun_induction skipWord s i with
  | case1 i hi ih =>
    refine ⟨fun k hk hk' => ?_, ih.2⟩
    rcases Nat.eq_or_lt_of_le hk with rfl | hk
    · simp only [Option.isNone_iff_eq_none, ← Option.not_isSome_iff_eq_none, mem_whitespace_iff,
        mem_symbols_iff] at hi
      exact ⟨hi.2.1, hi.2.2⟩
    · exact ih.1 k hk hk'
  | case2 i hi =>
    refine ⟨fun k hk hk' => absurd hk' (by omega), fun h hw => hi ⟨h, ?_, ?_⟩⟩
    · simpa [← Option.not_isSome_iff_eq_none, mem_whitespace_iff] using hw.1
    · simpa [← Option.not_isSome_iff_eq_none, mem_symbols_iff] using hw.2

theorem lt_skipWord (h : i < s.length) (hw : wordChar (charAt s i)) : i < skipWord s i := by
  rw [skipWord, if_pos]
  · exact Nat.lt_of_lt_of_le (Nat.lt_succ_self i) (le_skipWord s (i + 1))
  · refine ⟨h, ?_, ?_⟩
    · simpa [← Option.not_isSome_iff_eq_none, mem_whitespace_iff] using hw.1
    · simpa [← Option.not_isSome_iff_eq_none, mem_symbols_iff] using hw.2

/-! ## gettoken -/

/-- 一字の記号は NUL でも、語の印 'a' でも、`>>` の印 '+' でもない。 -/
theorem ne_of_mem_single {c : Char} (hc : c ∈ ['|', '(', ')', ';', '&', '<']) :
    c ≠ '\x00' ∧ c ≠ 'a' ∧ c ≠ '+' := by
  simp only [List.mem_cons, List.not_mem_nil, or_false] at hc
  rcases hc with h | h | h | h | h | h <;> rw [h] <;> decide

/-- gettoken の ret と eq は、空白を飛ばした所 q の字で決まる。 -/
theorem gettoken_cases (s : List Char) (i : Nat) :
    (charAt s (skipWhite s i) = '\x00' ∧ (gettoken s i).1 = '\x00' ∧
        (gettoken s i).2.2.1 = skipWhite s i) ∨
    (charAt s (skipWhite s i) ∈ ['|', '(', ')', ';', '&', '<'] ∧
        (gettoken s i).1 = charAt s (skipWhite s i) ∧ (gettoken s i).2.2.1 = skipWhite s i + 1) ∨
    (charAt s (skipWhite s i) = '>' ∧ charAt s (skipWhite s i + 1) = '>' ∧
        (gettoken s i).1 = '+' ∧ (gettoken s i).2.2.1 = skipWhite s i + 2) ∨
    (charAt s (skipWhite s i) = '>' ∧ charAt s (skipWhite s i + 1) ≠ '>' ∧
        (gettoken s i).1 = '>' ∧ (gettoken s i).2.2.1 = skipWhite s i + 1) ∨
    (charAt s (skipWhite s i) ≠ '\x00' ∧ wordChar (charAt s (skipWhite s i)) ∧
        (gettoken s i).1 = 'a' ∧ (gettoken s i).2.2.1 = skipWord s (skipWhite s i)) := by
  simp only [gettoken]
  split_ifs with h0 h1 h2 h3
  · exact .inl ⟨h0, h0, rfl⟩
  · exact .inr (.inl ⟨h1, rfl, rfl⟩)
  · exact .inr (.inr (.inl ⟨h2, h3, rfl, rfl⟩))
  · exact .inr (.inr (.inr (.inl ⟨h2, h3, rfl, rfl⟩)))
  · -- 語: 空白は飛ばしてあり、記号はどれも前の場合にある
    refine .inr (.inr (.inr (.inr ⟨h0, ⟨?_, ?_⟩, rfl, rfl⟩)))
    · exact skipWhite_stop (lt_of_charAt_ne h0)
    · intro hs
      simp only [symbols, List.mem_cons, List.not_mem_nil, or_false] at hs h1
      tauto

theorem gettoken_ps (s : List Char) (i : Nat) : (gettoken s i).2.2.2 = skipWhite s (gettoken s i).2.2.1 :=
  rfl

theorem gettoken_q (s : List Char) (i : Nat) : (gettoken s i).2.1 = skipWhite s i := rfl

theorem le_gettoken_eq (s : List Char) (i : Nat) : skipWhite s i ≤ (gettoken s i).2.2.1 := by
  have := le_skipWord s (skipWhite s i)
  rcases gettoken_cases s i with ⟨-, -, h⟩ | ⟨-, -, h⟩ | ⟨-, -, -, h⟩ | ⟨-, -, -, h⟩ | ⟨-, -, -, h⟩ <;> omega

theorem le_gettoken (s : List Char) (i : Nat) : i ≤ (gettoken s i).2.2.2 := by
  rw [gettoken_ps]
  exact Nat.le_trans (le_skipWhite s i) (Nat.le_trans (le_gettoken_eq s i) (le_skipWhite s _))

/-- 字句があれば、その語か記号は q から始まって行の中で終わり、gettoken は前へ進む。 -/
theorem gettoken_progress (h : (gettoken s i).1 ≠ '\x00') :
    skipWhite s i < (gettoken s i).2.2.1 ∧ (gettoken s i).2.2.1 ≤ s.length ∧
      i < (gettoken s i).2.2.2 ∧ (gettoken s i).2.2.2 ≤ s.length := by
  have hi := le_skipWhite s i
  have he : skipWhite s i < (gettoken s i).2.2.1 ∧ (gettoken s i).2.2.1 ≤ s.length := by
    rcases gettoken_cases s i with ⟨-, h', -⟩ | ⟨hc, -, he⟩ | ⟨-, hc, -, he⟩ | ⟨hc, -, -, he⟩ | ⟨hc, hw, -, he⟩
    · exact absurd h' h
    · have := lt_of_charAt_ne (s := s) (i := skipWhite s i) (ne_of_mem_single hc).1
      omega
    · have := lt_of_charAt_ne (s := s) (by rw [hc]; decide)
      omega
    · have := lt_of_charAt_ne (s := s) (i := skipWhite s i) (by rw [hc]; decide)
      omega
    · have hq := lt_of_charAt_ne hc
      rw [he]
      exact ⟨lt_skipWord hq hw, skipWord_le (Nat.le_of_lt hq)⟩
  refine ⟨he.1, he.2, ?_, ?_⟩
  · rw [gettoken_ps]
    exact Nat.lt_of_lt_of_le (Nat.lt_of_le_of_lt hi he.1) (le_skipWhite s _)
  · rw [gettoken_ps]
    exact skipWhite_le he.2

theorem gettoken_skipWhite (s : List Char) (i : Nat) : gettoken s (skipWhite s i) = gettoken s i := by
  simp only [gettoken, skipWhite_idem]

/-- gettoken が 0 を返すのは、空白を飛ばした所の字が NUL のとき。 -/
theorem gettoken_eq_nul_iff : (gettoken s i).1 = '\x00' ↔ charAt s (skipWhite s i) = '\x00' := by
  rcases gettoken_cases s i with ⟨hc, hr, -⟩ | ⟨hc, hr, -⟩ | ⟨hc, -, hr, -⟩ | ⟨hc, -, hr, -⟩ | ⟨hc, -, hr, -⟩
  · exact ⟨fun _ => hc, fun _ => hr⟩
  · rw [hr]
  · rw [hr, hc]
    decide
  · rw [hr, hc]
  · rw [hr]
    exact ⟨fun h => absurd h (by decide), fun h => absurd h hc⟩

theorem charAt_ne_nul (h0 : '\x00' ∉ s) (h : i < s.length) : charAt s i ≠ '\x00' := by
  have hget : s.getD i '\x00' = s[i] := (List.getElem_eq_getD '\x00').symm
  rw [charAt, hget]
  exact fun he => h0 (he ▸ List.getElem_mem h)

/-! ## 字句の列 -/

/-- 字句: 記号（`>>` は '+'）か、位置 q から eq の前までの語。 -/
inductive Token where
  | sym (c : Char)
  | word (q eq : Nat)
  deriving DecidableEq, Repr

/-- gettoken の ret、q、eq の字句。 -/
def tokenOf (ret : Char) (q e : Nat) : Token := if ret = 'a' then .word q e else .sym ret

/-- gettoken を 0 を返すまで繰り返して得る字句の列。 -/
def lexFrom (s : List Char) (i : Nat) : List Token :=
  if h : (gettoken s i).1 = '\x00' then []
  else tokenOf (gettoken s i).1 (gettoken s i).2.1 (gettoken s i).2.2.1 :: lexFrom s (gettoken s i).2.2.2
termination_by s.length - i
decreasing_by
  have := gettoken_progress h
  omega

theorem lexFrom_of_nul (h : (gettoken s i).1 = '\x00') : lexFrom s i = [] := by
  rw [lexFrom, dif_pos h]

theorem lexFrom_of_gettoken (h : (gettoken s i).1 ≠ '\x00') :
    lexFrom s i = tokenOf (gettoken s i).1 (gettoken s i).2.1 (gettoken s i).2.2.1 ::
      lexFrom s (gettoken s i).2.2.2 := by
  rw [lexFrom, dif_neg h]

theorem lexFrom_skipWhite (s : List Char) (i : Nat) : lexFrom s (skipWhite s i) = lexFrom s i := by
  by_cases h : (gettoken s i).1 = '\x00'
  · rw [lexFrom_of_nul (by rw [gettoken_skipWhite]; exact h), lexFrom_of_nul h]
  · rw [lexFrom_of_gettoken (by rw [gettoken_skipWhite]; exact h), lexFrom_of_gettoken h, gettoken_skipWhite]

/-- 行の終わりまで空白なら、もう字句はない。 -/
theorem lexFrom_eq_nil_iff (h0 : '\x00' ∉ s) (hi : i ≤ s.length) :
    lexFrom s i = [] ↔ skipWhite s i = s.length := by
  constructor
  · intro h
    have hnul : (gettoken s i).1 = '\x00' := by
      by_contra hne
      rw [lexFrom_of_gettoken hne] at h
      cases h
    have hc := gettoken_eq_nul_iff.mp hnul
    have hle := skipWhite_le hi
    by_contra hne
    exact charAt_ne_nul h0 (by omega) hc
  · intro h
    exact lexFrom_of_nul (gettoken_eq_nul_iff.mpr (charAt_of_le (Nat.le_of_eq h.symm)))

/-- 字句の列の語は、行の中の空でない語の字の並びで、その後ろは行の終わりか語の字でない字。 -/
theorem word_of_mem_lexFrom {q e : Nat} (h : Token.word q e ∈ lexFrom s i) :
    q < e ∧ e ≤ s.length ∧ (∀ k, q ≤ k → k < e → wordChar (charAt s k)) ∧
      (e < s.length → ¬ wordChar (charAt s e)) := by
  fun_induction lexFrom s i with
  | case1 i hnul => cases h
  | case2 i hnul ih =>
    rcases List.mem_cons.mp h with hw | hw
    · -- 語の字句を返すのは語の場合だけ
      rcases gettoken_cases s i with ⟨-, hr, -⟩ | ⟨hc, hr, -⟩ | ⟨-, -, hr, -⟩ | ⟨-, -, hr, -⟩ |
          ⟨hc, hwc, hr, he⟩
      · exact absurd hr hnul
      · rw [hr, tokenOf, if_neg (ne_of_mem_single hc).2.1] at hw
        cases hw
      · rw [hr] at hw
        cases hw
      · rw [hr] at hw
        cases hw
      · rw [hr, tokenOf, if_pos rfl, gettoken_q, he] at hw
        cases hw
        have hq := lt_of_charAt_ne hc
        exact ⟨lt_skipWord hq hwc, skipWord_le (Nat.le_of_lt hq), (skipWord_spec s _).1,
          (skipWord_spec s _).2⟩
    · exact ih hw

/-- 記号の字句が toks の字で始まるか。`>>` の最初の字は '>'。 -/
def nextIn : List Token → List Char → Bool
  | .sym c :: _, toks => decide ((if c = '+' then '>' else c) ∈ toks)
  | _, _ => false

/-- peek は、次の字句が toks の記号で始まるかを見る。toks は記号の字だけからなる。 -/
theorem peek_eq {toks : List Char} (htoks : ∀ c ∈ toks, c ∈ symbols) (s : List Char) (i : Nat) :
    peek s i toks = (nextIn (lexFrom s i) toks, skipWhite s i) := by
  have h0 : '\x00' ∉ toks := fun h => by simpa [symbols] using htoks _ h
  have hsome : ∀ c, (strchr toks c).isSome = decide (c ∈ toks) := fun c => by
    by_cases hc : c ∈ toks
    · rw [(strchr_isSome_iff h0).mpr hc, decide_eq_true hc]
    · rw [decide_eq_false hc]
      exact Bool.eq_false_iff.mpr fun h => hc ((strchr_isSome_iff h0).mp h)
  simp only [peek, Prod.mk.injEq, and_true]
  rcases gettoken_cases s i with ⟨hc, hr, -⟩ | ⟨hc, hr, -⟩ | ⟨hc, -, hr, -⟩ | ⟨hc, -, hr, -⟩ | ⟨hc, hw, hr, -⟩
  · rw [lexFrom_of_nul hr, hc]
    rfl
  · obtain ⟨hne, ha, hp⟩ := ne_of_mem_single hc
    rw [lexFrom_of_gettoken (by rw [hr]; exact hne), hr]
    simp [nextIn, tokenOf, ha, hp, hne, hsome]
  · rw [lexFrom_of_gettoken (by rw [hr]; decide), hr, hc]
    simp [nextIn, tokenOf, hsome]
  · rw [lexFrom_of_gettoken (by rw [hr]; decide), hr, hc]
    simp [nextIn, tokenOf, hsome]
  · -- 語の字は記号でないので toks にない
    have hn : charAt s (skipWhite s i) ∉ toks := fun h => hw.2 (htoks _ h)
    rw [lexFrom_of_gettoken (by rw [hr]; decide), hr]
    simp [nextIn, tokenOf, hsome, hn]

/-! ## gettoken と字句の列 -/

theorem gettoken_eq_of_nul (h : (gettoken s i).1 = '\x00') : (gettoken s i).2.2.2 = skipWhite s i := by
  have hc := gettoken_eq_nul_iff.mp h
  simp [gettoken, hc, skipWhite_idem]

theorem gettoken_le (h : i ≤ s.length) : (gettoken s i).2.2.2 ≤ s.length := by
  by_cases hn : (gettoken s i).1 = '\x00'
  · rw [gettoken_eq_of_nul hn]
    exact skipWhite_le h
  · exact (gettoken_progress hn).2.2.2

@[simp]
theorem lexFrom_peek (s : List Char) (i : Nat) (toks : List Char) :
    lexFrom s (peek s i toks).2 = lexFrom s i :=
  lexFrom_skipWhite s i

@[simp]
theorem tokenOf_eq_sym_iff {ret c : Char} {q e : Nat} : tokenOf ret q e = .sym c ↔ ret ≠ 'a' ∧ ret = c := by
  by_cases h : ret = 'a' <;> simp [tokenOf, h]

@[simp]
theorem tokenOf_eq_word_iff {ret : Char} {q e q' e' : Nat} :
    tokenOf ret q e = .word q' e' ↔ ret = 'a' ∧ q = q' ∧ e = e' := by
  by_cases h : ret = 'a' <;> simp [tokenOf, h]

/-- 字句の列が t で始まれば、gettoken はその t を読み、残りは進んだ位置からの字句の列。 -/
theorem gettoken_of_lexFrom_cons {t : Token} {ts : List Token} (h : lexFrom s i = t :: ts) :
    (gettoken s i).1 ≠ '\x00' ∧ tokenOf (gettoken s i).1 (gettoken s i).2.1 (gettoken s i).2.2.1 = t ∧
      lexFrom s (gettoken s i).2.2.2 = ts := by
  have hne : (gettoken s i).1 ≠ '\x00' := fun hn => by
    rw [lexFrom_of_nul hn] at h
    cases h
  rw [lexFrom_of_gettoken hne, List.cons.injEq] at h
  exact ⟨hne, h.1, h.2⟩

/-- 字句が尽きていれば、gettoken は 0 を返し、その後も字句はない。 -/
theorem gettoken_of_lexFrom_nil (h : lexFrom s i = []) :
    (gettoken s i).1 = '\x00' ∧ lexFrom s (gettoken s i).2.2.2 = [] := by
  have hn : (gettoken s i).1 = '\x00' := by
    by_contra hne
    rw [lexFrom_of_gettoken hne] at h
    cases h
  refine ⟨hn, ?_⟩
  rw [gettoken_eq_of_nul hn, lexFrom_skipWhite]
  exact h

end Xv6.Sh
