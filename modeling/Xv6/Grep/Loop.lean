import Mathlib.Tactic.NthRewrite
import Mathlib.Tactic.Set
import Mathlib.Tactic.SplitIfs
import Xv6.Grep.Basic
import Xv6.Str.Strchr

/-!
# grep の読み出しの繰り返し（`user/grep.c` の grep）

grep は 1024 バイトの `buf` に入力を読み、`strchr` で '\n' を探して行を切り出す。'\n' で
終わっていない最後の行は `memmove` で `buf` の先頭へ寄せ、次の `read` はその後ろに
`sizeof(buf)-m-1` バイトまでを求める。

`buf` の先頭 m バイトは列で表し、`buf[m] = '\0'` は列の終わりにあたる。入力はバイトの列で、
`read` がいくつずつ返すかは `chunk` が選ぶ。

行が '\n' を付けて 1023 バイトに収まり NUL を含まなければ、その行までは、どう区切って
読まれても正しく書かれる（`grep_eq_takeWhile`）。そうでない最初の行から後ろは何も書かれない。
`buf` が '\n' のない 1023 バイトで埋まると `read` に 0 バイトを求めて繰り返しが終わり、
NUL があると `strchr` がそこで止まるからである。
-/

namespace Xv6.Grep

open Xv6.Ulib

/-! ## 行 -/

/-- s の '\n' で終わる行を順に。最後の '\n' の後ろの、終わっていない行は含まない。 -/
def lines (s : List Char) : List (List Char) := (s.splitOn '\n').dropLast

/-- 行を、それぞれ '\n' を付けてつなげる。 -/
def joinLines (ls : List (List Char)) : List Char := ls.flatMap (· ++ ['\n'])

/-- grep が書くもの: pattern に当たる行を、それぞれ '\n' を付けて順に。 -/
def render (pattern : List Char) (ls : List (List Char)) : List Char :=
  joinLines (ls.filter («match» pattern))

/-- grep がするはずのこと: 入力の '\n' で終わる行のうち、pattern に当たるものを全部書く。 -/
def grepSpec (pattern input : List Char) : List Char := render pattern (lines input)

/-- 行が '\n' を付けて `buf` の 1023 バイトに収まり、NUL を含まない。 -/
def fits (l : List Char) : Bool := decide (l.length + 1 < 1024 ∧ '\x00' ∉ l)

theorem lines_line_append {l : List Char} (hl : '\n' ∉ l) (s : List Char) :
    lines (l ++ '\n' :: s) = l :: lines s := by
  have hp : ∀ x ∈ l, (x == '\n') = false := fun x hx => by
    rw [beq_eq_false_iff_ne]
    exact fun he => hl (he ▸ hx)
  unfold lines List.splitOn
  rw [List.splitOnP_append_cons_of_forall_mem hp _ (beq_self_eq_true _),
    List.dropLast_cons_of_ne_nil (List.splitOnP_ne_nil _ _)]

theorem lines_of_not_mem {s : List Char} (hs : '\n' ∉ s) : lines s = [] := by
  have hp : ∀ x ∈ s, (x == '\n') = false := fun x hx => by
    rw [beq_eq_false_iff_ne]
    exact fun he => hs (he ▸ hx)
  unfold lines List.splitOn
  rw [List.splitOnP_eq_singleton hp]
  rfl

theorem lines_joinLines_append {ls : List (List Char)} (h : ∀ l ∈ ls, '\n' ∉ l) (s : List Char) :
    lines (joinLines ls ++ s) = ls ++ lines s := by
  induction ls with
  | nil => rfl
  | cons l ls ih =>
    have hs : joinLines (l :: ls) ++ s = l ++ '\n' :: (joinLines ls ++ s) := by
      simp [joinLines]
    rw [hs, lines_line_append (h l List.mem_cons_self), ih fun l' hl' => h l' (List.mem_cons_of_mem l hl')]
    rfl

theorem exists_first_newline : ∀ {s : List Char}, '\n' ∈ s → ∃ s₁ s₂, s = s₁ ++ '\n' :: s₂ ∧ '\n' ∉ s₁
  | x :: s, h => by
    by_cases hx : x = '\n'
    · exact ⟨[], s, by rw [hx]; rfl, List.not_mem_nil⟩
    · have hs : '\n' ∈ s := (List.mem_cons.mp h).resolve_left (Ne.symm hx)
      obtain ⟨s₁, s₂, rfl, h₁⟩ := exists_first_newline hs
      refine ⟨x :: s₁, s₂, rfl, ?_⟩
      simp only [List.mem_cons, not_or]
      exact ⟨Ne.symm hx, h₁⟩

/-- '\n' を含まない l の後ろに何が続いても、最初の行は l で始まる。 -/
theorem lines_append_of_not_mem {l : List Char} (hl : '\n' ∉ l) (s : List Char) :
    lines (l ++ s) = [] ∨ ∃ l' ls, lines (l ++ s) = (l ++ l') :: ls := by
  by_cases hs : '\n' ∈ s
  · obtain ⟨s₁, s₂, rfl, h₁⟩ := exists_first_newline hs
    refine .inr ⟨s₁, lines s₂, ?_⟩
    rw [← List.append_assoc]
    exact lines_line_append (by simp [hl, h₁]) s₂
  · exact .inl (lines_of_not_mem (by simp [hl, hs]))

theorem length_le_joinLines {ls : List (List Char)} {l : List Char} (hl : l ∈ ls) :
    l.length + 1 ≤ (joinLines ls).length := by
  induction ls with
  | nil => cases hl
  | cons l' ls ih =>
    simp only [joinLines, List.flatMap_cons, List.length_append, List.length_singleton] at ih ⊢
    rcases List.mem_cons.mp hl with rfl | hl
    · omega
    · have := ih hl
      omega

theorem render_append (pattern : List Char) (ls ls' : List (List Char)) :
    render pattern (ls ++ ls') = render pattern ls ++ render pattern ls' := by
  simp [render, joinLines, List.filter_append, List.flatMap_append]

theorem render_cons (pattern l : List Char) (ls : List (List Char)) :
    render pattern (l :: ls) = (if «match» pattern l then l ++ ['\n'] else []) ++ render pattern ls := by
  by_cases h : «match» pattern l <;> simp [render, joinLines, h]

/-! ## 内側の while -/

/-- grep の内側の while: p から '\n' を探しては、その行が当たれば '\n' を付けて書く。返すのは
'\n' が見つからなくなったところからの残りと、書いた後の出力。 -/
def grepLines (pattern p out : List Char) : List Char × List Char :=
  match h : strchr p '\n' with
  | none => (p, out)
  | some q =>
    -- `*q = 0` の後の `match(pattern, p)` は、q より前の行を見る
    let out := if «match» pattern (p.take q) then out ++ (p.take q ++ ['\n']) else out
    grepLines pattern (p.drop (q + 1)) out
termination_by p.length
decreasing_by
  obtain ⟨l, r, rfl, rfl, -⟩ := strchr_eq_some h
  simp only [List.length_drop, List.length_append, List.length_cons]
  omega

theorem grepLines_none {pattern p out : List Char} (h : strchr p '\n' = none) :
    grepLines pattern p out = (p, out) := by
  rw [grepLines]
  split <;> simp_all

theorem grepLines_some {pattern p out : List Char} {q : Nat} (h : strchr p '\n' = some q) :
    grepLines pattern p out = grepLines pattern (p.drop (q + 1))
      (if «match» pattern (p.take q) then out ++ (p.take q ++ ['\n']) else out) := by
  rw [grepLines]
  split <;> simp_all

/-- 内側の while は、p の先頭の NUL のない行 ls を順に調べ、当たるものを書く。残りには
（NUL より前に）'\n' がない。 -/
theorem grepLines_spec (pattern p out : List Char) : ∃ ls,
    p = joinLines ls ++ (grepLines pattern p out).1 ∧ (∀ l ∈ ls, '\n' ∉ l ∧ '\x00' ∉ l) ∧
      strchr (grepLines pattern p out).1 '\n' = none ∧
      (grepLines pattern p out).2 = out ++ render pattern ls := by
  cases hq : strchr p '\n' with
  | none =>
    rw [grepLines_none hq]
    exact ⟨[], rfl, by simp, hq, by simp [render, joinLines]⟩
  | some q =>
    obtain ⟨l, r, rfl, rfl, hnl, h0l⟩ := strchr_eq_some hq
    have htake : (l ++ '\n' :: r).take l.length = l := by simp
    have hdrop : (l ++ '\n' :: r).drop (l.length + 1) = r := by simp
    rw [grepLines_some hq, htake, hdrop]
    obtain ⟨ls, hr, hls, hrest, hout⟩ :=
      grepLines_spec pattern r (if «match» pattern l then out ++ (l ++ ['\n']) else out)
    refine ⟨l :: ls, ?_, ?_, hrest, ?_⟩
    · nth_rewrite 1 [hr]
      simp [joinLines]
    · intro l' hl'
      rcases List.mem_cons.mp hl' with rfl | hl'
      · exact ⟨hnl, h0l⟩
      · exact hls l' hl'
    · rw [hout, render_cons]
      split_ifs <;> simp
termination_by p.length
decreasing_by
  subst_vars
  simp only [List.length_append, List.length_cons]
  omega

/-! ## 外側の while -/

/-- k 番目の `read(fd, buf+m, want)` が返すバイト数。求めた want バイトも、まだ読んでいない
avail バイトも超えず、どちらも正なら 1 以上で、いくつかは `chunk k` が選ぶ。 -/
def readCount (chunk : Nat → Nat) (k want avail : Nat) : Nat := min (max 1 (chunk k)) (min want avail)

theorem readCount_le (chunk : Nat → Nat) (k want avail : Nat) :
    readCount chunk k want avail ≤ want ∧ readCount chunk k want avail ≤ avail := by
  simp only [readCount]
  omega

theorem readCount_eq_zero {chunk : Nat → Nat} {k want avail : Nat} :
    readCount chunk k want avail = 0 ↔ want = 0 ∨ avail = 0 := by
  simp only [readCount]
  omega

/-- grep の外の while。buf は `buf` の先頭 m バイト、input はまだ読んでいない入力、k はそれまでの
`read` の数、out は fd 1 へ書いたもの。 -/
def grepLoop (pattern : List Char) (chunk : Nat → Nat) (k : Nat) (buf input out : List Char) :
    List Char :=
  let n := readCount chunk k (1024 - buf.length - 1) input.length
  if 0 < n then
    -- `m += n; buf[m] = '\0';` の後で内側の while。m > 0 なので、残りを `memmove` で先頭へ寄せる
    let r := grepLines pattern (buf ++ input.take n) out
    grepLoop pattern chunk (k + 1) r.1 (input.drop n) r.2
  else out
termination_by input.length
decreasing_by
  have := (readCount_le chunk k (1024 - buf.length - 1) input.length).2
  simp only [List.length_drop]
  omega

/-- `grep(pattern, fd)`: m = 0 で始め、fd 1 へ書いたものを返す。 -/
def grep (pattern : List Char) (chunk : Nat → Nat) (input : List Char) : List Char :=
  grepLoop pattern chunk 0 [] input []

theorem grepLoop_stop {pattern : List Char} {chunk : Nat → Nat} {k : Nat} {buf input out : List Char}
    (h : readCount chunk k (1024 - buf.length - 1) input.length = 0) :
    grepLoop pattern chunk k buf input out = out := by
  rw [grepLoop]
  simp [h]

theorem grepLoop_read {pattern : List Char} {chunk : Nat → Nat} {k : Nat} {buf input out : List Char}
    (h : 0 < readCount chunk k (1024 - buf.length - 1) input.length) :
    grepLoop pattern chunk k buf input out =
      let n := readCount chunk k (1024 - buf.length - 1) input.length
      let r := grepLines pattern (buf ++ input.take n) out
      grepLoop pattern chunk (k + 1) r.1 (input.drop n) r.2 := by
  rw [grepLoop]
  simp only [if_pos h]

/-- `read` が 0 を返して止まるとき、残りに書かれるはずの行はない: 入力が尽きたか、buf が
'\n' のない 1023 バイトで埋まったか、buf の行に NUL がある。 -/
theorem takeWhile_fits_eq_nil {buf input : List Char} (hb : strchr buf '\n' = none)
    (hstop : 1023 ≤ buf.length ∨ input = []) : (lines (buf ++ input)).takeWhile fits = [] := by
  rcases strchr_eq_none hb with ⟨hnl, h0⟩ | ⟨l, r, rfl, hnl⟩
  · rcases hstop with hlen | rfl
    · rcases lines_append_of_not_mem hnl input with h | ⟨l', ls, h⟩
      · rw [h]
        rfl
      · have hfit : fits (buf ++ l') = false := by
          simp only [fits, List.length_append, decide_eq_false_iff_not, not_and]
          omega
        rw [h, List.takeWhile_cons_of_neg (by simp [hfit])]
    · rw [List.append_nil, lines_of_not_mem hnl]
      rfl
  · -- 最初の行は NUL を含む
    have hnl' : '\n' ∉ l ++ ['\x00'] := by simp [hnl]
    have he : l ++ '\x00' :: r ++ input = (l ++ ['\x00']) ++ (r ++ input) := by simp
    rw [he]
    rcases lines_append_of_not_mem hnl' (r ++ input) with h | ⟨l', ls, h⟩
    · rw [h]
      rfl
    · rw [h, List.takeWhile_cons_of_neg (by simp [fits])]

/-- 外側の while は、buf の行から始めて、収まる行が続く間の行のうち当たるものを書く。buf は
1024 バイトより短く、（NUL より前に）'\n' を含まない。 -/
theorem grepLoop_eq (pattern : List Char) (chunk : Nat → Nat) (k : Nat) (buf input out : List Char)
    (hlen : buf.length < 1024) (hb : strchr buf '\n' = none) :
    grepLoop pattern chunk k buf input out =
      out ++ render pattern ((lines (buf ++ input)).takeWhile fits) := by
  by_cases hn : readCount chunk k (1024 - buf.length - 1) input.length = 0
  · -- read が 0 を返す
    rw [grepLoop_stop hn, takeWhile_fits_eq_nil hb ?_]
    · simp [render, joinLines]
    · rcases readCount_eq_zero.mp hn with hw | hi
      · exact .inl (by omega)
      · exact .inr (List.length_eq_zero_iff.mp hi)
  · rw [grepLoop_read (Nat.pos_of_ne_zero hn)]
    set n := readCount chunk k (1024 - buf.length - 1) input.length with hn_def
    have hnle := readCount_le chunk k (1024 - buf.length - 1) input.length
    rw [← hn_def] at hnle
    obtain ⟨ls, hsplit, hls, hrest, hout⟩ := grepLines_spec pattern (buf ++ input.take n) out
    set r := grepLines pattern (buf ++ input.take n) out
    -- 読んだ後の buf も、内側の while の残りも 1024 バイトより短い
    have hbuf : (joinLines ls ++ r.1).length < 1024 := by
      rw [← hsplit]
      simp only [List.length_append, List.length_take]
      omega
    have hrlen : r.1.length < 1024 := by
      simp only [List.length_append] at hbuf
      omega
    rw [grepLoop_eq pattern chunk (k + 1) r.1 (input.drop n) r.2 hrlen hrest, hout]
    -- 調べた行 ls はどれも収まる
    have hfits : ∀ l ∈ ls, fits l = true := by
      intro l hl
      have hle := length_le_joinLines hl
      simp only [List.length_append] at hbuf
      simp only [fits, decide_eq_true_eq]
      exact ⟨by omega, (hls l hl).2⟩
    have hin : buf ++ input = joinLines ls ++ (r.1 ++ input.drop n) := by
      rw [← List.append_assoc, ← hsplit, List.append_assoc, List.take_append_drop]
    rw [hin, lines_joinLines_append (fun l hl => (hls l hl).1), List.takeWhile_append_of_pos hfits,
      render_append, List.append_assoc]
termination_by input.length
decreasing_by
  simp only [List.length_drop]
  omega

/-- grep は、どう区切って読まれても、収まる行が続く間の '\n' で終わる行のうち、pattern に
当たるものを順に書く。 -/
theorem grep_eq_takeWhile (pattern : List Char) (chunk : Nat → Nat) (input : List Char) :
    grep pattern chunk input = render pattern ((lines input).takeWhile fits) := by
  rw [grep, grepLoop_eq pattern chunk 0 [] input [] (by decide) rfl]
  rfl

/-- どの行も収まれば、grep は当たる行を全部書く。 -/
theorem grep_eq_grepSpec {input : List Char} (h : ∀ l ∈ lines input, fits l = true)
    (pattern : List Char) (chunk : Nat → Nat) : grep pattern chunk input = grepSpec pattern input := by
  have hall : (lines input).takeWhile fits = lines input := by
    simpa using @List.takeWhile_append_of_pos _ fits (lines input) [] h
  rw [grep_eq_takeWhile, hall]
  rfl

/-- 一行だけの入力を一バイトずつ読む grep。 -/
theorem grep_eq_grepSpec_oneLine : grep ['a'] (fun _ => 1) ['a', '\n'] = grepSpec ['a'] ['a', '\n'] :=
  grep_eq_grepSpec (fun l hl => by
    rw [show ['a', '\n'] = ['a'] ++ '\n' :: [] from rfl, lines_line_append (by decide),
      show lines [] = [] from rfl, List.mem_singleton] at hl
    rw [hl]
    rfl) _ _

/-- 1023 文字の行の後に、もう一行。 -/
def longInput : List Char := List.replicate 1023 'a' ++ '\n' :: ['a', '\n']

theorem match_a_cons (t : List Char) : «match» ['a'] ('a' :: t) = true := by
  have hhere : matchhere ['a'] ('a' :: t) = true := by
    rw [matchhere_cons (by simp) (by decide), matchhere_nil]
    rfl
  simp [«match», matchLoop, hhere]

/-- 1023 文字の行は、どう区切って読まれても `buf` を '\n' なしで埋め、grep はその行も
後ろの行も書かない。 -/
theorem grep_drops_long_line (chunk : Nat → Nat) :
    grep ['a'] chunk longInput = [] ∧ grepSpec ['a'] longInput = longInput := by
  have hnl : '\n' ∉ List.replicate 1023 'a' := fun h => absurd (List.mem_replicate.mp h).2 (by decide)
  have hlines : lines longInput = [List.replicate 1023 'a', ['a']] := by
    rw [longInput, lines_line_append hnl, show ['a', '\n'] = ['a'] ++ '\n' :: [] from rfl,
      lines_line_append (by decide)]
    rfl
  -- 最初の行は '\n' を付けると 1024 バイトで、収まらない
  have hfit : fits (List.replicate 1023 'a') = false := by
    simp only [fits, List.length_replicate, decide_eq_false_iff_not, not_and]
    intro h
    omega
  have hm : «match» ['a'] (List.replicate 1023 'a') = true := by
    rw [List.replicate_succ]
    exact match_a_cons _
  constructor
  · rw [grep_eq_takeWhile, hlines, List.takeWhile_cons_of_neg (by rw [hfit]; decide)]
    rfl
  · rw [grepSpec, hlines, render_cons, render_cons, hm, match_a_cons]
    simp only [if_true, longInput, List.append_assoc]
    rfl

end Xv6.Grep
