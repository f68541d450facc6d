import Xv6.Sh.Lex

/-!
# sh の構文解析（`user/sh.c` の parsecmd から nulterminate まで）

再帰下降の関数は、行 s と位置 `*ps` を受け取り、木と進んだ後の `*ps` を返す。`none` は panic。
返す位置は `{j // i ≤ j}` で、前へしか進まないことを型が持つ。parseline は parsepipe を、
parsepipe は parseexec を、parseexec は parseblock を同じ位置で呼び、parseblock は '(' を読んだ
後で parseline を呼ぶので、（残りの長さ, 関数の順位）が減る。

構文木は語を行の中の位置（`argv[i]` と `eargv[i]`、`file` と `efile`）で持つ。parseexec では
`ret` がリダイレクトに包まれた後も、`cmd` を通して同じ execcmd に argv が足される。そこで
parseexec は読んだリダイレクトを順に集め、最後に `wrapRedirs` で execcmd を包む。
-/

namespace Xv6.Sh

/-- `MAXARGS`。 -/
def MAXARGS : Nat := 10

/-- `kernel/fcntl.h` の `O_RDONLY`。 -/
def O_RDONLY : Nat := 0x000

/-- `kernel/fcntl.h` の `O_WRONLY`。 -/
def O_WRONLY : Nat := 0x001

/-- `kernel/fcntl.h` の `O_CREATE`。 -/
def O_CREATE : Nat := 0x200

/-- `kernel/fcntl.h` の `O_TRUNC`。 -/
def O_TRUNC : Nat := 0x400

/-- `redircmd(subcmd, file, efile, mode, fd)` の欄。 -/
structure Redir where
  file : Nat
  efile : Nat
  mode : Nat
  fd : Nat
  deriving DecidableEq, Repr

/-- 構文木: `struct execcmd`、`redircmd`、`pipecmd`、`listcmd`、`backcmd`。 -/
inductive Cmd where
  | exec (argv : List (Nat × Nat))
  | redir (cmd : Cmd) (r : Redir)
  | pipe (left right : Cmd)
  | list (left right : Cmd)
  | back (cmd : Cmd)
  deriving DecidableEq, Repr

/-- リダイレクトで順に包む: 先に読んだものほど内側。 -/
def wrapRedirs (rs : List Redir) (c : Cmd) : Cmd := rs.foldl .redir c

/-- parseredirs の `switch(tok)`。 -/
def redirOf (tok : Char) (q eq : Nat) : Option Redir :=
  if tok = '<' then some ⟨q, eq, O_RDONLY, 0⟩
  else if tok = '>' then some ⟨q, eq, O_WRONLY ||| O_CREATE ||| O_TRUNC, 1⟩
  else if tok = '+' then some ⟨q, eq, O_WRONLY ||| O_CREATE, 1⟩
  else none

variable {s : List Char} {i : Nat} {toks : List Char}

theorem le_peek (s : List Char) (i : Nat) (toks : List Char) : i ≤ (peek s i toks).2 :=
  le_skipWhite s i

/-- peek が字を見つければ、そこに字句があり、gettoken はそれを読んで前へ進む。 -/
theorem peek_progress (h : (peek s i toks).1 = true) :
    (peek s i toks).2 < (gettoken s (peek s i toks).2).2.2.2 ∧
      (gettoken s (peek s i toks).2).2.2.2 ≤ s.length := by
  have hc : charAt s (skipWhite s i) ≠ '\x00' := by
    intro hc
    simp [peek, hc] at h
  have hg : (gettoken s (skipWhite s i)).1 ≠ '\x00' := by
    rw [gettoken_skipWhite]
    exact fun h => hc (gettoken_eq_nul_iff.mp h)
  have := gettoken_progress hg
  exact ⟨this.2.2.1, this.2.2.2⟩

/-! ## ループ -/

/-- `parseredirs(cmd, ps, es)` の while が読むリダイレクトを順に。none は
`panic("missing file for redirection")`。 -/
def parseredirs (s : List Char) (i : Nat) : Option (List Redir × {j // i ≤ j}) :=
  let p := peek s i ['<', '>']
  if p.1 then
    let t := gettoken s p.2
    let f := gettoken s t.2.2.2
    if hf : f.1 ≠ 'a' then none
    else
      match parseredirs s f.2.2.2 with
      | none => none
      | some (rs, j) =>
        some ((redirOf t.1 f.2.1 f.2.2.1).toList ++ rs,
          ⟨j.1, Nat.le_trans (Nat.le_trans (le_peek s i _) (Nat.le_trans (le_gettoken s _)
            (le_gettoken s _))) j.2⟩)
  else some ([], ⟨p.2, le_peek s i _⟩)
termination_by s.length - i
decreasing_by
  have hg := gettoken_progress (s := s) (i := (gettoken s (peek s i ['<', '>']).2).2.2.2)
    (by rw [of_not_not hf]; decide)
  have h₁ := le_peek s i ['<', '>']
  have h₂ := le_gettoken s (peek s i ['<', '>']).2
  omega

/-- parseline の `while(peek(ps, es, "&"))`: '&' ごとに backcmd で包む。 -/
def parseBacks (s : List Char) (i : Nat) (cmd : Cmd) : Cmd × {j // i ≤ j} :=
  let p := peek s i ['&']
  if hp : p.1 then
    let r := parseBacks s (gettoken s p.2).2.2.2 (.back cmd)
    (r.1, ⟨r.2.1, Nat.le_trans (Nat.le_trans (le_peek s i _) (le_gettoken s _)) r.2.2⟩)
  else (cmd, ⟨p.2, le_peek s i _⟩)
termination_by s.length - i
decreasing_by
  have := peek_progress hp
  have := le_peek s i ['&']
  omega

/-- parseexec の while: 語を argv に足し、そのたびにリダイレクトを読む。argv と、それまでに
読んだリダイレクトを返す。none は `panic("syntax")` か `panic("too many args")`。 -/
def parseexecLoop (s : List Char) (i : Nat) (argv : List (Nat × Nat)) (rs : List Redir) :
    Option (List (Nat × Nat) × List Redir × {j // i ≤ j}) :=
  let p := peek s i ['|', ')', '&', ';']
  if p.1 then some (argv, rs, ⟨p.2, le_peek s i _⟩)
  else
    let t := gettoken s p.2
    -- `if((tok=gettoken(ps, es, &q, &eq)) == 0) break;`
    if ht : t.1 = '\x00' then some (argv, rs, ⟨t.2.2.2, Nat.le_trans (le_peek s i _) (le_gettoken s _)⟩)
    else if t.1 ≠ 'a' then none
    else
      let argv := argv ++ [(t.2.1, t.2.2.1)]
      if MAXARGS ≤ argv.length then none
      else
        match parseredirs s t.2.2.2 with
        | none => none
        | some (rs', j) =>
          match parseexecLoop s j.1 argv (rs ++ rs') with
          | none => none
          | some (argv, rs, k) =>
            some (argv, rs, ⟨k.1, Nat.le_trans (Nat.le_trans (Nat.le_trans (le_peek s i _)
              (le_gettoken s _)) j.2) k.2⟩)
termination_by s.length - i
decreasing_by
  unfold t p at *
  have hg := gettoken_progress ht
  have := le_peek s i ['|', ')', '&', ';']
  have := j.2
  omega

/-! ## 再帰下降 -/

mutual

/-- `parseline(ps, es)`: pipe、'&' の並び、';' があれば残りの line。 -/
def parseline (s : List Char) (i : Nat) : Option (Cmd × {j // i ≤ j}) :=
  match parsepipe s i with
  | none => none
  | some (cmd, j) =>
    let b := parseBacks s j.1 cmd
    let p := peek s b.2.1 [';']
    if hp : p.1 then
      match parseline s (gettoken s p.2).2.2.2 with
      | none => none
      | some (c₂, k) =>
        some (.list b.1 c₂, ⟨k.1, Nat.le_trans (Nat.le_trans (Nat.le_trans j.2 b.2.2)
          (Nat.le_trans (le_peek s _ _) (le_gettoken s _))) k.2⟩)
    else some (b.1, ⟨p.2, Nat.le_trans (Nat.le_trans j.2 b.2.2) (le_peek s _ _)⟩)
termination_by (s.length - i, 3)
decreasing_by
  · exact Prod.Lex.right _ (by decide)
  · unfold p b at *
    have := peek_progress hp
    have := le_peek s (parseBacks s j.1 cmd).2.1 [';']
    have := j.2
    have := (parseBacks s j.1 cmd).2.2
    exact Prod.Lex.left _ _ (by omega)

/-- `parsepipe(ps, es)`: exec と、'|' があれば残りの pipe。 -/
def parsepipe (s : List Char) (i : Nat) : Option (Cmd × {j // i ≤ j}) :=
  match parseexec s i with
  | none => none
  | some (cmd, j) =>
    let p := peek s j.1 ['|']
    if hp : p.1 then
      match parsepipe s (gettoken s p.2).2.2.2 with
      | none => none
      | some (c₂, k) =>
        some (.pipe cmd c₂, ⟨k.1, Nat.le_trans (Nat.le_trans j.2
          (Nat.le_trans (le_peek s _ _) (le_gettoken s _))) k.2⟩)
    else some (cmd, ⟨p.2, Nat.le_trans j.2 (le_peek s _ _)⟩)
termination_by (s.length - i, 2)
decreasing_by
  · exact Prod.Lex.right _ (by decide)
  · have := peek_progress hp
    have := le_peek s j.1 ['|']
    have := j.2
    exact Prod.Lex.left _ _ (by omega)

/-- `parseblock(ps, es)`: '(' line ')' と、その後のリダイレクト。none は `panic("parseblock")` か
`panic("syntax - missing )")`。 -/
def parseblock (s : List Char) (i : Nat) : Option (Cmd × {j // i ≤ j}) :=
  let p := peek s i ['(']
  if hp : p.1 then
    match parseline s (gettoken s p.2).2.2.2 with
    | none => none
    | some (cmd, j) =>
      let p' := peek s j.1 [')']
      if p'.1 then
        match parseredirs s (gettoken s p'.2).2.2.2 with
        | none => none
        | some (rs, k) =>
          some (wrapRedirs rs cmd, ⟨k.1, Nat.le_trans (Nat.le_trans (Nat.le_trans (le_peek s i _)
            (le_gettoken s _)) (Nat.le_trans j.2 (Nat.le_trans (le_peek s _ _) (le_gettoken s _)))) k.2⟩)
      else none
  else none
termination_by (s.length - i, 0)
decreasing_by
  have := peek_progress hp
  have := le_peek s i ['(']
  exact Prod.Lex.left _ _ (by omega)

/-- `parseexec(ps, es)`: '(' なら parseblock、そうでなければリダイレクトと語の並び。 -/
def parseexec (s : List Char) (i : Nat) : Option (Cmd × {j // i ≤ j}) :=
  let p := peek s i ['(']
  if p.1 then
    match parseblock s p.2 with
    | none => none
    | some (cmd, j) => some (cmd, ⟨j.1, Nat.le_trans (le_peek s i _) j.2⟩)
  else
    match parseredirs s p.2 with
    | none => none
    | some (rs, j) =>
      match parseexecLoop s j.1 [] rs with
      | none => none
      | some (argv, rs, k) =>
        some (wrapRedirs rs (.exec argv), ⟨k.1, Nat.le_trans (Nat.le_trans (le_peek s i _) j.2) k.2⟩)
termination_by (s.length - i, 1)
decreasing_by
  -- peek は空白を読み飛ばすだけなので、残りは減るか、同じ長さで順位が下がる。
  rcases Nat.lt_or_ge (s.length - (peek s i ['(']).2) (s.length - i) with h | h
  · exact Prod.Lex.left _ _ h
  · have he : s.length - (peek s i ['(']).2 = s.length - i := by
      have := le_peek s i ['(']
      omega
    rw [he]
    exact Prod.Lex.right _ (by decide)

end

/-! ## parsecmd と nulterminate -/

/-- `nulterminate(cmd)`: 語の終わり `*eargv[i]` と `*efile` に NUL を書く。行の終わりは、もとから
NUL である。 -/
def nulterminate : Cmd → List Char → List Char
  | .exec argv, buf => argv.foldl (fun buf a => buf.set a.2 '\x00') buf
  | .redir c r, buf => (nulterminate c buf).set r.efile '\x00'
  | .pipe l r, buf => nulterminate r (nulterminate l buf)
  | .list l r, buf => nulterminate r (nulterminate l buf)
  | .back c, buf => nulterminate c buf

/-- `parsecmd(s)`: 行を解析し、空白のほかに残りがあれば `panic("syntax")`。返すのは木と、
nulterminate した後の行。 -/
def parsecmd (s : List Char) : Option (Cmd × List Char) :=
  match parseline s 0 with
  | none => none
  | some (cmd, j) =>
    if (peek s j.1 []).2 ≠ s.length then none
    else some (cmd, nulterminate cmd s)

end Xv6.Sh
