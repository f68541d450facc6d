import Xv6.Sh.Parse

/-!
# sh の文法と、その導出が決める木

字句の列の上の文法を、導出が作る木とあわせて帰納的な述語で書く。

    line  ::= pipe ('&')* (';' line)?
    pipe  ::= exec ('|' pipe)?
    exec  ::= '(' line ')' redir* | redir* (word redir*)*      （語は MAXARGS 未満）
    redir ::= ('<' | '>' | '>>') word

木は、PIPE と LIST が右に入れ子、BACK が pipe を包み、REDIR は読んだ順に内側から包む。
`>>` は字句 '+' である。
-/

namespace Xv6.Sh

/-- 文法の非終端記号。 -/
inductive NT where
  | line
  | pipe
  | exec
  deriving DecidableEq, Repr

/-- redir ::= ('<' | '>' | '>>') word。開き方と fd は記号で決まる。 -/
inductive RedirD : List Token → Redir → Prop
  | read (q e : Nat) : RedirD [.sym '<', .word q e] ⟨q, e, O_RDONLY, 0⟩
  | write (q e : Nat) : RedirD [.sym '>', .word q e] ⟨q, e, O_WRONLY ||| O_CREATE ||| O_TRUNC, 1⟩
  | append (q e : Nat) : RedirD [.sym '+', .word q e] ⟨q, e, O_WRONLY ||| O_CREATE, 1⟩

/-- redir*。 -/
inductive RedirsD : List Token → List Redir → Prop
  | nil : RedirsD [] []
  | cons {ts ts' : List Token} {r : Redir} {rs : List Redir} :
      RedirD ts r → RedirsD ts' rs → RedirsD (ts ++ ts') (r :: rs)

/-- (word redir*)*: 語と、語の後ろのリダイレクトを順に。 -/
inductive ItemsD : List Token → List (Nat × Nat) → List Redir → Prop
  | nil : ItemsD [] [] []
  | cons {q e : Nat} {ts ts' : List Token} {ws : List (Nat × Nat)} {rs rs' : List Redir} :
      RedirsD ts rs → ItemsD ts' ws rs' → ItemsD (.word q e :: ts ++ ts') ((q, e) :: ws) (rs ++ rs')

/-- backcmd で n 回包む。 -/
def backs : Nat → Cmd → Cmd
  | 0, c => c
  | n + 1, c => backs n (.back c)

/-- 導出: 非終端記号から字句の列が導かれ、その導出の木が c。 -/
inductive Derives : NT → List Token → Cmd → Prop
  | block {ts ts' : List Token} {c : Cmd} {rs : List Redir} :
      Derives .line ts c → RedirsD ts' rs →
      Derives .exec (.sym '(' :: ts ++ .sym ')' :: ts') (wrapRedirs rs c)
  | simple {ts ts' : List Token} {ws : List (Nat × Nat)} {rs rs' : List Redir} :
      RedirsD ts rs → ItemsD ts' ws rs' → ws.length < MAXARGS →
      Derives .exec (ts ++ ts') (wrapRedirs (rs ++ rs') (.exec ws))
  | pipe {ts : List Token} {c : Cmd} : Derives .exec ts c → Derives .pipe ts c
  | pipeCons {ts ts' : List Token} {c c' : Cmd} :
      Derives .exec ts c → Derives .pipe ts' c' → Derives .pipe (ts ++ .sym '|' :: ts') (.pipe c c')
  | line {ts : List Token} {c : Cmd} (n : Nat) :
      Derives .pipe ts c → Derives .line (ts ++ List.replicate n (.sym '&')) (backs n c)
  | lineCons {ts ts' : List Token} {c c' : Cmd} (n : Nat) :
      Derives .pipe ts c → Derives .line ts' c' →
      Derives .line (ts ++ List.replicate n (.sym '&') ++ .sym ';' :: ts') (.list (backs n c) c')

/-! ## 後ろに続いてよい字句

再帰下降は先読み一つで止まるので、非終端記号の後ろに来てよい字句を決めておく。 -/

/-- 非終端記号の後ろに来てよい記号。 -/
def follow : NT → List Char
  | .line => [')']
  | .pipe => [')', '&', ';']
  | .exec => ['|', ')', '&', ';']

/-- 残りの字句が、尽きているか、follow の記号で始まる。 -/
def Follows (N : NT) (rest : List Token) : Prop := rest = [] ∨ nextIn rest (follow N) = true

/-! ## 木の語

argv の語とリダイレクトのファイル名を、行の中の位置の組で集める。 -/

/-- 木の中の語（argv と file）の位置。 -/
def Cmd.words : Cmd → List (Nat × Nat)
  | .exec argv => argv
  | .redir c r => c.words ++ [(r.file, r.efile)]
  | .pipe l r => l.words ++ r.words
  | .list l r => l.words ++ r.words
  | .back c => c.words

@[simp]
theorem words_wrapRedirs (rs : List Redir) (c : Cmd) :
    (wrapRedirs rs c).words = c.words ++ rs.map fun r => (r.file, r.efile) := by
  induction rs generalizing c with
  | nil => simp [wrapRedirs]
  | cons r rs ih =>
    simp only [wrapRedirs, List.foldl_cons] at ih ⊢
    rw [ih]
    simp [Cmd.words]

@[simp]
theorem words_backs (n : Nat) (c : Cmd) : (backs n c).words = c.words := by
  induction n generalizing c with
  | zero => rfl
  | succ n ih => rw [backs, ih]; rfl

theorem RedirD.file_mem {ts : List Token} {r : Redir} (h : RedirD ts r) : .word r.file r.efile ∈ ts := by
  cases h <;> simp

theorem RedirsD.file_mem {ts : List Token} {rs : List Redir} (h : RedirsD ts rs) :
    ∀ r ∈ rs, .word r.file r.efile ∈ ts := by
  induction h with
  | nil => simp
  | cons hr _ ih =>
    intro r hmem
    rcases List.mem_cons.mp hmem with rfl | hmem
    · exact List.mem_append_left _ hr.file_mem
    · exact List.mem_append_right _ (ih r hmem)

theorem ItemsD.words_mem {ts : List Token} {ws : List (Nat × Nat)} {rs : List Redir} (h : ItemsD ts ws rs) :
    (∀ w ∈ ws, .word w.1 w.2 ∈ ts) ∧ ∀ r ∈ rs, .word r.file r.efile ∈ ts := by
  induction h with
  | nil => simp
  | cons hrs _ ih =>
    refine ⟨fun w hw => ?_, fun r hr => ?_⟩
    · rcases List.mem_cons.mp hw with rfl | hw
      · exact List.mem_cons_self
      · exact List.mem_cons_of_mem _ (List.mem_append_right _ (ih.1 w hw))
    · rcases List.mem_append.mp hr with hr | hr
      · exact List.mem_cons_of_mem _ (List.mem_append_left _ (hrs.file_mem r hr))
      · exact List.mem_cons_of_mem _ (List.mem_append_right _ (ih.2 r hr))

/-- 導出の木の語は、どれも導いた字句の列の語。 -/
theorem Derives.words_mem {N : NT} {ts : List Token} {c : Cmd} (h : Derives N ts c) :
    ∀ w ∈ c.words, .word w.1 w.2 ∈ ts := by
  induction h with
  | block _ hrs ih =>
    intro w hw
    rw [words_wrapRedirs, List.mem_append] at hw
    rcases hw with hw | hw
    · exact List.mem_cons_of_mem _ (List.mem_append_left _ (ih w hw))
    · obtain ⟨r, hr, rfl⟩ := List.mem_map.mp hw
      exact List.mem_cons_of_mem _ (List.mem_append_right _ (List.mem_cons_of_mem _ (hrs.file_mem r hr)))
  | simple hrs hitems _ =>
    intro w hw
    simp only [words_wrapRedirs, Cmd.words, List.map_append, List.mem_append, List.mem_map] at hw
    rcases hw with hw | ⟨r, hr, rfl⟩ | ⟨r, hr, rfl⟩
    · exact List.mem_append_right _ (hitems.words_mem.1 w hw)
    · exact List.mem_append_left _ (hrs.file_mem r hr)
    · exact List.mem_append_right _ (hitems.words_mem.2 r hr)
  | pipe _ ih => exact ih
  | pipeCons _ _ ih ih' =>
    intro w hw
    rcases List.mem_append.mp hw with hw | hw
    · exact List.mem_append_left _ (ih w hw)
    · exact List.mem_append_right _ (List.mem_cons_of_mem _ (ih' w hw))
  | line n _ ih =>
    intro w hw
    rw [words_backs] at hw
    exact List.mem_append_left _ (ih w hw)
  | lineCons n _ _ ih ih' =>
    intro w hw
    rcases List.mem_append.mp hw with hw | hw
    · rw [words_backs] at hw
      exact List.mem_append_left _ (List.mem_append_left _ (ih w hw))
    · exact List.mem_append_right _ (List.mem_cons_of_mem _ (ih' w hw))

/-! ## 語の文字列

nulterminate の後、木の各位置 q からの C の文字列。 -/

/-- 位置 q から NUL の前までの文字列。 -/
def cstr (buf : List Char) (q : Nat) : List Char := (buf.drop q).takeWhile (· ≠ '\x00')

end Xv6.Sh
