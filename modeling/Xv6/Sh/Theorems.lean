import Xv6.Sh.Grammar

/-!
# parsecmd は文法をちょうど受け付ける

位置 i からの字句の列 `lexFrom s i` について、解析関数ごとに二つを示す。

* 健全性: 返れば、読んだ字句（`lexFrom s i` のうち `lexFrom s j` の前まで）から返した木が導かれる。
* 完全性: 字句の列が、導出される列の後に follow の字句が続くものなら、その列をちょうど読んで
  導出の木を返す。

健全性は残りの長さについての強い帰納法で、一つの段の中では parseblock、parseexec、parsepipe、
parseline の順に示す。完全性は導出についての帰納法。最後に、nulterminate の後の文字列が語に
等しいことを示す。
-/

namespace Xv6.Sh

variable {s : List Char}

/-! ## 先読みと字句 -/

theorem nextIn_eq_true_iff {ts : List Token} {toks : List Char} :
    nextIn ts toks = true ↔ ∃ c rest, ts = .sym c :: rest ∧ (if c = '+' then '>' else c) ∈ toks := by
  match ts with
  | [] => simp [nextIn]
  | .word q e :: ts => simp [nextIn]
  | .sym c :: ts => simp [nextIn]

theorem peek_fst {toks : List Char} (htoks : ∀ c ∈ toks, c ∈ symbols) (i : Nat) :
    (peek s i toks).1 = nextIn (lexFrom s i) toks := by
  rw [peek_eq htoks]

/-- peek が toks の字を見れば、次の字句はその記号で、gettoken はそれを読む。 -/
theorem peek_sym {i : Nat} {toks : List Char} (htoks : ∀ c ∈ toks, c ∈ symbols)
    (hp : (peek s i toks).1 = true) :
    ∃ c, (if c = '+' then '>' else c) ∈ toks ∧ (gettoken s (peek s i toks).2).1 = c ∧
      lexFrom s i = .sym c :: lexFrom s (gettoken s (peek s i toks).2).2.2.2 := by
  rw [peek_fst htoks] at hp
  obtain ⟨c, rest, hlex, hc⟩ := nextIn_eq_true_iff.mp hp
  obtain ⟨-, htok, hrest⟩ := gettoken_of_lexFrom_cons (by rw [lexFrom_peek s i toks]; exact hlex)
  exact ⟨c, hc, (tokenOf_eq_sym_iff.mp htok).2, by rw [hlex, hrest]⟩

theorem lexFrom_of_word {i : Nat} (h : (gettoken s i).1 = 'a') :
    lexFrom s i = .word (gettoken s i).2.1 (gettoken s i).2.2.1 :: lexFrom s (gettoken s i).2.2.2 := by
  rw [lexFrom_of_gettoken (by rw [h]; decide), h]
  rfl

/-- 字句の列が記号 c で始まれば、gettoken はそれを読む。 -/
theorem gettoken_sym {i : Nat} {c : Char} {rest : List Token} (h : lexFrom s i = .sym c :: rest) :
    (gettoken s i).1 = c ∧ lexFrom s (gettoken s i).2.2.2 = rest := by
  obtain ⟨-, htok, hrest⟩ := gettoken_of_lexFrom_cons h
  exact ⟨(tokenOf_eq_sym_iff.mp htok).2, hrest⟩

/-- 字句の列が語で始まれば、gettoken はその語を 'a' として読む。 -/
theorem gettoken_word {i q e : Nat} {rest : List Token} (h : lexFrom s i = .word q e :: rest) :
    (gettoken s i).1 = 'a' ∧ (gettoken s i).2.1 = q ∧ (gettoken s i).2.2.1 = e ∧
      lexFrom s (gettoken s i).2.2.2 = rest := by
  obtain ⟨-, htok, hrest⟩ := gettoken_of_lexFrom_cons h
  obtain ⟨ha, hq, he⟩ := tokenOf_eq_word_iff.mp htok
  exact ⟨ha, hq, he, hrest⟩

/-! ## リダイレクト -/

theorem redirOf_spec {c : Char} (hc : (if c = '+' then '>' else c) ∈ ['<', '>']) (q e : Nat) :
    ∃ r, redirOf c q e = some r ∧ RedirD [.sym c, .word q e] r := by
  by_cases h₁ : c = '<'
  · subst h₁
    exact ⟨_, rfl, .read q e⟩
  by_cases h₂ : c = '>'
  · subst h₂
    exact ⟨_, rfl, .write q e⟩
  by_cases h₃ : c = '+'
  · subst h₃
    exact ⟨_, rfl, .append q e⟩
  · simp [h₁, h₂, h₃] at hc

theorem RedirD.inv {ts : List Token} {r : Redir} (h : RedirD ts r) :
    ∃ c q e, ts = [.sym c, .word q e] ∧ (if c = '+' then '>' else c) ∈ ['<', '>'] ∧ redirOf c q e = some r := by
  cases h <;> exact ⟨_, _, _, rfl, by decide, rfl⟩

theorem parseredirs_sound (i : Nat) : ∀ {rs : List Redir} {j : {j // i ≤ j}},
    parseredirs s i = some (rs, j) → ∃ pre, lexFrom s i = pre ++ lexFrom s j.1 ∧ RedirsD pre rs := by
  fun_induction parseredirs s i with
  | case1 => intro _ _ h; cases h
  | case2 => intro _ _ h; cases h
  | case3 i p hp t f hf rs' j' =>
    rename_i hrec ih
    intro rs j h
    cases h
    -- 記号と、ファイル名の語を読む
    obtain ⟨c, hc, hret, hlex⟩ := peek_sym (by simp [symbols]) hp
    have hret' : t.1 = c := hret
    have hword : lexFrom s t.2.2.2 = .word f.2.1 f.2.2.1 :: lexFrom s f.2.2.2 :=
      lexFrom_of_word (of_not_not hf)
    obtain ⟨pre, hpre, hrs⟩ := ih hrec
    obtain ⟨r, hr, hrd⟩ := redirOf_spec hc f.2.1 f.2.2.1
    refine ⟨.sym c :: .word f.2.1 f.2.2.1 :: pre, ?_, ?_⟩
    · rw [hlex]
      show .sym c :: lexFrom s t.2.2.2 = _
      rw [hword, hpre]
      rfl
    · rw [hret', hr]
      exact .cons hrd hrs
  | case4 i p =>
    intro rs j h
    cases h
    exact ⟨[], (lexFrom_peek s i ['<', '>']).symm, .nil⟩

/-- 記号一つだけの toks を peek が見れば、その記号がある。 -/
theorem sym_of_mem_single {c d : Char} (hd : d ≠ '>') (h : (if c = '+' then '>' else c) ∈ [d]) : c = d := by
  by_cases hc : c = '+'
  · rw [if_pos hc, List.mem_singleton] at h
    exact absurd h.symm hd
  · rwa [if_neg hc, List.mem_singleton] at h

/-! ## '&' の並びと、語の並び -/

theorem parseBacks_sound (i : Nat) (cmd : Cmd) :
    ∃ n, lexFrom s i = List.replicate n (.sym '&') ++ lexFrom s (parseBacks s i cmd).2.1 ∧
      (parseBacks s i cmd).1 = backs n cmd := by
  fun_induction parseBacks s i cmd with
  | case1 i cmd p =>
    rename_i hp r ih _
    obtain ⟨c, hc, -, hlex⟩ := peek_sym (by simp [symbols]) hp
    obtain ⟨n, hn, hb⟩ := ih
    refine ⟨n + 1, ?_, hb⟩
    rw [hlex, hn, sym_of_mem_single (by decide) hc]
    rfl
  | case2 i cmd p =>
    exact ⟨0, (lexFrom_peek s i ['&']).symm, rfl⟩

theorem parseBacks_complete (i : Nat) (cmd : Cmd) : ∀ {n : Nat} {rest : List Token},
    lexFrom s i = List.replicate n (.sym '&') ++ rest → nextIn rest ['&'] = false →
      (parseBacks s i cmd).1 = backs n cmd ∧ lexFrom s (parseBacks s i cmd).2.1 = rest ∧
        (i ≤ s.length → (parseBacks s i cmd).2.1 ≤ s.length) := by
  fun_induction parseBacks s i cmd with
  | case1 i cmd p =>
    rename_i hp r ih _
    intro n rest hlex hrest
    obtain ⟨c, hc, -, hlex'⟩ := peek_sym (by simp [symbols]) hp
    cases n with
    | zero =>
      -- 次の字句は '&' なので、rest は '&' で始まらないことに反する
      rw [hlex, List.replicate_zero, List.nil_append] at hlex'
      rw [hlex', sym_of_mem_single (by decide) hc] at hrest
      cases hrest
    | succ n =>
      rw [hlex', List.replicate_succ, List.cons_append, List.cons.injEq] at hlex
      obtain ⟨h₁, h₂, h₃⟩ := ih hlex.2 hrest
      exact ⟨h₁, h₂, fun hi => h₃ (gettoken_le (skipWhite_le hi))⟩
  | case2 i cmd p =>
    rename_i hp
    intro n rest hlex hrest
    cases n with
    | zero =>
      exact ⟨rfl, by rw [lexFrom_peek s i ['&']]; exact hlex, skipWhite_le⟩
    | succ n =>
      have : (peek s i ['&']).1 = true := by
        rw [peek_fst (by simp [symbols]), hlex]
        rfl
      exact absurd this hp

/-- parseexec の while は、語と、語の後ろのリダイレクトの並びを読む。 -/
theorem parseexecLoop_sound (i : Nat) (argv : List (Nat × Nat)) (rs : List Redir) :
    argv.length < MAXARGS → ∀ {argv' : List (Nat × Nat)} {rs' : List Redir} {j : {j // i ≤ j}},
      parseexecLoop s i argv rs = some (argv', rs', j) →
        ∃ pre ws rs'', lexFrom s i = pre ++ lexFrom s j.1 ∧ ItemsD pre ws rs'' ∧
          argv' = argv ++ ws ∧ rs' = rs ++ rs'' ∧ argv'.length < MAXARGS := by
  fun_induction parseexecLoop s i argv rs with
  | case1 i argv rs p =>
    intro hargv _ _ _ h
    cases h
    exact ⟨[], [], [], (lexFrom_peek s i ['|', ')', '&', ';']).symm, .nil, by simp, by simp, hargv⟩
  | case2 i argv rs p =>
    rename_i hp t ht
    intro hargv _ _ _ h
    cases h
    -- 字句が尽きて break した
    have hend : lexFrom s t.2.2.2 = lexFrom s i := by
      show lexFrom s (gettoken s p.2).2.2.2 = _
      rw [gettoken_eq_of_nul ht, lexFrom_skipWhite]
      exact lexFrom_peek s i _
    exact ⟨[], [], [], hend.symm, .nil, by simp, by simp, hargv⟩
  | case3 => intro _ _ _ _ h; cases h
  | case4 => intro _ _ _ _ h; cases h
  | case5 => intro _ _ _ _ h; cases h
  | case6 => intro _ _ _ _ h; cases h
  | case7 i argv rs p =>
    rename_i hp t ht ha argv₁ hmax rs₁ j₁ hrs argv₂ rs₂ k hloop ih
    intro hargv _ _ _ h
    cases h
    have hword : lexFrom s i = .word t.2.1 t.2.2.1 :: lexFrom s t.2.2.2 := by
      rw [← lexFrom_peek s i ['|', ')', '&', ';']]
      exact lexFrom_of_word (of_not_not ha)
    obtain ⟨pre₁, hpre₁, hrd⟩ := parseredirs_sound _ hrs
    obtain ⟨pre₂, ws, rs'', hpre₂, hitems, hargv₂, hrs₂, hlen⟩ := ih (by omega) hloop
    refine ⟨.word t.2.1 t.2.2.1 :: pre₁ ++ pre₂, (t.2.1, t.2.2.1) :: ws, rs₁ ++ rs'', ?_, .cons hrd hitems,
      ?_, ?_, hlen⟩
    · rw [hword, hpre₁, hpre₂]
      simp
    · rw [hargv₂]
      show argv ++ [(t.2.1, t.2.2.1)] ++ ws = _
      simp
    · rw [hrs₂]
      simp

/-! ## 健全性 -/

/-- 返れば、読んだ字句から返した木が N で導かれる。 -/
def Sound (s : List Char) (N : NT) (i : Nat) (r : Option (Cmd × {j // i ≤ j})) : Prop :=
  ∀ c j, r = some (c, j) → ∃ pre, lexFrom s i = pre ++ lexFrom s j.1 ∧ Derives N pre c

theorem parseblock_sound {i : Nat}
    (ih : ∀ i', s.length - i' < s.length - i → Sound s .line i' (parseline s i')) :
    Sound s .exec i (parseblock s i) := by
  intro c j h
  rw [parseblock] at h
  dsimp only at h
  split at h
  · rename_i hp
    split at h
    · cases h
    · rename_i cmd j₁ hline
      split at h
      · rename_i hp'
        split at h
        · cases h
        · rename_i rs k hrs
          cases h
          -- '(' line ')' redir*
          obtain ⟨c₁, hc₁, -, hlex₁⟩ := peek_sym (by simp [symbols]) hp
          obtain ⟨c₂, hc₂, -, hlex₂⟩ := peek_sym (by simp [symbols]) hp'
          have hprog := peek_progress hp
          have hle := le_peek s i ['(']
          obtain ⟨pre, hpre, hd⟩ := ih _ (by omega) _ _ hline
          obtain ⟨pre', hpre', hrd⟩ := parseredirs_sound _ hrs
          refine ⟨.sym '(' :: pre ++ .sym ')' :: pre', ?_, .block hd hrd⟩
          rw [hlex₁, sym_of_mem_single (by decide) hc₁, hpre, hlex₂, sym_of_mem_single (by decide) hc₂, hpre']
          simp
      · cases h
  · cases h

theorem parseexec_sound {i : Nat}
    (hb : ∀ i', s.length - i' ≤ s.length - i → Sound s .exec i' (parseblock s i')) :
    Sound s .exec i (parseexec s i) := by
  intro c j h
  rw [parseexec] at h
  split at h
  · -- '(' で始まれば parseblock
    split at h
    · cases h
    · rename_i cmd j₁ hblock
      cases h
      have hle := le_peek s i ['(']
      obtain ⟨pre, hpre, hd⟩ := hb _ (by omega) _ _ hblock
      exact ⟨pre, by rw [← lexFrom_peek s i ['(']]; exact hpre, hd⟩
  · split at h
    · cases h
    · rename_i rs j₁ hrs
      split at h
      · cases h
      · rename_i argv rs' k hloop
        cases h
        obtain ⟨pre₁, hpre₁, hrd⟩ := parseredirs_sound _ hrs
        obtain ⟨pre₂, ws, rs'', hpre₂, hitems, hargv, hrs', hlen⟩ :=
          parseexecLoop_sound _ [] rs (by decide) hloop
        rw [List.nil_append] at hargv
        subst hargv hrs'
        refine ⟨pre₁ ++ pre₂, ?_, .simple hrd hitems hlen⟩
        rw [← lexFrom_peek s i ['('], hpre₁, hpre₂, List.append_assoc]

theorem parsepipe_sound {i : Nat} (he : Sound s .exec i (parseexec s i))
    (ih : ∀ i', s.length - i' < s.length - i → Sound s .pipe i' (parsepipe s i')) :
    Sound s .pipe i (parsepipe s i) := by
  intro c j h
  rw [parsepipe] at h
  dsimp only at h
  split at h
  · cases h
  · rename_i cmd j₁ hexec
    obtain ⟨pre, hpre, hd⟩ := he _ _ hexec
    split at h
    · rename_i hp
      split at h
      · cases h
      · rename_i c₂ k hpipe
        cases h
        -- exec '|' pipe
        obtain ⟨c', hc', -, hlex'⟩ := peek_sym (by simp [symbols]) hp
        have hprog := peek_progress hp
        have hle := le_peek s j₁.1 ['|']
        have hj := j₁.2
        obtain ⟨pre', hpre', hd'⟩ := ih _ (by omega) _ _ hpipe
        refine ⟨pre ++ .sym '|' :: pre', ?_, .pipeCons hd hd'⟩
        rw [hpre, hlex', sym_of_mem_single (by decide) hc', hpre']
        simp
    · cases h
      exact ⟨pre, by rw [hpre, lexFrom_peek], .pipe hd⟩

theorem parseline_sound {i : Nat} (hp : Sound s .pipe i (parsepipe s i))
    (ih : ∀ i', s.length - i' < s.length - i → Sound s .line i' (parseline s i')) :
    Sound s .line i (parseline s i) := by
  intro c j h
  rw [parseline] at h
  dsimp only at h
  split at h
  · cases h
  · rename_i cmd j₁ hpipe
    obtain ⟨pre, hpre, hd⟩ := hp _ _ hpipe
    obtain ⟨n, hn, hb⟩ := parseBacks_sound (s := s) j₁.1 cmd
    split at h
    · rename_i hsemi
      split at h
      · cases h
      · rename_i c₂ k hline
        cases h
        -- pipe '&'* ';' line
        obtain ⟨c', hc', -, hlex'⟩ := peek_sym (by simp [symbols]) hsemi
        have hprog := peek_progress hsemi
        have hle := le_peek s (parseBacks s j₁.1 cmd).2.1 [';']
        have hj := j₁.2
        have hb' := (parseBacks s j₁.1 cmd).2.2
        obtain ⟨pre', hpre', hd'⟩ := ih _ (by omega) _ _ hline
        refine ⟨pre ++ List.replicate n (.sym '&') ++ .sym ';' :: pre', ?_, ?_⟩
        · rw [hpre, hn, hlex', sym_of_mem_single (by decide) hc', hpre']
          simp
        · rw [hb]
          exact .lineCons n hd hd'
    · cases h
      refine ⟨pre ++ List.replicate n (.sym '&'), ?_, ?_⟩
      · rw [hpre, hn, lexFrom_peek, List.append_assoc]
      · rw [hb]
        exact .line n hd

/-- 健全性: 残りの長さについての強い帰納法。一つの段の中で parseblock、parseexec、parsepipe、
parseline の順に示す。 -/
theorem parse_sound (s : List Char) (i : Nat) :
    Sound s .line i (parseline s i) ∧ Sound s .pipe i (parsepipe s i) := by
  have ih : ∀ i', s.length - i' < s.length - i →
      Sound s .line i' (parseline s i') ∧ Sound s .pipe i' (parsepipe s i') :=
    fun i' _ => parse_sound s i'
  have hblock : ∀ i', s.length - i' ≤ s.length - i → Sound s .exec i' (parseblock s i') :=
    fun _ hi' => parseblock_sound fun i'' hi'' => (ih i'' (by omega)).1
  have hpipe := parsepipe_sound (parseexec_sound hblock) fun i' hi' => (ih i' hi').2
  exact ⟨parseline_sound hpipe fun i' hi' => (ih i' hi').1, hpipe⟩
termination_by s.length - i

/-! ## 解析関数の一段

完全性で使う、解析関数の分岐ごとの結果。 -/

theorem parseredirs_nil {i : Nat} (hp : (peek s i ['<', '>']).1 = false) :
    ∃ j, parseredirs s i = some ([], j) ∧ j.1 = (peek s i ['<', '>']).2 := by
  rw [parseredirs]
  dsimp only
  rw [if_neg (by rw [hp]; decide)]
  exact ⟨_, rfl, rfl⟩

theorem parseredirs_cons {i : Nat} {rs : List Redir}
    {j : {j // (gettoken s (gettoken s (peek s i ['<', '>']).2).2.2.2).2.2.2 ≤ j}}
    (hp : (peek s i ['<', '>']).1 = true) (hf : (gettoken s (gettoken s (peek s i ['<', '>']).2).2.2.2).1 = 'a')
    (hr : parseredirs s (gettoken s (gettoken s (peek s i ['<', '>']).2).2.2.2).2.2.2 = some (rs, j)) :
    ∃ j', parseredirs s i = some ((redirOf (gettoken s (peek s i ['<', '>']).2).1
      (gettoken s (gettoken s (peek s i ['<', '>']).2).2.2.2).2.1
      (gettoken s (gettoken s (peek s i ['<', '>']).2).2.2.2).2.2.1).toList ++ rs, j') ∧ j'.1 = j.1 := by
  rw [parseredirs]
  dsimp only
  rw [if_pos hp, dif_neg (by rw [hf]; decide), hr]
  exact ⟨_, rfl, rfl⟩

theorem parseexecLoop_stop {i : Nat} {argv : List (Nat × Nat)} {rs : List Redir}
    (hp : (peek s i ['|', ')', '&', ';']).1 = true) :
    ∃ j, parseexecLoop s i argv rs = some (argv, rs, j) ∧ j.1 = (peek s i ['|', ')', '&', ';']).2 := by
  rw [parseexecLoop]
  dsimp only
  rw [if_pos hp]
  exact ⟨_, rfl, rfl⟩

theorem parseexecLoop_end {i : Nat} {argv : List (Nat × Nat)} {rs : List Redir}
    (hp : (peek s i ['|', ')', '&', ';']).1 = false)
    (ht : (gettoken s (peek s i ['|', ')', '&', ';']).2).1 = '\x00') :
    ∃ j, parseexecLoop s i argv rs = some (argv, rs, j) ∧
      j.1 = (gettoken s (peek s i ['|', ')', '&', ';']).2).2.2.2 := by
  rw [parseexecLoop]
  dsimp only
  rw [if_neg (by rw [hp]; decide), dif_pos ht]
  exact ⟨_, rfl, rfl⟩

theorem parseexecLoop_word {i : Nat} {argv argv' : List (Nat × Nat)} {rs rs₁ rs' : List Redir}
    {j : {j // (gettoken s (peek s i ['|', ')', '&', ';']).2).2.2.2 ≤ j}} {k : {k // j.1 ≤ k}}
    (hp : (peek s i ['|', ')', '&', ';']).1 = false)
    (ha : (gettoken s (peek s i ['|', ')', '&', ';']).2).1 = 'a') (hmax : argv.length + 1 < MAXARGS)
    (hr : parseredirs s (gettoken s (peek s i ['|', ')', '&', ';']).2).2.2.2 = some (rs₁, j))
    (hl : parseexecLoop s j.1 (argv ++ [((gettoken s (peek s i ['|', ')', '&', ';']).2).2.1,
      (gettoken s (peek s i ['|', ')', '&', ';']).2).2.2.1)]) (rs ++ rs₁) = some (argv', rs', k)) :
    ∃ k', parseexecLoop s i argv rs = some (argv', rs', k') ∧ k'.1 = k.1 := by
  rw [parseexecLoop]
  dsimp only
  rw [if_neg (by rw [hp]; decide), dif_neg (by rw [ha]; decide), if_neg (by rw [ha]; decide),
    if_neg (by simp; omega), hr]
  dsimp only
  rw [hl]
  exact ⟨_, rfl, rfl⟩

theorem parseblock_eq {i : Nat} {c : Cmd} {rs : List Redir}
    {j : {j // (gettoken s (peek s i ['(']).2).2.2.2 ≤ j}} {k : {k // (gettoken s (peek s j.1 [')']).2).2.2.2 ≤ k}}
    (hp : (peek s i ['(']).1 = true) (hl : parseline s (gettoken s (peek s i ['(']).2).2.2.2 = some (c, j))
    (hp' : (peek s j.1 [')']).1 = true) (hr : parseredirs s (gettoken s (peek s j.1 [')']).2).2.2.2 = some (rs, k)) :
    ∃ k', parseblock s i = some (wrapRedirs rs c, k') ∧ k'.1 = k.1 := by
  rw [parseblock]
  dsimp only
  rw [dif_pos hp, hl]
  dsimp only
  rw [if_pos hp', hr]
  exact ⟨_, rfl, rfl⟩

theorem parseexec_block {i : Nat} {c : Cmd} {j : {j // (peek s i ['(']).2 ≤ j}}
    (hp : (peek s i ['(']).1 = true) (hb : parseblock s (peek s i ['(']).2 = some (c, j)) :
    ∃ j', parseexec s i = some (c, j') ∧ j'.1 = j.1 := by
  rw [parseexec, if_pos hp, hb]
  exact ⟨_, rfl, rfl⟩

theorem parseexec_simple {i : Nat} {rs rs' : List Redir} {argv : List (Nat × Nat)}
    {j : {j // (peek s i ['(']).2 ≤ j}} {k : {k // j.1 ≤ k}} (hp : (peek s i ['(']).1 = false)
    (hr : parseredirs s (peek s i ['(']).2 = some (rs, j)) (hl : parseexecLoop s j.1 [] rs = some (argv, rs', k)) :
    ∃ k', parseexec s i = some (wrapRedirs rs' (.exec argv), k') ∧ k'.1 = k.1 := by
  rw [parseexec, if_neg (by rw [hp]; decide), hr]
  dsimp only
  rw [hl]
  exact ⟨_, rfl, rfl⟩

theorem parsepipe_one {i : Nat} {c : Cmd} {j : {j // i ≤ j}} (he : parseexec s i = some (c, j))
    (hp : (peek s j.1 ['|']).1 = false) :
    ∃ j', parsepipe s i = some (c, j') ∧ j'.1 = (peek s j.1 ['|']).2 := by
  rw [parsepipe, he]
  dsimp only
  rw [dif_neg (by rw [hp]; decide)]
  exact ⟨_, rfl, rfl⟩

theorem parsepipe_cons {i : Nat} {c c' : Cmd} {j : {j // i ≤ j}}
    {k : {k // (gettoken s (peek s j.1 ['|']).2).2.2.2 ≤ k}} (he : parseexec s i = some (c, j))
    (hp : (peek s j.1 ['|']).1 = true) (hr : parsepipe s (gettoken s (peek s j.1 ['|']).2).2.2.2 = some (c', k)) :
    ∃ k', parsepipe s i = some (.pipe c c', k') ∧ k'.1 = k.1 := by
  rw [parsepipe, he]
  dsimp only
  rw [dif_pos hp, hr]
  exact ⟨_, rfl, rfl⟩

theorem parseline_one {i : Nat} {c : Cmd} {j : {j // i ≤ j}} (hp : parsepipe s i = some (c, j))
    (hs : (peek s (parseBacks s j.1 c).2.1 [';']).1 = false) :
    ∃ j', parseline s i = some ((parseBacks s j.1 c).1, j') ∧
      j'.1 = (peek s (parseBacks s j.1 c).2.1 [';']).2 := by
  rw [parseline, hp]
  dsimp only
  rw [dif_neg (by rw [hs]; decide)]
  exact ⟨_, rfl, rfl⟩

theorem parseline_cons {i : Nat} {c c' : Cmd} {j : {j // i ≤ j}}
    {k : {k // (gettoken s (peek s (parseBacks s j.1 c).2.1 [';']).2).2.2.2 ≤ k}}
    (hp : parsepipe s i = some (c, j)) (hs : (peek s (parseBacks s j.1 c).2.1 [';']).1 = true)
    (hr : parseline s (gettoken s (peek s (parseBacks s j.1 c).2.1 [';']).2).2.2.2 = some (c', k)) :
    ∃ k', parseline s i = some (.list (parseBacks s j.1 c).1 c', k') ∧ k'.1 = k.1 := by
  rw [parseline, hp]
  dsimp only
  rw [dif_pos hs, hr]
  exact ⟨_, rfl, rfl⟩

/-! ## 後ろに続く字句 -/

theorem nextIn_eq_false_of_disjoint {ts : List Token} {A B : List Char} (h : nextIn ts A = true)
    (hd : ∀ c ∈ A, c ∉ B) : nextIn ts B = false := by
  obtain ⟨c, rest, rfl, hc⟩ := nextIn_eq_true_iff.mp h
  simpa [nextIn] using hd _ hc

theorem Follows.nextIn_eq_false {N : NT} {rest : List Token} {B : List Char} (h : Follows N rest)
    (hd : ∀ c ∈ follow N, c ∉ B) : nextIn rest B = false := by
  rcases h with rfl | h
  · rfl
  · exact nextIn_eq_false_of_disjoint h hd

theorem Follows.mono {N M : NT} {rest : List Token} (h : Follows N rest) (hsub : ∀ c ∈ follow N, c ∈ follow M) :
    Follows M rest := by
  rcases h with rfl | h
  · exact .inl rfl
  · obtain ⟨c, r, rfl, hc⟩ := nextIn_eq_true_iff.mp h
    exact .inr (by simpa [nextIn] using hsub _ hc)

/-- リダイレクトの並びの後ろで '<' も '>' も見ない先読みは、その並びの前でも同じ。 -/
theorem RedirsD.nextIn_append {ts : List Token} {rs : List Redir} (h : RedirsD ts rs) {rest : List Token}
    {B : List Char} (hB : '<' ∉ B ∧ '>' ∉ B) (hrest : nextIn rest B = false) : nextIn (ts ++ rest) B = false := by
  cases h with
  | nil => exact hrest
  | cons hr _ =>
    obtain ⟨c, q, e, rfl, hc, -⟩ := hr.inv
    have hc' : (if c = '+' then '>' else c) ∉ B := by
      rcases List.mem_cons.mp hc with h | h
      · rw [h]
        exact hB.1
      · rw [List.mem_singleton.mp h]
        exact hB.2
    simpa [nextIn] using hc'

/-- 語の並びは、空でなければ語で始まる。 -/
theorem ItemsD.nextIn_append {ts : List Token} {ws : List (Nat × Nat)} {rs : List Redir} (h : ItemsD ts ws rs)
    {rest : List Token} {B : List Char} (hrest : nextIn rest B = false) : nextIn (ts ++ rest) B = false := by
  cases h with
  | nil => exact hrest
  | cons => rfl

/-! ## 完全性 -/

theorem parseredirs_complete {ts : List Token} {rs : List Redir} (h : RedirsD ts rs) :
    ∀ {i : Nat} {rest : List Token}, lexFrom s i = ts ++ rest → nextIn rest ['<', '>'] = false →
      i ≤ s.length → ∃ j, parseredirs s i = some (rs, j) ∧ lexFrom s j.1 = rest ∧ j.1 ≤ s.length := by
  induction h with
  | nil =>
    intro i rest hlex hrest hi
    have hp : (peek s i ['<', '>']).1 = false := by
      rw [peek_fst (by simp [symbols]), hlex]
      exact hrest
    obtain ⟨j, hj, hj'⟩ := parseredirs_nil hp
    exact ⟨j, hj, by rw [hj', lexFrom_peek]; exact hlex, by rw [hj']; exact skipWhite_le hi⟩
  | cons hr _ ih =>
    intro i rest hlex hrest hi
    obtain ⟨c, q, e, rfl, hc, hrc⟩ := hr.inv
    have hp : (peek s i ['<', '>']).1 = true := by
      rw [peek_fst (by simp [symbols]), hlex]
      simp only [List.cons_append, List.nil_append, nextIn]
      exact decide_eq_true hc
    obtain ⟨c', -, hret, hlex'⟩ := peek_sym (by simp [symbols]) hp
    rw [hlex] at hlex'
    simp only [List.cons_append, List.nil_append, List.cons.injEq, Token.sym.injEq] at hlex'
    obtain ⟨rfl, hg⟩ := hlex'
    obtain ⟨ha, hq, he, hf⟩ := gettoken_word hg.symm
    have hle : (gettoken s (peek s i ['<', '>']).2).2.2.2 ≤ s.length := gettoken_le (skipWhite_le hi)
    obtain ⟨j, hj, hrest', hjle⟩ := ih hf hrest (gettoken_le hle)
    obtain ⟨j', hj', hjj⟩ := parseredirs_cons hp ha hj
    refine ⟨j', ?_, by rw [hjj]; exact hrest', by rw [hjj]; exact hjle⟩
    rw [hj', hret, hq, he, hrc]
    rfl

theorem parseexecLoop_complete {ts : List Token} {ws : List (Nat × Nat)} {rs' : List Redir} (h : ItemsD ts ws rs') :
    ∀ {i : Nat} {argv : List (Nat × Nat)} {rs : List Redir} {rest : List Token},
      lexFrom s i = ts ++ rest → Follows .exec rest → argv.length + ws.length < MAXARGS → i ≤ s.length →
        ∃ j, parseexecLoop s i argv rs = some (argv ++ ws, rs ++ rs', j) ∧ lexFrom s j.1 = rest ∧
          j.1 ≤ s.length := by
  induction h with
  | nil =>
    intro i argv rs rest hlex hrest _ hi
    rw [List.nil_append] at hlex
    simp only [List.append_nil]
    rcases hrest with rfl | hnext
    · -- 字句が尽きて、gettoken が 0 を返して break する
      have hp : (peek s i ['|', ')', '&', ';']).1 = false := by
        rw [peek_fst (by simp [symbols]), hlex]
        rfl
      have hlex' : lexFrom s (peek s i ['|', ')', '&', ';']).2 = [] := by
        rw [lexFrom_peek]
        exact hlex
      obtain ⟨ht, hend⟩ := gettoken_of_lexFrom_nil hlex'
      obtain ⟨j, hj, hj'⟩ : ∃ j, parseexecLoop s i argv rs = some (argv, rs, j) ∧ _ := parseexecLoop_end hp ht
      exact ⟨j, hj, by rw [hj']; exact hend, by rw [hj']; exact gettoken_le (skipWhite_le hi)⟩
    · have hp : (peek s i ['|', ')', '&', ';']).1 = true := by
        rw [peek_fst (by simp [symbols]), hlex]
        exact hnext
      obtain ⟨j, hj, hj'⟩ : ∃ j, parseexecLoop s i argv rs = some (argv, rs, j) ∧ _ := parseexecLoop_stop hp
      exact ⟨j, hj, by rw [hj', lexFrom_peek]; exact hlex, by rw [hj']; exact skipWhite_le hi⟩
  | cons hrd hitems ih =>
    rename_i q e ts₁ ts₂ ws₂ rs₁ rs₂
    intro i argv rs rest hlex hrest hlen hi
    have hlex' : lexFrom s (peek s i ['|', ')', '&', ';']).2 = .word q e :: (ts₁ ++ (ts₂ ++ rest)) := by
      rw [lexFrom_peek, hlex]
      simp
    have hp : (peek s i ['|', ')', '&', ';']).1 = false := by
      rw [peek_fst (by simp [symbols]), ← lexFrom_peek s i ['|', ')', '&', ';'], hlex']
      rfl
    obtain ⟨ha, hq, he, ht⟩ := gettoken_word hlex'
    have hg := gettoken_le (skipWhite_le hi : (peek s i ['|', ')', '&', ';']).2 ≤ s.length)
    obtain ⟨j, hj, hj', hjle⟩ :=
      parseredirs_complete hrd ht (hitems.nextIn_append (hrest.nextIn_eq_false (by simp [follow]))) hg
    simp only [List.length_cons] at hlen
    obtain ⟨k, hk, hk', hkle⟩ : ∃ k, parseexecLoop s j.1 (argv ++ [(q, e)]) (rs ++ rs₁) =
        some (argv ++ [(q, e)] ++ ws₂, rs ++ rs₁ ++ rs₂, k) ∧ lexFrom s k.1 = rest ∧ k.1 ≤ s.length :=
      ih hj' hrest (by simp; omega) hjle
    obtain ⟨k', hk'', hkk⟩ : ∃ k', parseexecLoop s i argv rs =
        some (argv ++ [(q, e)] ++ ws₂, rs ++ rs₁ ++ rs₂, k') ∧ k'.1 = k.1 :=
      parseexecLoop_word hp ha (by omega) hj (by rw [hq, he]; exact hk)
    refine ⟨k', ?_, by rw [hkk]; exact hk', by rw [hkk]; exact hkle⟩
    rw [hk'']
    simp

/-- 非終端記号を解析する関数。 -/
def parseNT : NT → (s : List Char) → (i : Nat) → Option (Cmd × {j // i ≤ j})
  | .line => parseline
  | .pipe => parsepipe
  | .exec => parseexec

/-- 導出された列 ts と木 c について: ts の後に follow の字句が続く、行の中のどの位置からも、
parseNT は ts をちょうど読んで c を返す。 -/
def Complete (s : List Char) (N : NT) (ts : List Token) (c : Cmd) : Prop :=
  ∀ i rest, lexFrom s i = ts ++ rest → Follows N rest → i ≤ s.length →
    ∃ j, parseNT N s i = some (c, j) ∧ lexFrom s j.1 = rest ∧ j.1 ≤ s.length

theorem complete_block {ts ts' : List Token} {c : Cmd} {rs : List Redir} (ih : Complete s .line ts c)
    (hrd : RedirsD ts' rs) : Complete s .exec (.sym '(' :: ts ++ .sym ')' :: ts') (wrapRedirs rs c) := by
  intro i rest hlex hrest hi
  have hlex₀ : lexFrom s i = .sym '(' :: (ts ++ .sym ')' :: (ts' ++ rest)) := by
    rw [hlex]
    simp
  have hp : (peek s i ['(']).1 = true := by
    rw [peek_fst (by simp [symbols]), hlex₀]
    rfl
  -- parseexec は空白を読み飛ばした位置で parseblock を呼び、parseblock はもう一度 '(' を見る
  have hlex₁ : lexFrom s (peek s (peek s i ['(']).2 ['(']).2 = .sym '(' :: (ts ++ .sym ')' :: (ts' ++ rest)) := by
    rw [lexFrom_peek, lexFrom_peek]
    exact hlex₀
  have hp₁ : (peek s (peek s i ['(']).2 ['(']).1 = true := by
    rw [peek_fst (by simp [symbols]), ← lexFrom_peek s _ ['('], hlex₁]
    rfl
  obtain ⟨-, hg⟩ := gettoken_sym hlex₁
  have hgle : (gettoken s (peek s (peek s i ['(']).2 ['(']).2).2.2.2 ≤ s.length :=
    gettoken_le (skipWhite_le (skipWhite_le hi))
  obtain ⟨j, hj, hj', hjle⟩ := ih _ _ hg (.inr rfl) hgle
  have hp' : (peek s j.1 [')']).1 = true := by
    rw [peek_fst (by simp [symbols]), hj']
    rfl
  obtain ⟨-, hg'⟩ := gettoken_sym (by rw [lexFrom_peek]; exact hj' : lexFrom s (peek s j.1 [')']).2 = _)
  obtain ⟨k, hk, hk', hkle⟩ :=
    parseredirs_complete hrd hg' (hrest.nextIn_eq_false (by simp [follow])) (gettoken_le (skipWhite_le hjle))
  obtain ⟨k₁, hk₁, hkk₁⟩ := parseblock_eq hp₁ hj hp' hk
  obtain ⟨k₂, hk₂, hkk₂⟩ := parseexec_block hp hk₁
  exact ⟨k₂, hk₂, by rw [hkk₂, hkk₁]; exact hk', by rw [hkk₂, hkk₁]; exact hkle⟩

theorem complete_simple {ts ts' : List Token} {ws : List (Nat × Nat)} {rs rs' : List Redir}
    (hrd : RedirsD ts rs) (hitems : ItemsD ts' ws rs') (hlen : ws.length < MAXARGS) :
    Complete s .exec (ts ++ ts') (wrapRedirs (rs ++ rs') (.exec ws)) := by
  intro i rest hlex hrest hi
  have hitems' := hitems.nextIn_append (hrest.nextIn_eq_false (B := ['<', '>']) (by simp [follow]))
  have hp : (peek s i ['(']).1 = false := by
    rw [peek_fst (by simp [symbols]), hlex, List.append_assoc]
    exact hrd.nextIn_append (by decide) (hitems.nextIn_append (hrest.nextIn_eq_false (by simp [follow])))
  have hlex' : lexFrom s (peek s i ['(']).2 = ts ++ (ts' ++ rest) := by
    rw [lexFrom_peek, hlex, List.append_assoc]
  obtain ⟨j, hj, hj', hjle⟩ := parseredirs_complete hrd hlex' hitems' (skipWhite_le hi)
  obtain ⟨k, hk, hk', hkle⟩ : ∃ k, parseexecLoop s j.1 [] rs = some ([] ++ ws, rs ++ rs', k) ∧
      lexFrom s k.1 = rest ∧ k.1 ≤ s.length :=
    parseexecLoop_complete hitems hj' hrest (by simpa using hlen) hjle
  obtain ⟨k', hk'', hkk⟩ := parseexec_simple hp hj hk
  refine ⟨k', ?_, by rw [hkk]; exact hk', by rw [hkk]; exact hkle⟩
  show parseexec s i = _
  rw [hk'', List.nil_append]

theorem complete_pipe {ts : List Token} {c : Cmd} (ih : Complete s .exec ts c) : Complete s .pipe ts c := by
  intro i rest hlex hrest hi
  obtain ⟨j, hj, hj', hjle⟩ := ih i rest hlex (hrest.mono (by simp [follow])) hi
  have hp : (peek s j.1 ['|']).1 = false := by
    rw [peek_fst (by simp [symbols]), hj']
    exact hrest.nextIn_eq_false (by simp [follow])
  obtain ⟨j', hj'', hjj⟩ := parsepipe_one hj hp
  exact ⟨j', hj'', by rw [hjj, lexFrom_peek]; exact hj', by rw [hjj]; exact skipWhite_le hjle⟩

theorem complete_pipeCons {ts ts' : List Token} {c c' : Cmd} (ih : Complete s .exec ts c)
    (ih' : Complete s .pipe ts' c') : Complete s .pipe (ts ++ .sym '|' :: ts') (.pipe c c') := by
  intro i rest hlex hrest hi
  obtain ⟨j, hj, hj', hjle⟩ := ih i (.sym '|' :: (ts' ++ rest)) (by rw [hlex]; simp) (.inr rfl) hi
  have hp : (peek s j.1 ['|']).1 = true := by
    rw [peek_fst (by simp [symbols]), hj']
    rfl
  obtain ⟨-, hg⟩ := gettoken_sym (by rw [lexFrom_peek]; exact hj' : lexFrom s (peek s j.1 ['|']).2 = _)
  obtain ⟨k, hk, hk', hkle⟩ := ih' _ _ hg hrest (gettoken_le (skipWhite_le hjle))
  obtain ⟨k', hk'', hkk⟩ := parsepipe_cons hj hp hk
  exact ⟨k', hk'', by rw [hkk]; exact hk', by rw [hkk]; exact hkle⟩

theorem complete_line {ts : List Token} {c : Cmd} (n : Nat) (ih : Complete s .pipe ts c) :
    Complete s .line (ts ++ List.replicate n (.sym '&')) (backs n c) := by
  intro i rest hlex hrest hi
  -- pipe の後ろは '&' か、line の後ろに来てよい字句
  have hfp : Follows .pipe (List.replicate n (.sym '&') ++ rest) := by
    cases n with
    | zero => exact hrest.mono (by simp [follow])
    | succ n => exact .inr rfl
  obtain ⟨j, hj, hj', hjle⟩ := ih i _ (by rw [hlex, List.append_assoc]) hfp hi
  obtain ⟨hb, hb', hble⟩ := parseBacks_complete j.1 c hj' (hrest.nextIn_eq_false (by simp [follow]))
  have hs : (peek s (parseBacks s j.1 c).2.1 [';']).1 = false := by
    rw [peek_fst (by simp [symbols]), hb']
    exact hrest.nextIn_eq_false (by simp [follow])
  obtain ⟨j', hj'', hjj⟩ := parseline_one hj hs
  refine ⟨j', ?_, by rw [hjj, lexFrom_peek]; exact hb', by rw [hjj]; exact skipWhite_le (hble hjle)⟩
  show parseline s i = _
  rw [hj'', hb]

theorem complete_lineCons {ts ts' : List Token} {c c' : Cmd} (n : Nat) (ih : Complete s .pipe ts c)
    (ih' : Complete s .line ts' c') :
    Complete s .line (ts ++ List.replicate n (.sym '&') ++ .sym ';' :: ts') (.list (backs n c) c') := by
  intro i rest hlex hrest hi
  have hfp : Follows .pipe (List.replicate n (.sym '&') ++ .sym ';' :: (ts' ++ rest)) := by
    cases n with
    | zero => exact .inr rfl
    | succ n => exact .inr rfl
  obtain ⟨j, hj, hj', hjle⟩ := ih i _ (by rw [hlex]; simp) hfp hi
  obtain ⟨hb, hb', hble⟩ := parseBacks_complete j.1 c hj' rfl
  have hs : (peek s (parseBacks s j.1 c).2.1 [';']).1 = true := by
    rw [peek_fst (by simp [symbols]), hb']
    rfl
  obtain ⟨-, hg⟩ :=
    gettoken_sym (by rw [lexFrom_peek]; exact hb' : lexFrom s (peek s (parseBacks s j.1 c).2.1 [';']).2 = _)
  obtain ⟨k, hk, hk', hkle⟩ := ih' _ _ hg hrest (gettoken_le (skipWhite_le (hble hjle)))
  obtain ⟨k', hk'', hkk⟩ := parseline_cons hj hs hk
  refine ⟨k', ?_, by rw [hkk]; exact hk', by rw [hkk]; exact hkle⟩
  show parseline s i = _
  rw [hk'', hb]

/-- 完全性: 導出についての帰納法で、規則ごとの補題を組み合わせる。 -/
theorem parse_complete {N : NT} {ts : List Token} {c : Cmd} (h : Derives N ts c) : Complete s N ts c := by
  induction h with
  | block _ hrd ih => exact complete_block ih hrd
  | simple hrd hitems hlen => exact complete_simple hrd hitems hlen
  | pipe _ ih => exact complete_pipe ih
  | pipeCons _ _ ih ih' => exact complete_pipeCons ih ih'
  | line n _ ih => exact complete_line n ih
  | lineCons n _ _ ih ih' => exact complete_lineCons n ih ih'

/-! ## parsecmd -/

theorem parsecmd_eq_some {c : Cmd} {buf : List Char} (h : parsecmd s = some (c, buf)) :
    ∃ j : {j // 0 ≤ j}, parseline s 0 = some (c, j) ∧ (peek s j.1 []).2 = s.length ∧ buf = nulterminate c s := by
  rw [parsecmd] at h
  split at h
  · cases h
  · rename_i cmd j hline
    split at h
    · cases h
    · rename_i hend
      cases h
      exact ⟨j, hline, not_not.mp hend, rfl⟩

theorem parsecmd_of_parseline {c : Cmd} {j : {j // 0 ≤ j}} (hl : parseline s 0 = some (c, j))
    (hend : (peek s j.1 []).2 = s.length) : parsecmd s = some (c, nulterminate c s) := by
  rw [parsecmd, hl]
  dsimp only
  rw [if_neg (not_not.mpr hend)]

theorem lexFrom_length (s : List Char) : lexFrom s s.length = [] := by
  have hw : skipWhite s s.length = s.length :=
    Nat.le_antisymm (skipWhite_le (Nat.le_refl _)) (le_skipWhite _ _)
  exact lexFrom_of_nul (gettoken_eq_nul_iff.mpr (by rw [hw]; exact charAt_of_le (Nat.le_refl _)))

/-- 行の字句の列が line から導かれるときに限り parsecmd は返り、返す木はその導出の木。 -/
theorem parsecmd_some_iff (h0 : '\x00' ∉ s) (c : Cmd) :
    (∃ buf, parsecmd s = some (c, buf)) ↔ Derives .line (lexFrom s 0) c := by
  constructor
  · rintro ⟨buf, h⟩
    obtain ⟨j, hl, hend, -⟩ := parsecmd_eq_some h
    obtain ⟨pre, hpre, hd⟩ := (parse_sound s 0).1 c j hl
    -- 残りは空白だけなので、字句はもうない
    have hnil : lexFrom s j.1 = [] := by
      rw [← lexFrom_peek s j.1 [], hend]
      exact lexFrom_length s
    rw [hpre, hnil, List.append_nil]
    exact hd
  · intro hd
    obtain ⟨j, hj, hj', hjle⟩ := parse_complete hd 0 [] (List.append_nil _).symm (.inl rfl) (Nat.zero_le _)
    exact ⟨_, parsecmd_of_parseline hj ((lexFrom_eq_nil_iff h0 hjle).mp hj')⟩

/-! ## nulterminate の後の文字列 -/

theorem getD_set_nul (buf : List Char) (n k : Nat) :
    (buf.set n '\x00').getD k '\x00' = if k ∈ [n] then '\x00' else buf.getD k '\x00' := by
  simp only [List.getD_eq_getElem?_getD, List.getElem?_set, List.mem_singleton]
  by_cases hk : n = k
  · subst hk
    by_cases hn : n < buf.length <;> simp [hn]
  · simp [hk, Ne.symm hk]

theorem length_nulterminate (c : Cmd) (buf : List Char) : (nulterminate c buf).length = buf.length := by
  induction c generalizing buf with
  | exec argv =>
    simp only [nulterminate]
    induction argv generalizing buf with
    | nil => rfl
    | cons a argv ih => rw [List.foldl_cons, ih, List.length_set]
  | redir c r ih => rw [nulterminate, List.length_set, ih]
  | pipe l r ihl ihr => rw [nulterminate, ihr, ihl]
  | list l r ihl ihr => rw [nulterminate, ihr, ihl]
  | back c ih => rw [nulterminate, ih]

/-- 語の終わりの並び l のあとに r を NUL にするのは、l ++ r を NUL にするのと同じ。 -/
theorem ite_nul_append {l r : List Nat} {k : Nat} {x : Char} :
    (if k ∈ r then '\x00' else if k ∈ l then '\x00' else x) = if k ∈ l ++ r then '\x00' else x := by
  by_cases h₁ : k ∈ l
  · rw [if_pos (List.mem_append_left r h₁), if_pos h₁]
    exact ite_self _
  · by_cases h₂ : k ∈ r
    · rw [if_pos h₂, if_pos (List.mem_append_right l h₂)]
    · rw [if_neg h₂, if_neg h₁, if_neg (by simp [h₁, h₂])]

/-- execcmd の nulterminate: 語の終わりを順に NUL にする。 -/
theorem foldl_set_nul_getD (argv : List (Nat × Nat)) (buf : List Char) (k : Nat) :
    (argv.foldl (fun buf a => buf.set a.2 '\x00') buf).getD k '\x00' =
      if k ∈ argv.map Prod.snd then '\x00' else buf.getD k '\x00' := by
  induction argv generalizing buf with
  | nil => simp
  | cons a argv ih =>
    rw [List.foldl_cons, ih, getD_set_nul, ite_nul_append]
    rfl

/-- nulterminate は、木の語の終わりの位置だけを NUL にする。 -/
theorem nulterminate_getD (c : Cmd) (buf : List Char) (k : Nat) :
    (nulterminate c buf).getD k '\x00' = if k ∈ c.words.map Prod.snd then '\x00' else buf.getD k '\x00' := by
  induction c generalizing buf with
  | exec argv => exact foldl_set_nul_getD argv buf k
  | redir c r ih =>
    rw [nulterminate, getD_set_nul, ih, ite_nul_append, Cmd.words, List.map_append]
    rfl
  | pipe l r ihl ihr =>
    rw [nulterminate, ihr, ihl, ite_nul_append, Cmd.words, List.map_append]
  | list l r ihl ihr =>
    rw [nulterminate, ihr, ihl, ite_nul_append, Cmd.words, List.map_append]
  | back c ih =>
    rw [nulterminate, ih]
    rfl

theorem take_drop_eq_of_getD {l₁ l₂ : List Char} {q n : Nat} (hlen : l₁.length = l₂.length)
    (h : ∀ k, q ≤ k → k < q + n → l₁.getD k '\x00' = l₂.getD k '\x00') :
    (l₁.drop q).take n = (l₂.drop q).take n := by
  apply List.ext_getElem
  · simp [hlen]
  · intro m h₁ h₂
    simp only [List.length_take, List.length_drop] at h₁ h₂
    simp only [List.getElem_take, List.getElem_drop]
    have := h (q + m) (by omega) (by omega)
    rwa [← List.getElem_eq_getD, ← List.getElem_eq_getD] at this

/-- q から e の前までに NUL がなく、e の字が NUL なら、q からの文字列は q から e の前まで。 -/
theorem cstr_eq_of_getD {buf : List Char} {q e : Nat} (hqe : q ≤ e) (he : e ≤ buf.length)
    (hne : ∀ k, q ≤ k → k < e → buf.getD k '\x00' ≠ '\x00') (hend : buf.getD e '\x00' = '\x00') :
    cstr buf q = (buf.drop q).take (e - q) := by
  have hsplit : buf.drop q = (buf.drop q).take (e - q) ++ buf.drop e := by
    have := List.take_append_drop (e - q) (buf.drop q)
    rw [List.drop_drop, Nat.add_sub_cancel' hqe] at this
    exact this.symm
  have htail : (buf.drop e).takeWhile (fun x => decide (x ≠ '\x00')) = [] := by
    cases hd : buf.drop e with
    | nil => rfl
    | cons x xs =>
      have hx : buf[e]? = some x := by
        rw [← Nat.add_zero e, ← List.getElem?_drop, hd]
        rfl
      rw [List.getD_eq_getElem?_getD, hx] at hend
      have hx0 : x = '\x00' := hend
      rw [List.takeWhile_cons_of_neg (by simp [hx0])]
  have hpos : ∀ x ∈ (buf.drop q).take (e - q), decide (x ≠ '\x00') = true := by
    intro x hx
    obtain ⟨m, hm, rfl⟩ := List.mem_iff_getElem.mp hx
    simp only [List.length_take, List.length_drop] at hm
    simp only [List.getElem_take, List.getElem_drop]
    have := hne (q + m) (by omega) (by omega)
    rw [← List.getElem_eq_getD] at this
    simpa using this
  calc cstr buf q = ((buf.drop q).take (e - q) ++ buf.drop e).takeWhile (fun x => decide (x ≠ '\x00')) := by
        rw [cstr, ← hsplit]
    _ = (buf.drop q).take (e - q) := by
        rw [List.takeWhile_append_of_pos hpos, htail, List.append_nil]

/-- nulterminate の後、木の語の位置からの文字列は、その語の字の並び。 -/
theorem cstr_nulterminate (h0 : '\x00' ∉ s) {c : Cmd} (hw : ∀ w ∈ c.words, .word w.1 w.2 ∈ lexFrom s 0) :
    ∀ w ∈ c.words, cstr (nulterminate c s) w.1 = (s.drop w.1).take (w.2 - w.1) := by
  rintro ⟨q, e⟩ hmem
  obtain ⟨hqe, hes, hwc, -⟩ := word_of_mem_lexFrom (hw _ hmem)
  -- 語の中の位置は、どの語の終わりでもない: 終わりの字は語の字でないか、行の終わり
  have hends : ∀ k, q ≤ k → k < e → k ∉ c.words.map Prod.snd := by
    intro k hqk hke hk
    obtain ⟨⟨q', e'⟩, hw', he'⟩ := List.mem_map.mp hk
    obtain ⟨-, -, -, hnext'⟩ := word_of_mem_lexFrom (hw _ hw')
    simp only at he'
    subst he'
    exact hnext' (by omega) (hwc e' hqk hke)
  have hbuf : ∀ k, q ≤ k → k < e → (nulterminate c s).getD k '\x00' = s.getD k '\x00' := by
    intro k hqk hke
    rw [nulterminate_getD, if_neg (hends k hqk hke)]
  have hlen := length_nulterminate c s
  rw [cstr_eq_of_getD (Nat.le_of_lt hqe) (by rw [hlen]; exact hes) ?_ ?_]
  · exact take_drop_eq_of_getD hlen fun k hqk hke => hbuf k hqk (by omega)
  · intro k hqk hke
    rw [hbuf k hqk hke]
    exact charAt_ne_nul h0 (by omega)
  · rw [nulterminate_getD, if_pos (List.mem_map.mpr ⟨(q, e), hmem, rfl⟩)]

/-- NUL のない行について: parsecmd が木を返すのは、字句の列が line から導かれるときに限り、返す木は
その導出の木。そうでなければ panic する。返したとき、nulterminate の後の行で、木の argv とファイル名の
文字列は、それぞれの語の字の並び。 -/
theorem parsecmd_derives (s : List Char) (h0 : '\x00' ∉ s) :
    (∀ c, (∃ buf, parsecmd s = some (c, buf)) ↔ Derives .line (lexFrom s 0) c) ∧
    (parsecmd s = none ↔ ∀ c, ¬ Derives .line (lexFrom s 0) c) ∧
    ∀ c buf, parsecmd s = some (c, buf) → ∀ w ∈ c.words, cstr buf w.1 = (s.drop w.1).take (w.2 - w.1) := by
  have hiff := parsecmd_some_iff h0
  refine ⟨hiff, ⟨fun hn c hd => ?_, fun hnd => ?_⟩, fun c buf h => ?_⟩
  · obtain ⟨buf, hb⟩ := (hiff c).mpr hd
    rw [hn] at hb
    cases hb
  · cases h : parsecmd s with
    | none => rfl
    | some r => exact absurd ((hiff r.1).mp ⟨r.2, h⟩) (hnd r.1)
  · obtain ⟨-, -, -, rfl⟩ := parsecmd_eq_some h
    exact cstr_nulterminate h0 ((hiff c).mp ⟨_, h⟩).words_mem

/-- 例の行。 -/
def sampleLine : List Char := "cat < in | wc > out &".toList

theorem parsecmd_derives_sample : '\x00' ∉ sampleLine ∧
    ((∀ c, (∃ buf, parsecmd sampleLine = some (c, buf)) ↔ Derives .line (lexFrom sampleLine 0) c) ∧
    (parsecmd sampleLine = none ↔ ∀ c, ¬ Derives .line (lexFrom sampleLine 0) c) ∧
    ∀ c buf, parsecmd sampleLine = some (c, buf) →
      ∀ w ∈ c.words, cstr buf w.1 = (sampleLine.drop w.1).take (w.2 - w.1)) :=
  ⟨by decide, parsecmd_derives sampleLine (by decide)⟩

end Xv6.Sh
