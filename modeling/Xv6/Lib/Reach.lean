/-!
# 到達可能な状態

初期状態の集まり `init` と遷移の関係 `step` が定める、到達可能な状態。不変条件は
`Reachable.inv` で、初期状態で成り立ち遷移で保たれることから導く。
-/

namespace Xv6.Lib

variable {σ : Type} {init : σ → Prop} {step : σ → σ → Prop}

/-- `init` から `step` を有限回たどって着く状態。 -/
inductive Reachable (init : σ → Prop) (step : σ → σ → Prop) : σ → Prop where
  | init {s : σ} : init s → Reachable init step s
  | step {s s' : σ} : Reachable init step s → step s s' → Reachable init step s'

/-- 帰納的な不変条件は、到達可能なすべての状態で成り立つ。 -/
theorem Reachable.inv {I : σ → Prop} (h0 : ∀ s, init s → I s)
    (h1 : ∀ s s', I s → step s s' → I s') {s : σ} (h : Reachable init step s) : I s := by
  induction h with
  | init hs => exact h0 _ hs
  | step _ hst ih => exact h1 _ _ ih hst

/-- 経路上のすべての状態が `P` を満たす到達。 -/
def ReachableWithin (init : σ → Prop) (step : σ → σ → Prop) (P : σ → Prop) : σ → Prop :=
  Reachable (fun s => init s ∧ P s) (fun s s' => step s s' ∧ P s')

/-- `P` に守られた不変条件: 遷移の前と後の状態が `P` を満たすときだけ保たれればよい。 -/
theorem ReachableWithin.inv {P I : σ → Prop} (h0 : ∀ s, init s → P s → I s)
    (h1 : ∀ s s', I s → P s → step s s' → P s' → I s') {s : σ}
    (h : ReachableWithin init step P s) : I s ∧ P s := by
  induction h with
  | init hs => exact ⟨h0 _ hs.1 hs.2, hs.2⟩
  | step _ hst ih => exact ⟨h1 _ _ ih.1 ih.2 hst.1 hst.2, hst.2⟩

/-- `Option` の中の畳み込みの不変条件: 各段で保たれる性質は、畳み込みの結果でも成り立つ。 -/
theorem foldlM_option_inv {α β : Type} (I : β → Prop) (f : β → α → Option β) :
    ∀ (l : List α) (b b' : β), I b → (∀ b₁ b₂ a, a ∈ l → I b₁ → f b₁ a = some b₂ → I b₂) →
      l.foldlM f b = some b' → I b'
  | [], b, b', hb, _, h => by simp only [List.foldlM_nil] at h; cases h; exact hb
  | a :: l, b, b', hb, hf, h => by
      simp only [List.foldlM_cons] at h
      cases hfa : f b a with
      | none => rw [hfa] at h; cases h
      | some b₁ =>
          rw [hfa] at h
          exact foldlM_option_inv I f l b₁ b' (hf b b₁ a List.mem_cons_self hb hfa)
            (fun b₁ b₂ a' ha' => hf b₁ b₂ a' (List.mem_cons_of_mem _ ha')) h

/-- `Option` の中の畳み込みが止まらないこと: 不変条件を満たす値からは各段が値を返し、
不変条件を保つなら、畳み込みも値を返す。 -/
theorem foldlM_option_total {α β : Type} (I : β → Prop) (f : β → α → Option β) :
    ∀ (l : List α) (b : β), I b → (∀ b₁ a, a ∈ l → I b₁ → ∃ b₂, f b₁ a = some b₂ ∧ I b₂) →
      ∃ b', l.foldlM f b = some b' ∧ I b'
  | [], b, hb, _ => ⟨b, rfl, hb⟩
  | a :: l, b, hb, hf => by
      obtain ⟨b₁, hfa, hb₁⟩ := hf b a List.mem_cons_self hb
      simp only [List.foldlM_cons, hfa, Option.bind_eq_bind, Option.bind_some]
      exact foldlM_option_total I f l b₁ hb₁ fun b₁ a' ha' => hf b₁ a' (List.mem_cons_of_mem _ ha')

/-- どの段も値を変えない畳み込みは、初めの値を返す。 -/
theorem foldlM_option_fixed {α β : Type} (f : β → α → Option β) (b : β) :
    ∀ l : List α, (∀ a ∈ l, f b a = some b) → l.foldlM f b = some b
  | [], _ => rfl
  | a :: l, h => by
      simp only [List.foldlM_cons, h a List.mem_cons_self, Option.bind_eq_bind, Option.bind_some]
      exact foldlM_option_fixed f b l fun a' ha' => h a' (List.mem_cons_of_mem _ ha')

/-- 各段が失敗しなければ、`foldlM` は純粋な `foldl`。 -/
theorem foldlM_option_eq_foldl {α β : Type} {f : β → α → Option β} (g : β → α → β) :
    ∀ (l : List α) (b : β), (∀ b₁ a, a ∈ l → f b₁ a = some (g b₁ a)) → l.foldlM f b = some (l.foldl g b)
  | [], _, _ => rfl
  | a :: l, b, h => by
      simp only [List.foldlM_cons, h b a List.mem_cons_self, Option.bind_eq_bind, Option.bind_some,
        List.foldl_cons]
      exact foldlM_option_eq_foldl g l (g b a) fun b₁ a' ha' => h b₁ a' (List.mem_cons_of_mem _ ha')

/-- `Option` の中の畳み込みの、処理した前半で添字を付けた不変条件: 前半 `p` の後で `I p` が
成り立つ値から、次の要素 `x` の段は `I (p ++ [x])` を満たす値を返す。 -/
theorem foldlM_option_prefix {α β : Type} (f : β → α → Option β) (l : List α) (I : List α → β → Prop)
    {b b' : β} (h0 : I [] b)
    (hstep : ∀ p x q c c', l = p ++ x :: q → I p c → f c x = some c' → I (p ++ [x]) c')
    (h : l.foldlM f b = some b') : I l b' := by
  suffices H : ∀ (r p : List α) (c : β), p ++ r = l → I p c → r.foldlM f c = some b' → I l b' from
    H l [] b rfl h0 h
  intro r
  induction r with
  | nil =>
      rintro p c rfl hc hr
      simp only [List.foldlM_nil, Option.pure_def, Option.some.injEq] at hr
      subst hr
      simpa using hc
  | cons x r ih =>
      rintro p c rfl hc hr
      simp only [List.foldlM_cons] at hr
      cases hx : f c x with
      | none => rw [hx] at hr; cases hr
      | some c' =>
          rw [hx] at hr
          exact ih (p ++ [x]) c' (by simp) (hstep p x r c c' rfl hc hx) hr

/-- 添字 `0, 1, ..., n - 1` の畳み込みが止まらないこと: 添字 t の前までを処理した値の性質
`I t` から、段 t が `I (t + 1)` を満たす値を返すなら、畳み込みは `I n` を満たす値を返す。 -/
theorem foldlM_range_total {β : Type} (f : β → Nat → Option β) (I : Nat → β → Prop) {n : Nat} {b : β}
    (h0 : I 0 b) (hstep : ∀ t c, t < n → I t c → ∃ c', f c t = some c' ∧ I (t + 1) c') :
    ∃ b', (List.range n).foldlM f b = some b' ∧ I n b' := by
  induction n with
  | zero => exact ⟨b, rfl, h0⟩
  | succ n ih =>
    obtain ⟨c, hc, hIc⟩ := ih fun t c ht => hstep t c (Nat.lt_succ_of_lt ht)
    obtain ⟨c', hc', hIc'⟩ := hstep n c (Nat.lt_succ_self n) hIc
    refine ⟨c', ?_, hIc'⟩
    rw [List.range_succ, List.foldlM_append, hc]
    simp [hc']

/-- 値を返す計算に、`P` を満たす値から値を返す続きを繋げても値を返す。 -/
theorem bind_ne_none_of_total {α β : Type} {x : Option α} {f : α → Option β} {P : α → Prop}
    (hx : ∃ a, x = some a ∧ P a) (hf : ∀ a, P a → f a ≠ none) : x.bind f ≠ none := by
  obtain ⟨a, rfl, ha⟩ := hx
  exact hf a ha

end Xv6.Lib
