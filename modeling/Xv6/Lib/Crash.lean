import Mathlib.Data.List.Range

/-!
# 原子的な書き込みの列と、途中での停止

状態を一つずつ書き換える書き込みの列は、電源が切れると任意の接頭辞だけが済んだ状態で止まる。
回復の手続きは止まった状態から自分の書き込みの列を決めるが、それも途中で止まりうる。
回復の各接頭辞が不変条件を保ち、最後まで走った回復が目的の状態に着くなら、何度止まっても
最後に一度最後まで走った回復は目的の状態に着く（`recoverWithCrashes_spec`）。
-/

namespace Xv6.Lib

variable {σ : Type}

/-- 書き込みの列を順に済ませる。 -/
def applyWrites (ws : List (σ → σ)) (s : σ) : σ := ws.foldl (fun s w => w s) s

@[simp] theorem applyWrites_nil (s : σ) : applyWrites [] s = s := rfl

@[simp] theorem applyWrites_cons (w : σ → σ) (ws : List (σ → σ)) (s : σ) :
    applyWrites (w :: ws) s = applyWrites ws (w s) := rfl

theorem applyWrites_append (ws₁ ws₂ : List (σ → σ)) (s : σ) :
    applyWrites (ws₁ ++ ws₂) s = applyWrites ws₂ (applyWrites ws₁ s) :=
  List.foldl_append

/-- 接頭辞は、前半の接頭辞と後半の接頭辞に分かれる。 -/
theorem applyWrites_take_append (ws₁ ws₂ : List (σ → σ)) (i : Nat) (s : σ) :
    applyWrites ((ws₁ ++ ws₂).take i) s =
      applyWrites (ws₂.take (i - ws₁.length)) (applyWrites (ws₁.take i) s) := by
  rw [List.take_append, applyWrites_append]

/-- 添字 `i` の書き込みを `f i` とする列の接頭辞の規則: 添字で数えた不変条件が各書き込みで
一つ進むなら、長さ `j` の接頭辞の後で `I j` が成り立つ。 -/
theorem applyWrites_range_map (f : Nat → σ → σ) (I : Nat → σ → Prop) (s : σ) (h0 : I 0 s)
    (hstep : ∀ i s, I i s → I (i + 1) (f i s)) :
    ∀ j, I j (applyWrites ((List.range j).map f) s)
  | 0 => h0
  | j + 1 => by
      rw [List.range_succ, List.map_append, applyWrites_append]
      exact hstep j _ (applyWrites_range_map f I s h0 hstep j)

/-- 連結した列の接頭辞の規則: 前半のどの接頭辞の後でも、前半をすべて済ませた状態からの後半の
どの接頭辞の後でも J が成り立つなら、連結した列のどの接頭辞の後でも J が成り立つ。 -/
theorem applyWrites_take_append_inv (J : σ → Prop) (ws₁ ws₂ : List (σ → σ)) (s : σ)
    (h₁ : ∀ i, J (applyWrites (ws₁.take i) s))
    (h₂ : ∀ i, J (applyWrites (ws₂.take i) (applyWrites ws₁ s))) :
    ∀ i, J (applyWrites ((ws₁ ++ ws₂).take i) s) := by
  intro i
  rw [applyWrites_take_append]
  by_cases hi : i ≤ ws₁.length
  · rw [Nat.sub_eq_zero_of_le hi, List.take_zero, applyWrites_nil]
    exact h₁ i
  · rw [List.take_of_length_le (l := ws₁) (by omega)]
    exact h₂ _

/-- 一つの書き込みの接頭辞は、何もしないか、その書き込み。 -/
theorem applyWrites_take_singleton (J : σ → Prop) (w : σ → σ) (s : σ) (h0 : J s) (h1 : J (w s)) :
    ∀ i, J (applyWrites ([w].take i) s)
  | 0 => h0
  | _ + 1 => by simpa using h1

theorem take_range_map (f : Nat → σ → σ) (n i : Nat) :
    ((List.range n).map f).take i = (List.range (min i n)).map f := by
  rw [← List.map_take, List.take_range]

/-! ## 途中で止まる回復 -/

/-- 回復の手続き `recover` を、止まるたびに初めからやり直す。`cs` の各数はその回の回復が
止まるまでに済ませた書き込みの数で、最後の回は最後まで走る。 -/
def recoverWithCrashes (recover : σ → List (σ → σ)) : List Nat → σ → σ
  | [], s => applyWrites (recover s) s
  | c :: cs, s => recoverWithCrashes recover cs (applyWrites ((recover s).take c) s)

/-- 何度止まっても回復が目的に着く規則。 -/
theorem recoverWithCrashes_spec (recover : σ → List (σ → σ)) (I Q : σ → Prop)
    (hcrash : ∀ s c, I s → I (applyWrites ((recover s).take c) s))
    (hdone : ∀ s, I s → Q (applyWrites (recover s) s)) :
    ∀ cs s, I s → Q (recoverWithCrashes recover cs s)
  | [], s, hs => hdone s hs
  | c :: cs, s, hs => recoverWithCrashes_spec recover I Q hcrash hdone cs _ (hcrash s c hs)

end Xv6.Lib
