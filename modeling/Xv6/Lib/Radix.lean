import Mathlib.Data.List.Infix

/-!
# 基数木

節は型 α の値で、節 t の欄 i には値 `E t i : ε` が入っている。欄の読み方 `Scheme` は、値が有効か
（`valid`）と、有効な値が指す子の節（`target`）を決める。根から欄の番号の列 p をたどって着く節が
`descend` で、深さ d の節の有効な欄が葉である（`lookup`）。

道は欄の番号が n より小さく、長さが d 以下の列である（`Path`）。深さ d までの節にはただ一つの道で
着くこと（`Unique`）が、節と欄の組から道を決める。そこから、書き込みの影響が次のように閉じる。

* 節でない所だけを変える書き込みは、道も葉も変えない（`descend_congr`, `lookup_congr`）。
* 道 q の先の節の欄 i だけを変える書き込みは、`q ++ [i]` を頭に持たない道を変えない
  （`descend_write`）。深さ d の節の欄なら、変わる葉はその欄だけである（`lookup_write`）。
* 無効な欄を、まだ節でない空の節 f に向ける書き込みは、f を節に加えるが、葉は変えない
  （`descend_alloc`, `lookup_alloc`）。
-/

namespace Xv6.Lib.Radix

variable {α ε : Type*}

/-- 欄の値の読み方。 -/
structure Scheme (α ε : Type*) where
  valid : ε → Bool
  target : ε → α

/-- 欄の番号が n より小さく、長さが d 以下の道。 -/
def Path (n d : Nat) (p : List Nat) : Prop := p.length ≤ d ∧ ∀ i ∈ p, i < n

theorem Path.nil (n d : Nat) : Path n d [] := ⟨Nat.zero_le d, fun _ h => absurd h List.not_mem_nil⟩

theorem Path.of_append {n d : Nat} {p q : List Nat} (h : Path n d (p ++ q)) : Path n d p := by
  refine ⟨?_, fun i hi => h.2 i (List.mem_append_left q hi)⟩
  have := h.1
  rw [List.length_append] at this
  omega

theorem Path.snoc {n d i : Nat} {p : List Nat} (hp : Path n d p) (hlt : p.length < d) (hi : i < n) :
    Path n d (p ++ [i]) := by
  refine ⟨?_, fun j hj => ?_⟩
  · rw [List.length_append, List.length_singleton]
    omega
  · rcases List.mem_append.mp hj with hj | hj
    · exact hp.2 j hj
    · rw [List.mem_singleton.mp hj]
      exact hi

/-- 長さ d の道は、それより長い列を頭に持たない。 -/
theorem Path.not_prefix {n d : Nat} {p q : List Nat} (hp : Path n d p) (hq : d < q.length) : ¬ q <+: p :=
  fun h => absurd (Nat.le_trans h.length_le hp.1) (Nat.not_le.mpr hq)

theorem Path.cons {n d i : Nat} {p : List Nat} (hp : Path n d p) (hi : i < n) : Path n (d + 1) (i :: p) :=
  ⟨Nat.succ_le_succ hp.1, fun j hj => (List.mem_cons.mp hj).elim (fun e => e ▸ hi) (hp.2 j)⟩

theorem Path.of_cons {n d i : Nat} {p : List Nat} (h : Path n (d + 1) (i :: p)) : i < n ∧ Path n d p :=
  ⟨h.2 i List.mem_cons_self, Nat.le_of_succ_le_succ h.1, fun j hj => h.2 j (List.mem_cons_of_mem _ hj)⟩

namespace Scheme

variable (S : Scheme α ε)

/-- 節 t の欄 i の子。 -/
def child (E : α → Nat → ε) (t : α) (i : Nat) : Option α :=
  if S.valid (E t i) then some (S.target (E t i)) else none

/-- 節 t から欄の番号の列をたどって着く節。 -/
def descend (E : α → Nat → ε) : α → List Nat → Option α
  | t, [] => some t
  | t, i :: p =>
    match S.child E t i with
    | none => none
    | some c => descend E c p

/-- 道 p の先の節の欄 i が有効なら、その値。 -/
def lookup (E : α → Nat → ε) (root : α) (p : List Nat) (i : Nat) : Option ε :=
  (S.descend E root p).bind fun t => if S.valid (E t i) then some (E t i) else none

/-- 深さ d までの節。 -/
def IsNode (E : α → Nat → ε) (root : α) (n d : Nat) (t : α) : Prop :=
  ∃ p, Path n d p ∧ S.descend E root p = some t

/-- 深さ d までの節には、ただ一つの道で着く。 -/
def Unique (E : α → Nat → ε) (root : α) (n d : Nat) : Prop :=
  ∀ p q t, Path n d p → Path n d q → S.descend E root p = some t → S.descend E root q = some t → p = q

theorem descend_append (E : α → Nat → ε) : ∀ (t : α) (p q : List Nat),
    S.descend E t (p ++ q) = (S.descend E t p).bind fun c => S.descend E c q
  | _, [], _ => rfl
  | t, i :: p, q => by
    simp only [List.cons_append, descend]
    cases S.child E t i with
    | none => rfl
    | some c => exact descend_append E c p q

theorem descend_snoc (E : α → Nat → ε) (t : α) (p : List Nat) (i : Nat) :
    S.descend E t (p ++ [i]) = (S.descend E t p).bind fun c => S.child E c i := by
  rw [descend_append]
  congr 1
  funext c
  simp only [descend]
  cases S.child E c i <;> rfl

theorem isNode_root (E : α → Nat → ε) (root : α) (n d : Nat) : S.IsNode E root n d root :=
  ⟨[], Path.nil n d, rfl⟩

variable {S} {E E' : α → Nat → ε} {root : α} {n d : Nat}

/-- 根のどの欄も無効なら、根から着く節は根だけで、空でない道は行き止まる。 -/
theorem eq_nil_of_invalid (h : ∀ i < n, S.valid (E root i) = false) {p : List Nat} {t : α}
    (hp : Path n d p) (hd : S.descend E root p = some t) : p = [] ∧ t = root := by
  cases p with
  | nil => exact ⟨rfl, (Option.some.inj hd).symm⟩
  | cons i p =>
    have hi : S.child E root i = none := by
      rw [child, h i (hp.2 i List.mem_cons_self)]
      rfl
    simp only [descend, hi] at hd
    cases hd

theorem isNode_iff_of_invalid (h : ∀ i < n, S.valid (E root i) = false) {t : α} :
    S.IsNode E root n d t ↔ t = root := by
  constructor
  · rintro ⟨p, hp, hd⟩
    exact (eq_nil_of_invalid h hp hd).2
  · intro ht
    rw [ht]
    exact S.isNode_root E root n d

theorem unique_of_invalid (h : ∀ i < n, S.valid (E root i) = false) : S.Unique E root n d := by
  intro p q t hp hq hdp hdq
  rw [(eq_nil_of_invalid h hp hdp).1, (eq_nil_of_invalid h hq hdq).1]

/-! ## 子の部分木 -/

section Child

variable {t c u : α} {i : Nat}

theorem descend_cons_of_child (hc : S.child E t i = some c) (p : List Nat) :
    S.descend E t (i :: p) = S.descend E c p := by
  simp only [descend, hc]

/-- 深さ 0 までの節は根だけ。 -/
theorem isNode_zero_iff : S.IsNode E t n 0 u ↔ u = t := by
  constructor
  · rintro ⟨p, hp, hd⟩
    rw [List.eq_nil_of_length_eq_zero (Nat.le_zero.mp hp.1)] at hd
    exact (Option.some.inj hd).symm
  · rintro rfl
    exact S.isNode_root E u n 0

/-- 深さ d + 1 までの節は、根か、有効な欄の子から深さ d までの節である。 -/
theorem isNode_succ_iff :
    S.IsNode E t n (d + 1) u ↔ u = t ∨ ∃ i < n, ∃ c, S.child E t i = some c ∧ S.IsNode E c n d u := by
  constructor
  · rintro ⟨_ | ⟨i, p⟩, hp, hd⟩
    · exact .inl (Option.some.inj hd).symm
    · obtain ⟨hi, hp'⟩ := hp.of_cons
      cases hc : S.child E t i with
      | none =>
        simp only [descend, hc] at hd
        cases hd
      | some c =>
        rw [descend_cons_of_child hc] at hd
        exact .inr ⟨i, hi, c, hc, p, hp', hd⟩
  · rintro (rfl | ⟨i, hi, c, hc, p, hp, hd⟩)
    · exact S.isNode_root E u n _
    · exact ⟨i :: p, hp.cons hi, (descend_cons_of_child hc p).trans hd⟩

theorem isNode_of_child (hi : i < n) (hc : S.child E t i = some c) (h : S.IsNode E c n d u) :
    S.IsNode E t n (d + 1) u :=
  isNode_succ_iff.mpr (.inr ⟨i, hi, c, hc, h⟩)

variable (hu : S.Unique E t n (d + 1)) (hi : i < n) (hc : S.child E t i = some c)
include hu hi hc

/-- 子の部分木でも、節にはただ一つの道で着く。 -/
theorem Unique.child : S.Unique E c n d := by
  intro p q v hp hq hdp hdq
  exact (List.cons.inj (hu (i :: p) (i :: q) v (hp.cons hi) (hq.cons hi)
    ((descend_cons_of_child hc p).trans hdp) ((descend_cons_of_child hc q).trans hdq))).2

/-- 根は子の部分木の節でない。 -/
theorem Unique.root_not_mem_child : ¬ S.IsNode E c n d t := by
  rintro ⟨p, hp, hd⟩
  cases hu (i :: p) [] t (hp.cons hi) (Path.nil n (d + 1)) ((descend_cons_of_child hc p).trans hd) rfl

/-- 違う欄の子の部分木は、節を分け合わない。 -/
theorem Unique.eq_of_mem_child {j : Nat} {c' : α} (hj : j < n) (hc' : S.child E t j = some c')
    (h₁ : S.IsNode E c n d u) (h₂ : S.IsNode E c' n d u) : i = j := by
  obtain ⟨p, hp, hd⟩ := h₁
  obtain ⟨q, hq, hd'⟩ := h₂
  exact (List.cons.inj (hu (i :: p) (j :: q) u (hp.cons hi) (hq.cons hj)
    ((descend_cons_of_child hc p).trans hd) ((descend_cons_of_child hc' q).trans hd'))).1

end Child

/-! ## 節でない所の書き込み -/

section Congr

variable (hE : ∀ t, S.IsNode E root n d t → ∀ i < n, E' t i = E t i)
include hE

/-- 道の頭 pre の先の節 t から、残りの p をたどる。p の途中の節はどれも節なので、その欄は変わらない。 -/
theorem descend_congr_from : ∀ (p pre : List Nat) (t : α), S.descend E root pre = some t →
    Path n d (pre ++ p) → S.descend E' t p = S.descend E t p
  | [], _, _, _, _ => rfl
  | i :: p, pre, t, ht, hp => by
    have hnode : S.IsNode E root n d t := ⟨pre, hp.of_append, ht⟩
    have hchild : S.child E' t i = S.child E t i := by
      simp only [child, hE t hnode i (hp.2 i (by simp))]
    simp only [descend, hchild]
    cases hc : S.child E t i with
    | none => rfl
    | some c =>
      refine descend_congr_from p (pre ++ [i]) c ?_ (by simpa using hp)
      rw [descend_snoc, ht, Option.bind_some, hc]

theorem descend_congr {p : List Nat} (hp : Path n d p) : S.descend E' root p = S.descend E root p :=
  descend_congr_from hE p [] root rfl (by simpa using hp)

theorem isNode_congr {t : α} : S.IsNode E' root n d t ↔ S.IsNode E root n d t := by
  constructor
  · rintro ⟨p, hp, h⟩
    exact ⟨p, hp, (descend_congr hE hp).symm.trans h⟩
  · rintro ⟨p, hp, h⟩
    exact ⟨p, hp, (descend_congr hE hp).trans h⟩

theorem unique_congr (hu : S.Unique E root n d) : S.Unique E' root n d := by
  intro p q t hp hq h₁ h₂
  rw [descend_congr hE hp] at h₁
  rw [descend_congr hE hq] at h₂
  exact hu p q t hp hq h₁ h₂

theorem lookup_congr {p : List Nat} {i : Nat} (hp : Path n d p) (hi : i < n) :
    S.lookup E' root p i = S.lookup E root p i := by
  unfold lookup
  rw [descend_congr hE hp]
  cases h : S.descend E root p with
  | none => rfl
  | some t => rw [Option.bind_some, Option.bind_some, hE t ⟨p, hp, h⟩ i hi]

end Congr

/-! ## 一つの欄の書き込み -/

section Write

variable {q₀ : List Nat} {t₀ : α} {i₀ : Nat} (hu : S.Unique E root n d) (hq₀ : Path n d q₀)
  (ht₀ : S.descend E root q₀ = some t₀)
  (hE : ∀ t, S.IsNode E root n d t → ∀ i < n, ¬ (t = t₀ ∧ i = i₀) → E' t i = E t i)
include hu hq₀ ht₀ hE

/-- 書いた欄を通らない道は変わらない。欄 `(t₀, i₀)` を通る道は、`Unique` から `q₀ ++ [i₀]` を
頭に持つ。 -/
theorem descend_write_from : ∀ (p pre : List Nat) (t : α), S.descend E root pre = some t →
    Path n d (pre ++ p) → ¬ (q₀ ++ [i₀]) <+: (pre ++ p) → S.descend E' t p = S.descend E t p
  | [], _, _, _, _, _ => rfl
  | i :: p, pre, t, ht, hp, hpre => by
    have hnode : S.IsNode E root n d t := ⟨pre, hp.of_append, ht⟩
    have hne : ¬ (t = t₀ ∧ i = i₀) := by
      rintro ⟨rfl, rfl⟩
      obtain rfl := hu pre q₀ t hp.of_append hq₀ ht ht₀
      exact hpre ⟨p, by simp⟩
    have hchild : S.child E' t i = S.child E t i := by
      simp only [child, hE t hnode i (hp.2 i (by simp)) hne]
    simp only [descend, hchild]
    cases hc : S.child E t i with
    | none => rfl
    | some c =>
      refine descend_write_from p (pre ++ [i]) c ?_ (by simpa using hp) (by simpa using hpre)
      rw [descend_snoc, ht, Option.bind_some, hc]

theorem descend_write {p : List Nat} (hp : Path n d p) (hpre : ¬ (q₀ ++ [i₀]) <+: p) :
    S.descend E' root p = S.descend E root p :=
  descend_write_from hu hq₀ ht₀ hE p [] root rfl (by simpa using hp) (by simpa using hpre)

/-! 深さ d の節の欄の書き込み: 木の形は変わらず、葉はその欄だけが変わる。 -/

variable (hlen : q₀.length = d)
include hlen

theorem descend_write_leaf {p : List Nat} (hp : Path n d p) : S.descend E' root p = S.descend E root p :=
  descend_write hu hq₀ ht₀ hE hp (hp.not_prefix (by simp [hlen]))

theorem isNode_write_leaf {t : α} : S.IsNode E' root n d t ↔ S.IsNode E root n d t := by
  constructor
  · rintro ⟨p, hp, h⟩
    exact ⟨p, hp, (descend_write_leaf hu hq₀ ht₀ hE hlen hp).symm.trans h⟩
  · rintro ⟨p, hp, h⟩
    exact ⟨p, hp, (descend_write_leaf hu hq₀ ht₀ hE hlen hp).trans h⟩

theorem unique_write_leaf : S.Unique E' root n d := by
  intro p q t hp hq h₁ h₂
  rw [descend_write_leaf hu hq₀ ht₀ hE hlen hp] at h₁
  rw [descend_write_leaf hu hq₀ ht₀ hE hlen hq] at h₂
  exact hu p q t hp hq h₁ h₂

theorem lookup_write {p : List Nat} {i : Nat} (hp : Path n d p) (hi : i < n) (hne : ¬ (p = q₀ ∧ i = i₀)) :
    S.lookup E' root p i = S.lookup E root p i := by
  unfold lookup
  rw [descend_write_leaf hu hq₀ ht₀ hE hlen hp]
  cases h : S.descend E root p with
  | none => rfl
  | some t =>
    have hti : ¬ (t = t₀ ∧ i = i₀) := by
      rintro ⟨rfl, rfl⟩
      exact hne ⟨hu p q₀ t hp hq₀ h ht₀, rfl⟩
    rw [Option.bind_some, Option.bind_some, hE t ⟨p, hp, h⟩ i hi hti]

theorem lookup_write_self :
    S.lookup E' root q₀ i₀ = if S.valid (E' t₀ i₀) then some (E' t₀ i₀) else none := by
  unfold lookup
  rw [descend_write_leaf hu hq₀ ht₀ hE hlen hq₀, ht₀, Option.bind_some]

end Write

/-! ## 新しい節を付ける書き込み -/

section Alloc

variable {q₀ : List Nat} {t₀ f : α} {i₀ : Nat} (hu : S.Unique E root n d) (hq₀ : Path n d q₀)
  (ht₀ : S.descend E root q₀ = some t₀) (hnone : S.child E t₀ i₀ = none)
  (hnew : S.child E' t₀ i₀ = some f) (hempty : ∀ j < n, S.child E' f j = none)
  (hE : ∀ t, S.IsNode E root n d t → ∀ i < n, ¬ (t = t₀ ∧ i = i₀) → E' t i = E t i)
include hu hq₀ ht₀ hnone hnew hempty hE

/-- 新しい欄を通る道は、その欄で f に着き、その先は空である。ほかの道は変わらない。 -/
theorem descend_alloc {p : List Nat} (hp : Path n d p) :
    S.descend E' root p = if p = q₀ ++ [i₀] then some f else S.descend E root p := by
  by_cases hpre : (q₀ ++ [i₀]) <+: p
  · obtain ⟨r, rfl⟩ := hpre
    have hlong : ¬ (q₀ ++ [i₀]) <+: q₀ := fun h => by
      have := h.length_le
      rw [List.length_append, List.length_singleton] at this
      omega
    have hq' : S.descend E' root q₀ = some t₀ := (descend_write hu hq₀ ht₀ hE hq₀ hlong).trans ht₀
    have hold : S.descend E root (q₀ ++ [i₀] ++ r) = none := by
      rw [descend_append, descend_snoc, ht₀, Option.bind_some, hnone, Option.bind_none]
    rw [hold, descend_append, descend_snoc, hq', Option.bind_some, hnew, Option.bind_some]
    -- f の欄はどれも無効なので、f の先へは進めない
    cases r with
    | nil => simp [descend]
    | cons j r =>
      have hj : j < n := hp.2 j (by simp)
      simp [descend, hempty j hj]
  · have hne : p ≠ q₀ ++ [i₀] := by
      rintro rfl
      exact hpre (List.prefix_refl _)
    rw [if_neg hne]
    exact descend_write hu hq₀ ht₀ hE hp hpre

theorem isNode_alloc (hlt : q₀.length < d) (hi₀ : i₀ < n) {t : α} :
    S.IsNode E' root n d t ↔ S.IsNode E root n d t ∨ t = f := by
  constructor
  · rintro ⟨p, hp, h⟩
    rw [descend_alloc hu hq₀ ht₀ hnone hnew hempty hE hp] at h
    split at h
    · exact .inr (Option.some.inj h).symm
    · exact .inl ⟨p, hp, h⟩
  · rintro (⟨p, hp, h⟩ | rfl)
    · refine ⟨p, hp, ?_⟩
      rw [descend_alloc hu hq₀ ht₀ hnone hnew hempty hE hp, if_neg, h]
      rintro rfl
      rw [descend_snoc, ht₀, Option.bind_some, hnone] at h
      cases h
    · have hpa := hq₀.snoc hlt hi₀
      exact ⟨_, hpa, by rw [descend_alloc hu hq₀ ht₀ hnone hnew hempty hE hpa, if_pos rfl]⟩

theorem unique_alloc (hf : ¬ S.IsNode E root n d f) : S.Unique E' root n d := by
  intro p q t hp hq h₁ h₂
  rw [descend_alloc hu hq₀ ht₀ hnone hnew hempty hE hp] at h₁
  rw [descend_alloc hu hq₀ ht₀ hnone hnew hempty hE hq] at h₂
  -- f に着く古い道は無いので、f に着くのは新しい道だけ
  split at h₁ <;> split at h₂
  · next e₁ e₂ => rw [e₁, e₂]
  · have hft : f = t := Option.some.inj h₁
    exact absurd ⟨q, hq, hft ▸ h₂⟩ hf
  · have hft : f = t := Option.some.inj h₂
    exact absurd ⟨p, hp, hft ▸ h₁⟩ hf
  · exact hu p q t hp hq h₁ h₂

/-- 葉の深さの道では、新しい節 f の欄はどれも無効なので、葉は変わらない。 -/
theorem lookup_alloc (hlt : q₀.length < d) {p : List Nat} {i : Nat} (hp : Path n d p) (hlen : p.length = d)
    (hi : i < n) :
    S.lookup E' root p i = S.lookup E root p i := by
  unfold lookup
  rw [descend_alloc hu hq₀ ht₀ hnone hnew hempty hE hp]
  split
  · next e =>
    have hold : S.descend E root p = none := by
      rw [e, descend_snoc, ht₀, Option.bind_some, hnone]
    have hv : S.valid (E' f i) = false := by
      have := hempty i hi
      simp only [child] at this
      split at this
      · cases this
      · next h => simpa using h
    rw [hold, Option.bind_some, Option.bind_none, hv]
    rfl
  · cases h : S.descend E root p with
    | none => rfl
    | some t =>
      have hti : ¬ (t = t₀ ∧ i = i₀) := by
        rintro ⟨rfl, rfl⟩
        obtain rfl := hu p q₀ t hp hq₀ h ht₀
        omega
      rw [Option.bind_some, Option.bind_some, hE t ⟨p, hp, h⟩ i hi hti]

end Alloc

end Scheme

end Xv6.Lib.Radix
