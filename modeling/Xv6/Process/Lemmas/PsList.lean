import Xv6.Process.Lemmas.Safety

/-!
# ps_list の二つの走査

ps_list の二つの走査は、一回ごとに `compare_ns` と `pids[...]` が `none` に当たらなければ、
失敗しない関数の foldl になる（`Lib.foldlM_option_eq_foldl`）。数える走査は、呼んだプロセスの
名前空間 N の部分木にいる使用中のプロセス（`visible`）を数え、写す走査は、その列の頭の
`limit` 個を表の順に写す。
-/

namespace Xv6.Process

open Xv6.Lib

/-- プロセス q は UNUSED でなく、名前空間が N の部分木にある。 -/
def Visible (k : Kernel) (N : NsId) (q : ProcId) : Prop :=
  (k.proc q).state ≠ .unused ∧ ∃ c, (k.proc q).ns = some c ∧ InSubtree k N c

open Classical in
/-- N の部分木にいる使用中のプロセス、表の順に。 -/
noncomputable def visible (k : Kernel) (N : NsId) : List ProcId :=
  (List.finRange NPROC).filter fun q => decide (Visible k N q)

/-- ps_list の写す走査の一回の値。見えるプロセスだけを、書いた数が limit に達するまで写す。 -/
def psCopyStep (V : ProcId → Bool) (limit : Int) (val : ProcId → Int) (copyout : Nat → Bool)
    (acc : PsListAcc) (q : ProcId) : PsListAcc :=
  if acc.failed then acc
  else if V q = true ∧ (acc.index : Int) < limit then
    if copyout acc.index then ⟨acc.index + 1, acc.written ++ [val q], false⟩ else { acc with failed := true }
  else acc

/-- 数える走査は、見えるプロセスの数を足す。 -/
theorem foldl_count (V : ProcId → Bool) :
    ∀ (l : List ProcId) (n : Int), l.foldl (fun n q => if V q = true then n + 1 else n) n = n + (l.filter V).length
  | [], n => by simp
  | q :: l, n => by
      rw [List.foldl_cons, foldl_count V l, List.filter_cons]
      split
      · rw [List.length_cons]
        push_cast
        omega
      · rfl

/-- 写す走査は、書く余地が r だけ残っていれば、見えるプロセスの列の頭の r 個を写す。
`i + r` は limit（負なら 0）。 -/
theorem foldl_psCopyStep (V : ProcId → Bool) (L : Int) (val : ProcId → Int) (copyout : Nat → Bool) :
    ∀ (l : List ProcId) (i r : Nat) (w : List Int), ((i + r : Nat) : Int) = max L 0 →
      (∀ j, j < i + min (l.filter V).length r → copyout j = true) →
      l.foldl (psCopyStep V L val copyout) ⟨i, w, false⟩ =
        ⟨i + min (l.filter V).length r, w ++ ((l.filter V).take r).map val, false⟩
  | [], i, r, w, _, _ => by simp
  | q :: l, i, r, w, hir, hc => by
      rw [List.foldl_cons]
      by_cases hq : V q = true
      · rw [List.filter_cons_of_pos hq] at hc ⊢
        cases r with
        | zero =>
            -- 書いた数が limit に達した: 残りは何も変えない
            have hstep : psCopyStep V L val copyout ⟨i, w, false⟩ q = ⟨i, w, false⟩ := by
              simp only [psCopyStep, Bool.false_eq_true, ↓reduceIte]
              rw [if_neg (by omega)]
            rw [hstep, foldl_psCopyStep V L val copyout l i 0 w hir (by simpa using hc)]
            simp
        | succ r =>
            have hcopy : copyout i = true := hc i (by simp only [List.length_cons]; omega)
            have hstep : psCopyStep V L val copyout ⟨i, w, false⟩ q = ⟨i + 1, w ++ [val q], false⟩ := by
              simp only [psCopyStep, Bool.false_eq_true, ↓reduceIte]
              rw [if_pos ⟨hq, by omega⟩, if_pos hcopy]
            rw [hstep, foldl_psCopyStep V L val copyout l (i + 1) r (w ++ [val q]) (by rw [← hir]; push_cast; ring)
              fun j hj => hc j (by simp only [List.length_cons]; omega)]
            simp only [List.length_cons, List.take_succ_cons, List.map_cons, List.append_assoc,
              List.singleton_append, PsListAcc.mk.injEq, and_true]
            omega
      · rw [List.filter_cons_of_neg hq] at hc ⊢
        have hstep : psCopyStep V L val copyout ⟨i, w, false⟩ q = ⟨i, w, false⟩ := by
          simp [psCopyStep, hq]
        rw [hstep]
        exact foldl_psCopyStep V L val copyout l i r w hir hc

section

variable {k : Kernel} {P : ProcId} {N : NsId}

open Classical in
/-- 使用中のプロセス q について、`compare_ns(q->ns, N)` は q が見えるかを答える。 -/
theorem NsInv.compareNs_visible (hk : NsInv k) {q : ProcId} (hq : (k.proc q).state ≠ .unused) :
    compareNs k (k.proc q).ns (some N) = some (decide (Visible k N q)) := by
  obtain ⟨c, hc, hok⟩ := hk.chain q hq
  obtain ⟨b, hb, hiff⟩ := compareNs_spec hok N
  rw [hc, hb, Option.some.injEq, Bool.eq_iff_iff, hiff, decide_eq_true_iff]
  constructor
  · exact fun h => ⟨hq, c, hc, h⟩
  · rintro ⟨-, c', hc', h⟩
    rw [hc, Option.some.injEq] at hc'
    exact hc' ▸ h

open Classical in
/-- 到達可能な状態の ps_list: 見えるプロセスの数を返し、copyout が失敗しなければ、見える
プロセスの列の頭の `limit` 個（負なら 0 個）について、`pids[d]`（global なら `pid`）を表の順に
書く。 -/
theorem NsInv.psList_eq (hk : NsInv k) (hN : (k.proc P).ns = some N)
    {d : Fin MAXDEPTH} (hd : (k.namespaces N).depth = d) (limit : Int) (global : Bool) (copyout : Nat → Bool)
    (hcopy : ∀ j, j < (max limit 0).toNat → j < (visible k N).length → copyout j = true) :
    psList P limit global copyout k = some (((visible k N).length : Int),
      ((visible k N).take (max limit 0).toNat).map fun q => if global then (k.proc q).pid else (k.proc q).pids d) := by
  let V : ProcId → Bool := fun q => decide (Visible k N q)
  let val : ProcId → Int := fun q => if global then (k.proc q).pid else (k.proc q).pids d
  unfold psList
  rw [foldlM_option_eq_foldl (fun n q => if V q = true then n + 1 else n) _ _ ?count]
  case count =>
    intro n q _
    rw [hN]
    split
    · next hq =>
        rw [hk.compareNs_visible hq]
        rfl
    · next hq =>
        have hV : V q = false := by simp [V, Visible, hq]
        rw [hV]
        rfl
  rw [foldl_count, Int.zero_add]
  simp only [Option.bind_eq_bind, Option.bind_some]
  have hvis : (List.finRange NPROC).filter V = visible k N := rfl
  rw [hvis]
  -- 書ける数は limit を見えるプロセスの数で抑えた値
  generalize hL : (if limit > ((visible k N).length : Int) then ((visible k N).length : Int) else limit) = L
  rw [foldlM_option_eq_foldl (psCopyStep V L val copyout) _ _ ?copy]
  case copy =>
    intro acc q _
    unfold psCopyStep
    split
    · rfl
    split
    · next hq =>
        rw [hN, hk.compareNs_visible hq]
        simp only [Option.bind_some, hd, pidAt_of_lt _ d.isLt, Fin.eta]
        -- 二つの側の条件は同じ
        split
        · split <;> rfl
        · rfl
    · next hq =>
        have hV : V q = false := by simp [V, Visible, hq]
        rw [hV, if_neg (by simp)]
  rw [foldl_psCopyStep V L val copyout _ 0 (max L 0).toNat [] (by omega) ?hc]
  case hc =>
    intro j hj
    rw [hvis] at hj
    exact hcopy j (by omega) (by omega)
  rw [hvis]
  simp only [Option.bind_some, Bool.false_eq_true, ↓reduceIte, List.nil_append, Option.some.injEq,
    Prod.mk.injEq, true_and]
  congr 1
  rw [List.take_eq_take_iff]
  omega

end

end Xv6.Process
