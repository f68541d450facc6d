import Xv6.Log.Basic

/-!
# commit はクラッシュに対して原子的

ヘッダの n が 0 のディスクで取引を commit する。commit の書き込みのどこで止まっても、その後の
`recover_from_log` が何度止まっても、最後に一度最後まで走った回復の後では、ヘッダの n は 0 で、
取引の本来の場所はすべて新しい中身か、すべて古い中身である（`commit_crash_atomic`）。

回復の前後で成り立つ状態 `Recoverable` は二通り: ヘッダの n が 0 で本来の場所が全部古いか全部
新しい、または、ヘッダが取引を指し、ログのブロックがそろい、本来の場所がそれぞれ古いか新しい。
commit のどの接頭辞の後でも、回復のどの接頭辞の後でも、この状態にある。
-/

namespace Xv6.Log

open Xv6.Lib

variable {α : Type}

/-! ## 書き込みの効果 -/

@[simp] theorem bwriteData_head (b : Nat) (v : α) (d : Disk α) : (bwriteData b v d).head = d.head :=
  rfl

@[simp] theorem bwriteData_data (b : Nat) (v : α) (d : Disk α) :
    (bwriteData b v d).data = Function.update d.data b v := rfl

@[simp] theorem copyBlock_head (dst src : Nat) (d : Disk α) : (copyBlock dst src d).head = d.head :=
  rfl

@[simp] theorem copyBlock_data (dst src : Nat) (d : Disk α) :
    (copyBlock dst src d).data = Function.update d.data dst (d.data src) := rfl

@[simp] theorem bwriteHead_data (lh : LogHeader) (d : Disk α) : (bwriteHead lh d).data = d.data :=
  rfl

@[simp] theorem bwriteHead_n (lh : LogHeader) (d : Disk α) : (bwriteHead lh d).head.n = lh.n := rfl

theorem bwriteHead_block (lh : LogHeader) (d : Disk α) {i : Nat} (hi : i < lh.n) :
    (bwriteHead lh d).head.block i = lh.block i := by
  simp [bwriteHead, hi]

/-- `write_log` の長さ j の接頭辞: ログのブロック `start + t + 1`（t < j）にキャッシュの中身を
書き、ヘッダとほかのブロックは変えない。 -/
theorem writeLog_prefix (m : LogMem α) (d : Disk α) (j : Nat) :
    (applyWrites ((List.range j).map (writeLogBlock m)) d).head = d.head ∧
    (∀ t < j, (applyWrites ((List.range j).map (writeLogBlock m)) d).data (m.start + t + 1) =
      m.cache (m.lh.block t)) ∧
    ∀ b, (∀ t < j, m.start + t + 1 ≠ b) →
      (applyWrites ((List.range j).map (writeLogBlock m)) d).data b = d.data b := by
  refine applyWrites_range_map (writeLogBlock m) (fun j d' => d'.head = d.head ∧
      (∀ t < j, d'.data (m.start + t + 1) = m.cache (m.lh.block t)) ∧
      ∀ b, (∀ t < j, m.start + t + 1 ≠ b) → d'.data b = d.data b) d
    ⟨rfl, fun _ h => absurd h (Nat.not_lt_zero _), fun _ _ => rfl⟩ ?_ j
  rintro i d' ⟨hh, hl, hf⟩
  refine ⟨hh, fun t ht => ?_, fun b hb => ?_⟩
  · rw [writeLogBlock, bwriteData_data]
    rcases Nat.lt_succ_iff_lt_or_eq.mp ht with ht | rfl
    · rw [Function.update_of_ne (by omega)]
      exact hl t ht
    · exact Function.update_self ..
  · rw [writeLogBlock, bwriteData_data, Function.update_of_ne (hb i (by omega)).symm]
    exact hf b fun t ht => hb t (by omega)

/-- `install_trans` の長さ j の接頭辞: ログのブロックがそれぞれの本来の場所の値 `v` を持ち、
本来の場所がログのブロックと重ならなければ、本来の場所 `block[t]`（t < j）は `v` になり、
ヘッダとほかのブロックは変わらない。 -/
theorem installTrans_prefix (start : Nat) (lh : LogHeader) (v : Nat → α) (d : Disk α) :
    ∀ j, (∀ t < j, d.data (start + t + 1) = v (lh.block t)) →
      (∀ t < j, ∀ t' < j, lh.block t' ≠ start + t + 1) →
      (applyWrites ((List.range j).map (installBlock start lh)) d).head = d.head ∧
      (∀ t < j, (applyWrites ((List.range j).map (installBlock start lh)) d).data (lh.block t) =
        v (lh.block t)) ∧
      ∀ b, (∀ t < j, lh.block t ≠ b) →
        (applyWrites ((List.range j).map (installBlock start lh)) d).data b = d.data b
  | 0, _, _ => ⟨rfl, fun _ h => absurd h (Nat.not_lt_zero _), fun _ _ => rfl⟩
  | j + 1, hv, hsrc => by
      obtain ⟨hh, hnew, hf⟩ := installTrans_prefix start lh v d j
        (fun t ht => hv t (by omega)) (fun t ht t' ht' => hsrc t (by omega) t' (by omega))
      rw [List.range_succ, List.map_append, applyWrites_append]
      -- 写す元のログのブロックは、それまでの写しで書き換えられていない
      have hs := hf _ fun t ht => hsrc j (by omega) t (by omega)
      simp only [List.map_cons, List.map_nil, applyWrites_cons, applyWrites_nil, installBlock,
        copyBlock_head, copyBlock_data]
      refine ⟨hh, fun t ht => ?_, fun b hb => ?_⟩
      · by_cases e : lh.block t = lh.block j
        · rw [e, Function.update_self, hs, hv j (by omega)]
        · have htj : t ≠ j := fun h => e (h ▸ rfl)
          rw [Function.update_of_ne e]
          exact hnew t (by omega)
      · rw [Function.update_of_ne (hb j (by omega)).symm]
        exact hf b fun t ht => hb t (by omega)

theorem installTrans_congr (start : Nat) {h h' : LogHeader} (hn : h.n = h'.n)
    (hb : ∀ t < h.n, h.block t = h'.block t) :
    (installTrans start h : List (Disk α → Disk α)) = installTrans start h' := by
  unfold installTrans
  rw [← hn]
  refine List.map_congr_left fun t ht => ?_
  rw [List.mem_range] at ht
  simp only [installBlock, hb t ht]

/-! ## ログの置き場所 -/

/-- 取引がログに収まり、本来の場所がログの外にある。`log_write` は `n < size - 1` を保ち、
本来の場所がログの外にあることは前提とする。 -/
structure LogLayout (m : LogMem α) : Prop where
  n_lt : m.lh.n < m.size
  home : ∀ t < m.lh.n, m.lh.block t < m.start ∨ m.start + m.size ≤ m.lh.block t

theorem LogLayout.home_ne_log {m : LogMem α} (hl : LogLayout m) {t t' : Nat} (ht : t < m.lh.n)
    (ht' : t' < m.lh.n) : m.lh.block t' ≠ m.start + t + 1 := by
  have := hl.home t' ht'
  have := hl.n_lt
  omega

/-! ## 回復の前後で成り立つ状態 -/

section
variable (m : LogMem α) (d₀ : Disk α)

/-- 本来の場所はすべて commit の前の中身。 -/
def AllOld (d : Disk α) : Prop := ∀ t < m.lh.n, d.data (m.lh.block t) = d₀.data (m.lh.block t)

/-- 本来の場所はすべてキャッシュの中身。 -/
def AllNew (d : Disk α) : Prop := ∀ t < m.lh.n, d.data (m.lh.block t) = m.cache (m.lh.block t)

/-- ログの外の、本来の場所でないブロックは commit の前のまま。 -/
def Untouched (d : Disk α) : Prop :=
  ∀ b, (∀ t < m.lh.n, m.lh.block t ≠ b) → (b < m.start ∨ m.start + m.size ≤ b) →
    d.data b = d₀.data b

/-- ログのブロックがそろっている。 -/
def LogFull (d : Disk α) : Prop := ∀ t < m.lh.n, d.data (m.start + t + 1) = m.cache (m.lh.block t)

/-- ヘッダが取引を指し、ログがそろい、本来の場所はそれぞれ古いか新しい。 -/
def Committed (d : Disk α) : Prop :=
  d.head.n = m.lh.n ∧ (∀ t < m.lh.n, d.head.block t = m.lh.block t) ∧ LogFull m d ∧
    ∀ t < m.lh.n, d.data (m.lh.block t) = m.cache (m.lh.block t) ∨
      d.data (m.lh.block t) = d₀.data (m.lh.block t)

/-- 回復の前後で成り立つ状態。 -/
def Recoverable (d : Disk α) : Prop :=
  Untouched m d₀ d ∧ ((d.head.n = 0 ∧ (AllOld m d₀ d ∨ AllNew m d)) ∨ Committed m d₀ d)

/-- 回復が終わった状態: ヘッダの n は 0 で、本来の場所は全部新しいか全部古く、ほかは変わらない。 -/
def Atomic (d : Disk α) : Prop :=
  d.head.n = 0 ∧ (AllNew m d ∨ AllOld m d₀ d) ∧ Untouched m d₀ d

end

variable {m : LogMem α} {d₀ d : Disk α}

/-- 確定した状態からの `install_trans` の接頭辞は確定した状態を保ち、すべて済むと本来の場所は
すべて新しい。 -/
theorem Committed.install (hl : LogLayout m) (hc : Committed m d₀ d) (hu : Untouched m d₀ d)
    (j : Nat) :
    Untouched m d₀ (applyWrites ((installTrans m.start m.lh).take j) d) ∧
      Committed m d₀ (applyWrites ((installTrans m.start m.lh).take j) d) ∧
      (m.lh.n ≤ j → AllNew m (applyWrites ((installTrans m.start m.lh).take j) d)) := by
  obtain ⟨hn, hb, hlog, hhome⟩ := hc
  rw [installTrans, take_range_map]
  set i := min j m.lh.n with hi
  obtain ⟨hh, hnew, hf⟩ := installTrans_prefix m.start m.lh m.cache d i
    (fun t ht => hlog t (by omega)) (fun t ht t' ht' => hl.home_ne_log (by omega) (by omega))
  -- ログのブロックと、本来の場所でないブロックは書き換えられない
  have hkeep : ∀ b, (∀ t < m.lh.n, m.lh.block t ≠ b) →
      (applyWrites ((List.range i).map (installBlock m.start m.lh)) d).data b = d.data b :=
    fun b hb' => hf b fun t ht => hb' t (by omega)
  refine ⟨fun b hb' hout => (hkeep b hb').trans (hu b hb' hout), ⟨?_, ?_, ?_, ?_⟩, ?_⟩
  · rw [hh]; exact hn
  · rw [hh]; exact hb
  · intro t ht
    rw [hkeep _ fun t' ht' => hl.home_ne_log ht ht']
    exact hlog t ht
  · intro t ht
    by_cases hti : t < i
    · exact Or.inl (hnew t hti)
    · -- まだ写していない本来の場所は、それと同じ番号の先の写しがなければ元のまま
      by_cases hw : ∃ t' < i, m.lh.block t' = m.lh.block t
      · obtain ⟨t', ht', e⟩ := hw
        rw [← e]
        exact Or.inl (hnew t' ht')
      · simp only [not_exists, not_and] at hw
        rw [hf _ hw]
        exact hhome t ht
  · intro hj t ht
    exact hnew t (by omega)

/-! ## commit のどの接頭辞の後でも -/

theorem commit_prefix_recoverable (hl : LogLayout m) (h0 : d₀.head.n = 0) :
    ∀ i, Recoverable m d₀ (applyWrites ((commit m).take i) d₀) := by
  unfold commit
  split
  · rename_i hpos
    obtain ⟨hA, hAlog, hAf⟩ := writeLog_prefix m d₀ m.lh.n
    set dA := applyWrites (writeLog m) d₀ with hdA
    -- ログを書いただけでは、ログの外は変わらない
    have hout : ∀ b, (b < m.start ∨ m.start + m.size ≤ b) → ∀ j ≤ m.lh.n,
        ∀ t < j, m.start + t + 1 ≠ b := by
      intro b hb j hj t ht
      have := hl.n_lt
      omega
    have hAkeep : ∀ j, Recoverable m d₀ (applyWrites ((writeLog m).take j) d₀) := by
      intro j
      rw [writeLog, take_range_map]
      obtain ⟨hh, -, hf⟩ := writeLog_prefix m d₀ (min j m.lh.n)
      refine ⟨fun b _ hb => hf b (hout b hb _ (by omega)), Or.inl ⟨by rw [hh]; exact h0, ?_⟩⟩
      exact Or.inl fun t ht => hf _ (hout _ (hl.home t ht) _ (by omega))
    -- ヘッダを書いた状態は確定している
    have hB : Committed m d₀ (bwriteHead m.lh dA) ∧ Untouched m d₀ (bwriteHead m.lh dA) := by
      have hA' := hAkeep m.lh.n
      rw [List.take_of_length_le (by simp [writeLog])] at hA'
      refine ⟨⟨rfl, fun t ht => bwriteHead_block _ _ ht, hAlog, fun t ht => Or.inr ?_⟩, hA'.1⟩
      exact hAf _ (hout _ (hl.home t ht) _ le_rfl)
    have hC := Committed.install hl hB.1 hB.2
    have hAfull : Recoverable m d₀ dA := by
      have h := hAkeep m.lh.n
      rwa [List.take_of_length_le (by simp [writeLog])] at h
    have hdB : applyWrites (writeLog m ++ writeHead m.lh) d₀ = bwriteHead m.lh dA := by
      rw [applyWrites_append]; rfl
    have hdC : applyWrites (writeLog m ++ writeHead m.lh ++ installTrans m.start m.lh) d₀ =
        applyWrites (installTrans m.start m.lh) (bwriteHead m.lh dA) := by
      rw [applyWrites_append, hdB]
    refine applyWrites_take_append_inv _ _ _ _ (applyWrites_take_append_inv _ _ _ _
      (applyWrites_take_append_inv _ _ _ _ hAkeep ?_) ?_) ?_
    · exact applyWrites_take_singleton _ _ _ hAfull ⟨hB.2, Or.inr hB.1⟩
    · intro j
      rw [hdB]
      obtain ⟨hu, hc, -⟩ := hC j
      exact ⟨hu, Or.inr hc⟩
    · rw [hdC]
      obtain ⟨hu, hc, hnew⟩ := hC m.lh.n
      rw [List.take_of_length_le (by simp [installTrans])] at hu hc hnew
      exact applyWrites_take_singleton _ _ _ ⟨hu, Or.inr hc⟩
        ⟨hu, Or.inl ⟨rfl, Or.inr (hnew le_rfl)⟩⟩
  · intro i
    rw [List.take_nil, applyWrites_nil]
    exact ⟨fun _ _ _ => rfl, Or.inl ⟨h0, Or.inl fun _ _ => rfl⟩⟩

/-! ## 回復のどの接頭辞の後でも -/

/-- ヘッダの n が 0 なら、回復はヘッダの n を 0 に書くだけ。 -/
theorem recoverFromLog_of_n_eq_zero (start : Nat) (h : d.head.n = 0) :
    recoverFromLog start d = writeHead { readHead d with n := 0 } := by
  simp [recoverFromLog, installTrans, readHead, h]

/-- 確定した状態からの回復は、commit と同じ `install_trans` をしてヘッダの n を 0 に書く。 -/
theorem recoverFromLog_of_committed (hc : Committed m d₀ d) :
    recoverFromLog m.start d = installTrans m.start m.lh ++ writeHead { readHead d with n := 0 } := by
  have e : installTrans m.start (readHead d) = (installTrans m.start m.lh : List (Disk α → Disk α)) :=
    installTrans_congr m.start hc.1 fun t ht => hc.2.1 t (hc.1 ▸ ht)
  rw [recoverFromLog, e]

theorem Recoverable.recover_prefix (hl : LogLayout m) (hr : Recoverable m d₀ d) (c : Nat) :
    Recoverable m d₀ (applyWrites ((recoverFromLog m.start d).take c) d) := by
  rcases hr with ⟨hu, ⟨h0, hold⟩ | hc⟩
  · rw [recoverFromLog_of_n_eq_zero _ h0]
    exact applyWrites_take_singleton _ _ _ ⟨hu, Or.inl ⟨h0, hold⟩⟩ ⟨hu, Or.inl ⟨rfl, hold⟩⟩ c
  · rw [recoverFromLog_of_committed hc]
    have hI := Committed.install hl hc hu
    refine applyWrites_take_append_inv _ _ _ _ (fun j => ⟨(hI j).1, Or.inr (hI j).2.1⟩) ?_ c
    obtain ⟨hu', hc', hnew⟩ := hI m.lh.n
    rw [List.take_of_length_le (by simp [installTrans])] at hu' hc' hnew
    exact applyWrites_take_singleton _ _ _ ⟨hu', Or.inr hc'⟩ ⟨hu', Or.inl ⟨rfl, Or.inr (hnew le_rfl)⟩⟩

/-- 最後まで走った回復の後では、ヘッダの n は 0 で、本来の場所は全部新しいか全部古い。 -/
theorem Recoverable.recover_done (hl : LogLayout m) (hr : Recoverable m d₀ d) :
    Atomic m d₀ (applyWrites (recoverFromLog m.start d) d) := by
  rcases hr with ⟨hu, ⟨h0, hold⟩ | hc⟩
  · rw [recoverFromLog_of_n_eq_zero _ h0]
    exact ⟨rfl, hold.symm, hu⟩
  · rw [recoverFromLog_of_committed hc, applyWrites_append]
    obtain ⟨hu', -, hnew⟩ := Committed.install hl hc hu m.lh.n
    rw [List.take_of_length_le (by simp [installTrans])] at hu' hnew
    exact ⟨rfl, Or.inl (hnew le_rfl), hu'⟩

/-! ## クラッシュに対する原子性 -/

/-- ヘッダの n が 0 のディスク d₀ で、ログに収まり本来の場所がログの外にある取引を commit する。
commit が i 個の書き込みの後で止まり、その後の回復が `cs` の各数の書き込みの後で止まるたびに
やり直し、最後に最後まで走ると、ヘッダの n は 0 で、本来の場所は全部キャッシュの中身か、全部
commit の前の中身で、ログの外のほかのブロックは変わらない。 -/
theorem commit_crash_atomic (m : LogMem α) (d₀ : Disk α) (hl : LogLayout m) (h0 : d₀.head.n = 0)
    (i : Nat) (cs : List Nat) :
    Atomic m d₀ (recoverWithCrashes (recoverFromLog m.start) cs
      (applyWrites ((commit m).take i) d₀)) :=
  recoverWithCrashes_spec _ (Recoverable m d₀) (Atomic m d₀)
    (fun _ c hr => hr.recover_prefix hl c) (fun _ hr => hr.recover_done hl) cs _
    (commit_prefix_recoverable hl h0 i)

/-- ブロック 2 から 4 ブロックのログで、ブロック 10 を中身 7 にする取引を commit し、3 個目の
書き込みの後で止まり、回復が一個目の書き込みの後で一度止まる。 -/
theorem commit_crash_atomic_of_one_block :
    LogLayout (⟨2, 4, ⟨1, fun _ => 10⟩, fun _ => 7⟩ : LogMem Nat) ∧
      Atomic (⟨2, 4, ⟨1, fun _ => 10⟩, fun _ => 7⟩ : LogMem Nat) ⟨⟨0, fun _ => 0⟩, fun _ => 0⟩
        (recoverWithCrashes (recoverFromLog 2) [1]
          (applyWrites ((commit (⟨2, 4, ⟨1, fun _ => 10⟩, fun _ => 7⟩ : LogMem Nat)).take 3)
            ⟨⟨0, fun _ => 0⟩, fun _ => 0⟩)) := by
  have hl : LogLayout (⟨2, 4, ⟨1, fun _ => 10⟩, fun _ => 7⟩ : LogMem Nat) := ⟨by decide, by decide⟩
  exact ⟨hl, commit_crash_atomic _ _ hl rfl 3 [1]⟩

end Xv6.Log
