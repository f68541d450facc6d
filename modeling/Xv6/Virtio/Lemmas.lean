import Xv6.Virtio.Basic

/-!
# 記述子の関数の仕様

`alloc3_desc` は、成功すれば空きの三つの違う記述子を使用中にし、途中で失敗すれば取った
記述子をすべて戻す（空きの印は呼ぶ前と同じ）。`free_chain` は、`next` でつながった鎖の
記述子をちょうど解放する。`virtio_disk_intr` のループは、本体が保つ性質を保って used 環を
読み切る。
-/

namespace Xv6.Virtio

open Function Xv6.Lib

variable {β : Type}

/-- idx の記述子を使用中にする。 -/
def Disk.take (d : Disk β) (idx : List (Fin NUM)) : Disk β :=
  { d with free := fun j => if j ∈ idx then false else d.free j }

/-- idx の記述子を 0 にして空きに戻す。 -/
def Disk.release (d : Disk β) (idx : List (Fin NUM)) : Disk β :=
  { d with
    desc := fun j => if j ∈ idx then ⟨0, 0⟩ else d.desc j
    free := fun j => if j ∈ idx then true else d.free j }

/-- idx が `next` でつながった鎖: 最後の記述子だけ `VRING_DESC_F_NEXT` が立っていない。 -/
def ChainOK (d : Disk β) : List (Fin NUM) → Prop
  | [] => False
  | [i] => (d.desc i).flags &&& VRING_DESC_F_NEXT = 0
  | i :: j :: rest =>
    (d.desc i).flags &&& VRING_DESC_F_NEXT ≠ 0 ∧ (d.desc i).next.toNat = j.val ∧ ChainOK d (j :: rest)

/-! ## `take` と `release` -/

@[simp] theorem Disk.take_free (d : Disk β) (idx : List (Fin NUM)) (j : Fin NUM) :
    (d.take idx).free j = if j ∈ idx then false else d.free j := rfl

@[simp] theorem Disk.release_free (d : Disk β) (idx : List (Fin NUM)) (j : Fin NUM) :
    (d.release idx).free j = if j ∈ idx then true else d.free j := rfl

@[simp] theorem Disk.release_desc (d : Disk β) (idx : List (Fin NUM)) (j : Fin NUM) :
    (d.release idx).desc j = if j ∈ idx then ⟨0, 0⟩ else d.desc j := rfl

@[simp] theorem Disk.take_desc (d : Disk β) (idx : List (Fin NUM)) : (d.take idx).desc = d.desc := rfl

@[simp] theorem Disk.take_info (d : Disk β) (idx : List (Fin NUM)) : (d.take idx).info = d.info := rfl

@[simp] theorem Disk.take_bufDisk (d : Disk β) (idx : List (Fin NUM)) :
    (d.take idx).bufDisk = d.bufDisk := rfl

@[simp] theorem Disk.take_avail (d : Disk β) (idx : List (Fin NUM)) : (d.take idx).avail = d.avail := rfl

@[simp] theorem Disk.take_used (d : Disk β) (idx : List (Fin NUM)) : (d.take idx).used = d.used := rfl

@[simp] theorem Disk.take_usedIdx (d : Disk β) (idx : List (Fin NUM)) :
    (d.take idx).usedIdx = d.usedIdx := rfl

@[simp] theorem Disk.release_info (d : Disk β) (idx : List (Fin NUM)) :
    (d.release idx).info = d.info := rfl

@[simp] theorem Disk.release_bufDisk (d : Disk β) (idx : List (Fin NUM)) :
    (d.release idx).bufDisk = d.bufDisk := rfl

theorem Disk.take_nil (d : Disk β) : d.take [] = d := rfl

theorem Disk.take_take (d : Disk β) (l₁ l₂ : List (Fin NUM)) :
    (d.take l₁).take l₂ = d.take (l₁ ++ l₂) := by
  simp only [Disk.take, Disk.mk.injEq, and_true, true_and]
  funext j
  by_cases h₁ : j ∈ l₁ <;> by_cases h₂ : j ∈ l₂ <;> simp [h₁, h₂]

theorem Disk.release_release (d : Disk β) (l₁ l₂ : List (Fin NUM)) :
    (d.release l₁).release l₂ = d.release (l₁ ++ l₂) := by
  simp only [Disk.release, Disk.mk.injEq, and_true, true_and]
  constructor <;> funext j <;> by_cases h₁ : j ∈ l₁ <;> by_cases h₂ : j ∈ l₂ <;> simp [h₁, h₂]

/-- 空きの記述子を取って戻すと、空きの印は元に戻り、使用中の記述子の中身も変わらない。 -/
theorem Disk.take_release_free {d : Disk β} {t : List (Fin NUM)} (ht : ∀ j ∈ t, d.free j = true) :
    ((d.take t).release t).free = d.free := by
  funext j
  by_cases h : j ∈ t
  · simp [h, ht j h]
  · simp [h]

theorem ChainOK.congr {d d' : Disk β} :
    ∀ {idx : List (Fin NUM)}, ChainOK d idx → (∀ j ∈ idx, d'.desc j = d.desc j) → ChainOK d' idx
  | [], h, _ => h.elim
  | [i], h, he => by
    rw [ChainOK, he i (by simp)]
    exact h
  | i :: j :: rest, ⟨h₁, h₂, h₃⟩, he => by
    refine ⟨?_, ?_, ChainOK.congr h₃ fun k hk => he k (List.mem_cons_of_mem _ hk)⟩
    · rw [he i (by simp)]
      exact h₁
    · rw [he i (by simp)]
      exact h₂

theorem toNat_toUInt16_fin (i : Fin NUM) : i.val.toUInt16.toNat = i.val := by
  have := i.isLt
  simp only [Nat.toUInt16_eq, UInt16.toNat_ofNat']
  exact Nat.mod_eq_of_lt (by simp only [NUM] at this; omega)

/-! ## `alloc_desc` と `free_desc` -/

theorem allocDesc_eq_some {d d' : Disk β} {i : Fin NUM} (h : allocDesc d = some (i, d')) :
    d.free i = true ∧ d' = d.take [i] := by
  unfold allocDesc at h
  split at h
  · cases h
  · rename_i j hj
    simp only [Option.some.injEq, Prod.mk.injEq] at h
    obtain ⟨rfl, rfl⟩ := h
    refine ⟨firstIdx_spec hj, ?_⟩
    simp only [Disk.take, List.mem_singleton]
    congr 1
    funext k
    by_cases e : k = j
    · simp [e]
    · simp [e]

/-- 使用中の記述子の `free_desc` は、その記述子だけを戻す。 -/
theorem freeDesc_of_busy {d : Disk β} {i : Fin NUM} (h : d.free i = false) :
    freeDesc d i.val = some (d.release [i]) := by
  unfold freeDesc
  rw [dif_pos i.isLt, if_neg (by simpa using h)]
  simp only [Disk.release, List.mem_singleton, Option.some.injEq]
  congr 1 <;> funext k <;> by_cases e : k = i <;> simp [e]

/-- 使用中で互いに違う記述子を順に `free_desc` すると、それらがちょうど戻る。 -/
theorem foldlM_freeDesc :
    ∀ {d : Disk β} {idx : List (Fin NUM)}, idx.Nodup → (∀ j ∈ idx, d.free j = false) →
      idx.foldlM (fun d j => freeDesc d j.val) d = some (d.release idx)
  | d, [], _, _ => by simp [Disk.release]
  | d, j :: idx, hn, hb => by
    rw [List.foldlM_cons, freeDesc_of_busy (hb j (by simp)), Option.bind_eq_bind, Option.bind_some]
    obtain ⟨hj, hn⟩ := List.nodup_cons.mp hn
    have hb' : ∀ k ∈ idx, (d.release [j]).free k = false := by
      intro k hk
      have hkj : k ≠ j := fun e => hj (e ▸ hk)
      simpa [hkj] using hb k (List.mem_cons_of_mem _ hk)
    rw [foldlM_freeDesc hn hb', Disk.release_release, List.singleton_append]

/-! ## `alloc3_desc` -/

/-- alloc3 のループの結果: 成功すれば d₀ で空きだった違う記述子を k 個取り、失敗すれば取った
記述子を戻す。 -/
def AllocOK (d₀ : Disk β) (k : Nat) : Option (List (Fin NUM)) → Disk β → Prop
  | some idx, d' => idx.length = k ∧ idx.Nodup ∧ (∀ j ∈ idx, d₀.free j = true) ∧ d' = d₀.take idx
  | none, d' => ∃ t, (∀ j ∈ t, d₀.free j = true) ∧ d' = (d₀.take t).release t

/-- ループの不変条件: 状態は d₀ で idx を取ったもの。k についての帰納法。 -/
theorem alloc3Loop_spec (d₀ : Disk β) :
    ∀ (k : Nat) (idx : List (Fin NUM)), idx.Nodup → (∀ j ∈ idx, d₀.free j = true) →
      ∃ r d', alloc3Loop (d₀.take idx) idx k = some (r, d') ∧ AllocOK d₀ (idx.length + k) r d'
  | 0, idx, hn, hf => ⟨_, _, rfl, rfl, hn, hf, rfl⟩
  | k + 1, idx, hn, hf => by
    rw [alloc3Loop]
    split
    · -- 空きがない: 取った記述子を戻す
      have hb : ∀ j ∈ idx, (d₀.take idx).free j = false := by simp_all
      rw [foldlM_freeDesc hn hb]
      exact ⟨_, _, rfl, idx, hf, rfl⟩
    · rename_i i d₁ h
      obtain ⟨hi, rfl⟩ := allocDesc_eq_some h
      have hni : i ∉ idx := by
        intro hm
        simp [hm] at hi
      have hfi : d₀.free i = true := by simpa [hni] using hi
      rw [Disk.take_take]
      have hn' : (idx ++ [i]).Nodup := by
        refine List.nodup_append.mpr ⟨hn, by simp, fun a ha b hb e => hni ?_⟩
        rw [List.mem_singleton.mp hb] at e
        exact e ▸ ha
      have hf' : ∀ j ∈ idx ++ [i], d₀.free j = true := by
        intro j hj
        rcases List.mem_append.mp hj with hj | hj
        · exact hf j hj
        · rw [List.mem_singleton.mp hj]
          exact hfi
      obtain ⟨r, d', he, hok⟩ := alloc3Loop_spec d₀ k (idx ++ [i]) hn' hf'
      refine ⟨r, d', he, ?_⟩
      rwa [List.length_append, List.length_singleton, Nat.add_assoc, Nat.add_comm 1 k] at hok

theorem alloc3Desc_spec (d : Disk β) : ∃ r d', alloc3Desc d = some (r, d') ∧ AllocOK d 3 r d' := by
  have h := alloc3Loop_spec d 3 [] List.nodup_nil (by simp)
  rwa [Disk.take_nil] at h

/-! ## `free_chain` -/

/-- 鎖の記述子がみな使用中で互いに違えば、`free_chain` は鎖をちょうど解放する。鎖について
の帰納法で、一回の反復が頭の記述子を解放し、残りの鎖は変わらない。 -/
theorem freeChain_eq :
    ∀ {d : Disk β} {i : Fin NUM} {rest : List (Fin NUM)}, ChainOK d (i :: rest) →
      (i :: rest).Nodup → (∀ j ∈ i :: rest, d.free j = false) →
      freeChain d i.val = some (d.release (i :: rest))
  | d, i, [], hc, _, hb => by
    rw [freeChain]
    split
    · rename_i h
      rw [freeDesc_of_busy (hb i (by simp))] at h
      cases h
    · rename_i d' h
      rw [freeDesc_of_busy (hb i (by simp)), Option.some.injEq] at h
      rw [Fin.ofNat_val_eq_self, if_neg (by simpa [ChainOK] using hc), h]
  | d, i, j :: rest, hc, hn, hb => by
    obtain ⟨hf, hnext, hc'⟩ := hc
    obtain ⟨hi, hn'⟩ := List.nodup_cons.mp hn
    rw [freeChain]
    split
    · rename_i h
      rw [freeDesc_of_busy (hb i (by simp))] at h
      cases h
    · rename_i d' h
      rw [freeDesc_of_busy (hb i (by simp)), Option.some.injEq] at h
      subst h
      rw [Fin.ofNat_val_eq_self, if_pos hf, hnext]
      -- 頭を解放しても、残りの鎖の記述子は使用中で中身も同じ
      have hrest : ∀ k ∈ j :: rest, k ≠ i := fun k hk e => hi (e ▸ hk)
      have hc'' : ChainOK (d.release [i]) (j :: rest) :=
        hc'.congr fun k hk => by simp [hrest k hk]
      have hb' : ∀ k ∈ j :: rest, (d.release [i]).free k = false := by
        intro k hk
        simpa [hrest k hk] using hb k (List.mem_cons_of_mem _ hk)
      rw [freeChain_eq hc'' hn' hb', Disk.release_release, List.singleton_append]

/-- 要求の鎖が `next` でつながり、みな使用中なら、終えた後の `free_chain` は鎖をちょうど
解放する。 -/
theorem rwFinish_eq {d : Disk β} {i : Fin NUM} {rest : List (Fin NUM)} (hc : ChainOK d (i :: rest))
    (hn : (i :: rest).Nodup) (hb : ∀ j ∈ i :: rest, d.free j = false) :
    rwFinish d (i :: rest) =
      some ({ d with info := update d.info i { d.info i with b := none } }.release (i :: rest)) :=
  freeChain_eq (hc.congr fun _ _ => rfl) hn hb

section Request

variable [DecidableEq β]

/-! ## `virtio_disk_rw` -/

/-- 一回の試みの結果: 失敗すれば取った記述子を戻した状態、成功すれば空きだった三つの違う
記述子で要求を出した状態。 -/
def AttemptOK (d : Disk β) (b : β) (w : Bool) : Option (List (Fin NUM)) → Disk β → Prop
  | none, d' => ∃ t, (∀ j ∈ t, d.free j = true) ∧ d' = (d.take t).release t
  | some idx, d' => idx.length = 3 ∧ idx.Nodup ∧ (∀ j ∈ idx, d.free j = true) ∧
      submit (d.take idx) b w idx = some d'

theorem submit_isSome (d : Disk β) (b : β) (w : Bool) {idx : List (Fin NUM)} (hl : idx.length = 3) :
    ∃ d', submit d b w idx = some d' := by
  obtain ⟨i0, i1, i2, rfl⟩ := List.length_eq_three.mp hl
  exact ⟨_, rfl⟩

/-- 要求を出すと、三つの記述子が `next` でつながった鎖になり、`info[idx[0]]` と `b->disk` と
avail 環が書かれる。ほかは変わらない。 -/
theorem submit_spec {d d' : Disk β} {b : β} {w : Bool} {idx : List (Fin NUM)}
    (hs : submit d b w idx = some d') (hn : idx.Nodup) :
    ∃ i0 rest, idx = i0 :: rest ∧ ChainOK d' idx ∧ (∀ j ∉ idx, d'.desc j = d.desc j) ∧
      d'.free = d.free ∧ d'.info = update d.info i0 ⟨some b, 0xff⟩ ∧
      d'.bufDisk = update d.bufDisk b true ∧
      d'.avail = ⟨d.avail.idx + 1, update d.avail.ring (Fin.ofNat NUM d.avail.idx.toNat) i0.val.toUInt16⟩ ∧
      d'.used = d.used ∧ d'.usedIdx = d.usedIdx := by
  match idx, hs with
  | [i0, i1, i2], hs =>
    simp only [submit, Option.some.injEq] at hs
    subst hs
    simp only [List.nodup_cons, List.mem_cons, List.not_mem_nil, or_false, not_or] at hn
    obtain ⟨⟨h01, h02⟩, h12, -⟩ := hn
    refine ⟨i0, [i1, i2], rfl, ?_, fun j hj => ?_, rfl, rfl, rfl, rfl, rfl, rfl⟩
    · -- 記述子 i0 → i1 → i2 で、i2 だけ VRING_DESC_F_NEXT が立たない
      simp only [ChainOK, update_self, update_of_ne h12, update_of_ne h02, update_of_ne h01,
        toNat_toUInt16_fin]
      refine ⟨by decide, trivial, by cases w <;> decide, trivial, by decide⟩
    · simp only [List.mem_cons, List.not_mem_nil, or_false, not_or] at hj
      obtain ⟨hj0, hj1, hj2⟩ := hj
      simp only [update_of_ne hj0, update_of_ne hj1, update_of_ne hj2]

/-- `virtio_disk_rw` の一回の試みは panic しない。 -/
theorem rwAttempt_spec (d : Disk β) (b : β) (w : Bool) :
    ∃ r d', rwAttempt d b w = some (r, d') ∧ AttemptOK d b w r d' := by
  obtain ⟨r, d₁, he, hok⟩ := alloc3Desc_spec d
  cases r with
  | none => exact ⟨none, d₁, by simp [rwAttempt, he], hok⟩
  | some idx =>
    obtain ⟨hl, hn, hf, rfl⟩ := hok
    obtain ⟨d', hs⟩ := submit_isSome (d.take idx) b w hl
    exact ⟨some idx, d', by simp [rwAttempt, he, hs], hl, hn, hf, hs⟩

theorem rwAttempt_inv {d d' : Disk β} {b : β} {w : Bool} {r : Option (List (Fin NUM))}
    (h : rwAttempt d b w = some (r, d')) : AttemptOK d b w r d' := by
  obtain ⟨r', d'', he, hok⟩ := rwAttempt_spec d b w
  rw [h, Option.some.injEq, Prod.mk.injEq] at he
  obtain ⟨rfl, rfl⟩ := he
  exact hok

/-! ## `virtio_disk_intr` のループ -/

/-- 本体が性質 P を保ち、`used_idx` を一つ進めるなら、ループは P を保って used 環を読み切る。
回ってよい数 k（二つの添字の差）についての帰納法。 -/
theorem intrLoop_inv (P : Disk β → Prop)
    (hstep : ∀ d, P d → d.usedIdx ≠ d.used.idx →
      ∃ d', intrEntry d = some d' ∧ P d' ∧ d'.usedIdx = d.usedIdx + 1 ∧ d'.used = d.used) :
    ∀ (k : Nat) (d : Disk β), P d → (d.used.idx - d.usedIdx).toNat = k →
      ∃ d', intrLoop k d = some d' ∧ P d' ∧ d'.usedIdx = d.used.idx ∧ d'.used = d.used
  | 0, d, hp, hk => by
    have he : d.used.idx = d.usedIdx := toNat_sub_eq_zero_iff.mp hk
    exact ⟨d, rfl, hp, he.symm, rfl⟩
  | k + 1, d, hp, hk => by
    have hne : d.usedIdx ≠ d.used.idx := by
      intro e
      rw [e, UInt16.sub_self] at hk
      cases hk
    obtain ⟨d₁, he, hp₁, hu, hused⟩ := hstep d hp hne
    have hk₁ : (d₁.used.idx - d₁.usedIdx).toNat = k := by
      have := toNat_sub_add_one d.used.idx d.usedIdx hne
      rw [hu, hused]
      omega
    obtain ⟨d', he', hp', hu', hused'⟩ := intrLoop_inv P hstep k d₁ hp₁ hk₁
    refine ⟨d', ?_, hp', ?_, ?_⟩
    · rw [intrLoop, if_neg hne, he, Option.bind_some, he']
    · rw [hu', hused]
    · rw [hused', hused]

theorem virtioDiskIntr_inv (P : Disk β → Prop)
    (hstep : ∀ d, P d → d.usedIdx ≠ d.used.idx →
      ∃ d', intrEntry d = some d' ∧ P d' ∧ d'.usedIdx = d.usedIdx + 1 ∧ d'.used = d.used)
    {d : Disk β} (hp : P d) :
    ∃ d', virtioDiskIntr d = some d' ∧ P d' ∧ d'.usedIdx = d.used.idx ∧ d'.used = d.used :=
  intrLoop_inv P hstep _ d hp rfl

end Request

end Xv6.Virtio
