import Xv6.Virtio.Lemmas

/-!
# 記述子の持ち主と環の不変条件

要求（`virtio_disk_rw` の呼び出し元 b が `alloc3_desc` から `free_chain` までのあいだ持つ
記述子の列）について、到達できるどの状態でも成り立つことを、遷移が保つ不変条件から導く。

- `OwnInv`: 要求の記述子は三つの違う記述子で、`next` でつながり、ほかの要求と重ならない。
  記述子が空きであることと、どの要求も持たないことは同じ。`info[頭].b` は要求の buf。
- `RingInv`: 割り込みがまだ終えていない要求（`b->disk == 1`）の鎖の頭は、avail 環の装置が
  まだ読んでいない項目、装置が持つ項目、used 環のドライバがまだ読んでいない項目のどこかに
  ちょうど一度ある。三つの範囲の長さは 16 ビットの添字の差で、used 環の項目の status は 0。
-/

namespace Xv6.Virtio

open Function Xv6.Lib

variable {β : Type}

/-- avail 環の、装置がまだ読んでいない項目。 -/
def availQ (s : VSys β) : List Nat :=
  (ringView s.disk.avail.ring s.seen.toNat (s.disk.avail.idx - s.seen).toNat).map UInt16.toNat

/-- used 環の、ドライバがまだ読んでいない項目。 -/
def usedQ (s : VSys β) : List Nat :=
  (ringView s.disk.used.ring s.disk.usedIdx.toNat (s.disk.used.idx - s.disk.usedIdx).toNat).map
    UInt32.toNat

/-- 割り込みがまだ終えていない鎖の頭。 -/
def inflight (s : VSys β) : List Nat := availQ s ++ s.pending.map UInt16.toNat ++ usedQ s

/-- 記述子 j を持つ要求がある。 -/
def Owned (s : VSys β) (j : Fin NUM) : Prop := ∃ b idx, s.caller b = .submitted idx ∧ j ∈ idx

/-- 鎖の頭が h の要求があり、その buf の `disk` は 1。 -/
def Outstanding (s : VSys β) (h : Nat) : Prop :=
  ∃ b i idx, s.caller b = .submitted (i :: idx) ∧ s.disk.bufDisk b = true ∧ i.val = h

structure OwnInv (s : VSys β) : Prop where
  chain : ∀ b idx, s.caller b = .submitted idx → idx.length = 3 ∧ idx.Nodup ∧ ChainOK s.disk idx
  disjoint : ∀ b b' idx idx', b ≠ b' → s.caller b = .submitted idx → s.caller b' = .submitted idx' →
    idx.Disjoint idx'
  free_iff : ∀ j, s.disk.free j = true ↔ ¬ Owned s j
  info : ∀ b i idx, s.caller b = .submitted (i :: idx) → (s.disk.info i).b = some b

structure RingInv (s : VSys β) : Prop where
  nodup : (inflight s).Nodup
  mem_iff : ∀ h, h ∈ inflight s ↔ Outstanding s h
  status : ∀ h ∈ usedQ s, (s.disk.info (Fin.ofNat NUM h)).status = 0
  pend : s.pending.length = (s.seen - s.disk.used.idx).toNat
  dist : (s.disk.avail.idx - s.disk.usedIdx).toNat =
    (s.disk.avail.idx - s.seen).toNat + (s.seen - s.disk.used.idx).toNat +
      (s.disk.used.idx - s.disk.usedIdx).toNat

structure VInv (s : VSys β) : Prop extends OwnInv s, RingInv s

variable {s : VSys β}

/-! ## 持ち主 -/

theorem OwnInv.busy (h : OwnInv s) {b : β} {idx : List (Fin NUM)} (hc : s.caller b = .submitted idx)
    {j : Fin NUM} (hj : j ∈ idx) : s.disk.free j = false := by
  cases hf : s.disk.free j
  · rfl
  · exact absurd ⟨b, idx, hc, hj⟩ ((h.free_iff j).mp hf)

theorem OwnInv.not_mem_of_free (h : OwnInv s) {j : Fin NUM} (hf : s.disk.free j = true) {b : β}
    {idx : List (Fin NUM)} (hc : s.caller b = .submitted idx) : j ∉ idx := fun hj => by
  rw [h.busy hc hj] at hf
  cases hf

/-- 二つの要求の鎖の頭が同じなら、同じ呼び出し元の同じ要求。 -/
theorem OwnInv.eq_of_head (h : OwnInv s) {b b' : β} {i : Fin NUM} {idx idx' : List (Fin NUM)}
    (hc : s.caller b = .submitted (i :: idx)) (hc' : s.caller b' = .submitted (i :: idx')) :
    b = b' := by
  have e := (h.info b i idx hc).symm.trans (h.info b' i idx' hc')
  exact Option.some_inj.mp e

/-! ## 環 -/

theorem inflight_length (s : VSys β) :
    (inflight s).length = (s.disk.avail.idx - s.seen).toNat + s.pending.length +
      (s.disk.used.idx - s.disk.usedIdx).toNat := by
  simp [inflight, availQ, usedQ, Nat.add_assoc]

theorem Outstanding.lt {h : Nat} (ho : Outstanding s h) : h < NUM := by
  obtain ⟨_, i, _, _, _, rfl⟩ := ho
  exact i.isLt

theorem RingInv.lt (h : RingInv s) {x : Nat} (hx : x ∈ inflight s) : x < NUM :=
  ((h.mem_iff x).mp hx).lt

/-- avail の添字と `used_idx` の差は、まだ終えていない要求の数。 -/
theorem RingInv.dist_eq (h : RingInv s) :
    (s.disk.avail.idx - s.disk.usedIdx).toNat = (inflight s).length := by
  rw [inflight_length, h.dist, h.pend]

/-- 鎖の頭は違う記述子なので、まだ終えていない要求は NUM 個を越えない。 -/
theorem RingInv.length_le (h : RingInv s) : (inflight s).length ≤ NUM := by
  have hsub := h.nodup.subperm fun x hx => List.mem_range.mpr (h.lt hx)
  simpa using hsub.length_le

/-- 空きの記述子は、まだ終えていない要求の鎖の頭でない。 -/
theorem VInv.head_not_mem (h : VInv s) {i : Fin NUM} (hf : s.disk.free i = true) :
    i.val ∉ inflight s := by
  intro hm
  obtain ⟨b, j, idx, hc, -, e⟩ := (h.mem_iff _).mp hm
  have e' : j = i := Fin.ext e
  exact h.not_mem_of_free hf hc (e' ▸ List.mem_cons_self)

/-- 空きの記述子があれば、まだ終えていない要求は NUM より少ない。 -/
theorem VInv.length_lt_of_free (h : VInv s) {i : Fin NUM} (hf : s.disk.free i = true) :
    (inflight s).length < NUM := by
  have hi := h.head_not_mem hf
  have hn : (inflight s ++ [i.val]).Nodup :=
    List.nodup_append.mpr ⟨h.nodup, by simp, fun a ha b hb e => hi (by simp_all)⟩
  have hsub := hn.subperm fun x hx => List.mem_range.mpr (by
    rcases List.mem_append.mp hx with hx | hx
    · exact h.lt hx
    · rw [List.mem_singleton.mp hx]
      exact i.isLt)
  have := hsub.length_le
  simp only [List.length_append, List.length_singleton, List.length_range] at this
  omega

theorem NUM_dvd : NUM ∣ 2 ^ 16 := ⟨8192, rfl⟩

/-- 要求の集まり、使用中の記述子の中身、空きの印、`info[].b` が同じなら、持ち主の不変条件も
同じ。 -/
theorem OwnInv.congr {s' : VSys β} (h : OwnInv s)
    (hc : ∀ b idx, s'.caller b = .submitted idx ↔ s.caller b = .submitted idx)
    (hd : ∀ j, s.disk.free j = false → s'.disk.desc j = s.disk.desc j)
    (hf : s'.disk.free = s.disk.free) (hi : ∀ j, (s'.disk.info j).b = (s.disk.info j).b) :
    OwnInv s' := by
  have hown : ∀ j, Owned s' j ↔ Owned s j := by
    intro j
    simp only [Owned, hc]
  refine ⟨fun b idx hb => ?_, fun b b' idx idx' hne hb hb' => ?_, fun j => ?_, fun b i idx hb => ?_⟩
  · rw [hc] at hb
    obtain ⟨hl, hn, hch⟩ := h.chain b idx hb
    exact ⟨hl, hn, hch.congr fun j hj => hd j (h.busy hb hj)⟩
  · rw [hc] at hb hb'
    exact h.disjoint b b' idx idx' hne hb hb'
  · rw [hf, hown]
    exact h.free_iff j
  · rw [hc] at hb
    rw [hi]
    exact h.info b i idx hb

/-- 環と装置と `b->disk` が見える要求と status が同じなら、環の不変条件も同じ。 -/
theorem RingInv.congr {s' : VSys β} (h : RingInv s) (hav : s'.disk.avail = s.disk.avail)
    (hus : s'.disk.used = s.disk.used) (hui : s'.disk.usedIdx = s.disk.usedIdx)
    (hse : s'.seen = s.seen) (hpe : s'.pending = s.pending)
    (ho : ∀ z, Outstanding s' z ↔ Outstanding s z)
    (hst : ∀ j, (s'.disk.info j).status = (s.disk.info j).status) : RingInv s' := by
  have hu : usedQ s' = usedQ s := by simp only [usedQ, hus, hui]
  have hq : inflight s' = inflight s := by simp only [inflight, availQ, hu, hav, hse, hpe]
  refine ⟨hq ▸ h.nodup, fun z => hq ▸ (h.mem_iff z).trans (ho z).symm, fun z hz => ?_, ?_, ?_⟩
  · rw [hst]
    exact h.status z (hu ▸ hz)
  · rw [hpe, hse, hus]
    exact h.pend
  · rw [hav, hui, hse, hus]
    exact h.dist

/-! ## 装置の遷移 -/

/-- 装置が avail 環を一つ読むと、まだ読んでいない項目の先頭が外れる。 -/
theorem availQ_advance (hne : s.seen ≠ s.disk.avail.idx) (p : List UInt16) :
    availQ s = (s.disk.avail.ring (Fin.ofNat NUM s.seen.toNat)).toNat ::
      availQ { s with seen := s.seen + 1, pending := p } := by
  simp only [availQ]
  rw [ringView_advance NUM_dvd _ hne, List.map_cons]

theorem VInv.fetch (h : VInv s) (hne : s.seen ≠ s.disk.avail.idx) :
    VInv { s with
      seen := s.seen + 1
      pending := s.pending ++ [s.disk.avail.ring (Fin.ofNat NUM s.seen.toNat)] } := by
  have hq := availQ_advance hne (s.pending ++ [s.disk.avail.ring (Fin.ofNat NUM s.seen.toNat)])
  -- 読んだ項目は avail 環の先頭から装置の持つ項目の末尾に移る
  have hperm : (inflight { s with
      seen := s.seen + 1
      pending := s.pending ++ [s.disk.avail.ring (Fin.ofNat NUM s.seen.toNat)] }).Perm (inflight s) := by
    have hu : usedQ { s with
        seen := s.seen + 1
        pending := s.pending ++ [s.disk.avail.ring (Fin.ofNat NUM s.seen.toNat)] } = usedQ s := rfl
    rw [inflight, inflight, hq, hu]
    refine List.perm_iff_count.mpr fun a => ?_
    simp only [List.count_append, List.count_cons, List.map_append, List.map_singleton,
      List.count_nil]
    omega
  have hlen : s.pending.length + 1 ≤ NUM := by
    have := h.length_le
    rw [inflight_length] at this
    have : 0 < (s.disk.avail.idx - s.seen).toNat := by
      rw [Nat.pos_iff_ne_zero]
      exact fun e => hne (toNat_sub_eq_zero_iff.mp e).symm
    omega
  have hpend : (s.seen + 1 - s.disk.used.idx).toNat = (s.seen - s.disk.used.idx).toNat + 1 :=
    toNat_add_one_sub _ _ (by rw [← h.pend]; simp only [NUM] at hlen; omega)
  have hav := toNat_sub_add_one s.disk.avail.idx s.seen hne
  refine ⟨h.toOwnInv.congr (fun _ _ => Iff.rfl) (fun _ _ => rfl) rfl fun _ => rfl, hperm.nodup_iff.mpr h.nodup,
    fun x => hperm.mem_iff.trans (h.mem_iff x), h.status, ?_, ?_⟩
  · simp only [List.length_append, List.length_singleton, hpend, h.pend]
  · simp only [hpend]
    have := h.dist
    omega

/-- 装置が鎖を終えると、used 環のまだ読んでいない項目の末尾にその頭が加わる。 -/
theorem usedQ_complete (hlen : (s.disk.used.idx - s.disk.usedIdx).toNat < NUM) (x : UInt16)
    (p : List UInt16) :
    usedQ { s with disk := deviceComplete s.disk x, pending := p } = usedQ s ++ [x.toNat] := by
  simp only [usedQ, deviceComplete]
  rw [ringView_write NUM_dvd (by decide) _ hlen, List.map_append, List.map_singleton,
    UInt16.toNat_toUInt32]

theorem VInv.complete (h : VInv s) {x : UInt16} (hp : x ∈ s.pending) :
    VInv { s with disk := deviceComplete s.disk x, pending := s.pending.erase x } := by
  have hP : (s.pending.map UInt16.toNat).Perm (x.toNat :: (s.pending.erase x).map UInt16.toNat) :=
    (List.perm_cons_erase hp).map _
  have hpos : 0 < s.pending.length := List.length_pos_of_mem hp
  have hlen : (s.disk.used.idx - s.disk.usedIdx).toNat < NUM := by
    have := h.length_le
    rw [inflight_length] at this
    omega
  have hq := usedQ_complete hlen x (s.pending.erase x)
  -- 終えた鎖の頭は、装置の持つ項目から used 環の末尾に移る
  have hperm : (inflight { s with disk := deviceComplete s.disk x, pending := s.pending.erase x }).Perm
      (inflight s) := by
    have ha : availQ { s with disk := deviceComplete s.disk x, pending := s.pending.erase x } =
        availQ s := rfl
    rw [inflight, inflight, ha, hq]
    refine List.perm_iff_count.mpr fun a => ?_
    simp only [List.count_append, hP.count_eq, List.count_cons, List.count_nil]
    omega
  have hne : s.disk.used.idx ≠ s.seen := by
    intro e
    have hpend := h.pend
    rw [e, UInt16.sub_self, UInt16.toNat_zero] at hpend
    omega
  have hv := toNat_sub_add_one s.seen s.disk.used.idx hne
  have hu : (s.disk.used.idx + 1 - s.disk.usedIdx).toNat =
      (s.disk.used.idx - s.disk.usedIdx).toNat + 1 :=
    toNat_add_one_sub _ _ (by simp only [NUM] at hlen; omega)
  refine ⟨h.toOwnInv.congr (fun _ _ => Iff.rfl) (fun _ _ => rfl) rfl fun j => ?_, hperm.nodup_iff.mpr h.nodup,
    fun y => hperm.mem_iff.trans (h.mem_iff y), fun y hy => ?_, ?_, ?_⟩
  · -- 装置は status だけを書く
    simp only [deviceComplete]
    by_cases e : j = Fin.ofNat NUM x.toNat
    · rw [e, update_self]
    · rw [update_of_ne e]
  · rw [hq] at hy
    simp only [deviceComplete]
    by_cases e : Fin.ofNat NUM y = Fin.ofNat NUM x.toNat
    · rw [e, update_self]
    · rw [update_of_ne e]
      rcases List.mem_append.mp hy with hy | hy
      · exact h.status y hy
      · rw [List.mem_singleton.mp hy] at e
        exact absurd rfl e
  · simp only [List.length_erase_of_mem hp, deviceComplete]
    have := h.pend
    omega
  · simp only [deviceComplete, hu]
    have := h.dist
    omega

/-! ## 割り込み -/

/-- 割り込みが used 環を一つ読むと、まだ読んでいない項目の先頭が外れる。 -/
theorem usedQ_advance (hne : s.disk.usedIdx ≠ s.disk.used.idx) (bd : β → Bool) :
    usedQ s = (s.disk.used.ring (Fin.ofNat NUM s.disk.usedIdx.toNat)).toNat ::
      usedQ { s with disk := { s.disk with bufDisk := bd, usedIdx := s.disk.usedIdx + 1 } } := by
  simp only [usedQ]
  rw [ringView_advance NUM_dvd _ hne, List.map_cons]

variable [DecidableEq β]

/-- 割り込みのループの一回: used 環の先頭の鎖の要求の `b->disk` を 0 にする。その鎖の頭は
まだ終えていない要求のもので、status は 0 なので panic しない。 -/
theorem VInv.intrStep (h : VInv s) (hne : s.disk.usedIdx ≠ s.disk.used.idx) :
    ∃ d', intrEntry s.disk = some d' ∧ VInv { s with disk := d' } ∧
      d'.usedIdx = s.disk.usedIdx + 1 ∧ d'.used = s.disk.used := by
  obtain ⟨y, hy⟩ : ∃ y, (s.disk.used.ring (Fin.ofNat NUM s.disk.usedIdx.toNat)).toNat = y := ⟨_, rfl⟩
  have hyu : y ∈ usedQ s := by
    rw [usedQ_advance hne s.disk.bufDisk, hy]
    exact List.mem_cons_self
  obtain ⟨b, i, idx, hc, hb, hi⟩ := (h.mem_iff y).mp (List.mem_append_right _ hyu)
  have hyi : Fin.ofNat NUM y = i := by
    ext
    rw [Fin.val_ofNat, ← hi, Nat.mod_eq_of_lt i.isLt]
  have hst : (s.disk.info i).status = 0 := hyi ▸ h.status y hyu
  have he : intrEntry s.disk =
      some { s.disk with bufDisk := update s.disk.bufDisk b false, usedIdx := s.disk.usedIdx + 1 } := by
    have hlt : y < NUM := hi ▸ i.isLt
    have hfi : (⟨y, hlt⟩ : Fin NUM) = i := Fin.ext hi.symm
    simp only [intrEntry, hy, dif_pos hlt, hfi, hst, h.info b i idx hc, ne_eq, not_true_eq_false,
      ↓reduceIte]
  refine ⟨_, he, ?_, rfl, rfl⟩
  set bd := update s.disk.bufDisk b false
  have hq := usedQ_advance hne bd
  rw [hy] at hq
  -- 読んだ項目 y は、もう割り込みがまだ終えていない要求の頭ではない
  have hsub : (inflight { s with disk := { s.disk with bufDisk := bd, usedIdx := s.disk.usedIdx + 1 } }).Sublist
      (inflight s) := by
    rw [inflight, inflight, hq]
    exact List.Sublist.append_left (List.sublist_cons_self _ _) _
  have hyn : y ∉ inflight { s with disk := { s.disk with bufDisk := bd, usedIdx := s.disk.usedIdx + 1 } } := by
    have hn := h.nodup
    rw [inflight, hq, List.nodup_middle] at hn
    exact (List.nodup_cons.mp hn).1
  have hmem : ∀ z, z ∈ inflight s ↔ z = y ∨
      z ∈ inflight { s with disk := { s.disk with bufDisk := bd, usedIdx := s.disk.usedIdx + 1 } } := by
    intro z
    rw [inflight, inflight, hq]
    simp only [List.mem_append, List.mem_cons]
    tauto
  have hua : s.disk.usedIdx ≠ s.disk.avail.idx := by
    intro e
    have := h.dist_eq
    rw [e, UInt16.sub_self, UInt16.toNat_zero] at this
    exact List.ne_nil_of_mem (List.mem_append_right _ hyu) (List.eq_nil_of_length_eq_zero this.symm)
  have h₁ := toNat_sub_add_one s.disk.avail.idx s.disk.usedIdx hua
  have h₂ := toNat_sub_add_one s.disk.used.idx s.disk.usedIdx hne
  refine ⟨h.toOwnInv.congr (fun _ _ => Iff.rfl) (fun _ _ => rfl) rfl fun _ => rfl, h.nodup.sublist hsub, fun z => ?_,
    fun z hz => h.status z (by rw [usedQ_advance hne bd]; exact List.mem_cons_of_mem _ hz), h.pend, ?_⟩
  · constructor
    · intro hz
      have hzy : z ≠ y := fun e => hyn (e ▸ hz)
      obtain ⟨b', i', idx', hc', hb', hi'⟩ := (h.mem_iff z).mp (hsub.subset hz)
      have hbb : b' ≠ b := by
        rintro rfl
        rw [hc] at hc'
        cases hc'
        exact hzy (hi'.symm.trans hi)
      exact ⟨b', i', idx', hc', by simp only [bd, update_of_ne hbb, hb'], hi'⟩
    · rintro ⟨b', i', idx', hc', hb', hi'⟩
      have hbb : b' ≠ b := by
        rintro rfl
        simp [bd] at hb'
      have hz := (h.mem_iff z).mpr ⟨b', i', idx', hc', by simpa [bd, update_of_ne hbb] using hb', hi'⟩
      rcases (hmem z).mp hz with rfl | hz
      · have hii : i' = i := Fin.ext (hi'.trans hi.symm)
        subst hii
        exact absurd (h.eq_of_head hc' hc) hbb
      · exact hz
  · simp only
    have := h.dist
    omega

/-! ## 呼び出し元の遷移 -/

theorem update_submitted {c : β → Caller} {b b' : β} {x : Caller} {idx : List (Fin NUM)} :
    update c b x b' = .submitted idx ↔ (b' = b ∧ x = .submitted idx) ∨ (b' ≠ b ∧ c b' = .submitted idx) := by
  by_cases e : b' = b
  · subst e
    simp
  · simp [e]

/-- 試みが失敗して眠る: 取った記述子は戻り、要求の集まりは変わらない。 -/
theorem VInv.attemptFail (h : VInv s) {b : β} {w : Bool}
    (hc : s.caller b = .idle ∨ s.caller b = .waiting w) {t : List (Fin NUM)}
    (ht : ∀ j ∈ t, s.disk.free j = true) :
    VInv { s with disk := (s.disk.take t).release t, caller := update s.caller b (.waiting w) } := by
  have hsub : ∀ b' idx, update s.caller b (.waiting w) b' = .submitted idx ↔
      s.caller b' = .submitted idx := by
    intro b' idx
    rw [update_submitted]
    constructor
    · rintro (⟨-, e⟩ | ⟨-, e⟩)
      · cases e
      · exact e
    · intro e
      refine .inr ⟨?_, e⟩
      rintro rfl
      rcases hc with hc | hc <;> rw [hc] at e <;> cases e
  refine ⟨h.toOwnInv.congr hsub (fun j hj => ?_) (Disk.take_release_free ht) fun _ => rfl,
    h.toRingInv.congr rfl rfl rfl rfl rfl (fun z => ?_) fun _ => rfl⟩
  · have hjt : j ∉ t := fun hm => by
      rw [ht j hm] at hj
      cases hj
    simp [hjt]
  · simp only [Outstanding, hsub, Disk.release_bufDisk, Disk.take_bufDisk]

/-- 試みが成功して要求を出す: 空きだった三つの記述子が b の要求になり、その頭が avail 環の
末尾に加わる。 -/
theorem VInv.attemptOk (h : VInv s) {b : β} {w : Bool}
    (hc : s.caller b = .idle ∨ s.caller b = .waiting w) {idx : List (Fin NUM)} {d' : Disk β}
    (hl : idx.length = 3) (hn : idx.Nodup) (hf : ∀ j ∈ idx, s.disk.free j = true)
    (hs : submit (s.disk.take idx) b w idx = some d') :
    VInv { s with disk := d', caller := update s.caller b (.submitted idx) } := by
  obtain ⟨i0, rest, rfl, hch, hdesc, hfree, hinfo, hbuf, havail, hused, hui⟩ := submit_spec hs hn
  have hb : ∀ idx', s.caller b ≠ .submitted idx' := by
    intro idx' e
    rcases hc with hc | hc <;> rw [hc] at e <;> cases e
  -- 取った記述子は、ほかのどの要求も持たない
  have hfresh : ∀ b' idx', s.caller b' = .submitted idx' → ∀ j ∈ i0 :: rest, j ∉ idx' :=
    fun b' idx' hc' j hj => h.not_mem_of_free (hf j hj) hc'
  have hsub : ∀ b' idx', update s.caller b (.submitted (i0 :: rest)) b' = .submitted idx' ↔
      (b' = b ∧ idx' = i0 :: rest) ∨ (b' ≠ b ∧ s.caller b' = .submitted idx') := by
    intro b' idx'
    rw [update_submitted, Caller.submitted.injEq, eq_comm (a := i0 :: rest)]
  have hown : OwnInv { s with disk := d', caller := update s.caller b (.submitted (i0 :: rest)) } := by
    refine ⟨fun b' idx' hc' => ?_, fun b₁ b₂ idx₁ idx₂ hne h₁ h₂ => ?_, fun j => ?_,
      fun b' i idx' hc' => ?_⟩
    · rcases (hsub b' idx').mp hc' with ⟨-, rfl⟩ | ⟨-, hc'⟩
      · exact ⟨hl, hn, hch⟩
      · obtain ⟨hl', hn', hch'⟩ := h.chain b' idx' hc'
        exact ⟨hl', hn', hch'.congr fun j hj => hdesc j fun hm => hfresh b' idx' hc' j hm hj⟩
    · rcases (hsub b₁ idx₁).mp h₁ with ⟨rfl, rfl⟩ | ⟨-, h₁'⟩ <;>
        rcases (hsub b₂ idx₂).mp h₂ with ⟨rfl, rfl⟩ | ⟨-, h₂'⟩
      · exact absurd rfl hne
      · exact fun a ha₁ ha₂ => hfresh b₂ idx₂ h₂' a ha₁ ha₂
      · exact fun a ha₁ ha₂ => hfresh b₁ idx₁ h₁' a ha₂ ha₁
      · exact h.disjoint b₁ b₂ idx₁ idx₂ hne h₁' h₂'
    · have hiff : Owned { s with disk := d', caller := update s.caller b (.submitted (i0 :: rest)) } j ↔
          j ∈ i0 :: rest ∨ Owned s j := by
        constructor
        · rintro ⟨b', idx', hc', hj⟩
          rcases (hsub b' idx').mp hc' with ⟨-, rfl⟩ | ⟨-, hc'⟩
          · exact .inl hj
          · exact .inr ⟨b', idx', hc', hj⟩
        · rintro (hj | ⟨b', idx', hc', hj⟩)
          · exact ⟨b, _, (hsub b _).mpr (.inl ⟨rfl, rfl⟩), hj⟩
          · have hbb : b' ≠ b := fun e => hb idx' (e ▸ hc')
            exact ⟨b', idx', (hsub b' idx').mpr (.inr ⟨hbb, hc'⟩), hj⟩
      simp only [hfree, hiff, Disk.take_free]
      by_cases hj : j ∈ i0 :: rest
      · simp [hj]
      · simp only [hj, if_false, false_or]
        exact h.free_iff j
    · rcases (hsub b' _).mp hc' with ⟨rfl, e⟩ | ⟨hbb, hc'⟩
      · cases e
        simp [hinfo]
      · have hne : i ≠ i0 := fun e => hfresh b' _ hc' i0 List.mem_cons_self (e ▸ List.mem_cons_self)
        simp only [hinfo, update_of_ne hne, Disk.take_info]
        exact h.info b' i idx' hc'
  have hlt := h.length_lt_of_free (hf i0 List.mem_cons_self)
  have hlenA : (s.disk.avail.idx - s.seen).toNat < NUM := by
    rw [inflight_length] at hlt
    omega
  have hq : availQ { s with disk := d', caller := update s.caller b (.submitted (i0 :: rest)) } =
      availQ s ++ [i0.val] := by
    simp only [availQ, havail, Disk.take_avail]
    rw [ringView_write NUM_dvd (by decide) _ hlenA, List.map_append, List.map_singleton,
      toNat_toUInt16_fin]
  have hu : usedQ { s with disk := d', caller := update s.caller b (.submitted (i0 :: rest)) } =
      usedQ s := by
    simp only [usedQ, hused, hui, Disk.take_used, Disk.take_usedIdx]
  -- 新しい頭は avail 環の末尾に加わる
  have hperm : (inflight { s with disk := d', caller := update s.caller b (.submitted (i0 :: rest)) }).Perm
      (inflight s ++ [i0.val]) := by
    rw [inflight, inflight, hq, hu]
    refine List.perm_iff_count.mpr fun a => ?_
    simp only [List.count_append, List.count_cons, List.count_nil]
    omega
  have hi0 := h.head_not_mem (hf i0 List.mem_cons_self)
  have hnd : (inflight s ++ [i0.val]).Nodup :=
    List.nodup_append.mpr ⟨h.nodup, by simp, fun a ha b hb e => hi0 (by simp_all)⟩
  refine ⟨hown, hperm.nodup_iff.mpr hnd, fun z => ?_, fun z hz => ?_, ?_, ?_⟩
  · rw [hperm.mem_iff, List.mem_append, List.mem_singleton, h.mem_iff]
    constructor
    · rintro (⟨b', i', idx', hc', hb', rfl⟩ | rfl)
      · have hbb : b' ≠ b := by
          rintro rfl
          exact hb _ hc'
        refine ⟨b', i', idx', (hsub b' _).mpr (.inr ⟨hbb, hc'⟩), ?_, rfl⟩
        simpa [hbuf, update_of_ne hbb] using hb'
      · exact ⟨b, i0, rest, (hsub b _).mpr (.inl ⟨rfl, rfl⟩), by simp [hbuf], rfl⟩
    · rintro ⟨b', i', idx', hc', hb', rfl⟩
      rcases (hsub b' _).mp hc' with ⟨rfl, e⟩ | ⟨hbb, hc'⟩
      · cases e
        exact .inr rfl
      · refine .inl ⟨b', i', idx', hc', ?_, rfl⟩
        simpa [hbuf, update_of_ne hbb] using hb'
  · rw [hu] at hz
    obtain ⟨b', i', idx', hc', -, rfl⟩ := (h.mem_iff _).mp (List.mem_append_right _ hz)
    have hne : i' ≠ i0 := fun e => hfresh b' _ hc' i0 List.mem_cons_self (e ▸ List.mem_cons_self)
    have hst := h.status _ hz
    simp only [Fin.ofNat_val_eq_self] at hst ⊢
    simp only [hinfo, update_of_ne hne, Disk.take_info]
    exact hst
  · simp only [hused, Disk.take_used]
    exact h.pend
  · have hd := h.dist_eq
    have e₁ : (s.disk.avail.idx + 1 - s.disk.usedIdx).toNat =
        (s.disk.avail.idx - s.disk.usedIdx).toNat + 1 :=
      toNat_add_one_sub _ _ (by rw [hd]; simp only [NUM] at hlt; omega)
    have e₂ : (s.disk.avail.idx + 1 - s.seen).toNat = (s.disk.avail.idx - s.seen).toNat + 1 :=
      toNat_add_one_sub _ _ (by simp only [NUM] at hlenA; omega)
    simp only [havail, hui, hused, Disk.take_avail, Disk.take_used, Disk.take_usedIdx, e₁, e₂]
    have := h.dist
    omega

/-- 終えた要求の後始末: `free_chain` が鎖をちょうど解放し、要求が消える。 -/
theorem VInv.finish (h : VInv s) {b : β} {idx : List (Fin NUM)} (hc : s.caller b = .submitted idx)
    (hb : s.disk.bufDisk b = false) :
    ∃ d', rwFinish s.disk idx = some d' ∧ (∀ j, d'.free j = (decide (j ∈ idx) || s.disk.free j)) ∧
      VInv { s with disk := d', caller := update s.caller b .idle } := by
  obtain ⟨hl, hn, hch⟩ := h.chain b idx hc
  obtain ⟨i0, rest, rfl⟩ := List.exists_cons_of_ne_nil (List.ne_nil_of_length_pos (by rw [hl]; decide))
  refine ⟨_, rwFinish_eq hch hn fun j hj => h.busy hc hj, fun j => ?_, ?_⟩
  · by_cases hj : j ∈ i0 :: rest <;> simp [hj]
  -- ほかの要求の記述子は b の鎖と重ならない
  have hother : ∀ b' idx', s.caller b' = .submitted idx' → b' ≠ b → ∀ j ∈ idx', j ∉ i0 :: rest :=
    fun b' idx' hc' hbb j hj hm => h.disjoint b b' _ idx' hbb.symm hc hc' hm hj
  have hsub : ∀ b' idx', update s.caller b .idle b' = .submitted idx' ↔
      b' ≠ b ∧ s.caller b' = .submitted idx' := by
    intro b' idx'
    rw [update_submitted]
    simp only [reduceCtorEq, and_false, false_or]
  refine ⟨⟨fun b' idx' hc' => ?_, fun b₁ b₂ idx₁ idx₂ hne h₁ h₂ => ?_, fun j => ?_,
    fun b' i idx' hc' => ?_⟩, h.toRingInv.congr rfl rfl rfl rfl rfl (fun z => ?_) fun j => ?_⟩
  · obtain ⟨hbb, hc'⟩ := (hsub b' idx').mp hc'
    obtain ⟨hl', hn', hch'⟩ := h.chain b' idx' hc'
    refine ⟨hl', hn', hch'.congr fun j hj => ?_⟩
    simp [hother b' idx' hc' hbb j hj]
  · exact h.disjoint b₁ b₂ idx₁ idx₂ hne ((hsub _ _).mp h₁).2 ((hsub _ _).mp h₂).2
  · have hiff : Owned { s with
        disk := { s.disk with info := update s.disk.info i0 { s.disk.info i0 with b := none } }.release
          (i0 :: rest)
        caller := update s.caller b .idle } j ↔ Owned s j ∧ j ∉ i0 :: rest := by
      constructor
      · rintro ⟨b', idx', hc', hj⟩
        obtain ⟨hbb, hc'⟩ := (hsub b' idx').mp hc'
        exact ⟨⟨b', idx', hc', hj⟩, hother b' idx' hc' hbb j hj⟩
      · rintro ⟨⟨b', idx', hc', hj⟩, hjn⟩
        have hbb : b' ≠ b := by
          rintro rfl
          rw [hc] at hc'
          cases hc'
          exact hjn hj
        exact ⟨b', idx', (hsub b' idx').mpr ⟨hbb, hc'⟩, hj⟩
    rw [hiff]
    by_cases hj : j ∈ i0 :: rest
    · simp [hj]
    · simp only [Disk.release_free, hj, if_false, not_false_eq_true, and_true]
      exact h.free_iff j
  · obtain ⟨hbb, hc'⟩ := (hsub b' _).mp hc'
    have hne : i ≠ i0 := fun e => hother b' _ hc' hbb i List.mem_cons_self (e ▸ List.mem_cons_self)
    simp only [Disk.release_info, update_of_ne hne]
    exact h.info b' i idx' hc'
  · constructor
    · rintro ⟨b', i', idx', hc', hb', rfl⟩
      exact ⟨b', i', idx', ((hsub b' _).mp hc').2, hb', rfl⟩
    · rintro ⟨b', i', idx', hc', hb', rfl⟩
      have hbb : b' ≠ b := by
        rintro rfl
        rw [hb] at hb'
        cases hb'
      exact ⟨b', i', idx', (hsub b' _).mpr ⟨hbb, hc'⟩, hb', rfl⟩
  · by_cases e : j = i0
    · subst e
      simp
    · simp [update_of_ne e]

/-! ## 到達できる状態 -/

omit [DecidableEq β] in
theorem VInv.init : VInv (VSys.init : VSys β) := by
  have hq : inflight (VSys.init : VSys β) = [] := by
    simp [inflight, availQ, usedQ, VSys.init, Disk.init, ringView]
  refine ⟨⟨fun b idx hc => ?_, fun b b' idx idx' _ hc => ?_, fun j => ?_, fun b i idx hc => ?_⟩,
    ⟨hq ▸ List.nodup_nil, fun z => ?_, fun z hz => ?_, by simp [VSys.init, Disk.init],
      by simp [VSys.init, Disk.init]⟩⟩
  all_goals try cases hc
  · simp [Owned, VSys.init, Disk.init]
  · rw [hq]
    simp [Outstanding, VSys.init]
  · have hz' : z ∈ inflight (VSys.init : VSys β) := List.mem_append_right _ hz
    rw [hq] at hz'
    cases hz'

theorem VInv.step {s' : VSys β} (h : VInv s) (hs : VStep s s') : VInv s' := by
  cases hs with
  | @attempt b w r d' hc ha =>
    cases r with
    | none =>
      obtain ⟨t, ht, rfl⟩ := rwAttempt_inv ha
      exact h.attemptFail hc ht
    | some idx =>
      obtain ⟨hl, hn, hf, hsub⟩ := rwAttempt_inv ha
      exact h.attemptOk hc hl hn hf hsub
  | @finish b idx d' hc hb hf =>
    obtain ⟨d'', he, -, hv⟩ := h.finish hc hb
    rw [hf, Option.some.injEq] at he
    subst he
    exact hv
  | intr hi =>
    obtain ⟨d', he, hv, -, -⟩ :=
      virtioDiskIntr_inv (fun d => VInv { s with disk := d }) (fun _ hd hne => hd.intrStep hne) h
    rw [hi, Option.some.injEq] at he
    subst he
    exact hv
  | fetch hne => exact h.fetch hne
  | complete hp => exact h.complete hp

theorem vreach_vInv {s : VSys β} (h : VReach s) : VInv s :=
  Reachable.inv (fun _ hs => hs ▸ VInv.init) (fun _ _ hi hs => hi.step hs) h

end Xv6.Virtio
