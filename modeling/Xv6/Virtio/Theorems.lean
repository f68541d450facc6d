import Xv6.Virtio.Inv

/-!
# virtio の記述子の勘定

装置が読んだ鎖の頭を used 環でちょうど一度返し、status に 0 を書くとき、`virtio_disk_rw` の
呼び出し（`alloc3_desc` の試し直しで眠るものも含む）と `virtio_disk_intr` がどう交互に走っても:

- 記述子が空きであることと、どの要求も持たないことは同じ。要求の記述子は三つの違う記述子で、
  ほかの要求と重ならない。
- 途中で失敗した `alloc3_desc` は取った記述子をちょうど戻す。試みは panic しない。
- 終えた要求の `free_chain` は、その要求の三つの記述子をちょうど解放する。
- 割り込みは panic せず、used 環を `used->idx` まで読み切る。
- avail の添字と `used_idx` の 16 ビットの差は、割り込みがまだ終えていない要求の数で、環を
  NUM を法とした枠で読むと、それらの鎖の頭がちょうど一度ずつ並ぶ。
-/

namespace Xv6.Virtio

open Function Xv6.Lib

variable {β : Type} [DecidableEq β]

structure DescSafe (s : VSys β) : Prop where
  free_iff : ∀ i, s.disk.free i = true ↔ ∀ b idx, s.caller b = .submitted idx → i ∉ idx
  chains : ∀ b idx, s.caller b = .submitted idx → idx.length = 3 ∧ idx.Nodup
  disjoint : ∀ b b' idx idx', b ≠ b' → s.caller b = .submitted idx → s.caller b' = .submitted idx' →
    idx.Disjoint idx'
  attempt_fail : ∀ b w d', rwAttempt s.disk b w = some (none, d') → d'.free = s.disk.free
  attempt : ∀ b w, rwAttempt s.disk b w ≠ none
  finish : ∀ b idx, s.caller b = .submitted idx → s.disk.bufDisk b = false →
    ∃ d', rwFinish s.disk idx = some d' ∧ ∀ j, d'.free j = (decide (j ∈ idx) || s.disk.free j)
  intr : ∃ d', virtioDiskIntr s.disk = some d' ∧ d'.usedIdx = s.disk.used.idx
  ring : (s.disk.avail.idx - s.disk.usedIdx).toNat = (inflight s).length ∧ (inflight s).Nodup ∧
    ∀ h, h ∈ inflight s ↔ Outstanding s h

theorem VInv.descSafe {s : VSys β} (h : VInv s) : DescSafe s where
  free_iff i := by
    rw [h.free_iff i]
    simp only [Owned, not_exists, not_and]
  chains b idx hc := ⟨(h.chain b idx hc).1, (h.chain b idx hc).2.1⟩
  disjoint := h.disjoint
  attempt_fail b w d' ha := by
    obtain ⟨t, ht, rfl⟩ := rwAttempt_inv ha
    exact Disk.take_release_free ht
  attempt b w := by
    obtain ⟨r, d', he, -⟩ := rwAttempt_spec s.disk b w
    rw [he]
    exact Option.some_ne_none _
  finish b idx hc hb := by
    obtain ⟨d', he, hf, -⟩ := h.finish hc hb
    exact ⟨d', he, hf⟩
  intr := by
    obtain ⟨d', he, -, hu, -⟩ :=
      virtioDiskIntr_inv (fun d => VInv { s with disk := d }) (fun _ hd hne => hd.intrStep hne) h
    exact ⟨d', he, hu⟩
  ring := ⟨h.dist_eq, h.nodup, h.mem_iff⟩

theorem vreach_descSafe {s : VSys β} (h : VReach s) : DescSafe s :=
  (vreach_vInv h).descSafe

/-- 呼び出し元 0 が書き込みの鎖を出し、装置がそれを avail 環から読んだ状態。 -/
theorem submit_fetch_descSafe : ∃ s : VSys Nat, VReach s ∧ s.pending.length = 1 ∧ DescSafe s := by
  obtain ⟨⟨r, d'⟩, h, hb⟩ := (Option.any_eq_true _ _).mp (by decide +kernel :
    (rwAttempt (Disk.init : Disk Nat) 0 true).any (fun x => decide (x.2.avail.idx ≠ 0)) = true)
  have r₁ := Reachable.step (Reachable.init rfl : VReach (VSys.init : VSys Nat)) (VStep.attempt (.inl rfl) h)
  have r₂ := Reachable.step r₁ (VStep.fetch (Ne.symm (of_decide_eq_true hb)))
  exact ⟨_, r₂, rfl, vreach_descSafe r₂⟩

end Xv6.Virtio
