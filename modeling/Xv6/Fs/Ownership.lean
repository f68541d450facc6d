import Xv6.Fs.Blocks
import Xv6.Lib.Reach

/-!
# 持ち主の性質は、ファイルシステムのどの操作でも保たれる

`itrunc` の二つのループは、添字 t の前まで処理した状態の性質（`TruncDirect`、
`TruncEntries`）を `foldlM_range_total` で運ぶ。間接ブロックの語を解放する間、語はブロックに
残ったまま指す先が空きになるので、処理した語の欄を空にした `clearRefs` の下で性質を言う。
このため、使用中の inode の `itrunc` は `bfree` で panic しない。

`writei` と `readi` のループは燃料で回り、一回ごとに `bmap` と、返されたデータブロックへの
書き込みをする。
-/

namespace Xv6.Fs

open Xv6.Lib Function

variable {sb : SuperBlock} {fs fs' : FsState} {inum : Nat} {ip : DInode}

/-! ## itrunc -/

/-- 直接ブロックのループで、添字 t の前まで処理したメモリ上の inode と状態。ループの前の状態は fs₀
で、ループは印だけを書く。 -/
structure TruncDirect (sb : SuperBlock) (fs₀ : FsState) (inum t : Nat) (r : DInode × FsState) : Prop where
  owned : BlocksOwned sb (r.2.iupdate inum r.1)
  inUse : InUse sb (r.2.iupdate inum r.1) inum
  cleared : ∀ k < t, r.1.addrs k = 0
  inode : r.2.inode = fs₀.inode
  data : ∀ b, ¬ sb.IsMeta b → r.2.data b = fs₀.data b

theorem TruncDirect.step {fs₀ : FsState} {t : Nat} {r : DInode × FsState} (ht : t < NDIRECT)
    (h : TruncDirect sb fs₀ inum t r) :
    ∃ r', itruncDirect sb r t = some r' ∧ TruncDirect sb fs₀ inum (t + 1) r' := by
  obtain ⟨ip, fs⟩ := r
  have hcl : ∀ {ip' : DInode}, ip'.addrs t = 0 → (∀ k < t, ip'.addrs k = ip.addrs k) → ∀ k < t + 1, ip'.addrs k = 0 := by
    intro ip' h0 heq k hk
    rcases Nat.lt_succ_iff_lt_or_eq.mp hk with hk | rfl
    · rw [heq k hk]
      exact h.cleared k hk
    · exact h0
  by_cases hz : ip.addrs t = 0
  · exact ⟨(ip, fs), by simp [itruncDirect, hz], h.owned, h.inUse, hcl hz fun _ _ => rfl, h.inode, h.data⟩
  -- 欄 (inum, direct t) のブロックを空きに戻し、欄を空にする
  have hx : (fs.iupdate inum ip).ref inum (.direct ⟨t, ht⟩) = ip.addrs t := by simp [DInode.slot]
  have hs : (fs.iupdate inum ip).ref inum (.direct ⟨t, ht⟩) ≠ 0 := hx ▸ hz
  have hlt := h.owned.ref_lt inum _ h.inUse hs
  have h₀ : Owned sb.size sb.IsMeta (fs.used sb) (InUse sb (fs.iupdate inum ip)) (fs.iupdate inum ip).ref :=
    h.owned
  obtain ⟨hfree, hown⟩ := Owned.bfree h₀ h.inUse hs
  rw [hx] at hfree hown hlt
  refine ⟨(ip.setAddr t 0, fs.clearBit sb (ip.addrs t)), by simp [itruncDirect, hz, hfree], ?_, ?_, ?_, ?_, ?_⟩
  · exact BlocksOwned.setSlot hown rfl (fun i hi => h.owned.ref_clearBit hlt hi)
      (DInode.slot_setAddr_direct ip _ ⟨t, ht⟩ 0) rfl
  · exact h.inUse.iupdate_self _ rfl
  · refine hcl (by simp) fun k hk => ?_
    simp [Nat.ne_of_lt hk]
  · simpa using h.inode
  · intro b hb
    rw [FsState.clearBit_data_of_not_meta _ hlt hb]
    exact h.data b hb

/-- 間接ブロックの語のうち、添字が t より小さいもの。 -/
def Slot.entryBelow (t : Nat) : Slot → Bool
  | .entry j => decide (j.val < t)
  | _ => false

theorem Slot.entryBelow_succ {t : Nat} (ht : t < NINDIRECT) (s : Slot) :
    s.entryBelow (t + 1) = (decide (s = .entry ⟨t, ht⟩) || s.entryBelow t) := by
  cases s with
  | entry j =>
    have : j.val < t + 1 ↔ j = ⟨t, ht⟩ ∨ j.val < t := by
      rw [Fin.ext_iff]
      show j.val < t + 1 ↔ j.val = t ∨ j.val < t
      omega
    simp [entryBelow, this]
  | _ => simp [entryBelow]

/-- 間接ブロックの語のループで、添字 t の前まで処理した状態。ループの前の状態は fs₁ で、
メモリ上の inode は ip₁。処理した語の欄を空にした下で性質が成り立つ。 -/
structure TruncEntries (sb : SuperBlock) (fs₁ : FsState) (ip₁ : DInode) (inum t : Nat) (fs : FsState) :
    Prop where
  owned : Owned sb.size sb.IsMeta (fs.used sb) (InUse sb (fs₁.iupdate inum ip₁))
    (clearRefs (fs₁.iupdate inum ip₁).ref inum (Slot.entryBelow t))
  inode : fs.inode = fs₁.inode
  data : ∀ b, ¬ sb.IsMeta b → fs.data b = fs₁.data b

theorem TruncEntries.init {fs₁ : FsState} {ip₁ : DInode} (h : BlocksOwned sb (fs₁.iupdate inum ip₁)) :
    TruncEntries sb fs₁ ip₁ inum 0 fs₁ := by
  have h0 : clearRefs (fs₁.iupdate inum ip₁).ref inum (Slot.entryBelow 0) = (fs₁.iupdate inum ip₁).ref := by
    funext i s
    cases s <;> simp [clearRefs, Slot.entryBelow]
  refine ⟨?_, rfl, fun _ _ => rfl⟩
  rw [h0]
  exact h

theorem TruncEntries.step {fs₁ fs : FsState} {ip₁ : DInode} {t : Nat}
    (hW : BlocksOwned sb (fs₁.iupdate inum ip₁)) (ha : InUse sb (fs₁.iupdate inum ip₁) inum)
    (hind : ip₁.addrs NDIRECT ≠ 0) (ht : t < NINDIRECT) (h : TruncEntries sb fs₁ ip₁ inum t fs) :
    ∃ fs', itruncEntry sb (ip₁.addrs NDIRECT) fs t = some fs' ∧ TruncEntries sb fs₁ ip₁ inum (t + 1) fs' := by
  have hmeta : ¬ sb.IsMeta (ip₁.addrs NDIRECT) := by
    simpa [DInode.slot] using hW.ref_fixed inum .indirect ha (by simpa [DInode.slot] using hind)
  -- 語はバッファから読むが、間接ブロックはメタデータでないので、ループの前と同じ値である
  have hw : getWord (fs.data (ip₁.addrs NDIRECT)) t =
      clearRefs (fs₁.iupdate inum ip₁).ref inum (Slot.entryBelow t) inum (.entry ⟨t, ht⟩) := by
    simp [clearRefs, Slot.entryBelow, DInode.slot, hind, h.data _ hmeta]
  have hQ := Slot.entryBelow_succ ht
  by_cases hs : clearRefs (fs₁.iupdate inum ip₁).ref inum (Slot.entryBelow t) inum (.entry ⟨t, ht⟩) = 0
  · refine ⟨fs, by simp [itruncEntry, hw, hs], ?_, h.inode, h.data⟩
    rw [clearRefs_insert _ _ _ _ _ hQ]
    exact h.owned.drop inum _
  obtain ⟨hfree, hown⟩ := Owned.bfree h.owned ha hs
  have hlt := h.owned.ref_lt inum _ ha hs
  refine ⟨fs.clearBit sb _, by rw [itruncEntry, hw, if_pos hs, hfree], ?_, h.inode, fun b hb => ?_⟩
  · rw [clearRefs_insert _ _ _ _ _ hQ]
    exact hown
  · rw [FsState.clearBit_data_of_not_meta _ hlt hb]
    exact h.data b hb

/-- 直接ブロックのループは止まり、すべての直接ブロックの欄を空にする。 -/
theorem BlocksOwned.itruncDirect_loop (h : BlocksOwned sb fs) (ha : InUse sb fs inum) :
    ∃ r, (List.range NDIRECT).foldlM (itruncDirect sb) (fs.inode inum, fs) = some r ∧
      TruncDirect sb fs inum NDIRECT r :=
  foldlM_range_total _ (TruncDirect sb fs inum)
    ⟨h.iupdate_inode inum, by simpa using ha, fun _ hk => absurd hk (Nat.not_lt_zero _), rfl, fun _ _ => rfl⟩
    fun _ _ ht hr => hr.step ht

/-- 語のループの後で間接ブロックそのものを空きに戻すと、inode inum の欄はすべて空になる。 -/
theorem TruncEntries.finish {fs₀ fs₁ fs₂ : FsState} {ip₁ : DInode} (hD : TruncDirect sb fs₀ inum NDIRECT (ip₁, fs₁))
    (hind : ip₁.addrs NDIRECT ≠ 0) (hE : TruncEntries sb fs₁ ip₁ inum NINDIRECT fs₂) :
    ∃ fs₃, Fs.bfree sb (ip₁.addrs NDIRECT) fs₂ = some fs₃ ∧
      BlocksOwned sb (fs₃.iupdate inum { ip₁.setAddr NDIRECT 0 with size := 0 }) ∧
      fs₃.inode = fs₂.inode ∧ ∀ b, ¬ sb.IsMeta b → fs₃.data b = fs₂.data b := by
  have hx : clearRefs (fs₁.iupdate inum ip₁).ref inum (Slot.entryBelow NINDIRECT) inum .indirect =
      ip₁.addrs NDIRECT := by
    simp [clearRefs, Slot.entryBelow, DInode.slot]
  obtain ⟨hfree, hown⟩ := Owned.bfree hE.owned hD.inUse (hx ▸ hind)
  rw [hx] at hfree hown
  have hlt : ip₁.addrs NDIRECT < sb.size := by
    simpa [DInode.slot] using hD.owned.ref_lt inum .indirect hD.inUse (by simpa [DInode.slot] using hind)
  refine ⟨_, hfree, BlocksOwned.of_empty hown _ (fun s => ?_) fun i e hi => ?_, by simp,
    fun b hb => FsState.clearBit_data_of_not_meta _ hlt hb⟩
  · cases s with
    | direct k =>
      have hk : (k : Nat) ≠ NDIRECT := Nat.ne_of_lt k.isLt
      simpa [DInode.slot, hk] using hD.cleared k k.isLt
    | indirect => simp [DInode.slot]
    | entry j => simp [DInode.slot]
  · have hi₁ : InUse sb (fs₁.iupdate inum ip₁) i := by
      simpa only [InUse, FsState.clearBit_inode, hE.inode, FsState.iupdate_inode_of_ne _ _ e] using hi
    refine ⟨hi₁, ?_⟩
    funext s
    rw [setRef_of_ne _ _ fun hc => e hc.1, clearRefs_of_ne _ _ e]
    -- 二つのループはビットマップにだけ書いたので、ほかの inode の欄は変わらない
    have hin : ((fs₂.clearBit sb (ip₁.addrs NDIRECT)).iupdate inum ip₁).inode = (fs₁.iupdate inum ip₁).inode := by
      simp [FsState.iupdate, hE.inode]
    rw [← FsState.ref_iupdate_of_ne _ ip₁ e, hD.owned.ref_congr hi₁ (congrFun hin i) fun b hb => ?_]
    rw [FsState.iupdate_data, FsState.iupdate_data, FsState.clearBit_data_of_not_meta _ hlt hb, hE.data b hb]

/-- 使用中の inode の `itrunc` は panic せず、性質を保ち、大きさを 0 にする。ほかの inode には
触れない。 -/
theorem BlocksOwned.itrunc (h : BlocksOwned sb fs) (ha : InUse sb fs inum) :
    ∃ fs', Fs.itrunc sb inum fs = some fs' ∧ BlocksOwned sb fs' ∧ (fs'.inode inum).size = 0 ∧
      Untouched sb inum fs fs' := by
  obtain ⟨⟨ip₁, fs₁⟩, hdir, hD⟩ := h.itruncDirect_loop ha
  -- ループは印だけを書くので、ほかの inode には触れない
  have hU₁ : Untouched sb inum fs fs₁ := h.untouched (fun i _ => congrFun hD.inode i) hD.data
  by_cases hind : ip₁.addrs NDIRECT = 0
  · -- 間接ブロックがなければ、直接ブロックのループで欄はすべて空になっている
    refine ⟨fs₁.iupdate inum { ip₁ with size := 0 }, by simp [Fs.itrunc, hdir, hind], ?_, by simp,
      hU₁.trans (Untouched.iupdate _ _)⟩
    have hD₀ : Owned sb.size sb.IsMeta (fs₁.used sb) (InUse sb (fs₁.iupdate inum ip₁)) (fs₁.iupdate inum ip₁).ref :=
      hD.owned
    refine BlocksOwned.of_empty hD₀ _ (fun s => ?_) fun i e hi =>
      ⟨by simpa only [InUse, FsState.iupdate_inode_of_ne _ _ e] using hi, (FsState.ref_iupdate_of_ne _ _ e).symm⟩
    cases s with
    | direct k => exact hD.cleared k k.isLt
    | indirect => exact hind
    | entry j => simp [DInode.slot, hind]
  obtain ⟨fs₂, hent, hE⟩ := foldlM_range_total (itruncEntry sb (ip₁.addrs NDIRECT))
    (TruncEntries sb fs₁ ip₁ inum) (TruncEntries.init hD.owned)
    fun _ _ ht hr => hr.step hD.owned hD.inUse hind ht
  obtain ⟨fs₃, hfree, h₃, hin₃, hd₃⟩ := hE.finish hD hind
  have hU₃ : Untouched sb inum fs fs₃ := h.untouched
    (fun i _ => by rw [hin₃, hE.inode, hD.inode]) fun b hb => by rw [hd₃ b hb, hE.data b hb, hD.data b hb]
  exact ⟨_, by simp [Fs.itrunc, hdir, hind, hent, hfree], h₃, by simp, hU₃.trans (Untouched.iupdate _ _)⟩

/-- `iput` がリンクのない inode を解放する道も panic せず、性質を保つ。その inode は使用中でなくなり、
ほかの inode には触れない。 -/
theorem BlocksOwned.iputFree (h : BlocksOwned sb fs) (ha : InUse sb fs inum) :
    ∃ fs', Fs.iputFree sb inum fs = some fs' ∧ BlocksOwned sb fs' ∧ ¬ InUse sb fs' inum ∧
      Untouched sb inum fs fs' := by
  obtain ⟨fs₁, ht, h₁, -, hU⟩ := h.itrunc ha
  refine ⟨fs₁.iupdate inum { fs₁.inode inum with type := 0 }, by simp [Fs.iputFree, ht], h₁.iupdate_free rfl,
    fun hi => hi.2.2 (by simp), hU.trans (Untouched.iupdate _ _)⟩

/-! ## writei と readi -/

/-- `writei` のループの一回ごとに、`bmap` が返したデータブロックにだけ書く。ほかの inode には
触れない。 -/
theorem BlocksOwned.writeiLoop (hl : LayoutOK sb) {mem : Nat → Option UInt8} {src n : Nat} :
    ∀ {fuel tot off tot' off' : Nat} {ip ip' : DInode} {fs fs' : FsState},
      BlocksOwned sb (fs.iupdate inum ip) → InUse sb (fs.iupdate inum ip) inum →
      Fs.writeiLoop sb mem src n fuel tot off ip fs = some (tot', off', ip', fs') →
      BlocksOwned sb (fs'.iupdate inum ip') ∧ ip'.type = ip.type ∧ Untouched sb inum fs fs'
  | 0, _, _, _, _, _, _, _, _, h, _, hw => by
    obtain ⟨-, -, rfl, rfl⟩ := by simpa [Fs.writeiLoop] using hw
    exact ⟨h, rfl, Untouched.refl _⟩
  | fuel + 1, tot, off, tot', off', ip, ip', fs, fs', h, ha, hw => by
    unfold Fs.writeiLoop at hw
    by_cases hn : tot < n
    swap
    · rw [if_neg hn] at hw
      obtain ⟨-, -, rfl, rfl⟩ := by simpa using hw
      exact ⟨h, rfl, Untouched.refl _⟩
    rw [if_pos hn] at hw
    rcases hB : Fs.bmap sb ip (off / BSIZE) fs with _ | ⟨addr, ip₁, fs₁⟩
    · rw [hB] at hw
      cases hw
    rw [hB] at hw
    dsimp only at hw
    obtain ⟨h₁, ht₁, hin₁, hres, hk₁⟩ := h.bmap hl ha hB
    have ha₁ := ha.iupdate_self fs₁ ht₁
    have hU₁ : Untouched sb inum fs fs₁ := fun i e => ⟨congrFun hin₁ i, hk₁ i e⟩
    by_cases hz : addr = 0
    · rw [if_pos hz] at hw
      obtain ⟨-, -, rfl, rfl⟩ := by simpa using hw
      exact ⟨h₁, ht₁, hU₁⟩
    rw [if_neg hz] at hw
    obtain ⟨s, hs, hsa⟩ := hres.resolve_left hz
    split at hw
    · obtain ⟨-, -, rfl, rfl⟩ := by simpa using hw
      exact ⟨h₁, ht₁, hU₁⟩
    rename_i bs _
    -- データブロックへの書き込みは、そのブロックを指す欄のほかは何も変えない
    have h₂ : BlocksOwned sb ((fs₁.writeBlock addr (putBytes (off % BSIZE) bs)).iupdate inum ip₁) := by
      rw [FsState.writeBlock_iupdate, ← hsa]
      exact h₁.writeData hl ha₁ hs (hsa ▸ hz) _
    have hU₂ : Untouched sb inum fs₁ (fs₁.writeBlock addr (putBytes (off % BSIZE) bs)) := by
      refine fun i e => ⟨rfl, fun hi => ?_⟩
      have := h₁.ref_writeData ha₁ hs (hsa ▸ hz) (putBytes (off % BSIZE) bs) ((inUse_iupdate_of_ne e).mpr hi)
      rwa [hsa, ← FsState.writeBlock_iupdate, FsState.ref_iupdate_of_ne _ _ e,
        FsState.ref_iupdate_of_ne _ _ e] at this
    obtain ⟨h₃, ht₃, hU₃⟩ := BlocksOwned.writeiLoop hl h₂ (ha₁.iupdate_self _ rfl) hw
    exact ⟨h₃, ht₃.trans ht₁, hU₁.trans (hU₂.trans hU₃)⟩

theorem BlocksOwned.writei (h : BlocksOwned sb fs) (hl : LayoutOK sb) (ha : InUse sb fs inum)
    {mem : Nat → Option UInt8} {src off n : Nat} {v : Int}
    (hw : Fs.writei sb inum mem src off n fs = some (v, fs')) : BlocksOwned sb fs' ∧ Untouched sb inum fs fs' := by
  dsimp only [Fs.writei] at hw
  split_ifs at hw
  · obtain ⟨-, rfl⟩ := by simpa using hw
    exact ⟨h, Untouched.refl _⟩
  · obtain ⟨-, rfl⟩ := by simpa using hw
    exact ⟨h, Untouched.refl _⟩
  split at hw
  · cases hw
  rename_i tot off' ip₁ fs₁ hL
  obtain ⟨-, rfl⟩ := by simpa using hw
  obtain ⟨h₁, -, hU⟩ := BlocksOwned.writeiLoop hl (h.iupdate_inode inum) (by simpa using ha) hL
  -- 大きさを伸ばしても欄は変わらない
  split_ifs
  · exact ⟨h₁.iupdate_congr rfl rfl, hU.trans (Untouched.iupdate _ _)⟩
  · exact ⟨h₁, hU.trans (Untouched.iupdate _ _)⟩

/-- `readi` のループは `bmap` のほかに状態を変えない。 -/
theorem BlocksOwned.readiLoop (hl : LayoutOK sb) {out : Nat → Nat → Bool} {dst n : Nat} :
    ∀ {fuel tot off : Nat} {acc acc' : List UInt8} {v : Int} {ip ip' : DInode} {fs fs' : FsState},
      BlocksOwned sb (fs.iupdate inum ip) → InUse sb (fs.iupdate inum ip) inum →
      Fs.readiLoop sb out dst n fuel tot off acc ip fs = some (v, acc', ip', fs') →
      BlocksOwned sb (fs'.iupdate inum ip') ∧ ip'.type = ip.type
  | 0, _, _, _, _, _, _, _, _, _, h, _, hr => by
    obtain ⟨-, -, rfl, rfl⟩ := by simpa [Fs.readiLoop] using hr
    exact ⟨h, rfl⟩
  | fuel + 1, tot, off, acc, acc', v, ip, ip', fs, fs', h, ha, hr => by
    unfold Fs.readiLoop at hr
    by_cases hn : tot < n
    swap
    · rw [if_neg hn] at hr
      obtain ⟨-, -, rfl, rfl⟩ := by simpa using hr
      exact ⟨h, rfl⟩
    rw [if_pos hn] at hr
    rcases hB : Fs.bmap sb ip (off / BSIZE) fs with _ | ⟨addr, ip₁, fs₁⟩
    · rw [hB] at hr
      cases hr
    rw [hB] at hr
    dsimp only at hr
    obtain ⟨h₁, ht₁, -, -, -⟩ := h.bmap hl ha hB
    split_ifs at hr
    · obtain ⟨-, -, rfl, rfl⟩ := by simpa using hr
      exact ⟨h₁, ht₁⟩
    · obtain ⟨h₂, ht₂⟩ := BlocksOwned.readiLoop hl h₁ (ha.iupdate_self fs₁ ht₁) hr
      exact ⟨h₂, ht₂.trans ht₁⟩
    · obtain ⟨-, -, rfl, rfl⟩ := by simpa using hr
      exact ⟨h₁, ht₁⟩

theorem BlocksOwned.readi (h : BlocksOwned sb fs) (hl : LayoutOK sb) (ha : InUse sb fs inum)
    {out : Nat → Nat → Bool} {dst off n : Nat} {v : Int} {acc : List UInt8}
    (hr : Fs.readi sb inum out dst off n fs = some (v, acc, fs')) : BlocksOwned sb fs' := by
  dsimp only [Fs.readi] at hr
  by_cases hg : (fs.inode inum).size < off ∨ (off + n) % 2 ^ 32 < off
  · rw [if_pos hg] at hr
    obtain ⟨-, -, rfl⟩ := by simpa using hr
    exact h
  rw [if_neg hg] at hr
  split at hr
  · cases hr
  rename_i v' acc' ip₁ fs₁ hL
  obtain ⟨-, -, rfl⟩ := by simpa using hr
  exact (BlocksOwned.readiLoop hl (h.iupdate_inode inum) (by simpa using ha) hL).1

/-! ## ialloc と inode の欄の書き換え -/

/-- `ialloc` は見つけた inode を 0 で埋めるので、新しい inode はどのブロックも指さない。 -/
theorem BlocksOwned.ialloc (h : BlocksOwned sb fs) {type : Int}
    (hi : Fs.ialloc sb type fs = some (inum, fs')) : BlocksOwned sb fs' := by
  unfold Fs.ialloc at hi
  split at hi
  · obtain ⟨rfl, rfl⟩ := by simpa using hi
    refine BlocksOwned.of_empty h _ (fun s => ?_) fun i _ hi => ⟨hi, rfl⟩
    cases s <;> simp [DInode.slot]
  · cases hi

/-- リンク数だけを書き換えて `iupdate` しても性質は変わらない。 -/
theorem BlocksOwned.setNlink (h : BlocksOwned sb fs) (nlink : Int) :
    BlocksOwned sb (fs.iupdate inum { fs.inode inum with nlink := nlink }) :=
  (h.iupdate_inode inum).iupdate_congr rfl rfl

/-! ## 操作の列 -/

/-- システムコールが、inode を `ilock` して（`ialloc` は inode を探して）呼ぶ fs.c の手続き。
`setNlink` は `link`・`unlink`・`create` のリンク数の書き換えと `iupdate`、`iput` はリンクの
ない inode の最後の参照を落とすこと。 -/
inductive FsOp where
  | ialloc (type : Int)
  | writei (inum : Nat) (mem : Nat → Option UInt8) (src off n : Nat)
  | readi (inum : Nat) (out : Nat → Nat → Bool) (dst off n : Nat)
  | itrunc (inum : Nat)
  | setNlink (inum : Nat) (nlink : Int)
  | iput (inum : Nat)

/-- 一つの操作。`ilock` した inode は使用中である（そうでなければ `panic("ilock: no type")`）。
`none` は panic か、起こらない呼び出し。 -/
def FsOp.step (sb : SuperBlock) (fs : FsState) : FsOp → Option FsState
  | .ialloc type => (Fs.ialloc sb type fs).map Prod.snd
  | .writei inum mem src off n =>
    if InUse sb fs inum then (Fs.writei sb inum mem src off n fs).map Prod.snd else none
  | .readi inum out dst off n =>
    if InUse sb fs inum then (Fs.readi sb inum out dst off n fs).map fun r => r.2.2 else none
  | .itrunc inum => if InUse sb fs inum then Fs.itrunc sb inum fs else none
  | .setNlink inum nlink =>
    if InUse sb fs inum then some (fs.iupdate inum { fs.inode inum with nlink := nlink }) else none
  | .iput inum => if InUse sb fs inum ∧ (fs.inode inum).nlink = 0 then Fs.iputFree sb inum fs else none

def FsStep (sb : SuperBlock) (fs fs' : FsState) : Prop := ∃ op : FsOp, op.step sb fs = some fs'

theorem BlocksOwned.step (h : BlocksOwned sb fs) (hl : LayoutOK sb) {op : FsOp}
    (hs : op.step sb fs = some fs') : BlocksOwned sb fs' := by
  cases op with
  | ialloc type =>
    obtain ⟨⟨inum, fs₁⟩, hi, rfl⟩ := Option.map_eq_some_iff.mp hs
    exact h.ialloc hi
  | writei inum mem src off n =>
    by_cases ha : InUse sb fs inum
    · simp only [FsOp.step, if_pos ha, Option.map_eq_some_iff] at hs
      obtain ⟨⟨v, fs₁⟩, hw, rfl⟩ := hs
      exact (h.writei hl ha hw).1
    · simp [FsOp.step, ha] at hs
  | readi inum out dst off n =>
    by_cases ha : InUse sb fs inum
    · simp only [FsOp.step, if_pos ha, Option.map_eq_some_iff] at hs
      obtain ⟨⟨v, acc, fs₁⟩, hr, rfl⟩ := hs
      exact h.readi hl ha hr
    · simp [FsOp.step, ha] at hs
  | itrunc inum =>
    by_cases ha : InUse sb fs inum
    · simp only [FsOp.step, if_pos ha] at hs
      obtain ⟨fs₁, ht, h₁, -⟩ := h.itrunc ha
      rw [ht] at hs
      cases hs
      exact h₁
    · simp [FsOp.step, ha] at hs
  | setNlink inum nlink =>
    by_cases ha : InUse sb fs inum
    · simp only [FsOp.step, if_pos ha, Option.some.injEq] at hs
      subst hs
      exact h.setNlink nlink
    · simp [FsOp.step, ha] at hs
  | iput inum =>
    by_cases ha : InUse sb fs inum ∧ (fs.inode inum).nlink = 0
    · simp only [FsOp.step, if_pos ha] at hs
      obtain ⟨fs₁, ht, h₁, -⟩ := h.iputFree ha.1
      rw [ht] at hs
      cases hs
      exact h₁
    · simp only [FsOp.step, if_neg ha, reduceCtorEq] at hs

/-- 持ち主の性質と、その帰結: `balloc` が渡すブロックはどの使用中の inode の欄も指しておらず、
使用中の inode の `itrunc` と `iput` の解放は `bfree` で panic しない。 -/
structure BlocksSafe (sb : SuperBlock) (fs : FsState) : Prop where
  owned : BlocksOwned sb fs
  balloc_fresh : ∀ x fs', Fs.balloc sb fs = (x, fs') → x ≠ 0 → ∀ i s, InUse sb fs i → fs.ref i s ≠ x
  itrunc_ok : ∀ inum, InUse sb fs inum → Fs.itrunc sb inum fs ≠ none
  iputFree_ok : ∀ inum, InUse sb fs inum → Fs.iputFree sb inum fs ≠ none

theorem BlocksOwned.safe (h : BlocksOwned sb fs) : BlocksSafe sb fs := by
  refine ⟨h, fun x fs' hb hx => ?_, fun inum ha => ?_, fun inum ha => ?_⟩
  · rcases h.balloc hb with ⟨e, -⟩ | hf
    · exact absurd e hx
    · exact hf.free
  · obtain ⟨_, ht, -⟩ := h.itrunc ha
    simp [ht]
  · obtain ⟨_, ht, -⟩ := h.iputFree ha
    simp [ht]

theorem reach_blocksSafe (hl : LayoutOK sb) (h : Reachable (BlocksOwned sb) (FsStep sb) fs) :
    BlocksSafe sb fs :=
  (Reachable.inv (fun _ h0 => h0) (fun _ _ hs ⟨_, hst⟩ => hs.step hl hst) h).safe

/-! ## 初めの像 -/

/-- メタデータのブロックがすべて使用中の印を持つ。 -/
def MetaMarked (sb : SuperBlock) (fs : FsState) : Prop := ∀ b, sb.IsMeta b → fs.used sb b = true

/-- 10 ブロックのファイルシステム: ブート 0、スーパーブロック 1、ログ 2–3、inode 4、
ビットマップ 5、データ 6–9。 -/
def tinySb : SuperBlock := ⟨10, 2, 2, 2, 4, 5⟩

/-- ルートディレクトリ（inode 1、`T_DIR`）がデータブロック 6 を持ち、ビットマップの最初の
バイトが bits の像。 -/
def rootImage (bits : UInt8) : FsState where
  data := fun b i => if b = 5 ∧ i = 0 then bits else 0
  inode := fun i => if i = 1 then ⟨1, 1, BSIZE, fun k => if k = 0 then 6 else 0⟩ else ⟨0, 0, 0, fun _ => 0⟩

theorem isMeta_tinySb {b : Nat} : tinySb.IsMeta b ↔ b < 6 := by
  unfold SuperBlock.IsMeta
  simp [tinySb, IPB, BSIZE, BPB]
  omega

theorem tinySb_layoutOK : LayoutOK tinySb :=
  ⟨fun b hb => by
    rw [isMeta_tinySb] at hb
    show b < 10
    omega, by decide⟩

theorem inUse_rootImage {bits : UInt8} {i : Nat} : InUse tinySb (rootImage bits) i ↔ i = 1 := by
  constructor
  · rintro ⟨h1, h2, -⟩
    simp only [tinySb] at h2
    omega
  · rintro rfl
    simp [InUse, tinySb, rootImage]

theorem rootImage_ref (bits : UInt8) (s : Slot) :
    (rootImage bits).ref 1 s = if s = .direct 0 then 6 else 0 := by
  cases s with
  | direct k =>
    by_cases hk : k = 0
    · subst hk
      simp [FsState.ref, rootImage, DInode.slot]
    · have hk' : (k : Nat) ≠ 0 := fun h => hk (Fin.ext h)
      simp [FsState.ref, rootImage, DInode.slot, hk, hk']
  | indirect => simp [FsState.ref, rootImage, DInode.slot]
  | entry j => simp [FsState.ref, rootImage, DInode.slot]

/-- ブロック 6 にも印があれば（mkfs の像）、像は持ち主の性質を満たす。 -/
theorem rootImage_owned : BlocksOwned tinySb (rootImage 127) := by
  have hused : ∀ b < 7, (rootImage 127).used tinySb b = true := by decide
  -- 使用中の inode は 1 だけで、その空でない欄は直接ブロック 0 だけである
  have hone : ∀ i s, InUse tinySb (rootImage 127) i → (rootImage 127).ref i s ≠ 0 →
      i = 1 ∧ s = .direct 0 ∧ (rootImage 127).ref i s = 6 := by
    intro i s hi hs
    obtain rfl := inUse_rootImage.mp hi
    rw [rootImage_ref] at hs ⊢
    by_cases e : s = .direct 0
    · simp [e]
    · simp [e] at hs
  refine ⟨fun b hb => hused b (by rw [isMeta_tinySb] at hb; omega), fun a s ha hs => ?_,
    fun a s ha hs => ?_, fun a s ha hs => ?_, fun a s b t ha hb hs e => ?_⟩
  · rw [(hone a s ha hs).2.2]
    exact hused 6 (by decide)
  · rw [(hone a s ha hs).2.2, isMeta_tinySb]
    decide
  · rw [(hone a s ha hs).2.2]
    decide
  · obtain ⟨rfl, rfl, -⟩ := hone a s ha hs
    obtain ⟨rfl, rfl, -⟩ := hone b t hb (e ▸ hs)
    exact ⟨rfl, rfl⟩

/-- ルートディレクトリの 2 ブロック目に 3 バイトを書き（balloc がブロック 7 を取る）、読み戻した状態。 -/
theorem rootImage_write_blocksSafe :
    LayoutOK tinySb ∧ ∃ fs, [FsOp.writei 1 (fun _ => some 65) 0 1024 3, .readi 1 (fun _ _ => true) 0 1024 3].foldlM
      (FsOp.step tinySb) (rootImage 127) = some fs ∧ Reachable (BlocksOwned tinySb) (FsStep tinySb) fs ∧
        BlocksSafe tinySb fs := by
  obtain ⟨fs, hfs⟩ := Option.isSome_iff_exists.mp (by decide +kernel :
    ([FsOp.writei 1 (fun _ => some 65) 0 1024 3, .readi 1 (fun _ _ => true) 0 1024 3].foldlM
      (FsOp.step tinySb) (rootImage 127)).isSome)
  have hr : Reachable (BlocksOwned tinySb) (FsStep tinySb) fs :=
    foldlM_option_inv _ _ _ _ _ (.init rootImage_owned) (fun _ _ op _ h₁ h => .step h₁ ⟨op, h⟩) hfs
  exact ⟨tinySb_layoutOK, fs, hfs, hr, reach_blocksSafe tinySb_layoutOK hr⟩

/-- メタデータに印があるだけの像では足りない: ルートディレクトリのブロック 6 に印のない像は
`MetaMarked` を満たし、その像のままの状態で、`balloc` はルートディレクトリが使うブロック 6 を
渡す。 -/
theorem metaMarked_balloc_in_use :
    LayoutOK tinySb ∧ Reachable (MetaMarked tinySb) (FsStep tinySb) (rootImage 63) ∧
      InUse tinySb (rootImage 63) 1 ∧ (rootImage 63).ref 1 (.direct 0) = 6 ∧
      (rootImage 63).used tinySb 6 = false ∧ (Fs.balloc tinySb (rootImage 63)).1 = 6 := by
  have hmeta : ∀ b < 6, (rootImage 63).used tinySb b = true := by decide
  refine ⟨tinySb_layoutOK, .init fun b hb => hmeta b (isMeta_tinySb.mp hb), inUse_rootImage.mpr rfl,
    by simp [rootImage_ref], by decide, by decide⟩

end Xv6.Fs
