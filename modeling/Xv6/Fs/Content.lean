import Xv6.Fs.Blocks

/-!
# ファイルの中身

ファイルの bn 番目のブロックは、bn が `NDIRECT` より小さければ直接ブロックの欄、そうでなければ
間接ブロックの `bn - NDIRECT` 番目の語である（`blockSlot`）。ファイルの i バイト目は、
`i / BSIZE` 番目のブロックの `i % BSIZE` バイト目で、ブロックが無ければ 0 と読む（`byteAt`）。

`bmap` は無いブロックを割り当てるが、ファイルの中身は変えない。あったブロックはそのまま中身も
変わらず、新しいブロックは 0 で埋めてある（`Grows`）。その後、返したブロックへの書き込みは、その
ブロックのバイトだけを変える（`byteAt_writeBlock`）。どちらも持ち主の性質 `BlocksOwned` による:
`balloc` が渡すブロックはどの欄も指しておらず、欄が指すブロックはメタデータでも互いに同じでもない。
-/

namespace Xv6.Fs

open Xv6.Lib Function

/-- ファイルの bn 番目のブロックを指す欄。`MAXFILE` 番目から先には無い。 -/
def blockSlot (bn : Nat) : Option Slot :=
  if h : bn < NDIRECT then some (.direct ⟨bn, h⟩)
  else if h' : bn - NDIRECT < NINDIRECT then some (.entry ⟨bn - NDIRECT, h'⟩)
  else none

/-- ファイルの bn 番目のブロックの番号。0 はブロックが無いこと。 -/
def DInode.blockAt (ip : DInode) (data : Nat → Nat → UInt8) (bn : Nat) : Nat :=
  match blockSlot bn with
  | some s => ip.slot data s
  | none => 0

/-- ファイルの i バイト目。ブロックが無ければ 0。 -/
def DInode.byteAt (ip : DInode) (data : Nat → Nat → UInt8) (i : Nat) : UInt8 :=
  if ip.blockAt data (i / BSIZE) = 0 then 0 else data (ip.blockAt data (i / BSIZE)) (i % BSIZE)

/-- 大きさより下のバイトは、どれも割り当てられたブロックにある。 -/
def DInode.Mapped (ip : DInode) (data : Nat → Nat → UInt8) : Prop :=
  ∀ i < ip.size, ip.blockAt data (i / BSIZE) ≠ 0

variable {sb : SuperBlock} {fs fs' fs₁ : FsState} {inum x : Nat} {ip ip' : DInode}

/-! ## ブロックの欄 -/

theorem blockSlot_ne_indirect {bn : Nat} {s : Slot} (h : blockSlot bn = some s) : s ≠ .indirect := by
  unfold blockSlot at h
  split_ifs at h <;> cases h <;> simp

theorem blockSlot_inj {bn bn' : Nat} {s : Slot} (h : blockSlot bn = some s) (h' : blockSlot bn' = some s) :
    bn = bn' := by
  unfold blockSlot at h h'
  split_ifs at h h' <;> cases h <;> simp at h' <;> omega

theorem DInode.blockAt_of_blockSlot {data : Nat → Nat → UInt8} {bn : Nat} {s : Slot} (h : blockSlot bn = some s) :
    ip.blockAt data bn = ip.slot data s := by
  rw [blockAt, h]

theorem DInode.exists_blockSlot {data : Nat → Nat → UInt8} {bn : Nat} (h0 : ip.blockAt data bn ≠ 0) :
    ∃ s, blockSlot bn = some s := by
  cases e : blockSlot bn with
  | none =>
    rw [blockAt, e] at h0
    exact absurd rfl h0
  | some s => exact ⟨s, rfl⟩

/-- ブロックの番号とファイルの中身は、inode の `addrs` だけで決まる。 -/
theorem DInode.blockAt_congr (h : ip'.addrs = ip.addrs) : ip'.blockAt = ip.blockAt := by
  funext data bn
  unfold blockAt
  rw [slot_congr h fun _ => rfl]

theorem DInode.byteAt_congr (h : ip'.addrs = ip.addrs) : ip'.byteAt = ip.byteAt := by
  funext data i
  unfold byteAt
  rw [blockAt_congr h]

/-- 書き込むバイトの位置 i がブロック bn の中にあれば、`i / BSIZE` と `i % BSIZE` で読む。 -/
theorem DInode.byteAt_of_blockAt {data : Nat → Nat → UInt8} {i : Nat} (h : ip.blockAt data (i / BSIZE) ≠ 0) :
    ip.byteAt data i = data (ip.blockAt data (i / BSIZE)) (i % BSIZE) := by
  rw [byteAt, if_neg h]

/-! ## ブロックが増えるだけの変化 -/

/-- ip, data から ip', data' へ、ファイルのブロックは増えるだけである: あったブロックは同じ番号で
中身も変わらず、無かったブロックは無いままか、0 で埋めたブロックになる。 -/
structure Grows (ip : DInode) (data : Nat → Nat → UInt8) (ip' : DInode) (data' : Nat → Nat → UInt8) : Prop where
  keep : ∀ s, s ≠ .indirect → ip.slot data s ≠ 0 →
    ip'.slot data' s = ip.slot data s ∧ data' (ip.slot data s) = data (ip.slot data s)
  fresh : ∀ s, s ≠ .indirect → ip.slot data s = 0 → ip'.slot data' s = 0 ∨ data' (ip'.slot data' s) = fun _ => 0

namespace Grows

variable {data data' data'' : Nat → Nat → UInt8} {ip'' : DInode}

theorem refl (ip : DInode) (data : Nat → Nat → UInt8) : Grows ip data ip data :=
  ⟨fun _ _ _ => ⟨rfl, rfl⟩, fun _ _ h => .inl h⟩

theorem trans (h₁ : Grows ip data ip' data') (h₂ : Grows ip' data' ip'' data'') : Grows ip data ip'' data'' := by
  refine ⟨fun s hs h0 => ?_, fun s hs h0 => ?_⟩
  · obtain ⟨e₁, d₁⟩ := h₁.keep s hs h0
    obtain ⟨e₂, d₂⟩ := h₂.keep s hs (e₁ ▸ h0)
    rw [e₁] at e₂ d₂
    exact ⟨e₂, d₂.trans d₁⟩
  · rcases h₁.fresh s hs h0 with e₁ | d₁
    · exact h₂.fresh s hs e₁
    · -- 0 で埋めたブロックになっていれば、次の変化でもそのまま残る
      by_cases e₁ : ip'.slot data' s = 0
      · exact h₂.fresh s hs e₁
      · obtain ⟨e₂, d₂⟩ := h₂.keep s hs e₁
        exact .inr (by rw [e₂, d₂, d₁])

/-- 欄が指すブロックの中身を変えない書き込みでは、ファイルは変わらない。 -/
theorem of_frame (h : ∀ s, ip.slot data s ≠ 0 → data' (ip.slot data s) = data (ip.slot data s)) :
    Grows ip data ip data' := by
  have hslot : ip.slot data' = ip.slot data := DInode.slot_congr rfl fun h0 => h .indirect h0
  exact ⟨fun s _ hs => ⟨by rw [hslot], h s hs⟩, fun s _ hs => .inl (by rw [hslot]; exact hs)⟩

/-- 欄 s だけを x に替える: 間接ブロックの欄か、空だった欄に 0 で埋めたブロックを置く。 -/
theorem of_update {s : Slot} {v : Nat} (h : ip'.slot data = update (ip.slot data) s v)
    (hv : s = .indirect ∨ (ip.slot data s = 0 ∧ data v = fun _ => 0)) : Grows ip data ip' data := by
  refine ⟨fun t ht h0 => ?_, fun t ht h0 => ?_⟩
  · have hts : t ≠ s := by
      rintro rfl
      rcases hv with e | ⟨e, -⟩
      · exact ht e
      · exact h0 e
    rw [h, update_of_ne hts]
    exact ⟨rfl, rfl⟩
  · by_cases hts : t = s
    · subst hts
      rcases hv with e | ⟨-, hz⟩
      · exact absurd e ht
      · rw [h, update_self]
        exact .inr hz
    · rw [h, update_of_ne hts]
      exact .inl h0

theorem blockAt (h : Grows ip data ip' data') {bn : Nat} (h0 : ip.blockAt data bn ≠ 0) :
    ip'.blockAt data' bn = ip.blockAt data bn := by
  unfold DInode.blockAt at h0 ⊢
  cases hs : blockSlot bn with
  | none => rfl
  | some s =>
    rw [hs] at h0
    exact (h.keep s (blockSlot_ne_indirect hs) h0).1

/-- ブロックが増えるだけなら、ファイルの中身は変わらない。 -/
theorem byteAt (h : Grows ip data ip' data') : ip'.byteAt data' = ip.byteAt data := by
  funext i
  unfold DInode.byteAt DInode.blockAt
  cases hs : blockSlot (i / BSIZE) with
  | none => rfl
  | some s =>
    simp only
    by_cases h0 : ip.slot data s = 0
    · -- 無かったブロックは無いままか、0 で埋めたブロックになる
      rw [if_pos h0]
      rcases h.fresh s (blockSlot_ne_indirect hs) h0 with e | d
      · rw [if_pos e]
      · split <;> simp [d]
    · obtain ⟨e, d⟩ := h.keep s (blockSlot_ne_indirect hs) h0
      rw [e, d]

end Grows

/-! ## balloc と bmap -/

/-- `balloc` が書くのは、印のブロックと渡すブロックだけである。 -/
theorem balloc_data_of_ne (hB : balloc sb fs = (x, fs₁)) {b : Nat} (hx : b ≠ x) (hbb : b ≠ BBLOCK x sb) :
    fs₁.data b = fs.data b := by
  rcases balloc_cases hB with ⟨-, rfl⟩ | ⟨-, -, rfl⟩
  · rfl
  · rw [bzero, FsState.writeBlock_data_of_ne _ _ hx, FsState.setBit, FsState.writeBlock_data_of_ne _ _ hbb]

/-- 使用中の inode の空でない二つの欄が同じブロックを指せば、同じ欄である。 -/
theorem BlocksOwned.slot_inj (h : BlocksOwned sb (fs.iupdate inum ip)) (ha : InUse sb (fs.iupdate inum ip) inum)
    {t t' : Slot} (h0 : ip.slot fs.data t ≠ 0) (e : ip.slot fs.data t = ip.slot fs.data t') : t = t' :=
  (h.inj inum t inum t' ha ha (by simpa using h0) (by simpa using e)).2

/-- 性質の下の `balloc`: 欄とそれが指すブロックの中身を変えず、0 を返すのは空きがないときだけで、
渡すブロックは 0 で埋めてあり、どの欄も指していない。空きは高々一つ減る。 -/
theorem balloc_frame (h : BlocksOwned sb (fs.iupdate inum ip)) (ha : InUse sb (fs.iupdate inum ip) inum)
    (hB : balloc sb fs = (x, fs₁)) :
    (∀ s, ip.slot fs.data s ≠ 0 → fs₁.data (ip.slot fs.data s) = fs.data (ip.slot fs.data s)) ∧
      (x = 0 → fs₁ = fs ∧ DiskFull sb fs) ∧
      (x ≠ 0 → x < sb.size ∧ fs₁.data x = (fun _ => 0) ∧ ∀ s, ip.slot fs.data s ≠ x) ∧
      freeCount sb fs ≤ freeCount sb fs₁ + 1 := by
  have hBW : balloc sb (fs.iupdate inum ip) = (x, fs₁.iupdate inum ip) := by
    rw [balloc_iupdate, hB]
  rcases h.balloc hBW with ⟨rfl, -⟩ | hf
  · have h0 : fs.used sb 0 = true := by
      simpa using h.fixed_used 0 (.inl (by decide))
    obtain ⟨rfl, hfull⟩ := balloc_eq_zero h0 hB
    exact ⟨fun _ _ => rfl, fun _ => ⟨rfl, hfull⟩, fun hx => absurd rfl hx, Nat.le_succ _⟩
  have hfree : ∀ s, ip.slot fs.data s ≠ x := fun s => by
    simpa using hf.free inum s ha
  refine ⟨fun s hs => ?_, fun hx => absurd hx hf.ne_zero, fun _ => ⟨hf.lt, by simpa using hf.zero, hfree⟩,
    hf.freeCount_le⟩
  -- 欄が指すブロックはメタデータでなく x でもないので、`balloc` はその中身を変えない
  have hmeta : ¬ sb.IsMeta (ip.slot fs.data s) := by
    simpa using h.ref_fixed inum s ha (by simpa using hs)
  exact balloc_data_of_ne hB (hfree s) fun e => hmeta (e ▸ sb.isMeta_BBLOCK hf.lt)

/-- 間接ブロック ind の j 番目の語を引く `bmapIndirect` も、ファイルの中身を変えず、空きは高々一つ
減る。 -/
theorem bmapIndirect_grows (h : BlocksOwned sb (fs.iupdate inum ip)) (hl : LayoutOK sb)
    (ha : InUse sb (fs.iupdate inum ip) inum) {ind addr : Nat} (hind : ip.addrs NDIRECT = ind) (h0 : ind ≠ 0)
    (j : Fin NINDIRECT) (hI : bmapIndirect sb ind j fs = (addr, fs')) :
    Grows ip fs.data ip fs'.data ∧ (addr = 0 → DiskFull sb fs') ∧ (addr ≠ 0 → ip.slot fs'.data (.entry j) = addr) ∧
      freeCount sb fs ≤ freeCount sb fs' + 1 := by
  have hslot : ∀ data : Nat → Nat → UInt8, ip.slot data (.entry j) = getWord (data ind) j := by
    intro data
    simp only [DInode.slot, hind, if_neg h0]
  unfold bmapIndirect at hI
  by_cases hw : getWord (fs.data ind) j = 0
  swap
  · rw [if_neg hw] at hI
    obtain ⟨rfl, rfl⟩ := Prod.mk.inj hI
    exact ⟨Grows.refl ip fs.data, fun e => absurd e hw, fun _ => hslot fs.data, Nat.le_succ _⟩
  rw [if_pos hw] at hI
  rcases hB : balloc sb fs with ⟨y, fs₁⟩
  rw [hB] at hI
  dsimp only at hI
  obtain ⟨hdata, hzero, hfresh, hcount⟩ := balloc_frame h ha hB
  by_cases hy : y = 0
  · rw [if_pos hy] at hI
    obtain ⟨rfl, rfl⟩ := Prod.mk.inj hI
    obtain ⟨rfl, hfull⟩ := hzero hy
    exact ⟨Grows.refl _ _, fun _ => hfull, fun e => absurd rfl e, Nat.le_succ _⟩
  rw [if_neg hy] at hI
  obtain ⟨rfl, rfl⟩ := Prod.mk.inj hI
  obtain ⟨hlt, hyz, hfree⟩ := hfresh hy
  -- 間接ブロックは欄が指すブロックなので `balloc` は書かず、欄は変わらない
  have hind₁ : fs₁.data ind = fs.data ind := by
    have := hdata .indirect (by simpa [DInode.slot, hind] using h0)
    simpa [DInode.slot, hind] using this
  have hsl : ip.slot fs₁.data = ip.slot fs.data := DInode.slot_congr rfl fun _ => by rw [hind, hind₁]
  -- 語 j に y を書くと、欄 `entry j` だけが y を指す
  have hset : ip.slot (fs₁.writeBlock ind fun a => setWord a j y).data = update (ip.slot fs.data) (.entry j) y := by
    rw [← hsl]
    exact DInode.slot_setWord ip j hind h0 (hlt.trans hl.size_lt)
  have hyind : y ≠ ind := fun e => hfree .indirect (by simp [DInode.slot, hind, e])
  -- 語を書く間接ブロックはメタデータでないので、印は変わらない
  have hmeta : ¬ sb.IsMeta ind := by
    simpa [DInode.slot, hind] using h.ref_fixed inum .indirect ha (by simpa [DInode.slot, hind] using h0)
  have hcount' : freeCount sb fs ≤ freeCount sb (fs₁.writeBlock ind fun a => setWord a j y) + 1 := by
    rw [freeCount_congr fun y hy => FsState.used_writeBlock_of_not_meta _ _ hmeta hy]
    exact hcount
  refine ⟨⟨fun t ht ht0 => ?_, fun t ht ht0 => ?_⟩, fun e => absurd e hy, fun _ => by rw [hset, update_self],
    hcount'⟩
  · -- 語 j 以外の空でない欄は変わらず、その指すブロックは間接ブロックでも書き込みの先でもない
    have htj : t ≠ .entry j := by
      rintro rfl
      exact ht0 ((hslot fs.data).trans hw)
    have hne : ip.slot fs.data t ≠ ind := fun e =>
      ht (h.slot_inj ha ht0 (e.trans (by simp [DInode.slot, hind])))
    rw [hset, update_of_ne htj, FsState.writeBlock_data_of_ne _ _ hne, hdata t ht0]
    exact ⟨rfl, rfl⟩
  · by_cases htj : t = .entry j
    · subst htj
      rw [hset, update_self, FsState.writeBlock_data_of_ne _ _ hyind]
      exact .inr hyz
    · rw [hset, update_of_ne htj]
      exact .inl ht0

/-- 性質の下の `bmap(ip, bn)`: ファイルの中身を変えず、0 を返すのは空きがないときだけで、0 でない
ブロックを返せば、それがファイルの bn 番目のブロックになる。割り当てるのは高々二つ（間接ブロックと
データブロック）なので、空きは高々二つ減る。 -/
theorem bmap_grows (h : BlocksOwned sb (fs.iupdate inum ip)) (hl : LayoutOK sb)
    (ha : InUse sb (fs.iupdate inum ip) inum) {bn addr : Nat} (hb : bmap sb ip bn fs = some (addr, ip', fs')) :
    Grows ip fs.data ip' fs'.data ∧ ip'.size = ip.size ∧ (addr = 0 → DiskFull sb fs') ∧
      (addr ≠ 0 → ip'.blockAt fs'.data bn = addr) ∧ freeCount sb fs ≤ freeCount sb fs' + 2 := by
  unfold bmap at hb
  by_cases hbn : bn < NDIRECT
  · -- 直接ブロック
    have hs : blockSlot bn = some (.direct ⟨bn, hbn⟩) := by simp [blockSlot, hbn]
    rw [if_pos hbn] at hb
    by_cases hz : ip.addrs bn = 0
    · rw [if_pos hz] at hb
      rcases hB : balloc sb fs with ⟨x, fs₁⟩
      rw [hB] at hb
      dsimp only at hb
      obtain ⟨hdata, hzero, hfresh, hcount⟩ := balloc_frame h ha hB
      by_cases hx : x = 0
      · rw [if_pos hx] at hb
        obtain ⟨rfl, rfl, rfl⟩ : 0 = addr ∧ ip = ip' ∧ fs₁ = fs' := by simpa using hb
        obtain ⟨rfl, hfull⟩ := hzero hx
        exact ⟨Grows.refl _ _, rfl, fun _ => hfull, fun e => absurd rfl e, by omega⟩
      rw [if_neg hx] at hb
      obtain ⟨rfl, rfl, rfl⟩ : x = addr ∧ ip.setAddr bn x = ip' ∧ fs₁ = fs' := by simpa using hb
      obtain ⟨-, hxz, -⟩ := hfresh hx
      -- 空の欄に 0 で埋めたブロックを置く
      have hg : Grows ip fs₁.data (ip.setAddr bn x) fs₁.data :=
        Grows.of_update (DInode.slot_setAddr_direct ip _ ⟨bn, hbn⟩ x) (.inr ⟨hz, hxz⟩)
      refine ⟨(Grows.of_frame hdata).trans hg, rfl, fun e => absurd e hx, fun _ => ?_, by omega⟩
      rw [DInode.blockAt_of_blockSlot hs]
      simp [DInode.slot, DInode.setAddr]
    · rw [if_neg hz] at hb
      obtain ⟨rfl, rfl, rfl⟩ : ip.addrs bn = addr ∧ ip = ip' ∧ fs = fs' := by simpa using hb
      exact ⟨Grows.refl _ _, rfl, fun e => absurd e hz, fun _ => DInode.blockAt_of_blockSlot hs, by omega⟩
  rw [if_neg hbn] at hb
  by_cases hj : bn - NDIRECT < NINDIRECT
  swap
  · rw [if_neg hj] at hb
    cases hb
  -- 間接ブロックの語
  have hs : blockSlot bn = some (.entry ⟨bn - NDIRECT, hj⟩) := by simp [blockSlot, hbn, hj]
  rw [if_pos hj] at hb
  by_cases hz : ip.addrs NDIRECT = 0
  · rw [if_pos hz] at hb
    rcases hB : balloc sb fs with ⟨ind, fs₁⟩
    rw [hB] at hb
    dsimp only at hb
    obtain ⟨hdata, hzero, hfresh, hcount⟩ := balloc_frame h ha hB
    by_cases hx : ind = 0
    · rw [if_pos hx] at hb
      obtain ⟨rfl, rfl, rfl⟩ : 0 = addr ∧ ip = ip' ∧ fs₁ = fs' := by simpa using hb
      obtain ⟨rfl, hfull⟩ := hzero hx
      exact ⟨Grows.refl _ _, rfl, fun _ => hfull, fun e => absurd rfl e, by omega⟩
    rw [if_neg hx] at hb
    rcases hI : bmapIndirect sb ind (bn - NDIRECT) fs₁ with ⟨a₂, fs₂⟩
    rw [hI] at hb
    obtain ⟨rfl, rfl, rfl⟩ : a₂ = addr ∧ ip.setAddr NDIRECT ind = ip' ∧ fs₂ = fs' := by simpa using hb
    obtain ⟨-, hxz, -⟩ := hfresh hx
    -- 0 で埋めた新しい間接ブロックを欄に置いてから、語を割り当てる
    have hg₁ : Grows ip fs₁.data (ip.setAddr NDIRECT ind) fs₁.data :=
      Grows.of_update (DInode.slot_setAddr_indirect ip hz hxz) (.inl rfl)
    obtain ⟨hV, -⟩ := h.balloc_slot hl hB hx (s := .indirect) (by simpa [DInode.slot] using hz)
      (ip.setAddr NDIRECT ind) rfl fun hd => DInode.slot_setAddr_indirect ip hz hd
    obtain ⟨hg₂, hfull, hres, hcount₂⟩ :=
      bmapIndirect_grows hV hl (ha.iupdate_self _ rfl) (by simp) hx ⟨bn - NDIRECT, hj⟩ hI
    refine ⟨((Grows.of_frame hdata).trans hg₁).trans hg₂, rfl, hfull, fun e => ?_, by omega⟩
    rw [DInode.blockAt_of_blockSlot hs]
    exact hres e
  · rw [if_neg hz] at hb
    rcases hI : bmapIndirect sb (ip.addrs NDIRECT) (bn - NDIRECT) fs with ⟨a₂, fs₂⟩
    rw [hI] at hb
    obtain ⟨rfl, rfl, rfl⟩ : a₂ = addr ∧ ip = ip' ∧ fs₂ = fs' := by simpa using hb
    obtain ⟨hg, hfull, hres, hcount⟩ := bmapIndirect_grows h hl ha rfl hz ⟨bn - NDIRECT, hj⟩ hI
    refine ⟨hg, rfl, hfull, fun e => ?_, by omega⟩
    rw [DInode.blockAt_of_blockSlot hs]
    exact hres e

/-- ブロック bn があれば、`bmap` は何も変えずにそれを返す。 -/
theorem bmap_of_blockAt {bn : Nat} (h0 : ip.blockAt fs.data bn ≠ 0) :
    bmap sb ip bn fs = some (ip.blockAt fs.data bn, ip, fs) := by
  obtain ⟨s, hs⟩ := DInode.exists_blockSlot h0
  rw [DInode.blockAt_of_blockSlot hs] at h0 ⊢
  unfold bmap blockSlot at *
  split_ifs at hs with hbn hj
  · cases hs
    simp only [DInode.slot] at h0 ⊢
    rw [if_pos hbn, if_neg h0]
  · cases hs
    -- 間接ブロックの語が 0 でないので、間接ブロックもある
    have hind : ip.addrs NDIRECT ≠ 0 := fun e => h0 (by simp [DInode.slot, e])
    simp only [DInode.slot, if_neg hind] at h0 ⊢
    rw [if_neg hbn, if_pos hj, bmapIndirect, if_neg h0]

/-- ファイルの bn 番目のブロックへの書き込みは、そのブロックのバイトだけを変え、ブロックの番号は
変えない。 -/
theorem byteAt_writeBlock (h : BlocksOwned sb (fs.iupdate inum ip)) (ha : InUse sb (fs.iupdate inum ip) inum)
    {bn : Nat} (h0 : ip.blockAt fs.data bn ≠ 0) (f : (Nat → UInt8) → Nat → UInt8) :
    ip.blockAt (fs.writeBlock (ip.blockAt fs.data bn) f).data = ip.blockAt fs.data ∧
      ∀ i, ip.byteAt (fs.writeBlock (ip.blockAt fs.data bn) f).data i =
        if i / BSIZE = bn then f (fs.data (ip.blockAt fs.data bn)) (i % BSIZE) else ip.byteAt fs.data i := by
  obtain ⟨s, hs⟩ := DInode.exists_blockSlot h0
  rw [DInode.blockAt_of_blockSlot hs] at h0 ⊢
  -- 書き込む先は間接ブロックでないので、欄は変わらない
  have hne : ip.addrs NDIRECT ≠ 0 → ip.addrs NDIRECT ≠ ip.slot fs.data s :=
    fun _ e => blockSlot_ne_indirect hs (h.slot_inj ha h0 e.symm)
  have hslot : ip.slot (fs.writeBlock (ip.slot fs.data s) f).data = ip.slot fs.data := DInode.slot_update ip _ hne
  have hblk : ip.blockAt (fs.writeBlock (ip.slot fs.data s) f).data = ip.blockAt fs.data := by
    funext bn'
    unfold DInode.blockAt
    rw [hslot]
  refine ⟨hblk, fun i => ?_⟩
  rw [DInode.byteAt, DInode.byteAt, hblk]
  by_cases hi : i / BSIZE = bn
  · rw [if_pos hi, hi, DInode.blockAt_of_blockSlot hs, if_neg h0, FsState.writeBlock_data_self]
  rw [if_neg hi]
  by_cases hz : ip.blockAt fs.data (i / BSIZE) = 0
  · rw [if_pos hz, if_pos hz]
  rw [if_neg hz, if_neg hz, FsState.writeBlock_data_of_ne]
  -- ほかのブロックは、別の欄が指すので書き込みの先と違う
  obtain ⟨s', hs'⟩ := DInode.exists_blockSlot hz
  rw [DInode.blockAt_of_blockSlot hs'] at hz ⊢
  intro e
  rw [h.slot_inj ha hz e] at hs'
  exact hi (blockSlot_inj hs' hs)

end Xv6.Fs
