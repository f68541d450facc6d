import Xv6.Fs.Bitmap
import Xv6.Lib.Owner

/-!
# ブロックの持ち主

inode の欄（直接ブロック、間接ブロック、間接ブロックの語）が指すブロックと空きの表の関係を
`Xv6.Lib.Owned` で言う（`BlocksOwned`）: メタデータのブロックはすべて使用中の印を持ち、
使用中の inode の欄が指すブロックは、使用中の印を持ち、メタデータでなく、`sb.size` より
小さく、ほかのどの欄にも指されない。

`balloc` が返すブロックは空きなので、どの欄にも指されていない（`Fresh`）。`bmap` はそれを
空の欄に置く。呼び出し元が持つメモリ上の inode ip は、表に書き戻した状態
`fs.iupdate inum ip` で扱う。
-/

namespace Xv6.Fs

open Xv6.Lib Function

/-- inode の中でブロックを指す欄。 -/
inductive Slot where
  | direct (k : Fin NDIRECT)
  | indirect
  | entry (j : Fin NINDIRECT)
  deriving DecidableEq, Repr

/-- inode ip の欄 s が指すブロック（0 は何も指さない）。間接ブロックの語は、間接ブロックが
あるときだけ読む。 -/
def DInode.slot (ip : DInode) (data : Nat → Nat → UInt8) : Slot → Nat
  | .direct k => ip.addrs k
  | .indirect => ip.addrs NDIRECT
  | .entry j => if ip.addrs NDIRECT = 0 then 0 else getWord (data (ip.addrs NDIRECT)) j

def FsState.ref (fs : FsState) (inum : Nat) : Slot → Nat := (fs.inode inum).slot fs.data

/-- 使用中の inode: 番号が `1 ≤ inum < ninodes` で、`type != 0`。 -/
def InUse (sb : SuperBlock) (fs : FsState) (inum : Nat) : Prop :=
  1 ≤ inum ∧ inum < sb.ninodes ∧ (fs.inode inum).type ≠ 0

instance (sb : SuperBlock) (fs : FsState) : DecidablePred (InUse sb fs) := fun inum =>
  inferInstanceAs (Decidable (1 ≤ inum ∧ inum < sb.ninodes ∧ (fs.inode inum).type ≠ 0))

/-- mkfs の配置: メタデータはファイルシステムの中にあり、ブロックの数は balloc の `int b` が
`b += BPB` で溢れない 2^31 - BPB までである。 -/
structure LayoutOK (sb : SuperBlock) : Prop where
  meta_lt : ∀ b, sb.IsMeta b → b < sb.size
  size_le : sb.size ≤ 2 ^ 31 - BPB

/-- ブロック番号は `uint` に収まる。 -/
theorem LayoutOK.size_lt {sb : SuperBlock} (hl : LayoutOK sb) : sb.size < 2 ^ 32 :=
  Nat.lt_of_le_of_lt hl.size_le (by decide)

def BlocksOwned (sb : SuperBlock) (fs : FsState) : Prop :=
  Owned sb.size sb.IsMeta (fs.used sb) (InUse sb fs) fs.ref

variable {sb : SuperBlock} {fs fs' fs₁ : FsState} {inum x : Nat} {ip : DInode}

/-! ## 欄の読み方 -/

/-- 欄が読むのは `addrs` と間接ブロックの中身だけである。 -/
theorem DInode.slot_congr {ip ip' : DInode} {data data' : Nat → Nat → UInt8} (ha : ip'.addrs = ip.addrs)
    (h : ip.addrs NDIRECT ≠ 0 → data' (ip.addrs NDIRECT) = data (ip.addrs NDIRECT)) :
    ip'.slot data' = ip.slot data := by
  funext s
  cases s with
  | direct k => simp [slot, ha]
  | indirect => simp [slot, ha]
  | entry j =>
    by_cases h0 : ip.addrs NDIRECT = 0
    · simp [slot, ha, h0]
    · simp [slot, ha, h0, h h0]

/-- 間接ブロック以外への書き込みは、どの欄も変えない。 -/
theorem DInode.slot_update (ip : DInode) {data : Nat → Nat → UInt8} {b : Nat} (v : Nat → UInt8)
    (h : ip.addrs NDIRECT ≠ 0 → ip.addrs NDIRECT ≠ b) : ip.slot (update data b v) = ip.slot data :=
  slot_congr rfl fun h0 => update_of_ne (h h0) _ _

theorem DInode.slot_setAddr_direct (ip : DInode) (data : Nat → Nat → UInt8) (k : Fin NDIRECT) (v : Nat) :
    (ip.setAddr k v).slot data = update (ip.slot data) (.direct k) v := by
  have hk : (NDIRECT : Nat) ≠ k := Nat.ne_of_gt k.isLt
  funext s
  cases s with
  | direct k' =>
    by_cases e : k' = k
    · subst e
      simp [slot]
    · have e' : (k' : Nat) ≠ k := fun h => e (Fin.ext h)
      simp [slot, e, e']
  | indirect => simp [slot, hk]
  | entry j => simp [slot, hk]

/-- 空だった間接ブロックの欄に、0 で埋めたブロック v を置く。 -/
theorem DInode.slot_setAddr_indirect (ip : DInode) {data : Nat → Nat → UInt8} {v : Nat}
    (hz : ip.addrs NDIRECT = 0) (hd : data v = fun _ => 0) :
    (ip.setAddr NDIRECT v).slot data = update (ip.slot data) .indirect v := by
  funext s
  cases s with
  | direct k =>
    have hk : (k : Nat) ≠ NDIRECT := Nat.ne_of_lt k.isLt
    simp [slot, hk]
  | indirect => simp [slot]
  | entry j => simp [slot, hz, hd]

/-- 間接ブロック ind の j 番目の語に x を書く。 -/
theorem DInode.slot_setWord (ip : DInode) {data : Nat → Nat → UInt8} {ind x : Nat} (j : Fin NINDIRECT)
    (hind : ip.addrs NDIRECT = ind) (h0 : ind ≠ 0) (hx : x < 2 ^ 32) :
    ip.slot (update data ind (setWord (data ind) j x)) = update (ip.slot data) (.entry j) x := by
  subst hind
  funext s
  cases s with
  | direct k => simp [slot]
  | indirect => simp [slot]
  | entry j' =>
    by_cases e : j' = j
    · subst e
      simpa [slot, h0] using hx
    · have e' : (j' : Nat) ≠ j := fun h => e (Fin.ext h)
      simp [slot, h0, e, getWord_setWord_of_ne _ _ e']

theorem FsState.ref_writeBlock (fs : FsState) {i b : Nat} (f : (Nat → UInt8) → Nat → UInt8)
    (h : (fs.inode i).addrs NDIRECT ≠ 0 → (fs.inode i).addrs NDIRECT ≠ b) :
    (fs.writeBlock b f).ref i = fs.ref i :=
  DInode.slot_update _ _ h

theorem FsState.ref_iupdate_of_ne (fs : FsState) {i : Nat} (ip : DInode) (h : i ≠ inum) :
    (fs.iupdate inum ip).ref i = fs.ref i := by
  simp [ref, iupdate_inode_of_ne _ _ h]

@[simp] theorem FsState.ref_iupdate_self (fs : FsState) (ip : DInode) :
    (fs.iupdate inum ip).ref inum = ip.slot fs.data := by
  simp [ref]

@[simp] theorem FsState.used_iupdate (fs : FsState) (ip : DInode) :
    (fs.iupdate inum ip).used sb = fs.used sb := rfl

/-- ビットマップ以外への書き込みは、`size` より下の印を変えない。 -/
theorem FsState.used_writeBlock_of_not_meta (fs : FsState) {b y : Nat} (f : (Nat → UInt8) → Nat → UInt8)
    (hb : ¬ sb.IsMeta b) (hy : y < sb.size) : (fs.writeBlock b f).used sb y = fs.used sb y :=
  fs.used_writeBlock_of_ne f fun e => hb (e ▸ sb.isMeta_BBLOCK hy)

/-- 使用中の inode は型だけで決まる。 -/
theorem inUse_congr (h : ∀ i, (fs'.inode i).type = (fs.inode i).type) : InUse sb fs' = InUse sb fs := by
  funext i
  simp [InUse, h]

theorem inUse_iupdate_of_ne {i : Nat} (e : i ≠ inum) : InUse sb (fs.iupdate inum ip) i ↔ InUse sb fs i := by
  simp only [InUse, FsState.iupdate_inode_of_ne _ _ e]

/-- 書き戻した inode は、型が同じなら、どの状態に書き戻しても使用中である。 -/
theorem InUse.iupdate_self (h : InUse sb (fs.iupdate inum ip) inum) (fs' : FsState) {ip' : DInode}
    (ht : ip'.type = ip.type) : InUse sb (fs'.iupdate inum ip') inum := by
  simpa [InUse, ht] using h

/-- 印と欄の指すブロックが、使用中の inode の上で別の状態のものと同じなら、性質も移る。 -/
theorem BlocksOwned.of_eq {R : Nat → Slot → Nat} (h : Owned sb.size sb.IsMeta (fs'.used sb) (InUse sb fs) R)
    (htype : ∀ i, (fs'.inode i).type = (fs.inode i).type) (href : ∀ i, InUse sb fs i → fs'.ref i = R i) :
    BlocksOwned sb fs' := by
  refine h.sub fun i s hi _ => ?_
  rw [inUse_congr htype] at hi
  exact ⟨hi, congrFun (href i hi) s⟩

/-! ## balloc -/

theorem ballocBlock_congr (h : fs'.data = fs.data) :
    ∀ b fuel, ballocBlock sb fs' b fuel = ballocBlock sb fs b fuel
  | _, 0 => rfl
  | b, fuel + 1 => by simp only [ballocBlock, h, ballocBlock_congr h (b + BPB) fuel]

/-- `balloc` は inode の表を読まない。 -/
theorem balloc_iupdate (fs : FsState) (inum : Nat) (ip : DInode) :
    balloc sb (fs.iupdate inum ip) = ((balloc sb fs).1, (balloc sb fs).2.iupdate inum ip) := by
  unfold balloc
  rw [ballocBlock_congr (fs.iupdate_data inum ip)]
  split <;> rfl

/-- `balloc` が空きのブロック x を渡すときの、前後の状態の関係。 -/
structure Fresh (sb : SuperBlock) (fs : FsState) (x : Nat) (fs' : FsState) : Prop where
  ne_zero : x ≠ 0
  not_meta : ¬ sb.IsMeta x
  lt : x < sb.size
  free : ∀ i s, InUse sb fs i → fs.ref i s ≠ x
  used : ∀ y, y < sb.size → fs'.used sb y = (decide (y = x) || fs.used sb y)
  inode : fs'.inode = fs.inode
  ref : ∀ i, InUse sb fs i → fs'.ref i = fs.ref i
  zero : fs'.data x = fun _ => 0

/-- 性質が成り立てば、`balloc` は何も変えずに 0 を返すか、空きのブロックを渡す。ブロック 0 は
メタデータなので、見つかるブロックは 0 でない。 -/
theorem BlocksOwned.balloc (h : BlocksOwned sb fs) (hb : balloc sb fs = (x, fs')) :
    (x = 0 ∧ fs' = fs) ∨ Fresh sb fs x fs' := by
  rcases balloc_cases hb with h0 | ⟨hlt, hfree, rfl⟩
  · exact .inl h0
  have hmeta : ¬ sb.IsMeta x := fun hm => by
    rw [h.fixed_used x hm] at hfree
    cases hfree
  have hne : x ≠ 0 := fun e => hmeta (e ▸ .inl (by decide))
  -- 印のブロックと x のブロックへの書き込みは、使用中の inode の間接ブロックに当たらない
  have hind : ∀ i, InUse sb fs i → (fs.inode i).addrs NDIRECT ≠ 0 →
      (fs.inode i).addrs NDIRECT ≠ x ∧ (fs.inode i).addrs NDIRECT ≠ BBLOCK x sb :=
    fun i hi hs => ⟨h.ne_of_free hne hfree hi .indirect,
      fun e => h.ref_fixed i .indirect hi hs
        ((show fs.ref i .indirect = BBLOCK x sb from e) ▸ sb.isMeta_BBLOCK hlt)⟩
  refine .inr ⟨hne, hmeta, hlt, fun i s hi => h.ne_of_free hne hfree hi s, ?_, rfl, ?_, ?_⟩
  · intro y hy
    rw [bzero, FsState.used_writeBlock_of_not_meta _ _ hmeta hy, FsState.used_setBit]
  · intro i hi
    rw [bzero, FsState.ref_writeBlock (fs.setBit sb x) _ fun hs => (hind i hi hs).1, FsState.setBit,
      FsState.ref_writeBlock fs _ fun hs => (hind i hi hs).2]
  · simp [bzero]

/-- 渡されたブロックに印が立った状態でも、欄はそのままで性質が成り立つ。 -/
theorem Fresh.owned_mark (hf : Fresh sb fs x fs') (h : BlocksOwned sb fs) (hl : LayoutOK sb) :
    Owned sb.size sb.IsMeta (fs'.used sb) (InUse sb fs) fs.ref := by
  refine (h.mark x).congr_used hl.meta_lt fun y hy => ?_
  rw [hf.used y hy, update_apply]
  by_cases e : y = x <;> simp [e]

/-- 渡されたブロックを、使用中の inode a の空の欄 s に置く。 -/
theorem Fresh.take (hf : Fresh sb fs x fs') (h : BlocksOwned sb fs) (hl : LayoutOK sb) {a : Nat}
    {s : Slot} (hR : fs.ref a s = 0) :
    Owned sb.size sb.IsMeta (fs'.used sb) (InUse sb fs) (setRef fs.ref a s x) :=
  (hf.owned_mark h hl).take (fun i t hi => hf.free i t hi) hf.not_meta hf.lt
    (by simp [hf.used x hf.lt]) hR

theorem Fresh.owned (hf : Fresh sb fs x fs') (h : BlocksOwned sb fs) (hl : LayoutOK sb) :
    BlocksOwned sb fs' :=
  BlocksOwned.of_eq (hf.owned_mark h hl) (fun i => by rw [hf.inode]) hf.ref

/-- 渡されたブロックに印が立つので、空きは高々一つ減る。 -/
theorem Fresh.freeCount_le (hf : Fresh sb fs x fs') : freeCount sb fs ≤ freeCount sb fs' + 1 :=
  freeCount_le_of_mark hf.used

@[simp] theorem balloc_inode (sb : SuperBlock) (fs : FsState) : (Fs.balloc sb fs).2.inode = fs.inode := by
  unfold Fs.balloc
  split <;> rfl

theorem balloc_inode_eq (hB : Fs.balloc sb fs = (x, fs₁)) : fs₁.inode = fs.inode := by
  rw [← balloc_inode sb fs, hB]

/-- 性質が成り立てば、`balloc` が 0 を返すのは何も変えなかったときだけである。 -/
theorem BlocksOwned.balloc_zero (h : BlocksOwned sb (fs.iupdate inum ip)) (hB : Fs.balloc sb fs = (0, fs₁)) :
    fs₁ = fs := by
  rcases balloc_cases hB with ⟨-, rfl⟩ | ⟨-, hfree, -⟩
  · rfl
  · have h0 : (fs.iupdate inum ip).used sb 0 = true := h.fixed_used 0 (.inl (by decide))
    rw [FsState.used_iupdate, hfree] at h0
    cases h0

/-- `balloc` はほかの inode の欄を変えない。 -/
theorem BlocksOwned.balloc_ref (h : BlocksOwned sb (fs.iupdate inum ip)) (hB : Fs.balloc sb fs = (x, fs₁))
    {i : Nat} (e : i ≠ inum) (hi : InUse sb fs i) : fs₁.ref i = fs.ref i := by
  have hBW : Fs.balloc sb (fs.iupdate inum ip) = (x, fs₁.iupdate inum ip) := by
    rw [balloc_iupdate, hB]
  rw [← FsState.ref_iupdate_of_ne fs₁ ip e, ← FsState.ref_iupdate_of_ne fs ip e]
  rcases h.balloc hBW with ⟨-, hfs⟩ | hf
  · rw [hfs]
  · exact hf.ref i ((inUse_iupdate_of_ne e).mpr hi)

/-- メモリ上の inode ip の欄 s だけを v に替えた ip' を書き戻す。欄 s を v にした R の下で性質が
成り立ち、ほかの欄が R のままなら、書き戻した状態で性質が成り立つ。 -/
theorem BlocksOwned.setSlot {R : Nat → Slot → Nat} {ip' : DInode} {s : Slot} {v : Nat}
    (h : Owned sb.size sb.IsMeta (fs₁.used sb) (InUse sb (fs.iupdate inum ip)) (setRef R inum s v))
    (hin : fs₁.inode = fs.inode) (href : ∀ i, InUse sb (fs.iupdate inum ip) i → (fs₁.iupdate inum ip).ref i = R i)
    (hslot : ip'.slot fs₁.data = update (ip.slot fs₁.data) s v) (htype : ip'.type = ip.type) :
    BlocksOwned sb (fs₁.iupdate inum ip') := by
  have htype' : ∀ i, ((fs₁.iupdate inum ip').inode i).type = ((fs.iupdate inum ip).inode i).type := by
    intro i
    by_cases e : i = inum
    · subst e
      simpa using htype
    · rw [FsState.iupdate_inode_of_ne _ _ e, FsState.iupdate_inode_of_ne _ _ e, hin]
  refine BlocksOwned.of_eq h htype' fun i hi => ?_
  by_cases e : i = inum
  · subst e
    rw [setRef_same, ← href i hi, FsState.ref_iupdate_self, FsState.ref_iupdate_self, hslot]
  · rw [FsState.ref_iupdate_of_ne _ _ e, ← FsState.ref_iupdate_of_ne fs₁ ip e, href i hi]
    funext t
    exact (setRef_of_ne _ _ fun hc => e hc.1).symm

/-- `balloc` が渡したブロック x を、メモリ上の inode ip の空の欄 s に置いて ip' とする。 -/
theorem BlocksOwned.balloc_slot (h : BlocksOwned sb (fs.iupdate inum ip)) (hl : LayoutOK sb)
    (hB : Fs.balloc sb fs = (x, fs₁)) (hx : x ≠ 0) {s : Slot} (hR : ip.slot fs.data s = 0) (ip' : DInode)
    (htype : ip'.type = ip.type)
    (hslot : fs₁.data x = (fun _ => 0) → ip'.slot fs₁.data = update (ip.slot fs₁.data) s x) :
    BlocksOwned sb (fs₁.iupdate inum ip') ∧ ip'.slot fs₁.data s = x := by
  have hBW : Fs.balloc sb (fs.iupdate inum ip) = (x, fs₁.iupdate inum ip) := by
    rw [balloc_iupdate, hB]
  rcases h.balloc hBW with ⟨e, -⟩ | hf
  · exact absurd e hx
  have hR' : (fs.iupdate inum ip).ref inum s = 0 := by simpa using hR
  refine ⟨BlocksOwned.setSlot (hf.take h hl hR') (balloc_inode_eq hB) hf.ref (hslot hf.zero) htype, ?_⟩
  rw [hslot hf.zero, update_self]

/-- 使用中の欄 `(a, s)` のブロックを `bfree` する: panic せず、印を消して欄を空にした性質が
成り立つ。 -/
theorem Owned.bfree {α σ : Type} [DecidableEq α] [DecidableEq σ] {live : α → Prop} {R : α → σ → Nat}
    (h : Owned sb.size sb.IsMeta (fs.used sb) live R) {a : α} {s : σ} (ha : live a) (hs : R a s ≠ 0) :
    Fs.bfree sb (R a s) fs = some (fs.clearBit sb (R a s)) ∧
      Owned sb.size sb.IsMeta ((fs.clearBit sb (R a s)).used sb) live (setRef R a s 0) := by
  refine ⟨by rw [bfree_eq, if_pos (h.ref_used a s ha hs)], ?_⟩
  have hu : (fs.clearBit sb (R a s)).used sb = update (fs.used sb) (R a s) false := by
    funext y
    rw [FsState.used_clearBit, update_apply]
    by_cases e : y = R a s <;> simp [e]
  rw [hu]
  exact h.release ha hs

/-- 使用中の inode の間接ブロックはメタデータでないので、メタデータでないブロックの中身と
inode の表が同じなら、その欄も同じである。 -/
theorem BlocksOwned.ref_congr (h : BlocksOwned sb fs) {i : Nat} (hi : InUse sb fs i)
    (hin : fs'.inode i = fs.inode i) (hd : ∀ b, ¬ sb.IsMeta b → fs'.data b = fs.data b) :
    fs'.ref i = fs.ref i := by
  unfold FsState.ref
  rw [hin]
  exact DInode.slot_congr rfl fun h0 => hd _ (h.ref_fixed i .indirect hi h0)

/-- inode inum のほかの inode は表の中身が変わらず、使用中なら欄も変わらない。 -/
def Untouched (sb : SuperBlock) (inum : Nat) (fs fs' : FsState) : Prop :=
  ∀ i, i ≠ inum → fs'.inode i = fs.inode i ∧ (InUse sb fs i → fs'.ref i = fs.ref i)

theorem Untouched.refl (fs : FsState) : Untouched sb inum fs fs := fun _ _ => ⟨rfl, fun _ => rfl⟩

theorem Untouched.trans (h₁ : Untouched sb inum fs fs₁) (h₂ : Untouched sb inum fs₁ fs') :
    Untouched sb inum fs fs' := by
  intro i e
  obtain ⟨hin₁, hr₁⟩ := h₁ i e
  obtain ⟨hin₂, hr₂⟩ := h₂ i e
  refine ⟨hin₂.trans hin₁, fun hi => ?_⟩
  have hi₁ : InUse sb fs₁ i := by
    simpa only [InUse, hin₁] using hi
  rw [hr₂ hi₁, hr₁ hi]

theorem Untouched.iupdate (fs : FsState) (ip : DInode) : Untouched sb inum fs (fs.iupdate inum ip) :=
  fun _ e => ⟨FsState.iupdate_inode_of_ne _ _ e, fun _ => FsState.ref_iupdate_of_ne _ _ e⟩

/-- inum のほかの inode の表と、メタデータでないブロックの中身が変わらなければ、ほかの inode には
触れていない。 -/
theorem BlocksOwned.untouched (h : BlocksOwned sb fs) (hin : ∀ i, i ≠ inum → fs'.inode i = fs.inode i)
    (hd : ∀ b, ¬ sb.IsMeta b → fs'.data b = fs.data b) : Untouched sb inum fs fs' :=
  fun i e => ⟨hin i e, fun hi => h.ref_congr hi (hin i e) hd⟩

/-- 印のブロックへの書き込みは、メタデータでないブロックの中身を変えない。 -/
theorem FsState.clearBit_data_of_not_meta (fs : FsState) {x b : Nat} (hx : x < sb.size)
    (hb : ¬ sb.IsMeta b) : (fs.clearBit sb x).data b = fs.data b :=
  fs.writeBlock_data_of_ne _ fun e => hb (e ▸ sb.isMeta_BBLOCK hx)

theorem BlocksOwned.ref_clearBit (h : BlocksOwned sb fs) {y i : Nat} (hy : y < sb.size) (hi : InUse sb fs i) :
    (fs.clearBit sb y).ref i = fs.ref i :=
  h.ref_congr hi rfl fun _ hb => fs.clearBit_data_of_not_meta hy hb

/-- 使用中の inode の、間接ブロック以外の欄が指すブロックはどの間接ブロックでもないので、そこへの
書き込みは、どの使用中の inode の欄も変えない。 -/
theorem BlocksOwned.ref_writeData (h : BlocksOwned sb fs) (ha : InUse sb fs inum) {s : Slot}
    (hs : s ≠ .indirect) (h0 : fs.ref inum s ≠ 0) (f : (Nat → UInt8) → Nat → UInt8) {i : Nat}
    (hi : InUse sb fs i) : (fs.writeBlock (fs.ref inum s) f).ref i = fs.ref i :=
  FsState.ref_writeBlock fs f fun _ e => hs (h.inj inum s i .indirect ha hi h0 e.symm).2

/-- 使用中の inode の、間接ブロック以外の欄が指すブロックへの書き込みは性質を保つ。 -/
theorem BlocksOwned.writeData (h : BlocksOwned sb fs) (hl : LayoutOK sb) (ha : InUse sb fs inum)
    {s : Slot} (hs : s ≠ .indirect) (h0 : fs.ref inum s ≠ 0) (f : (Nat → UInt8) → Nat → UInt8) :
    BlocksOwned sb (fs.writeBlock (fs.ref inum s) f) := by
  have hmeta : ¬ sb.IsMeta (fs.ref inum s) := h.ref_fixed inum s ha h0
  exact BlocksOwned.of_eq (h.congr_used hl.meta_lt fun y hy => FsState.used_writeBlock_of_not_meta _ _ hmeta hy)
    (fun _ => rfl) fun i hi => h.ref_writeData ha hs h0 f hi

theorem BlocksOwned.iupdate_inode (h : BlocksOwned sb fs) (inum : Nat) :
    BlocksOwned sb (fs.iupdate inum (fs.inode inum)) := by
  rw [FsState.iupdate_self]
  exact h

/-- 欄を読まない欄（大きさ、リンク数）だけを替えた inode を書き戻しても性質は変わらない。 -/
theorem BlocksOwned.iupdate_congr (h : BlocksOwned sb (fs.iupdate inum ip)) {ip' : DInode}
    (ha : ip'.addrs = ip.addrs) (ht : ip'.type = ip.type) : BlocksOwned sb (fs.iupdate inum ip') := by
  refine BlocksOwned.of_eq h (fun i => ?_) fun i _ => ?_
  · by_cases e : i = inum
    · subst e
      simpa using ht
    · rw [FsState.iupdate_inode_of_ne _ _ e, FsState.iupdate_inode_of_ne _ _ e]
  · by_cases e : i = inum
    · subst e
      simp only [FsState.ref_iupdate_self]
      exact DInode.slot_congr ha fun _ => rfl
    · rw [FsState.ref_iupdate_of_ne _ _ e, FsState.ref_iupdate_of_ne _ _ e]

/-- inode inum の欄がすべて空の ip' を書き戻す: ほかの使用中の inode の欄が、性質の成り立つ
R のままなら、書き戻した状態で性質が成り立つ。 -/
theorem BlocksOwned.of_empty {live : Nat → Prop} {R : Nat → Slot → Nat}
    (h : Owned sb.size sb.IsMeta (fs.used sb) live R) (ip' : DInode) (hempty : ∀ s, ip'.slot fs.data s = 0)
    (hk : ∀ i, i ≠ inum → InUse sb fs i → live i ∧ fs.ref i = R i) : BlocksOwned sb (fs.iupdate inum ip') := by
  refine h.sub fun i s hi hs => ?_
  by_cases e : i = inum
  · subst e
    simp [hempty] at hs
  · have hi' : InUse sb fs i := by
      simpa only [InUse, FsState.iupdate_inode_of_ne _ _ e] using hi
    obtain ⟨hl, hr⟩ := hk i e hi'
    rw [FsState.ref_iupdate_of_ne _ _ e, hr]
    exact ⟨hl, rfl⟩

/-- 型 0 の inode を書き戻すと、その inode は使用中でなくなり、性質は保たれる。 -/
theorem BlocksOwned.iupdate_free (h : BlocksOwned sb fs) {ip' : DInode} (ht : ip'.type = 0) :
    BlocksOwned sb (fs.iupdate inum ip') := by
  refine h.sub fun i s hi _ => ?_
  by_cases e : i = inum
  · subst e
    exact absurd (by simpa using ht) hi.2.2
  · refine ⟨by simpa only [InUse, FsState.iupdate_inode_of_ne _ _ e] using hi, ?_⟩
    rw [FsState.ref_iupdate_of_ne _ _ e]

/-! ## bmap -/

theorem bmapIndirect_iupdate (ind bn : Nat) (fs : FsState) (inum : Nat) (ip : DInode) :
    bmapIndirect sb ind bn (fs.iupdate inum ip) =
      ((bmapIndirect sb ind bn fs).1, (bmapIndirect sb ind bn fs).2.iupdate inum ip) := by
  unfold bmapIndirect
  simp only [FsState.iupdate_data, balloc_iupdate]
  split
  · split <;> rfl
  · rfl

/-- 間接ブロック ind の j 番目の語: 0 なら割り当てて書き、その欄が返すブロックを指す。 -/
theorem BlocksOwned.bmapIndirect (h : BlocksOwned sb fs) (hl : LayoutOK sb) (ha : InUse sb fs inum)
    {ind addr : Nat} (hind : fs.ref inum .indirect = ind) (h0 : ind ≠ 0) (j : Fin NINDIRECT)
    (hb : bmapIndirect sb ind j fs = (addr, fs')) :
    BlocksOwned sb fs' ∧ fs'.inode = fs.inode ∧ (addr = 0 ∨ fs'.ref inum (.entry j) = addr) ∧
      ∀ i, i ≠ inum → InUse sb fs i → fs'.ref i = fs.ref i := by
  have hslot : fs.ref inum (.entry j) = getWord (fs.data ind) j := by
    simp only [FsState.ref, DInode.slot] at hind ⊢
    rw [hind, if_neg h0]
  unfold Fs.bmapIndirect at hb
  by_cases hw : getWord (fs.data ind) j = 0
  · rw [if_pos hw] at hb
    rcases hB : Fs.balloc sb fs with ⟨x, fs₁⟩
    rw [hB] at hb
    dsimp only at hb
    rcases h.balloc hB with ⟨rfl, rfl⟩ | hf
    · obtain ⟨rfl, rfl⟩ := Prod.mk.inj hb
      exact ⟨h, rfl, .inl rfl, fun _ _ _ => rfl⟩
    rw [if_neg hf.ne_zero] at hb
    obtain ⟨rfl, rfl⟩ := Prod.mk.inj hb
    -- 書いた語の欄だけが x を指し、ほかの inode の間接ブロックは ind でない
    have href : ∀ i, InUse sb fs i →
        (fs₁.writeBlock ind fun a => setWord a j x).ref i = setRef fs.ref inum (.entry j) x i := by
      intro i hi
      by_cases e : i = inum
      · subst e
        rw [setRef_same, ← hf.ref i hi]
        exact DInode.slot_setWord _ j (by rw [FsState.writeBlock_inode, hf.inode]; exact hind) h0
          (hf.lt.trans hl.size_lt)
      · have hne : (fs₁.inode i).addrs NDIRECT ≠ 0 → (fs₁.inode i).addrs NDIRECT ≠ ind := by
          rw [hf.inode]
          intro hs e'
          exact e (h.inj i .indirect inum .indirect hi ha hs (e'.trans hind.symm)).1
        rw [FsState.ref_writeBlock _ _ hne, hf.ref i hi]
        funext s
        exact (setRef_of_ne _ _ fun hc => e hc.1).symm
    have hmeta : ¬ sb.IsMeta ind := by
      have := h.ref_fixed inum .indirect ha (by rw [hind]; exact h0)
      rwa [hind] at this
    refine ⟨BlocksOwned.of_eq ((hf.take h hl (hslot.trans hw)).congr_used hl.meta_lt
      fun y hy => FsState.used_writeBlock_of_not_meta _ _ hmeta hy) (fun i => by simp [hf.inode]) href,
      hf.inode, .inr ?_, fun i e hi => ?_⟩
    · rw [href inum ha, setRef_self]
    · rw [href i hi]
      funext s
      exact setRef_of_ne _ _ fun hc => e hc.1
  · rw [if_neg hw] at hb
    obtain ⟨rfl, rfl⟩ := Prod.mk.inj hb
    exact ⟨h, rfl, .inr hslot, fun _ _ _ => rfl⟩

@[simp] theorem bmapIndirect_inode (sb : SuperBlock) (ind bn : Nat) (fs : FsState) :
    (Fs.bmapIndirect sb ind bn fs).2.inode = fs.inode := by
  have hB := balloc_inode sb fs
  unfold Fs.bmapIndirect
  split
  · rcases hB' : Fs.balloc sb fs with ⟨x, fs₁⟩
    rw [hB'] at hB
    dsimp only at hB ⊢
    split
    · exact hB
    · exact hB
  · rfl

/-- メモリ上の inode ip の間接ブロック ind の j 番目の語を引く。 -/
theorem BlocksOwned.bmapIndirect_slot (h : BlocksOwned sb (fs.iupdate inum ip)) (hl : LayoutOK sb)
    (ha : InUse sb (fs.iupdate inum ip) inum) {ind addr : Nat} (hind : ip.addrs NDIRECT = ind) (h0 : ind ≠ 0)
    (j : Fin NINDIRECT) (hI : Fs.bmapIndirect sb ind j fs = (addr, fs')) :
    BlocksOwned sb (fs'.iupdate inum ip) ∧ fs'.inode = fs.inode ∧
      (addr = 0 ∨ ∃ s, s ≠ .indirect ∧ (fs'.iupdate inum ip).ref inum s = addr) ∧
      ∀ i, i ≠ inum → InUse sb fs i → fs'.ref i = fs.ref i := by
  have hIW : Fs.bmapIndirect sb ind j (fs.iupdate inum ip) = (addr, fs'.iupdate inum ip) := by
    rw [bmapIndirect_iupdate, hI]
  obtain ⟨h₂, -, hres, hk⟩ := h.bmapIndirect hl ha (by simp [DInode.slot, hind]) h0 j hIW
  refine ⟨h₂, ?_, hres.imp_right fun e => ⟨_, by simp, e⟩, fun i e hi => ?_⟩
  · rw [← bmapIndirect_inode sb ind j fs, hI]
  · have := hk i e ((inUse_iupdate_of_ne e).mpr hi)
    rwa [FsState.ref_iupdate_of_ne _ _ e, FsState.ref_iupdate_of_ne _ _ e] at this

/-- `bmap(ip, bn)` は性質を保ち、0 でないブロックを返すなら、それは inode の間接ブロック以外の
欄が指すブロックである。 -/
theorem BlocksOwned.bmap (h : BlocksOwned sb (fs.iupdate inum ip)) (hl : LayoutOK sb)
    (ha : InUse sb (fs.iupdate inum ip) inum) {bn addr : Nat} {ip' : DInode}
    (hb : Fs.bmap sb ip bn fs = some (addr, ip', fs')) :
    BlocksOwned sb (fs'.iupdate inum ip') ∧ ip'.type = ip.type ∧ fs'.inode = fs.inode ∧
      (addr = 0 ∨ ∃ s, s ≠ .indirect ∧ (fs'.iupdate inum ip').ref inum s = addr) ∧
      ∀ i, i ≠ inum → InUse sb fs i → fs'.ref i = fs.ref i := by
  unfold Fs.bmap at hb
  by_cases hbn : bn < NDIRECT
  · -- 直接ブロック
    rw [if_pos hbn] at hb
    by_cases hz : ip.addrs bn = 0
    · rw [if_pos hz] at hb
      rcases hB : Fs.balloc sb fs with ⟨x, fs₁⟩
      rw [hB] at hb
      dsimp only at hb
      by_cases hx : x = 0
      · subst hx
        rw [if_pos rfl] at hb
        obtain ⟨rfl, rfl, rfl⟩ : 0 = addr ∧ ip = ip' ∧ fs₁ = fs' := by simpa using hb
        rw [h.balloc_zero hB]
        exact ⟨h, rfl, rfl, .inl rfl, fun _ _ _ => rfl⟩
      rw [if_neg hx] at hb
      obtain ⟨rfl, rfl, rfl⟩ : x = addr ∧ ip.setAddr bn x = ip' ∧ fs₁ = fs' := by simpa using hb
      obtain ⟨h', hs⟩ := h.balloc_slot hl hB hx (s := .direct ⟨bn, hbn⟩) (by simpa [DInode.slot] using hz)
        (ip.setAddr bn x) rfl fun _ => DInode.slot_setAddr_direct ip _ ⟨bn, hbn⟩ x
      exact ⟨h', rfl, balloc_inode_eq hB, .inr ⟨.direct ⟨bn, hbn⟩, by simp, by simpa using hs⟩,
        fun i e hi => h.balloc_ref hB e hi⟩
    · rw [if_neg hz] at hb
      obtain ⟨rfl, rfl, rfl⟩ : ip.addrs bn = addr ∧ ip = ip' ∧ fs = fs' := by simpa using hb
      exact ⟨h, rfl, rfl, .inr ⟨.direct ⟨bn, hbn⟩, by simp, by simp [DInode.slot]⟩, fun _ _ _ => rfl⟩
  rw [if_neg hbn] at hb
  by_cases hj : bn - NDIRECT < NINDIRECT
  swap
  · rw [if_neg hj] at hb
    cases hb
  -- 間接ブロックの語
  rw [if_pos hj] at hb
  by_cases hz : ip.addrs NDIRECT = 0
  · rw [if_pos hz] at hb
    rcases hB : Fs.balloc sb fs with ⟨ind, fs₁⟩
    rw [hB] at hb
    dsimp only at hb
    by_cases hx : ind = 0
    · subst hx
      rw [if_pos rfl] at hb
      obtain ⟨rfl, rfl, rfl⟩ : 0 = addr ∧ ip = ip' ∧ fs₁ = fs' := by simpa using hb
      rw [h.balloc_zero hB]
      exact ⟨h, rfl, rfl, .inl rfl, fun _ _ _ => rfl⟩
    rw [if_neg hx] at hb
    rcases hI : Fs.bmapIndirect sb ind (bn - NDIRECT) fs₁ with ⟨a₂, fs₂⟩
    rw [hI] at hb
    obtain ⟨rfl, rfl, rfl⟩ : a₂ = addr ∧ ip.setAddr NDIRECT ind = ip' ∧ fs₂ = fs' := by simpa using hb
    -- 0 で埋めた新しい間接ブロックを欄に置いてから、語を割り当てる
    obtain ⟨hV, -⟩ := h.balloc_slot hl hB hx (s := .indirect) (by simpa [DInode.slot] using hz)
      (ip.setAddr NDIRECT ind) rfl fun hd => DInode.slot_setAddr_indirect ip hz hd
    obtain ⟨h₂, hin₂, hres, hk⟩ :=
      hV.bmapIndirect_slot hl (ha.iupdate_self _ rfl) (by simp) hx ⟨bn - NDIRECT, hj⟩ hI
    refine ⟨h₂, rfl, hin₂.trans (balloc_inode_eq hB), hres, fun i e hi => ?_⟩
    -- ほかの inode の欄は、`balloc` でも語の割り当てでも変わらない
    have hi₁ : InUse sb fs₁ i := by
      simpa only [InUse, balloc_inode_eq hB] using hi
    rw [hk i e hi₁, h.balloc_ref hB e hi]
  · rw [if_neg hz] at hb
    rcases hI : Fs.bmapIndirect sb (ip.addrs NDIRECT) (bn - NDIRECT) fs with ⟨a₂, fs₂⟩
    rw [hI] at hb
    obtain ⟨rfl, rfl, rfl⟩ : a₂ = addr ∧ ip = ip' ∧ fs₂ = fs' := by simpa using hb
    obtain ⟨h₂, hin₂, hres, hk⟩ := h.bmapIndirect_slot hl ha rfl hz ⟨bn - NDIRECT, hj⟩ hI
    exact ⟨h₂, rfl, hin₂, hres, hk⟩

end Xv6.Fs
