import Mathlib.Data.List.Perm.Basic
import Xv6.Itable.Basic

/-!
# inode の表の不変条件

到達できるどの状態でも成り立つこと（`IInv`）:

* 入口の ref は、その入口を指す生きたポインタの数である（`refs`）。
* ref が正の二つの入口は、同じ (dev, inum) を持たない（`unique`）。
* sleeplock を持つ持ち主は、その入口へのポインタを持つ（`lockHeld`）。
* 解放の区間にいる持ち主について、次の文の前で成り立つこと（`StageOK`）。
* ref が正で valid な入口は、解放の区間で type を 0 にした後でなければ、ディスクの inode と
  type、nlink が一致し、type は 0 でない（`coherent`）。
-/

namespace Xv6.Itable

open Function Xv6.Lib

variable {H : Type}

/-! ## ポインタの数 -/

/-- 入口 ip を指すポインタの数。 -/
def ptrCount (ptrs : List (H × InodeId)) (ip : InodeId) : Nat := ptrs.countP (·.2 == ip)

theorem ptrCount_cons (l : List (H × InodeId)) (h : H) (ip' ip : InodeId) :
    ptrCount ((h, ip') :: l) ip = ptrCount l ip + if ip' = ip then 1 else 0 := by
  simp [ptrCount, List.countP_cons]

theorem ptrCount_erase [DecidableEq H] {l : List (H × InodeId)} {h : H} {ip' : InodeId} (hm : (h, ip') ∈ l) (ip : InodeId) :
    ptrCount (l.erase (h, ip')) ip + (if ip' = ip then 1 else 0) = ptrCount l ip := by
  have hp := List.perm_cons_erase hm
  rw [ptrCount, ptrCount, hp.countP_eq, List.countP_cons]
  simp

theorem ptrCount_pos {l : List (H × InodeId)} {h : H} {ip : InodeId} (hm : (h, ip) ∈ l) : 0 < ptrCount l ip :=
  List.countP_pos_iff.mpr ⟨_, hm, by simp⟩

/-- 数が 1 なら、そのポインタが入口を指すただ一つのポインタである。 -/
theorem eq_of_ptrCount_eq_one [DecidableEq H] {l : List (H × InodeId)} {h : H} {ip : InodeId} (hm : (h, ip) ∈ l)
    (h1 : ptrCount l ip = 1) : ∀ p ∈ l, p.2 = ip → p = (h, ip) := by
  intro p hp hip
  have he := ptrCount_erase hm ip
  rw [h1, if_pos rfl] at he
  by_contra hne
  have : 0 < ptrCount (l.erase (h, ip)) ip :=
    List.countP_pos_iff.mpr ⟨p, (List.mem_erase_of_ne hne).mpr hp, by simp [hip]⟩
  omega

/-! ## 解放の区間 -/

/-- 解放の区間にいる持ち主 h について、次の文の前で成り立つこと。 -/
def StageOK (s : IState H) (h : H) : Pc → Prop
  | .idle => True
  | .trunc ip => s.lock ip = some h ∧ (s.inode ip).valid = true ∧ (s.inode ip).nlink = 0
  | .update ip =>
    s.lock ip = some h ∧ (s.inode ip).valid = true ∧ (s.inode ip).type = 0 ∧ (s.inode ip).nlink = 0
  | .invalid ip =>
    s.lock ip = some h ∧ (s.inode ip).valid = true ∧ (s.inode ip).type = 0 ∧ (s.inode ip).nlink = 0
  | .unlock ip => s.lock ip = some h ∧ (s.inode ip).valid = false
  | .put ip => (h, ip) ∈ s.ptrs ∧ s.lock ip ≠ some h

/-- 解放の区間で、sleeplock を持っている入口。 -/
def Pc.holding : Pc → Option InodeId
  | .trunc ip | .update ip | .invalid ip | .unlock ip => some ip
  | _ => none

/-- 解放の区間で、入口の type を 0 にした後、valid を落とす前。 -/
def Pc.typeCleared (pc : Pc) (ip : InodeId) : Prop := pc = .update ip ∨ pc = .invalid ip

/-- 解放の区間で、次の文が扱う入口。 -/
def Pc.target : Pc → Option InodeId
  | .idle => none
  | .trunc ip | .update ip | .invalid ip | .unlock ip | .put ip => some ip

theorem Pc.target_of_holding {pc : Pc} {ip : InodeId} (h : pc.holding = some ip) : pc.target = some ip := by
  cases pc <;> simp_all [Pc.holding, Pc.target]

theorem StageOK.lock {s : IState H} {h : H} {pc : Pc} {ip : InodeId} (hst : StageOK s h pc)
    (hpc : pc.holding = some ip) : s.lock ip = some h := by
  cases pc <;> simp only [Pc.holding, reduceCtorEq, Option.some.injEq] at hpc <;> subst hpc <;> exact hst.1

/-! ## 不変条件 -/

/-- ref が正の二つの入口は、同じ (dev, inum) を持たない。 -/
def KeysUnique (t : InodeId → Inode) : Prop :=
  ∀ a b, 0 < (t a).ref → 0 < (t b).ref → (t a).dev = (t b).dev → (t a).inum = (t b).inum → a = b

/-- ref が正で valid な入口は、type を 0 にした後の解放の区間でなければ、ディスクの inode と
一致し、type が 0 でない。 -/
def Coherent (s : IState H) : Prop :=
  ∀ ip, 0 < (s.inode ip).ref → (s.inode ip).valid = true → (∀ h, ¬ (s.pc h).typeCleared ip) →
    s.disk (s.inode ip).dev (s.inode ip).inum = ⟨(s.inode ip).type, (s.inode ip).nlink⟩ ∧ (s.inode ip).type ≠ 0

structure IInv (s : IState H) : Prop where
  refs : ∀ ip, (s.inode ip).ref = ptrCount s.ptrs ip
  unique : KeysUnique s.inode
  lockHeld : ∀ ip h, s.lock ip = some h → (h, ip) ∈ s.ptrs
  stage : ∀ h, StageOK s h (s.pc h)
  coherent : Coherent s

/-! ## 不変条件の各欄を運ぶ補題

一つの遷移は、表の一つの入口、一つの sleeplock、一人の持ち主の位置、ポインタの並びのどれかを
書き換える。書き換えなかった所について、各欄が前の状態から移ることをここで示す。 -/

/-- 鍵の一意性は、ref が正のままの入口の (dev, inum) を変えない遷移で保たれる。 -/
theorem KeysUnique.of_pos {t t' : InodeId → Inode} (hu : KeysUnique t)
    (hpos : ∀ x, 0 < (t' x).ref → 0 < (t x).ref ∧ (t' x).dev = (t x).dev ∧ (t' x).inum = (t x).inum) :
    KeysUnique t' := by
  intro a b ha hb hd hn
  obtain ⟨ha', hda, hna⟩ := hpos a ha
  obtain ⟨hb', hdb, hnb⟩ := hpos b hb
  exact hu a b ha' hb' (by rw [← hda, ← hdb]; exact hd) (by rw [← hna, ← hnb]; exact hn)

/-- ref が 0 の入口に、どの入口とも一致しない (dev, inum) を入れても一意性は保たれる。 -/
theorem KeysUnique.recycle {t : InodeId → Inode} (hu : KeysUnique t) {ip : InodeId} {dev inum : Nat}
    (hmiss : ∀ x, (t x).matches dev inum = false) :
    KeysUnique (update t ip { t ip with dev := dev, inum := inum, ref := 1, valid := false }) := by
  have key : ∀ x, x ≠ ip → 0 < (t x).ref → (t x).dev = dev → (t x).inum = inum → False := by
    intro x _ hx hd hn
    have := hmiss x
    simp [Inode.matches, hx, hd, hn] at this
  intro a b ha hb hd hn
  by_cases hai : a = ip <;> by_cases hbi : b = ip
  · rw [hai, hbi]
  · subst hai
    simp only [update_self, update_of_ne hbi] at hb hd hn
    exact (key b hbi hb hd.symm hn.symm).elim
  · subst hbi
    simp only [update_self, update_of_ne hai] at ha hd hn
    exact (key a hai ha hd hn).elim
  · simp only [update_of_ne hai, update_of_ne hbi] at ha hb hd hn
    exact hu a b ha hb hd hn

/-- type、nlink、valid の三つが同じ。 -/
def SameData (x y : Inode) : Prop := x.valid = y.valid ∧ x.type = y.type ∧ x.nlink = y.nlink

/-- 次の文の前の条件は、持っている sleeplock と入口の欄が変わらず、最後の文の前ならポインタが
残り sleeplock を持たないままなら移る。 -/
theorem StageOK.congr {s s' : IState H} {g : H} {pc : Pc} (hst : StageOK s g pc)
    (hl : ∀ ip, pc.holding = some ip → s'.lock ip = s.lock ip ∧ SameData (s'.inode ip) (s.inode ip))
    (hp : ∀ ip, pc = .put ip → (g, ip) ∈ s.ptrs → s.lock ip ≠ some g → (g, ip) ∈ s'.ptrs ∧ s'.lock ip ≠ some g) :
    StageOK s' g pc := by
  cases pc with
  | idle => trivial
  | trunc ip =>
    obtain ⟨hlk, hv, -, hn⟩ := hl ip rfl
    exact ⟨hlk.trans hst.1, hv.trans hst.2.1, hn.trans hst.2.2⟩
  | update ip =>
    obtain ⟨hlk, hv, ht, hn⟩ := hl ip rfl
    exact ⟨hlk.trans hst.1, hv.trans hst.2.1, ht.trans hst.2.2.1, hn.trans hst.2.2.2⟩
  | invalid ip =>
    obtain ⟨hlk, hv, ht, hn⟩ := hl ip rfl
    exact ⟨hlk.trans hst.1, hv.trans hst.2.1, ht.trans hst.2.2.1, hn.trans hst.2.2.2⟩
  | unlock ip =>
    obtain ⟨hlk, hv, -, -⟩ := hl ip rfl
    exact ⟨hlk.trans hst.1, hv.trans hst.2⟩
  | put ip => exact hp ip rfl hst.1 hst.2

/-- 一致は、ディスクが変わらず、ref が正で valid な入口がもとから ref が正で、ref のほかの欄が
同じで、type を 0 にした後の区間の外だったなら移る。 -/
theorem Coherent.of_pos {s s' : IState H} (hc : Coherent s) (hdisk : s'.disk = s.disk)
    (he : ∀ x, 0 < (s'.inode x).ref → (s'.inode x).valid = true → (∀ h, ¬ (s'.pc h).typeCleared x) →
      0 < (s.inode x).ref ∧ s'.inode x = { s.inode x with ref := (s'.inode x).ref } ∧
        ∀ h, ¬ (s.pc h).typeCleared x) : Coherent s' := by
  intro ip hr hv hcl
  obtain ⟨hr', heq, hcl'⟩ := he ip hr hv hcl
  rw [heq] at hv ⊢
  rw [hdisk]
  exact hc ip hr' hv hcl'

theorem not_typeCleared_of_update [DecidableEq H] {pc : H → Pc} {g : H} {p : Pc} {x : InodeId}
    (hp : ¬ (pc g).typeCleared x) (hcl : ∀ h, ¬ (update pc g p h).typeCleared x) :
    ∀ h, ¬ (pc h).typeCleared x := by
  intro h
  by_cases hg : h = g
  · subst hg
    exact hp
  · have := hcl h
    rwa [update_of_ne hg] at this

/-! ## ref だけを書き換えた表 -/

theorem Inode.matches_iff {x : Inode} {dev inum : Nat} :
    x.matches dev inum = true ↔ 0 < x.ref ∧ x.dev = dev ∧ x.inum = inum := by
  simp [Inode.matches, and_assoc]

/-- 入口 ip の ref だけを r にした表は、どの入口でも ref のほかはもとのまま。 -/
theorem update_ref_apply (t : InodeId → Inode) (ip : InodeId) (r : Nat) (x : InodeId) :
    update t ip { t ip with ref := r } x = { t x with ref := (update t ip { t ip with ref := r } x).ref } := by
  by_cases hx : x = ip
  · subst hx
    rw [update_self]
  · rw [update_of_ne hx]

theorem pos_of_update_ref {t : InodeId → Inode} {ip : InodeId} {r : Nat} (hr : 0 < r → 0 < (t ip).ref)
    {x : InodeId} (hx : 0 < (update t ip { t ip with ref := r } x).ref) : 0 < (t x).ref := by
  by_cases h : x = ip
  · subst h
    rw [update_self] at hx
    exact hr hx
  · rwa [update_of_ne h] at hx

theorem sameData_update_ref (t : InodeId → Inode) (ip : InodeId) (r : Nat) (x : InodeId) :
    SameData (update t ip { t ip with ref := r } x) (t x) :=
  have h := update_ref_apply t ip r x
  ⟨by rw [h], by rw [h], by rw [h]⟩

theorem KeysUnique.update_ref {t : InodeId → Inode} (hu : KeysUnique t) {ip : InodeId} {r : Nat}
    (hr : 0 < r → 0 < (t ip).ref) : KeysUnique (update t ip { t ip with ref := r }) :=
  hu.of_pos fun x hx =>
    have h := update_ref_apply t ip r x
    ⟨pos_of_update_ref hr hx, by rw [h], by rw [h]⟩

/-- 鍵と ref が同じ。 -/
def SameKey (x y : Inode) : Prop := x.dev = y.dev ∧ x.inum = y.inum ∧ x.ref = y.ref

theorem ref_update_sameKey {t : InodeId → Inode} {ip : InodeId} {x : Inode} (hx : SameKey x (t ip)) (y : InodeId) :
    (update t ip x y).ref = (t y).ref := by
  by_cases h : y = ip
  · subst h
    rw [update_self]
    exact hx.2.2
  · rw [update_of_ne h]

theorem KeysUnique.update_sameKey {t : InodeId → Inode} (hu : KeysUnique t) {ip : InodeId} {x : Inode}
    (hx : SameKey x (t ip)) : KeysUnique (update t ip x) :=
  hu.of_pos fun y hy => by
    rw [ref_update_sameKey hx] at hy
    by_cases h : y = ip
    · subst h
      rw [update_self]
      exact ⟨hy, hx.1, hx.2.1⟩
    · rw [update_of_ne h]
      exact ⟨hy, rfl, rfl⟩

/-- ref が正の二つの違う入口の鍵は違う。 -/
theorem KeysUnique.key_ne {t : InodeId → Inode} (hu : KeysUnique t) {a b : InodeId} (ha : 0 < (t a).ref)
    (hb : 0 < (t b).ref) (hne : a ≠ b) : ¬ ((t a).dev = (t b).dev ∧ (t a).inum = (t b).inum) :=
  fun h => hne (hu a b ha hb h.1 h.2)

theorem iupdate_self (disk : Nat → Nat → DInode) (x : Inode) : iupdate disk x x.dev x.inum = ⟨x.type, x.nlink⟩ :=
  if_pos ⟨rfl, rfl⟩

theorem iupdate_of_ne (disk : Nat → Nat → DInode) (x : Inode) {d n : Nat} (h : ¬ (d = x.dev ∧ n = x.inum)) :
    iupdate disk x d n = disk d n :=
  if_neg h

theorem ilockRead_cases {y x : Inode} {d : DInode} (h : ilockRead y d = some x) :
    (y.valid = true ∧ x = y) ∨
      (y.valid = false ∧ d.type ≠ 0 ∧ x = { y with type := d.type, nlink := d.nlink, valid := true }) := by
  unfold ilockRead at h
  split_ifs at h with hv ht
  · cases h
    exact .inl ⟨hv, rfl⟩
  · cases h
    exact .inr ⟨by simpa using hv, ht, rfl⟩

theorem Inode.freeOnPut_iff {x : Inode} : x.freeOnPut = true ↔ x.ref = 1 ∧ x.valid = true ∧ x.nlink = 0 := by
  simp [Inode.freeOnPut, and_assoc]

theorem ialloc_spec {disk d : Nat → Nat → DInode} {ninodes dev inum : Nat} {type : Int}
    (h : ialloc disk ninodes dev type = some (inum, d)) :
    (disk dev inum).type = 0 ∧ d = fun d' n => if d' = dev ∧ n = inum then ⟨type, 0⟩ else disk d' n := by
  obtain ⟨i, hi, he⟩ := Option.map_eq_some_iff.mp h
  cases he
  have := List.find?_some hi
  exact ⟨by simpa using this, rfl⟩

@[simp] theorem IState.setInode_inode (s : IState H) (ip : InodeId) (f : Inode → Inode) :
    (s.setInode ip f).inode = update s.inode ip (f (s.inode ip)) := rfl

@[simp] theorem IState.setInode_lock (s : IState H) (ip : InodeId) (f : Inode → Inode) :
    (s.setInode ip f).lock = s.lock := rfl

@[simp] theorem IState.setInode_disk (s : IState H) (ip : InodeId) (f : Inode → Inode) :
    (s.setInode ip f).disk = s.disk := rfl

@[simp] theorem IState.setInode_pc (s : IState H) (ip : InodeId) (f : Inode → Inode) :
    (s.setInode ip f).pc = s.pc := rfl

@[simp] theorem IState.setInode_ptrs (s : IState H) (ip : InodeId) (f : Inode → Inode) :
    (s.setInode ip f).ptrs = s.ptrs := rfl

variable {s : IState H}

theorem IInv.ref_pos (hs : IInv s) {h : H} {ip : InodeId} (hm : (h, ip) ∈ s.ptrs) : 0 < (s.inode ip).ref := by
  rw [hs.refs]
  exact ptrCount_pos hm

/-- 解放の区間の持ち主は、対象の入口へのポインタを持つ。 -/
theorem IInv.target_mem (hs : IInv s) {g : H} {ip : InodeId} (ht : (s.pc g).target = some ip) :
    (g, ip) ∈ s.ptrs := by
  have hst := hs.stage g
  cases hpc : s.pc g with
  | idle => rw [hpc] at ht; cases ht
  | trunc x | update x | invalid x | unlock x =>
    rw [hpc, Pc.target, Option.some.injEq] at ht
    rw [hpc] at hst
    subst ht
    exact hs.lockHeld _ _ hst.1
  | put x =>
    rw [hpc, Pc.target, Option.some.injEq] at ht
    rw [hpc] at hst
    subst ht
    exact hst.1

theorem IInv.target_ref_pos (hs : IInv s) {g : H} {ip : InodeId} (ht : (s.pc g).target = some ip) :
    0 < (s.inode ip).ref :=
  hs.ref_pos (hs.target_mem ht)

/-! ## iget の for -/

/-- for が一致で抜ければ、その入口は一致する。 -/
theorem igetLoop_inl {t : InodeId → Inode} {dev inum : Nat} :
    ∀ {l : List InodeId} {empty : Option InodeId} {ip : InodeId},
      igetLoop t dev inum l empty = .inl ip → (t ip).matches dev inum = true
  | [], _, _, h => by cases h
  | x :: xs, empty, ip, h => by
    rw [igetLoop] at h
    split at h
    · cases h
      assumption
    · exact igetLoop_inl h

/-- for が最後まで回れば、どの入口も一致せず、返す空きは覚えておいたものか ref が 0 の入口。 -/
theorem igetLoop_inr {t : InodeId → Inode} {dev inum : Nat} :
    ∀ {l : List InodeId} {empty e : Option InodeId}, igetLoop t dev inum l empty = .inr e →
      (∀ x ∈ l, (t x).matches dev inum = false) ∧ (e = empty ∨ ∃ x, e = some x ∧ (t x).ref = 0)
  | [], _, _, h => by
    rw [igetLoop, Sum.inr.injEq] at h
    exact ⟨by simp, .inl h.symm⟩
  | x :: xs, empty, e, h => by
    rw [igetLoop] at h
    split at h
    · cases h
    · rename_i hm
      obtain ⟨hall, he⟩ := igetLoop_inr h
      refine ⟨fun y hy => ?_, ?_⟩
      · rcases List.mem_cons.mp hy with rfl | hy
        · simpa using hm
        · exact hall y hy
      · rcases he with he | he
        · split_ifs at he with hc
          · exact .inr ⟨x, he, hc.2⟩
          · exact .inl he
        · exact .inr he

/-- iget は、一致する入口の ref を増やすか、どれも一致しないとき ref が 0 の入口を使う。 -/
theorem iget_cases {t t' : InodeId → Inode} {dev inum : Nat} {ip : InodeId}
    (h : iget t dev inum = some (ip, t')) :
    ((t ip).matches dev inum = true ∧ t' = update t ip { t ip with ref := (t ip).ref + 1 }) ∨
      ((∀ x, (t x).matches dev inum = false) ∧ (t ip).ref = 0 ∧
        t' = update t ip { t ip with dev := dev, inum := inum, ref := 1, valid := false }) := by
  unfold iget at h
  split at h
  · rename_i x hl
    cases h
    exact .inl ⟨igetLoop_inl hl, rfl⟩
  · rename_i x hl
    cases h
    obtain ⟨hall, he⟩ := igetLoop_inr hl
    rcases he with he | ⟨y, hy, h0⟩
    · cases he
    · cases hy
      exact .inr ⟨fun z => hall z (List.mem_finRange z), h0, rfl⟩
  · cases h

/-- sleeplock を持つ持ち主が区間の外にいれば、その入口で解放の区間にいる持ち主はいない。 -/
theorem IInv.not_holding (hs : IInv s) {h g : H} {ip : InodeId} (hl : s.lock ip = some h) (hidle : s.pc h = .idle) :
    (s.pc g).holding ≠ some ip := by
  intro hg
  have := (hs.stage g).lock hg
  rw [hl, Option.some.injEq] at this
  subst this
  rw [hidle] at hg
  cases hg

theorem Pc.holding_of_typeCleared {pc : Pc} {ip : InodeId} (h : pc.typeCleared ip) : pc.holding = some ip := by
  rcases h with rfl | rfl <;> rfl

theorem IInv.init {s : IState H} (h : IInit s) : IInv s where
  refs ip := by rw [h.1, h.2.2.2]; rfl
  unique a b ha := by rw [h.1] at ha; cases ha
  lockHeld ip g hl := by rw [h.2.1] at hl; cases hl
  stage g := by rw [h.2.2.1]; trivial
  coherent ip ha := by rw [h.1] at ha; cases ha

/-! ## sleeplock と持ち主の位置を書き換える遷移 -/

/-- ポインタを持つ持ち主が sleeplock を取っても、持ち主はポインタを持つ。 -/
theorem IInv.lockHeld_acquire (hs : IInv s) {g : H} {ip : InodeId} (hm : (g, ip) ∈ s.ptrs) :
    ∀ y h, update s.lock ip (some g) y = some h → (h, y) ∈ s.ptrs := by
  intro y h hly
  by_cases hy : y = ip
  · subst hy
    rw [update_self, Option.some.injEq] at hly
    rw [← hly]
    exact hm
  · rw [update_of_ne hy] at hly
    exact hs.lockHeld y h hly

theorem IInv.lockHeld_release (hs : IInv s) (ip : InodeId) :
    ∀ y h, update s.lock ip none y = some h → (h, y) ∈ s.ptrs := by
  intro y h hly
  by_cases hy : y = ip
  · subst hy
    rw [update_self] at hly
    cases hly
  · rw [update_of_ne hy] at hly
    exact hs.lockHeld y h hly

theorem update_ne_some {l : InodeId → Option H} {ip y : InodeId} {v : Option H} {h : H}
    (hv : v ≠ some h) (hy : l y ≠ some h) : update l ip v y ≠ some h := by
  by_cases e : y = ip
  · subst e
    rw [update_self]
    exact hv
  · rw [update_of_ne e]
    exact hy

/-- 誰も持たない sleeplock の入口を、解放の区間にいる持ち主は扱っていない。 -/
theorem IInv.holding_ne_of_free (hs : IInv s) {h : H} {ip y : InodeId} (hl : s.lock ip = none)
    (hy : (s.pc h).holding = some y) : y ≠ ip := fun e => by
  have := (hs.stage h).lock hy
  rw [e, hl] at this
  cases this

/-! ## 遷移ごとに不変条件が保たれること -/

/-- ref が正の入口 ip の ref を増やし、g のポインタを足す（iget の一致、idup）。 -/
theorem IInv.addRef (hs : IInv s) {g : H} {ip : InodeId} (hpos : 0 < (s.inode ip).ref) :
    IInv { s.setInode ip (fun x => { x with ref := x.ref + 1 }) with ptrs := (g, ip) :: s.ptrs } where
  refs x := by
    have hx := hs.refs x
    by_cases h : ip = x
    · subst h
      simp [ptrCount_cons, hx]
    · simp [update_of_ne (Ne.symm h), ptrCount_cons, h, hx]
  unique := hs.unique.update_ref fun _ => hpos
  lockHeld x h hl := List.mem_cons_of_mem _ (hs.lockHeld x h hl)
  stage h := (hs.stage h).congr (fun x _ => ⟨rfl, sameData_update_ref _ _ _ x⟩)
    fun _ _ hm hl => ⟨List.mem_cons_of_mem _ hm, hl⟩
  coherent := hs.coherent.of_pos rfl fun x hr _ hcl =>
    ⟨pos_of_update_ref (fun _ => hpos) hr, update_ref_apply _ _ _ x, hcl⟩

/-- どれとも一致しないとき、ref が 0 の入口 ip を (dev, inum) に使う（iget の後半）。 -/
theorem IInv.recycle (hs : IInv s) {g : H} {ip : InodeId} {dev inum : Nat}
    (hmiss : ∀ x, (s.inode x).matches dev inum = false) (h0 : (s.inode ip).ref = 0) :
    IInv { s with
      inode := update s.inode ip { s.inode ip with dev := dev, inum := inum, ref := 1, valid := false },
      ptrs := (g, ip) :: s.ptrs } where
  refs x := by
    have hx := hs.refs x
    by_cases h : ip = x
    · subst h
      simp [ptrCount_cons, ← hx, h0]
    · simp [update_of_ne (Ne.symm h), ptrCount_cons, h, hx]
  unique := hs.unique.recycle hmiss
  lockHeld x h hl := List.mem_cons_of_mem _ (hs.lockHeld x h hl)
  stage h := by
    -- 解放の区間の対象には ref があるので、使い直す入口ではない
    have hne : ∀ x, (s.pc h).target = some x → x ≠ ip := fun x ht e => by
      have := hs.target_ref_pos ht
      subst e
      omega
    refine (hs.stage h).congr (fun x hx => ?_) fun _ _ hm hl => ⟨List.mem_cons_of_mem _ hm, hl⟩
    refine ⟨rfl, ?_⟩
    simp only [update_of_ne (hne x (Pc.target_of_holding hx))]
    exact ⟨rfl, rfl, rfl⟩
  coherent := hs.coherent.of_pos rfl fun x hr hv hcl => by
    by_cases h : x = ip
    · subst h
      simp at hv
    · dsimp only at hr ⊢
      rw [update_of_ne h] at hr ⊢
      exact ⟨hr, rfl, hcl⟩

/-- 区間の外の g が、ほかが持たない sleeplock を取り、valid でなければディスクから読む。 -/
theorem IInv.ilock (hs : IInv s) {g : H} {ip : InodeId} {x : Inode} (hidle : s.pc g = .idle)
    (hm : (g, ip) ∈ s.ptrs) (hfree : s.lock ip = none)
    (hx : ilockRead (s.inode ip) (s.disk (s.inode ip).dev (s.inode ip).inum) = some x) :
    IInv { s with inode := update s.inode ip x, lock := update s.lock ip (some g) } := by
  have hkey : SameKey x (s.inode ip) := by
    rcases ilockRead_cases hx with ⟨-, rfl⟩ | ⟨-, -, rfl⟩ <;> exact ⟨rfl, rfl, rfl⟩
  refine ⟨fun y => (ref_update_sameKey hkey y).trans (hs.refs y), hs.unique.update_sameKey hkey,
    hs.lockHeld_acquire hm, fun h => ?_, ?_⟩
  · refine (hs.stage h).congr (fun y hy => ?_) fun y hpc hmy hly => ⟨hmy, update_ne_some ?_ hly⟩
    · -- 区間にいる持ち主は ip の sleeplock を持たないので、その入口は変わらない
      have hne := hs.holding_ne_of_free hfree hy
      dsimp only
      rw [update_of_ne hne, update_of_ne hne]
      exact ⟨rfl, rfl, rfl, rfl⟩
    · rintro ⟨⟩
      rw [hidle] at hpc
      cases hpc
  · intro y hr hv hcl
    dsimp only at hr hv hcl ⊢
    by_cases hy : y = ip
    · subst hy
      rw [update_self] at hr hv ⊢
      rcases ilockRead_cases hx with ⟨-, rfl⟩ | ⟨-, ht, rfl⟩
      · exact hs.coherent y hr hv hcl
      · exact ⟨rfl, ht⟩
    · rw [update_of_ne hy] at hr hv ⊢
      exact hs.coherent y hr hv hcl

/-- 区間の外の g が、持っている sleeplock を放す。 -/
theorem IInv.iunlock (hs : IInv s) {g : H} {ip : InodeId} (hidle : s.pc g = .idle) (hl : s.lock ip = some g) :
    IInv { s with lock := update s.lock ip none } where
  refs := hs.refs
  unique := hs.unique
  lockHeld := hs.lockHeld_release ip
  stage h := by
    refine (hs.stage h).congr (fun y hy => ⟨?_, rfl, rfl, rfl⟩) fun y _ hmy hly => ⟨hmy, update_ne_some nofun hly⟩
    have hne : y ≠ ip := fun e => hs.not_holding hl hidle (e ▸ hy)
    dsimp only
    rw [update_of_ne hne]
  coherent := hs.coherent

/-- 区間の外の g が、持っている sleeplock のもとで nlink を書き、iupdate する。 -/
theorem IInv.write (hs : IInv s) {g : H} {ip : InodeId} {n : Int} (hidle : s.pc g = .idle)
    (hl : s.lock ip = some g) (hv : (s.inode ip).valid = true) :
    IInv { s with
      inode := update s.inode ip { s.inode ip with nlink := n },
      disk := iupdate s.disk { s.inode ip with nlink := n } } := by
  have hkey : SameKey { s.inode ip with nlink := n } (s.inode ip) := ⟨rfl, rfl, rfl⟩
  have hpos : 0 < (s.inode ip).ref := hs.ref_pos (hs.lockHeld ip g hl)
  refine ⟨fun y => ?_, hs.unique.update_sameKey hkey, hs.lockHeld, fun h => ?_, ?_⟩
  · rw [← hs.refs y]
    exact ref_update_sameKey hkey y
  · refine (hs.stage h).congr (fun y hy => ⟨rfl, ?_⟩) fun y _ hmy hly => ⟨hmy, hly⟩
    have hne : y ≠ ip := fun e => hs.not_holding hl hidle (e ▸ hy)
    dsimp only
    rw [update_of_ne hne]
    exact ⟨rfl, rfl, rfl⟩
  · intro y hr hv' hcl
    dsimp only at hr hv' hcl ⊢
    by_cases hy : y = ip
    · subst hy
      rw [update_self] at hr ⊢
      exact ⟨iupdate_self _ _, (hs.coherent y hpos hv hcl).2⟩
    · rw [update_of_ne hy] at hr hv' ⊢
      rw [iupdate_of_ne _ _ ?_]
      · exact hs.coherent y hr hv' hcl
      · exact hs.unique.key_ne hr hpos hy

/-- 解放の区間の持ち主 g は ip の sleeplock を持つので、ほかの持ち主の区間は ip を扱わない。 -/
theorem IInv.holding_ne (hs : IInv s) {g h : H} {ip y : InodeId} (hl : s.lock ip = some g) (hg : h ≠ g)
    (hy : (s.pc h).holding = some y) : y ≠ ip := fun e => by
  have := (hs.stage h).lock hy
  rw [e, hl, Option.some.injEq] at this
  exact hg this.symm

/-- ialloc は、type が 0 のディスクの inode を新しい型で埋める。ref が正で valid な入口の
ディスクの inode は type が 0 でないので、触れない。 -/
theorem IInv.ialloc (hs : IInv s) {dev inum : Nat} {type : Int} {d : Nat → Nat → DInode}
    (h : Itable.ialloc s.disk s.ninodes dev type = some (inum, d)) : IInv { s with disk := d } := by
  obtain ⟨h0, rfl⟩ := ialloc_spec h
  refine ⟨hs.refs, hs.unique, hs.lockHeld, hs.stage, fun y hr hv hcl => ?_⟩
  obtain ⟨hd, ht⟩ := hs.coherent y hr hv hcl
  refine ⟨?_, ht⟩
  dsimp only
  rw [if_neg]
  · exact hd
  · rintro ⟨hdev, hinum⟩
    rw [← hdev, ← hinum, hd] at h0
    exact ht h0

variable [DecidableEq H]

/-- 持ち主 g の位置だけを p に変える遷移では、g の条件とほかの持ち主の条件を分けて示す。 -/
theorem stage_update {s' : IState H} {g : H} {p : Pc} (hpc : s'.pc = update s.pc g p)
    (hself : StageOK s' g p) (hother : ∀ h, h ≠ g → StageOK s' h (s.pc h)) (h : H) : StageOK s' h (s'.pc h) := by
  rw [hpc]
  by_cases hg : h = g
  · subst hg
    rw [update_self]
    exact hself
  · rw [update_of_ne hg]
    exact hother h hg

/-- 持ち主 g が入口 ip へのポインタを手放し ref を減らす（iput の速い道、解放の区間の最後）。
g は sleeplock を持たず、区間の外か最後の文にいる。 -/
theorem IInv.dropRef (hs : IInv s) {g : H} {ip : InodeId} (hm : (g, ip) ∈ s.ptrs) (hl : s.lock ip ≠ some g)
    (hpc : s.pc g = .idle ∨ s.pc g = .put ip) :
    IInv { s.setInode ip (fun x => { x with ref := x.ref - 1 }) with
      pc := update s.pc g .idle, ptrs := s.ptrs.erase (g, ip) } where
  refs x := by
    have he := ptrCount_erase hm x
    have hx := hs.refs x
    by_cases h : ip = x
    · subst h
      rw [if_pos rfl] at he
      simp only [IState.setInode_inode, update_self]
      omega
    · rw [if_neg h] at he
      simp only [IState.setInode_inode, update_of_ne (Ne.symm h)]
      omega
  unique := hs.unique.update_ref fun h => by omega
  lockHeld x h hlx := by
    have hne : (h, x) ≠ (g, ip) := by
      rintro ⟨⟩
      exact hl hlx
    exact (List.mem_erase_of_ne hne).mpr (hs.lockHeld x h hlx)
  stage := stage_update rfl trivial fun h hg => by
    have hne : ∀ x, (h, x) ≠ (g, ip) := fun x e => hg (Prod.mk.inj e).1
    exact (hs.stage h).congr (fun x _ => ⟨rfl, sameData_update_ref _ _ _ x⟩)
      fun x _ hm hl => ⟨(List.mem_erase_of_ne (hne x)).mpr hm, hl⟩
  coherent := by
    have hp : ∀ x, ¬ (s.pc g).typeCleared x := by
      intro x
      rcases hpc with hpc | hpc <;> simp [hpc, Pc.typeCleared]
    exact hs.coherent.of_pos rfl fun x hr _ hcl =>
      ⟨pos_of_update_ref (fun h => by omega) hr, update_ref_apply _ _ _ x, not_typeCleared_of_update (hp x) hcl⟩

/-- ポインタを g から g' へ渡す。 -/
theorem IInv.pass (hs : IInv s) {g g' : H} {ip : InodeId} (hidle : s.pc g = .idle) (hm : (g, ip) ∈ s.ptrs)
    (hl : s.lock ip ≠ some g) : IInv { s with ptrs := (g', ip) :: s.ptrs.erase (g, ip) } where
  refs x := by
    have he := ptrCount_erase hm x
    rw [hs.refs x, ptrCount_cons]
    omega
  unique := hs.unique
  lockHeld x h hlx := by
    have hne : (h, x) ≠ (g, ip) := by
      rintro ⟨⟩
      exact hl hlx
    exact List.mem_cons_of_mem _ ((List.mem_erase_of_ne hne).mpr (hs.lockHeld x h hlx))
  stage h := (hs.stage h).congr (fun _ _ => ⟨rfl, rfl, rfl, rfl⟩) fun x hpc hm hlx => by
    have hne : (h, x) ≠ (g, ip) := by
      rintro ⟨⟩
      rw [hidle] at hpc
      cases hpc
    exact ⟨List.mem_cons_of_mem _ ((List.mem_erase_of_ne hne).mpr hm), hlx⟩
  coherent := hs.coherent

/-- iput が解放の区間に入る: sleeplock を取り、持ち主は trunc の前へ。 -/
theorem IInv.iputFree (hs : IInv s) {g : H} {ip : InodeId} (hidle : s.pc g = .idle) (hm : (g, ip) ∈ s.ptrs)
    (hfree : (s.inode ip).freeOnPut = true) (hl : s.lock ip = none) :
    IInv { s with lock := update s.lock ip (some g), pc := update s.pc g (.trunc ip) } := by
  obtain ⟨-, hv, hn⟩ := Inode.freeOnPut_iff.mp hfree
  refine ⟨hs.refs, hs.unique, hs.lockHeld_acquire hm, stage_update rfl ⟨update_self _ _ _, hv, hn⟩ ?_, ?_⟩
  · intro h hg
    refine (hs.stage h).congr (fun y hy => ⟨?_, rfl, rfl, rfl⟩) fun y _ hmy hly =>
      ⟨hmy, update_ne_some (fun e => hg (Option.some.inj e).symm) hly⟩
    dsimp only
    rw [update_of_ne (hs.holding_ne_of_free hl hy)]
  · refine hs.coherent.of_pos rfl fun x _ _ hcl => ⟨by assumption, rfl, ?_⟩
    exact not_typeCleared_of_update (by simp [hidle, Pc.typeCleared]) hcl

/-! ## 解放の区間の各文 -/

/-- `itrunc(ip); ip->type = 0;` -/
theorem IInv.contTrunc (hs : IInv s) {g : H} {ip : InodeId} (hpc : s.pc g = .trunc ip) :
    IInv { s.setInode ip (fun x => { x with type := 0 }) with pc := update s.pc g (.update ip) } := by
  have hst : StageOK s g (.trunc ip) := hpc ▸ hs.stage g
  have hkey : SameKey { s.inode ip with type := 0 } (s.inode ip) := ⟨rfl, rfl, rfl⟩
  refine ⟨fun y => (ref_update_sameKey hkey y).trans (hs.refs y), hs.unique.update_sameKey hkey, hs.lockHeld,
    ?_, ?_⟩
  · refine stage_update rfl ?_ fun h hg => ?_
    · refine ⟨hst.1, ?_, ?_, ?_⟩ <;> simp only [IState.setInode_inode, update_self, hst.2.1, hst.2.2]
    · refine (hs.stage h).congr (fun y hy => ⟨rfl, ?_⟩) fun y _ hmy hly => ⟨hmy, hly⟩
      simp only [IState.setInode_inode, update_of_ne (hs.holding_ne hst.1 hg hy)]
      exact ⟨rfl, rfl, rfl⟩
  · refine hs.coherent.of_pos rfl fun y hr _ hcl => ?_
    have hy : y ≠ ip := by
      rintro rfl
      refine hcl g ?_
      simp [Pc.typeCleared]
    refine ⟨?_, ?_, not_typeCleared_of_update (by simp [hpc, Pc.typeCleared]) hcl⟩
    · simpa only [IState.setInode_inode, update_of_ne hy] using hr
    · simp only [IState.setInode_inode, update_of_ne hy]

/-- `iupdate(ip);`: type が 0 の inode をディスクへ書く。 -/
theorem IInv.contUpdate (hs : IInv s) {g : H} {ip : InodeId} (hpc : s.pc g = .update ip) :
    IInv { s with disk := iupdate s.disk (s.inode ip), pc := update s.pc g (.invalid ip) } := by
  have hst : StageOK s g (.update ip) := hpc ▸ hs.stage g
  have hpos : 0 < (s.inode ip).ref := hs.ref_pos (hs.lockHeld ip g hst.1)
  refine ⟨hs.refs, hs.unique, hs.lockHeld,
    stage_update rfl hst fun h _ => (hs.stage h).congr (fun _ _ => ⟨rfl, rfl, rfl, rfl⟩) fun _ _ hmy hly => ⟨hmy, hly⟩,
    ?_⟩
  · intro y hr hv hcl
    have hy : y ≠ ip := by
      rintro rfl
      refine hcl g ?_
      simp [Pc.typeCleared]
    dsimp only at hr hv hcl ⊢
    rw [iupdate_of_ne _ _ (hs.unique.key_ne hr hpos hy)]
    exact hs.coherent y hr hv (not_typeCleared_of_update (by simp [hpc, Pc.typeCleared, Ne.symm hy]) hcl)

/-- `ip->valid = 0;` -/
theorem IInv.contInvalid (hs : IInv s) {g : H} {ip : InodeId} (hpc : s.pc g = .invalid ip) :
    IInv { s.setInode ip (fun x => { x with valid := false }) with pc := update s.pc g (.unlock ip) } := by
  have hst : StageOK s g (.invalid ip) := hpc ▸ hs.stage g
  have hkey : SameKey { s.inode ip with valid := false } (s.inode ip) := ⟨rfl, rfl, rfl⟩
  refine ⟨fun y => (ref_update_sameKey hkey y).trans (hs.refs y), hs.unique.update_sameKey hkey, hs.lockHeld,
    stage_update rfl ⟨hst.1, by simp only [IState.setInode_inode, update_self]⟩ fun h hg => ?_, ?_⟩
  · refine (hs.stage h).congr (fun y hy => ⟨rfl, ?_⟩) fun y _ hmy hly => ⟨hmy, hly⟩
    simp only [IState.setInode_inode, update_of_ne (hs.holding_ne hst.1 hg hy)]
    exact ⟨rfl, rfl, rfl⟩
  · refine hs.coherent.of_pos rfl fun y hr hv hcl => ?_
    have hy : y ≠ ip := by
      rintro rfl
      simp at hv
    refine ⟨?_, ?_, not_typeCleared_of_update (by simp [hpc, Pc.typeCleared, Ne.symm hy]) hcl⟩
    · simpa only [IState.setInode_inode, update_of_ne hy] using hr
    · simp only [IState.setInode_inode, update_of_ne hy]

/-- `releasesleep(&ip->lock);` -/
theorem IInv.contUnlock (hs : IInv s) {g : H} {ip : InodeId} (hpc : s.pc g = .unlock ip) :
    IInv { s with lock := update s.lock ip none, pc := update s.pc g (.put ip) } := by
  have hst : StageOK s g (.unlock ip) := hpc ▸ hs.stage g
  have hself : StageOK { s with lock := update s.lock ip none, pc := update s.pc g (.put ip) } g (.put ip) :=
    ⟨hs.lockHeld ip g hst.1, by
      show update s.lock ip none ip ≠ some g
      rw [update_self]
      exact nofun⟩
  refine ⟨hs.refs, hs.unique, hs.lockHeld_release ip, stage_update rfl hself fun h hg => ?_, ?_⟩
  · refine (hs.stage h).congr (fun y hy => ⟨?_, rfl, rfl, rfl⟩) fun y _ hmy hly => ⟨hmy, update_ne_some nofun hly⟩
    show update s.lock ip none y = s.lock y
    rw [update_of_ne (hs.holding_ne hst.1 hg hy)]
  · exact hs.coherent.of_pos rfl fun y hr _ hcl =>
      ⟨hr, rfl, not_typeCleared_of_update (by simp [hpc, Pc.typeCleared]) hcl⟩

/-! ## 到達できる状態 -/

/-- 一つの遷移は不変条件を保つ。 -/
theorem IInv.step (hs : IInv s) {op : IOp H} {s' : IState H} (h : op.step s = some s') : IInv s' := by
  cases op with
  | iget g dev inum =>
    simp only [IOp.step] at h
    split at h
    · rename_i ip t hget
      cases h
      rcases iget_cases hget with ⟨hm, rfl⟩ | ⟨hmiss, h0, rfl⟩
      · exact hs.addRef (Inode.matches_iff.mp hm).1
      · exact hs.recycle hmiss h0
    · cases h
  | idup g ip =>
    simp only [IOp.step] at h
    split_ifs at h with hc
    cases h
    exact hs.addRef (hs.ref_pos hc.2)
  | pass g g' ip =>
    simp only [IOp.step] at h
    split_ifs at h with hc
    cases h
    exact hs.pass hc.1 hc.2.1 hc.2.2
  | ilock g ip =>
    simp only [IOp.step] at h
    split_ifs at h with hc
    split at h
    · rename_i x hx
      cases h
      exact hs.ilock hc.1 hc.2.1 hc.2.2.2 hx
    · cases h
  | iunlock g ip =>
    simp only [IOp.step] at h
    split_ifs at h with hc
    cases h
    exact hs.iunlock hc.1 hc.2.1
  | write g ip n =>
    simp only [IOp.step] at h
    split_ifs at h with hc
    cases h
    exact hs.write hc.1 hc.2.1 hc.2.2
  | iput g ip =>
    simp only [IOp.step] at h
    split_ifs at h with hc hf hl
    · cases h
      exact hs.iputFree hc.1 hc.2.1 hf hl
    · cases h
      have key := hs.dropRef hc.2.1 hc.2.2 (.inl hc.1)
      rw [← hc.1, update_eq_self] at key
      exact key
  | cont g =>
    simp only [IOp.step] at h
    split at h
    · cases h
    all_goals
      rename_i ip hpc
      cases h
    · exact hs.contTrunc hpc
    · exact hs.contUpdate hpc
    · exact hs.contInvalid hpc
    · exact hs.contUnlock hpc
    · have hst : StageOK s g (.put ip) := hpc ▸ hs.stage g
      exact hs.dropRef hst.1 hst.2 (.inr hpc)
  | ialloc dev type =>
    simp only [IOp.step] at h
    split_ifs at h with ht
    split at h
    · rename_i inum d hd
      cases h
      exact hs.ialloc hd
    · cases h
      exact hs

/-- 到達できるどの状態でも不変条件が成り立つ。 -/
theorem ireach_iinv {s : IState H} (h : IReach s) : IInv s :=
  Reachable.inv (I := IInv) (fun _ h0 => IInv.init h0) (fun _ _ hs (hst : IStep _ _) => by
    obtain ⟨_, hop⟩ := hst
    exact hs.step hop) h

end Xv6.Itable
