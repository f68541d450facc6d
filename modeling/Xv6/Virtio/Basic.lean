import Mathlib.Algebra.GroupWithZero.Nat
import Mathlib.Data.Fintype.Card
import Xv6.Lib.Table
import Xv6.Lib.Ring
import Xv6.Lib.Reach

/-!
# virtio ディスクの記述子と環（`kernel/virtio_disk.c`）

ドライバの状態 `struct disk`（記述子の表、avail と used の環、`free[NUM]`、`used_idx`、
`info[NUM]`）と、各 `struct buf` の `disk` の欄を写す。ドライバの関数はどれも `vdisk_lock` を
持って走るので、眠るところで区切った一続きを一つの遷移とする: `virtio_disk_rw` は
`alloc3_desc` の一回の試み（取れれば記述子を書いて avail 環に出す）と、`b->disk` が 0 になって
起きた後の `free_chain` の二つ、`virtio_disk_intr` は used 環を読み切るまで。

装置は環境であり、avail 環から鎖の頭を読む遷移と、読んだ鎖のどれか一つを終える遷移
（status に 0 を書き、used 環に頭を置く）を持つ。順は問わず、読んだ鎖はちょうど一度返す。
記述子の `addr` と `len`、`ops[]` の中身、MMIO のレジスタは装置だけが読むので持たない。

外の `none` は panic（または表の外を読む未定義の動作）。
-/

namespace Xv6.Virtio

open Function Xv6.Lib

abbrev NUM : Nat := 8

instance : NeZero NUM := ⟨by decide⟩

abbrev VRING_DESC_F_NEXT : UInt16 := 1

abbrev VRING_DESC_F_WRITE : UInt16 := 2

/-- `struct virtq_desc` の、ドライバが読む欄。 -/
structure Desc where
  flags : UInt16
  next : UInt16
  deriving DecidableEq, Repr

/-- `struct virtq_avail`: ドライバが装置に渡す鎖の頭。 -/
structure Avail where
  idx : UInt16
  ring : Fin NUM → UInt16

/-- `struct virtq_used`: 装置が終えた鎖の頭（`virtq_used_elem` の `id`）。 -/
structure Used where
  idx : UInt16
  ring : Fin NUM → UInt32

/-- `disk.info[i]`。 -/
structure Info (β : Type) where
  b : Option β
  status : UInt8

/-- `struct disk` と、buf β の `disk` の欄（`bufDisk`）。 -/
structure Disk (β : Type) where
  desc : Fin NUM → Desc
  avail : Avail
  used : Used
  free : Fin NUM → Bool
  usedIdx : UInt16
  info : Fin NUM → Info β
  bufDisk : β → Bool

variable {β : Type}

/-! ## 記述子 -/

/-- `alloc_desc()`: 空きの記述子のうち番号の最も小さいもの。なければ -1（`none`）。 -/
def allocDesc (d : Disk β) : Option (Fin NUM × Disk β) :=
  match firstIdx d.free with
  | none => none
  | some i => some (i, { d with free := update d.free i false })

/-- `free_desc(i)`: `i >= NUM` と、空きの記述子の解放は panic。`wakeup(&disk.free[0])` は、
眠っている `virtio_disk_rw` がいつでも試し直せることで写す。 -/
def freeDesc (d : Disk β) (i : Nat) : Option (Disk β) :=
  if h : i < NUM then
    if d.free ⟨i, h⟩ then none
    else some { d with desc := update d.desc ⟨i, h⟩ ⟨0, 0⟩, free := update d.free ⟨i, h⟩ true }
  else none

/-- 使用中の記述子の数。 -/
def busyCount (d : Disk β) : Nat := (Finset.univ.filter fun j => d.free j = false).card

theorem busyCount_freeDesc {d d' : Disk β} {i : Nat} (h : freeDesc d i = some d') :
    busyCount d' < busyCount d := by
  unfold freeDesc at h
  split at h
  · rename_i hi
    split at h
    · cases h
    · rename_i hf
      cases h
      apply Finset.card_lt_card
      -- 解放した記述子だけが使用中の集合から抜ける
      refine Finset.ssubset_iff_of_subset ?_ |>.mpr ⟨⟨_, hi⟩, ?_, ?_⟩
      · intro j hj
        simp only [Finset.mem_filter, Finset.mem_univ, true_and] at hj ⊢
        by_cases e : j = ⟨_, hi⟩
        · rw [e, update_self] at hj
          cases hj
        · rwa [update_of_ne e] at hj
      · simpa using hf
      · simp
  · cases h

/-- `free_chain(i)`: `flags` と `next` を読んでから `free_desc(i)` し、`VRING_DESC_F_NEXT` が
立っていれば次へ。解放するたびに使用中の記述子が減るので止まる。 -/
def freeChain (d : Disk β) (i : Nat) : Option (Disk β) :=
  let e := d.desc (Fin.ofNat NUM i)
  match h : freeDesc d i with
  | none => none
  | some d' =>
    if e.flags &&& VRING_DESC_F_NEXT ≠ 0 then
      have : busyCount d' < busyCount d := busyCount_freeDesc h
      freeChain d' e.next.toNat
    else some d'
termination_by busyCount d

/-- `alloc3_desc` の for ループ。`idx` はもう取った記述子、k は残りの数。取れなければ取った
記述子を順に `free_desc` して -1（内の `none`）。 -/
def alloc3Loop (d : Disk β) (idx : List (Fin NUM)) : Nat → Option (Option (List (Fin NUM)) × Disk β)
  | 0 => some (some idx, d)
  | k + 1 =>
    match allocDesc d with
    | none => (idx.foldlM (fun d j => freeDesc d j.val) d).map fun d => (none, d)
    | some (i, d) => alloc3Loop d (idx ++ [i]) k

/-- `alloc3_desc(idx)`。 -/
def alloc3Desc (d : Disk β) : Option (Option (List (Fin NUM)) × Disk β) := alloc3Loop d [] 3

/-! ## 要求と割り込み -/

section Request

variable [DecidableEq β]

/-- `virtio_disk_rw` の、三つの記述子を書いて avail 環に鎖の頭を出すところ（`b->disk = 1` まで）。
`idx` は `alloc3_desc` が取った三つ。 -/
def submit (d : Disk β) (b : β) (write : Bool) : List (Fin NUM) → Option (Disk β)
  | [i0, i1, i2] => some { d with
      desc := update (update (update d.desc
        i0 ⟨VRING_DESC_F_NEXT, i1.val.toUInt16⟩)
        i1 ⟨(if write then 0 else VRING_DESC_F_WRITE) ||| VRING_DESC_F_NEXT, i2.val.toUInt16⟩)
        i2 ⟨VRING_DESC_F_WRITE, 0⟩
      -- status = 0xff、次に info[idx[0]].b = b
      info := update d.info i0 ⟨some b, 0xff⟩
      bufDisk := update d.bufDisk b true
      -- avail->ring[avail->idx % NUM] = idx[0]、avail->idx += 1（% NUM しない）
      avail := ⟨d.avail.idx + 1, update d.avail.ring (Fin.ofNat NUM d.avail.idx.toNat) i0.val.toUInt16⟩ }
  | _ => none

/-- `virtio_disk_rw(b, write)` の while ループの一回: `alloc3_desc` が成功すれば要求を出して
`some idx`（この後 `b->disk == 1` のあいだ `sleep(b)`）、失敗すれば `none`
（`sleep(&disk.free[0])`）。 -/
def rwAttempt (d : Disk β) (b : β) (write : Bool) : Option (Option (List (Fin NUM)) × Disk β) := do
  let (r, d) ← alloc3Desc d
  match r with
  | none => some (none, d)
  | some idx =>
    let d ← submit d b write idx
    some (some idx, d)

/-- `b->disk` が 0 になって起きた後の `info[idx[0]].b = 0` と `free_chain(idx[0])`。 -/
def rwFinish (d : Disk β) : List (Fin NUM) → Option (Disk β)
  | i0 :: _ => freeChain { d with info := update d.info i0 { d.info i0 with b := none } } i0.val
  | [] => none

/-- `virtio_disk_intr` のループの本体: used 環の `used_idx % NUM` の枠の鎖を終える。 -/
def intrEntry (d : Disk β) : Option (Disk β) :=
  let id := (d.used.ring (Fin.ofNat NUM d.usedIdx.toNat)).toNat
  if h : id < NUM then
    if (d.info ⟨id, h⟩).status ≠ 0 then none
    else match (d.info ⟨id, h⟩).b with
      | none => none
      | some b => some { d with bufDisk := update d.bufDisk b false, usedIdx := d.usedIdx + 1 }
  else none

/-- `while(disk.used_idx != disk.used->idx)`。k は回ってよい数。 -/
def intrLoop : Nat → Disk β → Option (Disk β)
  | 0, d => some d
  | k + 1, d => if d.usedIdx = d.used.idx then some d else (intrEntry d).bind (intrLoop k)

/-- `virtio_disk_intr()`。本体は `used_idx` を一つずつ進めるので、ループは二つの添字の差の
回数で止まる。 -/
def virtioDiskIntr (d : Disk β) : Option (Disk β) := intrLoop (d.used.idx - d.usedIdx).toNat d

end Request

/-! ## 装置 -/

/-- 装置が鎖 h を終える: `info[h].status` に 0 を書き、used 環に h を置いて `used->idx` を進める。 -/
def deviceComplete (d : Disk β) (h : UInt16) : Disk β :=
  { d with
    info := update d.info (Fin.ofNat NUM h.toNat) { d.info (Fin.ofNat NUM h.toNat) with status := 0 }
    used := ⟨d.used.idx + 1, update d.used.ring (Fin.ofNat NUM d.used.idx.toNat) h.toUInt32⟩ }

/-! ## 系 -/

/-- buf β で `virtio_disk_rw` を呼んだプロセスのいる所。 -/
inductive Caller where
  | idle
  /-- `alloc3_desc` が失敗して `&disk.free[0]` で眠っている -/
  | waiting (write : Bool)
  /-- 記述子 idx の要求を出した後 -/
  | submitted (idx : List (Fin NUM))
  deriving DecidableEq, Repr

/-- 一回の試みの後の呼び出し元。 -/
def afterAttempt (write : Bool) : Option (List (Fin NUM)) → Caller
  | none => .waiting write
  | some idx => .submitted idx

/-- ドライバ、呼び出し元、装置。`seen` は装置が読んだ avail 環の位置、`pending` は装置が読んで
まだ返していない鎖の頭。 -/
structure VSys (β : Type) where
  disk : Disk β
  caller : β → Caller
  seen : UInt16
  pending : List UInt16

/-- `virtio_disk_init` の後: 記述子はすべて空きで、環と `info` は 0。 -/
def Disk.init : Disk β :=
  ⟨fun _ => ⟨0, 0⟩, ⟨0, fun _ => 0⟩, ⟨0, fun _ => 0⟩, fun _ => true, 0, fun _ => ⟨none, 0⟩,
    fun _ => false⟩

def VSys.init : VSys β := ⟨Disk.init, fun _ => .idle, 0, []⟩

variable [DecidableEq β]

inductive VStep : VSys β → VSys β → Prop
  /-- 呼び出し（`idle`）または起きた後の試し直し（`waiting`） -/
  | attempt {s : VSys β} {b : β} {w : Bool} {r : Option (List (Fin NUM))} {d' : Disk β}
      (hc : s.caller b = .idle ∨ s.caller b = .waiting w) (h : rwAttempt s.disk b w = some (r, d')) :
      VStep s { s with disk := d', caller := update s.caller b (afterAttempt w r) }
  | finish {s : VSys β} {b : β} {idx : List (Fin NUM)} {d' : Disk β}
      (hc : s.caller b = .submitted idx) (hb : s.disk.bufDisk b = false)
      (h : rwFinish s.disk idx = some d') :
      VStep s { s with disk := d', caller := update s.caller b .idle }
  | intr {s : VSys β} {d' : Disk β} (h : virtioDiskIntr s.disk = some d') :
      VStep s { s with disk := d' }
  /-- 装置が avail 環の次の項目を読む -/
  | fetch {s : VSys β} (h : s.seen ≠ s.disk.avail.idx) :
      VStep s { s with
        seen := s.seen + 1
        pending := s.pending ++ [s.disk.avail.ring (Fin.ofNat NUM s.seen.toNat)] }
  /-- 装置が読んだ鎖のどれかを終える -/
  | complete {s : VSys β} {h : UInt16} (hp : h ∈ s.pending) :
      VStep s { s with disk := deviceComplete s.disk h, pending := s.pending.erase h }

def VReach : VSys β → Prop := Reachable (· = VSys.init) VStep

end Xv6.Virtio
