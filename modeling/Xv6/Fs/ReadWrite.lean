import Xv6.Fs.Content
import Xv6.Fs.Ownership

/-!
# readi と writei はバイトの列を読み書きする

持ち主の性質 `BlocksOwned` が成り立ち、inode の大きさより下のバイトがどれもブロックにあれば
（`DInode.Mapped`）、`writei(ip, src, off, n)` は src からのバイトを off から順に書く。書けた
バイト数 r が n より少ないのは、空きのブロックがなくなったときだけで、大きさは `max(size, off + r)`
になる（`writei_spec`）。ループの不変条件 `WriteInv` は、書いた分のバイトが src のもので、残りが元の
中身であることで、一回ごとの `bmap` はファイルの中身を変えず（`WriteInv.bmap`）、ブロックへの
書き込みは `[off + tot, off + tot + m)` だけを変える（`WriteInv.write`）。

`readi(ip, dst, off, n)` は、`off + n` が 32 ビットで溢れなければ、`min(n, size - off)` バイトの
ファイルの中身を返し、状態を変えない（`readi_spec`）。
-/

namespace Xv6.Fs

open Xv6.Lib Function

/-- 呼び出し元の記憶の src から k バイト目。 -/
def srcByte (mem : Nat → Option UInt8) (src k : Nat) : UInt8 := (mem (src + k)).getD 0

theorem copyin_eq_some {mem : Nat → Option UInt8} {src : Nat} :
    ∀ {m : Nat}, (∀ k < m, mem (src + k) ≠ none) →
      copyin mem src m = some ((List.range m).map (srcByte mem src))
  | 0, _ => rfl
  | m + 1, h => by
    have ih := copyin_eq_some (m := m) fun k hk => h k (by omega)
    obtain ⟨b, hb⟩ := Option.ne_none_iff_exists'.mp (h m (by omega))
    unfold copyin at ih ⊢
    rw [List.range_succ, List.mapM_append, ih, List.map_append]
    simp [hb, srcByte]

/-- 写せたなら、どのバイトも読めた。 -/
theorem copyin_present {mem : Nat → Option UInt8} {src : Nat} :
    ∀ {m : Nat} {bs : List UInt8}, copyin mem src m = some bs → ∀ k < m, mem (src + k) ≠ none
  | 0, _, _, k, hk => absurd hk (Nat.not_lt_zero _)
  | m + 1, bs, h, k, hk => by
    unfold copyin at h
    rw [List.range_succ, List.mapM_append] at h
    simp only [Option.bind_eq_bind] at h
    obtain ⟨a, ha, h⟩ := Option.bind_eq_some_iff.mp h
    obtain ⟨b, hb, -⟩ := Option.bind_eq_some_iff.mp h
    rcases Nat.lt_succ_iff_lt_or_eq.mp hk with hk | rfl
    · exact copyin_present ha k hk
    · intro hn
      simp [hn] at hb

theorem copyin_some {mem : Nat → Option UInt8} {src m : Nat} {bs : List UInt8} (h : copyin mem src m = some bs) :
    bs = (List.range m).map (srcByte mem src) := by
  rw [copyin_eq_some (copyin_present h)] at h
  exact (Option.some.inj h).symm

theorem putBytes_map_range (start m : Nat) (g : Nat → UInt8) (bytes : Nat → UInt8) (j : Nat) :
    putBytes start ((List.range m).map g) bytes j = if start ≤ j ∧ j < start + m then g (j - start) else bytes j := by
  unfold putBytes
  rw [List.length_map, List.length_range]
  split_ifs with h
  · rw [List.getD_eq_getElem?_getD, List.getElem?_map, List.getElem?_range (by omega)]
    rfl
  · rfl

/-- 位置 i がブロックの中で `start` から m バイトの範囲にあることは、ファイルの中の範囲で言える。 -/
theorem mem_block_iff {p m i : Nat} (hm : p % BSIZE + m ≤ BSIZE) :
    (i / BSIZE = p / BSIZE ∧ p % BSIZE ≤ i % BSIZE ∧ i % BSIZE < p % BSIZE + m) ↔ (p ≤ i ∧ i < p + m) := by
  rw [show BSIZE = 1024 from rfl] at *
  omega

/-! ## writei -/

section Write

variable {sb : SuperBlock} {inum : Nat} {ip₀ : DInode} {data₀ : Nat → Nat → UInt8}
  {mem : Nat → Option UInt8} {src off n : Nat}

/-- writei のループの不変条件。tot バイトを書いた後のメモリ上の inode ip と状態 fs で、ファイルは
元の中身の `[off, off + tot)` を src からのバイトで置き換えたものであり、元の大きさと `off + tot` の
大きい方より下のバイトはどれもブロックにある。 -/
structure WriteInv (sb : SuperBlock) (inum : Nat) (ip₀ : DInode) (data₀ : Nat → Nat → UInt8)
    (mem : Nat → Option UInt8) (src off tot : Nat) (ip : DInode) (fs : FsState) : Prop where
  owned : BlocksOwned sb (fs.iupdate inum ip)
  inUse : InUse sb (fs.iupdate inum ip) inum
  size : ip.size = ip₀.size
  bytes : ∀ i, ip.byteAt fs.data i =
    if off ≤ i ∧ i < off + tot then srcByte mem src (i - off) else ip₀.byteAt data₀ i
  mapped : ∀ i < max ip₀.size (off + tot), ip.blockAt fs.data (i / BSIZE) ≠ 0

/-- ループの一回目の `bmap`: ファイルの中身は変わらず、0 を返すのは空きがないときだけで、空きは
高々二つ減る。 -/
theorem WriteInv.bmap {tot : Nat} {ip ip₁ : DInode} {fs fs₁ : FsState} {bn addr : Nat}
    (hI : WriteInv sb inum ip₀ data₀ mem src off tot ip fs) (hl : LayoutOK sb)
    (hb : Fs.bmap sb ip bn fs = some (addr, ip₁, fs₁)) :
    WriteInv sb inum ip₀ data₀ mem src off tot ip₁ fs₁ ∧ (addr = 0 → DiskFull sb fs₁) ∧
      (addr ≠ 0 → ip₁.blockAt fs₁.data bn = addr) ∧ freeCount sb fs ≤ freeCount sb fs₁ + 2 := by
  obtain ⟨hg, hsize, hfull, hblk, hcount⟩ := bmap_grows hI.owned hl hI.inUse hb
  obtain ⟨hown, htype, -, -, -⟩ := hI.owned.bmap hl hI.inUse hb
  refine ⟨⟨hown, hI.inUse.iupdate_self fs₁ htype, hsize.trans hI.size, ?_, fun i hi => ?_⟩, hfull, hblk, hcount⟩
  · rw [hg.byteAt]
    exact hI.bytes
  · rw [hg.blockAt (hI.mapped i hi)]
    exact hI.mapped i hi

/-- ファイルのブロックはメタデータでないので、そこへの書き込みは空きの数を変えない。 -/
theorem WriteInv.freeCount_writeBlock {tot bn addr : Nat} {ip : DInode} {fs : FsState}
    (hI : WriteInv sb inum ip₀ data₀ mem src off tot ip fs) (hblk : ip.blockAt fs.data bn = addr)
    (haddr : addr ≠ 0) (f : (Nat → UInt8) → Nat → UInt8) : freeCount sb (fs.writeBlock addr f) = freeCount sb fs := by
  subst hblk
  obtain ⟨s, hs⟩ := DInode.exists_blockSlot haddr
  rw [DInode.blockAt_of_blockSlot hs] at haddr ⊢
  have hmeta : ¬ sb.IsMeta (ip.slot fs.data s) := by
    simpa using hI.owned.ref_fixed inum s hI.inUse (by simpa using haddr)
  exact freeCount_congr fun y hy => FsState.used_writeBlock_of_not_meta _ _ hmeta hy

/-- ループの一回の書き込み: ブロックの `(off + tot) % BSIZE` から m バイトに src からのバイトを書くと、
ファイルの `[off + tot, off + tot + m)` が src のものになる。 -/
theorem WriteInv.write {tot m addr : Nat} {ip : DInode} {fs : FsState}
    (hI : WriteInv sb inum ip₀ data₀ mem src off tot ip fs) (hl : LayoutOK sb)
    (hblk : ip.blockAt fs.data ((off + tot) / BSIZE) = addr) (haddr : addr ≠ 0)
    (hm : (off + tot) % BSIZE + m ≤ BSIZE) :
    WriteInv sb inum ip₀ data₀ mem src off (tot + m) ip
      (fs.writeBlock addr (putBytes ((off + tot) % BSIZE) ((List.range m).map (srcByte mem (src + tot))))) := by
  subst hblk
  obtain ⟨s, hs⟩ := DInode.exists_blockSlot haddr
  obtain ⟨hblk', hbyte⟩ := byteAt_writeBlock hI.owned hI.inUse haddr
    (putBytes ((off + tot) % BSIZE) ((List.range m).map (srcByte mem (src + tot))))
  have hown : BlocksOwned sb ((fs.writeBlock (ip.blockAt fs.data ((off + tot) / BSIZE))
      (putBytes ((off + tot) % BSIZE) ((List.range m).map (srcByte mem (src + tot))))).iupdate inum ip) := by
    have hslot : (fs.iupdate inum ip).ref inum s = ip.blockAt fs.data ((off + tot) / BSIZE) := by
      rw [FsState.ref_iupdate_self, DInode.blockAt_of_blockSlot hs]
    have := hI.owned.writeData hl hI.inUse (blockSlot_ne_indirect hs) (hslot ▸ haddr)
      (putBytes ((off + tot) % BSIZE) ((List.range m).map (srcByte mem (src + tot))))
    rwa [hslot, ← FsState.writeBlock_iupdate] at this
  refine ⟨hown, hI.inUse.iupdate_self _ rfl, hI.size, fun i => ?_, fun i hi => ?_⟩
  · rw [hbyte i]
    by_cases hnew : off + tot ≤ i ∧ i < off + tot + m
    · -- 書いた範囲: ブロックの中の位置から src のバイトを読む
      obtain ⟨hbn, h₁, h₂⟩ := (mem_block_iff hm).mpr hnew
      rw [if_pos hbn, putBytes_map_range, if_pos ⟨h₁, h₂⟩, if_pos ⟨by omega, by omega⟩, srcByte, srcByte]
      congr 2
      rw [show BSIZE = 1024 from rfl] at hbn h₁ ⊢
      omega
    · -- 書いていない範囲: 元のバイトのまま
      have hold : ip.byteAt fs.data i =
          if off ≤ i ∧ i < off + (tot + m) then srcByte mem src (i - off) else ip₀.byteAt data₀ i := by
        rw [hI.bytes i]
        by_cases hi : off ≤ i ∧ i < off + tot
        · rw [if_pos hi, if_pos ⟨hi.1, by omega⟩]
        · rw [if_neg hi, if_neg (by omega)]
      rw [← hold]
      by_cases hbn : i / BSIZE = (off + tot) / BSIZE
      · rw [if_pos hbn, putBytes_map_range, if_neg fun h => hnew ((mem_block_iff hm).mp ⟨hbn, h⟩),
          ← hbn, DInode.byteAt_of_blockAt (hbn ▸ haddr)]
      · rw [if_neg hbn]
  · rw [hblk']
    by_cases hi' : i < max ip₀.size (off + tot)
    · exact hI.mapped i hi'
    · -- 新しく書いた範囲は、書いたブロックにある
      have hbn : i / BSIZE = (off + tot) / BSIZE := ((mem_block_iff hm).mpr ⟨by omega, by omega⟩).1
      rw [hbn]
      exact haddr

/-- 番号が `MAXFILE` より小さいブロックなら、`bmap` は panic しない。 -/
theorem bmap_ne_none {ip : DInode} {fs : FsState} {bn : Nat} (h : bn < MAXFILE) : Fs.bmap sb ip bn fs ≠ none := by
  have hlt : bn < NDIRECT ∨ bn - NDIRECT < NINDIRECT := by
    simp only [MAXFILE, NDIRECT, NINDIRECT, BSIZE] at h ⊢
    omega
  unfold Fs.bmap
  split_ifs with h₁ h₂
  all_goals first
    | exact absurd hlt (by omega)
    | ((repeat' split) <;> simp)

/-- writei のループは、燃料が残りのバイト数以上あれば終わり、書いたバイト数 tot' までで不変条件が
成り立つ。src の n バイトがどれも読めて tot' が n より少なければ、空きのブロックがなく、ループの前の
空きは、残りのバイトが掛かるブロックの数の二倍より多くなかった。帰納法は燃料についてで、各回は
`WriteInv.bmap` と `WriteInv.write` である。 -/
theorem writeiLoop_spec (hl : LayoutOK sb) (hmax : off + n ≤ MAXFILE * BSIZE) :
    ∀ (fuel tot : Nat) (ip : DInode) (fs : FsState), WriteInv sb inum ip₀ data₀ mem src off tot ip fs →
      tot ≤ n → n - tot ≤ fuel →
      ∃ tot' ip' fs', writeiLoop sb mem src n fuel tot (off + tot) ip fs = some (tot', off + tot', ip', fs') ∧
        tot ≤ tot' ∧ tot' ≤ n ∧ WriteInv sb inum ip₀ data₀ mem src off tot' ip' fs' ∧
        ((∀ k < n, mem (src + k) ≠ none) → tot' < n →
          DiskFull sb fs' ∧ freeCount sb fs ≤ 2 * ((off + n + BSIZE - 1) / BSIZE - (off + tot) / BSIZE)) := by
  intro fuel
  induction fuel with
  | zero =>
    intro tot ip fs hI htot hfuel
    exact ⟨tot, ip, fs, rfl, le_refl tot, htot, hI, fun _ h => absurd h (by omega)⟩
  | succ fuel ih =>
    intro tot ip fs hI htot hfuel
    unfold writeiLoop
    by_cases hlt : tot < n
    swap
    · rw [if_neg hlt]
      exact ⟨tot, ip, fs, rfl, le_refl tot, htot, hI, fun _ h => absurd h hlt⟩
    rw [if_pos hlt]
    have hbn : (off + tot) / BSIZE < MAXFILE := by
      simp only [MAXFILE, NDIRECT, NINDIRECT, BSIZE] at hmax ⊢
      omega
    -- まだ書くバイトがあるので、残りは少なくとも一つのブロックに掛かる
    have hleft : 1 ≤ (off + n + BSIZE - 1) / BSIZE - (off + tot) / BSIZE := by
      rw [show BSIZE = 1024 from rfl]
      omega
    obtain ⟨⟨addr, ip₁, fs₁⟩, hb⟩ := Option.ne_none_iff_exists'.mp (@bmap_ne_none sb ip fs _ hbn)
    rw [hb]
    obtain ⟨hI₁, hfull, hblk, hcount⟩ := hI.bmap hl hb
    dsimp only
    by_cases haddr : addr = 0
    · -- 割り当てに失敗すれば、そこで止まる
      rw [if_pos haddr]
      refine ⟨tot, ip₁, fs₁, rfl, le_refl tot, htot, hI₁, fun _ _ => ⟨hfull haddr, ?_⟩⟩
      rw [(hfull haddr).freeCount_eq] at hcount
      omega
    rw [if_neg haddr]
    -- m バイトを写して書く
    have hm₁ : 0 < min (n - tot) (BSIZE - (off + tot) % BSIZE) := by
      rw [show BSIZE = 1024 from rfl]
      omega
    have hm₂ : (off + tot) % BSIZE + min (n - tot) (BSIZE - (off + tot) % BSIZE) ≤ BSIZE := by
      rw [show BSIZE = 1024 from rfl]
      omega
    cases hc : copyin mem (src + tot) (min (n - tot) (BSIZE - (off + tot) % BSIZE)) with
    | none =>
      -- 読めないバイトがあれば、そこで止まる
      refine ⟨tot, ip₁, fs₁, rfl, le_refl tot, htot, hI₁, fun hcopy _ => ?_⟩
      rw [copyin_eq_some fun k hk => by rw [Nat.add_assoc]; exact hcopy (tot + k) (by omega)] at hc
      cases hc
    | some bs =>
      dsimp only
      rw [copyin_some hc]
      have hI₂ := hI₁.write hl (hblk haddr) haddr hm₂
      obtain ⟨tot', ip', fs', hrun, hge, hle, hI', hfull'⟩ := ih _ _ _ hI₂ (by omega) (by omega)
      refine ⟨tot', ip', fs', ?_, by omega, hle, hI', fun hcopy hlt' => ?_⟩
      · rw [← hrun, Nat.add_assoc]
      obtain ⟨hdisk, hcount'⟩ := hfull' hcopy hlt'
      rw [hI₁.freeCount_writeBlock (hblk haddr) haddr] at hcount'
      refine ⟨hdisk, ?_⟩
      -- 書いた m バイトの後もまだ書くので、m はブロックの終わりまでで、次のブロックから続く
      have hnext : (off + (tot + min (n - tot) (BSIZE - (off + tot) % BSIZE))) / BSIZE = (off + tot) / BSIZE + 1 := by
        rw [show BSIZE = 1024 from rfl] at hge ⊢
        omega
      rw [hnext] at hcount'
      omega

/-- writei は off から r バイトを書き、大きさを `max(size, off + r)` にする。ファイルの中身は元の中身の
`[off, off + r)` を src のバイトで置き換えたもので、性質とブロックの配置も保たれる。src の n バイトが
どれも読めて r が n より少なければ、空きのブロックがなく、書く前の空きは、書くバイトが掛かりうる
ブロックの数 `n / BSIZE + 2` の二倍より多くなかった。 -/
theorem writei_run {fs : FsState} (hl : LayoutOK sb) (h : BlocksOwned sb fs) (ha : InUse sb fs inum)
    (hmapped : (fs.inode inum).Mapped fs.data) (hoff : off ≤ (fs.inode inum).size)
    (hmax : off + n ≤ MAXFILE * BSIZE) :
    ∃ (r : Nat) (fs' : FsState), writei sb inum mem src off n fs = some ((r : Int), fs') ∧ r ≤ n ∧
      ((∀ k < n, mem (src + k) ≠ none) → r < n → DiskFull sb fs' ∧ freeCount sb fs ≤ 2 * (n / BSIZE + 2)) ∧
      BlocksOwned sb fs' ∧ InUse sb fs' inum ∧
      (fs'.inode inum).Mapped fs'.data ∧ (fs'.inode inum).size = max (fs.inode inum).size (off + r) ∧
      ∀ i, (fs'.inode inum).byteAt fs'.data i =
        if off ≤ i ∧ i < off + r then srcByte mem src (i - off) else (fs.inode inum).byteAt fs.data i := by
  have hwrap : ¬ ((fs.inode inum).size < off ∨ (off + n) % 2 ^ 32 < off) := by
    simp only [MAXFILE, NDIRECT, NINDIRECT, BSIZE] at hmax
    omega
  -- ループに入る前: 何も書いておらず、大きさより下はブロックにある
  have hI₀ : WriteInv sb inum (fs.inode inum) fs.data mem src off 0 (fs.inode inum) fs := by
    rw [← FsState.iupdate_self fs inum] at h ha
    refine ⟨h, ha, rfl, fun i => by rw [if_neg (by omega)], fun i hi => hmapped i ?_⟩
    rw [Nat.max_def] at hi
    split_ifs at hi <;> omega
  obtain ⟨r, ip', fs', hrun, -, hle, hI, hfull⟩ := writeiLoop_spec hl hmax n 0 _ _ hI₀ (Nat.zero_le n) (by omega)
  rw [Nat.add_zero] at hrun
  unfold writei
  rw [if_neg hwrap, if_neg (Nat.not_lt.mpr hmax), hrun]
  dsimp only
  -- 最後に大きさを伸ばして書き戻す。大きさのほかは書き戻す inode と同じである
  set ip'' := if ip'.size < off + r then { ip' with size := off + r } else ip' with hip''
  have haddrs : ip''.addrs = ip'.addrs := by
    rw [hip'']
    split <;> rfl
  have htype : ip''.type = ip'.type := by
    rw [hip'']
    split <;> rfl
  have hsize : ip''.size = max (fs.inode inum).size (off + r) := by
    rw [hip'', ← hI.size]
    split <;> simp only [Nat.max_def] <;> split_ifs <;> omega
  -- 書くバイトが掛かるブロックは、多くても `n / BSIZE + 2` 個
  have hspan : (off + n + BSIZE - 1) / BSIZE - off / BSIZE ≤ n / BSIZE + 2 := by
    rw [show BSIZE = 1024 from rfl]
    omega
  refine ⟨r, _, rfl, hle, fun hcopy hr => ?_, hI.owned.iupdate_congr haddrs htype, hI.inUse.iupdate_self fs' htype,
    fun i hi => ?_, by rw [FsState.iupdate_inode_self, hsize], fun i => ?_⟩
  · obtain ⟨hdisk, hcount⟩ := hfull hcopy hr
    rw [Nat.add_zero] at hcount
    exact ⟨hdisk, by omega⟩
  · rw [FsState.iupdate_inode_self, hsize] at hi
    rw [FsState.iupdate_inode_self, FsState.iupdate_data, DInode.blockAt_congr haddrs]
    exact hI.mapped i hi
  · rw [FsState.iupdate_inode_self, FsState.iupdate_data, DInode.byteAt_congr haddrs]
    exact hI.bytes i

/-- src の n バイトがどれも読めれば、writei は off から r バイトを書き、r が n より少ないのは空きの
ブロックがないときだけで、空きが `n / BSIZE + 2` の二倍より多ければ n バイトすべてを書く。 -/
theorem writei_spec {fs : FsState} (hl : LayoutOK sb) (h : BlocksOwned sb fs) (ha : InUse sb fs inum)
    (hmapped : (fs.inode inum).Mapped fs.data) (hoff : off ≤ (fs.inode inum).size)
    (hmax : off + n ≤ MAXFILE * BSIZE) (hcopy : ∀ k < n, mem (src + k) ≠ none) :
    ∃ (r : Nat) (fs' : FsState), writei sb inum mem src off n fs = some ((r : Int), fs') ∧ r ≤ n ∧
      (r < n → DiskFull sb fs') ∧ (2 * (n / BSIZE + 2) < freeCount sb fs → r = n) ∧
      BlocksOwned sb fs' ∧ InUse sb fs' inum ∧
      (fs'.inode inum).Mapped fs'.data ∧ (fs'.inode inum).size = max (fs.inode inum).size (off + r) ∧
      ∀ i, (fs'.inode inum).byteAt fs'.data i =
        if off ≤ i ∧ i < off + r then srcByte mem src (i - off) else (fs.inode inum).byteAt fs.data i := by
  obtain ⟨r, fs', hw, hle, hfull, hown, hin, hm, hsize, hbytes⟩ := writei_run hl h ha hmapped hoff hmax
  refine ⟨r, fs', hw, hle, fun hr => (hfull hcopy hr).1, fun hfree => ?_, hown, hin, hm, hsize, hbytes⟩
  by_contra hr
  have := (hfull hcopy (by omega)).2
  omega

/-- どう呼んでも、writei の後も大きさより下のバイトはブロックにある。 -/
theorem writei_mapped {fs fs' : FsState} {v : Int} (hl : LayoutOK sb) (h : BlocksOwned sb fs)
    (ha : InUse sb fs inum) (hmapped : (fs.inode inum).Mapped fs.data)
    (hw : writei sb inum mem src off n fs = some (v, fs')) : (fs'.inode inum).Mapped fs'.data := by
  by_cases hg : (fs.inode inum).size < off ∨ (off + n) % 2 ^ 32 < off ∨ MAXFILE * BSIZE < off + n
  · -- 書かずに -1 を返す
    have hw₀ : writei sb inum mem src off n fs = some (-1, fs) := by
      unfold writei
      by_cases h₁ : (fs.inode inum).size < off ∨ (off + n) % 2 ^ 32 < off
      · rw [if_pos h₁]
      · rw [if_neg h₁, if_pos (by omega)]
    rw [hw₀] at hw
    obtain ⟨-, rfl⟩ := Prod.mk.inj (Option.some.inj hw)
    exact hmapped
  · have hoff : off ≤ (fs.inode inum).size := by omega
    have hmax : off + n ≤ MAXFILE * BSIZE := by omega
    obtain ⟨r, fs'', hw', -, -, -, -, hm, -⟩ : ∃ (r : Nat) (fs'' : FsState),
        writei sb inum mem src off n fs = some ((r : Int), fs'') ∧ _ := writei_run hl h ha hmapped hoff hmax
    rw [hw'] at hw
    obtain ⟨-, rfl⟩ := Prod.mk.inj (Option.some.inj hw)
    exact hm

end Write

/-! ## readi -/

/-- ブロックがある範囲の readi のループは、燃料が足りれば n バイトのファイルの中身を集め、状態を
変えない。 -/
theorem readiLoop_spec {sb : SuperBlock} {out : Nat → Nat → Bool} {dst off n : Nat} {ip : DInode} {fs : FsState}
    (hout : ∀ k m, k + m ≤ n → out (dst + k) m = true)
    (hmap : ∀ i, off ≤ i → i < off + n → ip.blockAt fs.data (i / BSIZE) ≠ 0) :
    ∀ (fuel tot : Nat) (acc : List UInt8), tot ≤ n → n - tot ≤ fuel →
      readiLoop sb out dst n fuel tot (off + tot) acc ip fs =
        some ((n : Int), acc ++ (List.range (n - tot)).map fun k => ip.byteAt fs.data (off + tot + k), ip, fs) := by
  intro fuel
  induction fuel with
  | zero =>
    intro tot acc htot hfuel
    obtain rfl : tot = n := by omega
    simp [readiLoop]
  | succ fuel ih =>
    intro tot acc htot hfuel
    unfold readiLoop
    by_cases hlt : tot < n
    swap
    · obtain rfl : tot = n := by omega
      simp
    rw [if_pos hlt]
    have h0 := hmap (off + tot) (by omega) (by omega)
    rw [bmap_of_blockAt h0]
    dsimp only
    rw [if_neg h0]
    have hm : (off + tot) % BSIZE + min (n - tot) (BSIZE - (off + tot) % BSIZE) ≤ BSIZE := by
      rw [show BSIZE = 1024 from rfl]
      omega
    have hm₁ : 0 < min (n - tot) (BSIZE - (off + tot) % BSIZE) := by
      rw [show BSIZE = 1024 from rfl]
      omega
    rw [if_pos (hout tot _ (by omega)), show off + tot + min (n - tot) (BSIZE - (off + tot) % BSIZE) =
      off + (tot + min (n - tot) (BSIZE - (off + tot) % BSIZE)) by omega, ih _ _ (by omega) (by omega)]
    -- 読んだ m バイトと残りを、ファイルの中身の列として一つにする
    set m := min (n - tot) (BSIZE - (off + tot) % BSIZE) with hm_def
    have hchunk : (List.range m).map (fun k => fs.data (ip.blockAt fs.data ((off + tot) / BSIZE)) ((off + tot) % BSIZE + k)) =
        (List.range m).map fun k => ip.byteAt fs.data (off + tot + k) := by
      refine List.map_congr_left fun k hk => ?_
      have hk' : k < m := List.mem_range.mp hk
      obtain ⟨hbn, -, -⟩ := (mem_block_iff (i := off + tot + k) hm).mpr ⟨by omega, by omega⟩
      rw [DInode.byteAt_of_blockAt (hbn ▸ h0), hbn]
      congr 1
      rw [show BSIZE = 1024 from rfl] at hbn ⊢
      omega
    have hsplit : n - tot = m + (n - (tot + m)) := by omega
    have hrest : (List.range (n - (tot + m))).map (fun k => ip.byteAt fs.data (off + (tot + m) + k)) =
        (List.range (n - (tot + m))).map ((fun k => ip.byteAt fs.data (off + tot + k)) ∘ fun x => m + x) :=
      List.map_congr_left fun k _ => by
        simp only [Function.comp_apply]
        congr 1
        omega
    rw [hchunk, hsplit, List.range_add, List.map_append, List.map_map, List.append_assoc, hrest]

/-- 読む範囲のブロックがどれもあれば、readi のループはメモリ上の inode も状態も変えない。copyout が
失敗して途中で止まっても同じである。 -/
theorem readiLoop_frame {sb : SuperBlock} {out : Nat → Nat → Bool} {dst n : Nat} {ip : DInode} {fs : FsState} :
    ∀ (fuel tot o : Nat) (acc : List UInt8) {v : Int} {acc' : List UInt8} {ip' : DInode} {fs' : FsState},
      (∀ i, o ≤ i → i < o + (n - tot) → ip.blockAt fs.data (i / BSIZE) ≠ 0) →
      readiLoop sb out dst n fuel tot o acc ip fs = some (v, acc', ip', fs') → ip' = ip ∧ fs' = fs := by
  intro fuel
  induction fuel with
  | zero =>
    intro tot o acc v acc' ip' fs' _ hr
    obtain ⟨-, -, rfl, rfl⟩ := by simpa [readiLoop] using hr
    exact ⟨rfl, rfl⟩
  | succ fuel ih =>
    intro tot o acc v acc' ip' fs' hmap hr
    unfold readiLoop at hr
    by_cases hlt : tot < n
    swap
    · rw [if_neg hlt] at hr
      obtain ⟨-, -, rfl, rfl⟩ := by simpa using hr
      exact ⟨rfl, rfl⟩
    rw [if_pos hlt] at hr
    have h0 := hmap o (le_refl o) (by omega)
    rw [bmap_of_blockAt h0] at hr
    dsimp only at hr
    rw [if_neg h0] at hr
    split_ifs at hr
    · -- 次の回は m バイト先から、残りの範囲を読む
      exact ih _ _ _ (fun i h₁ h₂ => hmap i (by omega) (by omega)) hr
    · obtain ⟨-, -, rfl, rfl⟩ := by simpa using hr
      exact ⟨rfl, rfl⟩

/-- 大きさより下のバイトがどれもブロックにあれば、readi は状態を変えない。 -/
theorem readi_state {sb : SuperBlock} {inum : Nat} {out : Nat → Nat → Bool} {dst off n : Nat} {v : Int}
    {acc : List UInt8} {fs fs' : FsState} (hmapped : (fs.inode inum).Mapped fs.data)
    (hr : readi sb inum out dst off n fs = some (v, acc, fs')) : fs' = fs := by
  unfold readi at hr
  dsimp only at hr
  by_cases hg : (fs.inode inum).size < off ∨ (off + n) % 2 ^ 32 < off
  · rw [if_pos hg] at hr
    obtain ⟨-, -, rfl⟩ := by simpa using hr
    rfl
  rw [if_neg hg] at hr
  split at hr
  · cases hr
  rename_i v' acc' ip₁ fs₁ hL
  obtain ⟨-, -, rfl⟩ := by simpa using hr
  -- 読む範囲は大きさより下に切り詰めてある
  obtain ⟨rfl, rfl⟩ := readiLoop_frame _ 0 off [] (fun i h₁ h₂ => hmapped i (by split at h₂ <;> omega)) hL
  exact FsState.iupdate_self _ _

/-- 大きさより下のバイトがどれもブロックにあり、`off + n` が 32 ビットで溢れなければ、readi は
`min(n, size - off)` バイトのファイルの中身を返し、状態を変えない。 -/
theorem readi_spec {sb : SuperBlock} {inum : Nat} {out : Nat → Nat → Bool} {dst off n : Nat} {fs : FsState}
    (hmapped : (fs.inode inum).Mapped fs.data) (hoff : off ≤ (fs.inode inum).size) (hwrap : off + n < 2 ^ 32)
    (hout : ∀ k m, k + m ≤ n → out (dst + k) m = true) :
    readi sb inum out dst off n fs =
      some (((min n ((fs.inode inum).size - off) : Nat) : Int),
        (List.range (min n ((fs.inode inum).size - off))).map fun k => (fs.inode inum).byteAt fs.data (off + k), fs) := by
  have hn : (if (fs.inode inum).size < off + n then (fs.inode inum).size - off else n) =
      min n ((fs.inode inum).size - off) := by
    split <;> omega
  have hloop := @readiLoop_spec sb out dst off (min n ((fs.inode inum).size - off)) (fs.inode inum) fs
    (fun k m (hkm : k + m ≤ min n ((fs.inode inum).size - off)) => hout k m (by omega))
    (fun i (h₁ : off ≤ i) (h₂ : i < off + min n ((fs.inode inum).size - off)) => hmapped i (by omega))
    (min n ((fs.inode inum).size - off)) 0 [] (Nat.zero_le _) (by omega)
  simp only [Nat.add_zero, Nat.sub_zero, List.nil_append] at hloop
  unfold readi
  rw [if_neg (by rw [Nat.mod_eq_of_lt hwrap]; omega)]
  dsimp only
  rw [hn, hloop]
  dsimp only
  rw [FsState.iupdate_self]

/-! ## writei の後の readi -/

/-- writei の後の readi: writei が off から r バイトを書けば（r が n より少ないのは空きのブロックが
ないときだけ）、大きさは `max(size, off + r)` になる。その後、溢れない範囲を読む readi は、元の中身の
`[off, off + r)` を src のバイトで置き換えた列から `min(n', size' - off')` バイトを返す。 -/
theorem writei_readi_bytes {sb : SuperBlock} {fs : FsState} {inum : Nat} {mem : Nat → Option UInt8}
    {src off n : Nat} (hl : LayoutOK sb) (h : BlocksOwned sb fs) (ha : InUse sb fs inum)
    (hmapped : (fs.inode inum).Mapped fs.data) (hoff : off ≤ (fs.inode inum).size)
    (hmax : off + n ≤ MAXFILE * BSIZE) (hcopy : ∀ k < n, mem (src + k) ≠ none) :
    ∃ (r : Nat) (fs' : FsState), writei sb inum mem src off n fs = some ((r : Int), fs') ∧ r ≤ n ∧
      (r < n → DiskFull sb fs') ∧ (2 * (n / BSIZE + 2) < freeCount sb fs → r = n) ∧
      (fs'.inode inum).size = max (fs.inode inum).size (off + r) ∧
      ∀ (out : Nat → Nat → Bool) (dst off' n' : Nat), off' ≤ (fs'.inode inum).size → off' + n' < 2 ^ 32 →
        (∀ k m, k + m ≤ n' → out (dst + k) m = true) →
        readi sb inum out dst off' n' fs' = some (((min n' ((fs'.inode inum).size - off') : Nat) : Int),
          (List.range (min n' ((fs'.inode inum).size - off'))).map (fun k =>
            if off ≤ off' + k ∧ off' + k < off + r then srcByte mem src (off' + k - off)
            else (fs.inode inum).byteAt fs.data (off' + k)), fs') := by
  obtain ⟨r, fs', hw, hle, hfull, hall, -, -, hmapped', hsize, hbytes⟩ :=
    writei_spec hl h ha hmapped hoff hmax hcopy
  refine ⟨r, fs', hw, hle, hfull, hall, hsize, fun out dst off' n' hoff' hwrap hout => ?_⟩
  -- readi は書いた後のファイルの中身を返し、それは `writei_spec` の言う列である
  rw [readi_spec hmapped' hoff' hwrap hout]
  congr 3
  exact List.map_congr_left fun k _ => hbytes (off' + k)

/-- mkfs の像のルートディレクトリに、その大きさ 1024 から 1 バイトを書き、書いた後の状態を読む。 -/
theorem writei_readi_bytes_rootImage :
    ∃ (r : Nat) (fs' : FsState), writei tinySb 1 (fun _ => some 42) 0 1024 1 (rootImage 127) = some ((r : Int), fs') ∧
      r ≤ 1 ∧ (fs'.inode 1).size = max 1024 (1024 + r) := by
  have hmapped : ((rootImage 127).inode 1).Mapped (rootImage 127).data := by
    intro i hi
    rw [Nat.div_eq_of_lt (show i < BSIZE from hi)]
    decide
  obtain ⟨r, fs', hw, hle, -, -, hsize, -⟩ := @writei_readi_bytes tinySb (rootImage 127) 1 (fun _ => some 42) 0 1024 1
    tinySb_layoutOK rootImage_owned (inUse_rootImage.mpr rfl) hmapped (le_refl 1024) (by decide) (fun _ _ => by simp)
  exact ⟨r, fs', hw, hle, hsize⟩

/-- ブロックの欄が互いに違っても、印のないブロックを持つ inode では足りない: ルートディレクトリの
ブロック 6 に印のない像で、大きさ 1024 から 1 バイトを書くと、writei は 1 を返して大きさを 1025 に
するが、`balloc` が渡すのはルートディレクトリのブロック 6 で、0 で埋めてから 42 を書く。元の
ファイルの 0 バイト目は 0 だったが、書いた後の readi はそこから 42 を返す。 -/
theorem writei_reuses_unmarked_block :
    InUse tinySb (rootImage 63) 1 ∧ (rootImage 63).ref 1 (.direct 0) = 6 ∧
      (∀ s, s ≠ .direct 0 → (rootImage 63).ref 1 s = 0) ∧
      ((rootImage 63).inode 1).byteAt (rootImage 63).data 0 = 0 ∧
      ∃ fs', writei tinySb 1 (fun _ => some 42) 0 1024 1 (rootImage 63) = some (1, fs') ∧
        (fs'.inode 1).size = 1025 ∧
        (readi tinySb 1 (fun _ _ => true) 0 0 1 fs').map (fun q => (q.1, q.2.1)) = some (1, [42]) := by
  have hw : (writei tinySb 1 (fun _ => some 42) 0 1024 1 (rootImage 63)).isSome := by decide
  obtain ⟨⟨r, fs'⟩, hfs⟩ := Option.isSome_iff_exists.mp hw
  -- 書いた後の戻り値、大きさ、readi の結果を一度に計算する
  have hrun : (writei tinySb 1 (fun _ => some 42) 0 1024 1 (rootImage 63)).map (fun p =>
      (p.1, (p.2.inode 1).size, (readi tinySb 1 (fun _ _ => true) 0 0 1 p.2).map fun q => (q.1, q.2.1))) =
      some (1, 1025, some (1, [42])) := by
    decide
  rw [hfs] at hrun
  simp only [Option.map_some, Option.some.injEq, Prod.mk.injEq] at hrun
  obtain ⟨rfl, hsize, hread⟩ := hrun
  exact ⟨inUse_rootImage.mpr rfl, by simp [rootImage_ref], fun s hs => by rw [rootImage_ref, if_neg hs],
    by decide, fs', hfs, hsize, hread⟩

end Xv6.Fs
