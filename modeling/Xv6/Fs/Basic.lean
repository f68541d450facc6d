import Xv6.Lib.Bits

/-!
# ファイルシステムのブロック層（`kernel/fs.c`）の写し

ディスクの各ブロックの中身はバイトの列 `FsState.data b` である。空きの表は、ビットマップの
ブロック `BBLOCK(b, sb)` の `(b % BPB) / 8` バイト目の `(b % BPB) % 8` ビットで、
`balloc` と `bfree` はこのビットの算術をそのまま行う。間接ブロックは `uint` の配列として
読み書きする（`getWord`・`setWord`）。

inode は番号で引く表 `FsState.inode` とし、inode のブロックのバイト列には置かない。ここで写す
関数は inode を `ilock` した呼び出し元から呼ばれ、メモリ上の inode の変更は（`readi` の
`bmap` を除き）同じ呼び出しのうちに `iupdate` で書き戻されるので、表はメモリ上の inode と
ディスク上の inode を一つにしたものである。ログは写さず、`log_write` したブロックはすぐ
ディスクに書かれたものとする（取引の原子性は `Xv6.Log` で扱う）。
-/

namespace Xv6.Fs

open Xv6.Lib Function

abbrev BSIZE : Nat := 1024

abbrev NDIRECT : Nat := 12

/-- `NINDIRECT`（`BSIZE / sizeof(uint)`）。 -/
abbrev NINDIRECT : Nat := BSIZE / 4

abbrev MAXFILE : Nat := NDIRECT + NINDIRECT

/-- `BPB`（`BSIZE*8`）。 -/
abbrev BPB : Nat := BSIZE * 8

/-- `IPB`（`BSIZE / sizeof(struct dinode)`、`struct dinode` は 64 バイト）。 -/
abbrev IPB : Nat := BSIZE / 64

/-- `struct superblock` の、ここで読む欄。 -/
structure SuperBlock where
  size : Nat
  ninodes : Nat
  nlog : Nat
  logstart : Nat
  inodestart : Nat
  bmapstart : Nat
  deriving DecidableEq, Repr

/-- `BBLOCK(b, sb)`: ブロック b のビットを持つビットマップのブロック。 -/
def BBLOCK (b : Nat) (sb : SuperBlock) : Nat := b / BPB + sb.bmapstart

/-- メタデータのブロック: ブートブロック、スーパーブロック、ログ、inode のブロック、
ビットマップのブロック。 -/
def SuperBlock.IsMeta (sb : SuperBlock) (b : Nat) : Prop :=
  b < 2 ∨ (sb.logstart ≤ b ∧ b < sb.logstart + sb.nlog) ∨
    (sb.inodestart ≤ b ∧ b < sb.inodestart + sb.ninodes / IPB + 1) ∨
    (sb.bmapstart ≤ b ∧ b < sb.bmapstart + sb.size / BPB + 1)

instance (sb : SuperBlock) : DecidablePred sb.IsMeta := fun b =>
  inferInstanceAs (Decidable (b < 2 ∨ (sb.logstart ≤ b ∧ b < sb.logstart + sb.nlog) ∨
    (sb.inodestart ≤ b ∧ b < sb.inodestart + sb.ninodes / IPB + 1) ∨
    (sb.bmapstart ≤ b ∧ b < sb.bmapstart + sb.size / BPB + 1)))

/-- ビットマップはファイルシステムのすべてのブロックを覆う。 -/
theorem SuperBlock.isMeta_BBLOCK (sb : SuperBlock) {b : Nat} (hb : b < sb.size) :
    sb.IsMeta (BBLOCK b sb) := by
  have : b / BPB ≤ sb.size / BPB := Nat.div_le_div_right hb.le
  unfold IsMeta BBLOCK
  right; right; right
  exact ⟨Nat.le_add_left _ _, by omega⟩

/-- `struct dinode` の、ここで読み書きする欄。`major` と `minor` は読まないので除く。
`addrs` は添字 `0..NDIRECT` だけを使う。 -/
structure DInode where
  type : Int
  nlink : Int
  size : Nat
  addrs : Nat → Nat

/-- `ip->addrs[k] = v`。 -/
def DInode.setAddr (ip : DInode) (k v : Nat) : DInode := { ip with addrs := update ip.addrs k v }

@[simp] theorem DInode.setAddr_type (ip : DInode) (k v : Nat) : (ip.setAddr k v).type = ip.type := rfl

@[simp] theorem DInode.setAddr_addrs (ip : DInode) (k v : Nat) :
    (ip.setAddr k v).addrs = update ip.addrs k v := rfl

/-- ファイルシステムの状態: 各ブロックのバイト列と、inode の表。 -/
structure FsState where
  data : Nat → Nat → UInt8
  inode : Nat → DInode

/-- ブロック b のバッファを f で書き換えて `log_write` する。 -/
def FsState.writeBlock (fs : FsState) (b : Nat) (f : (Nat → UInt8) → Nat → UInt8) : FsState :=
  { fs with data := update fs.data b (f (fs.data b)) }

/-- `iupdate(ip)`: inode inum を ip で書き換える。 -/
def FsState.iupdate (fs : FsState) (inum : Nat) (ip : DInode) : FsState :=
  { fs with inode := update fs.inode inum ip }

@[simp] theorem FsState.writeBlock_inode (fs : FsState) (b : Nat) (f : (Nat → UInt8) → Nat → UInt8) :
    (fs.writeBlock b f).inode = fs.inode := rfl

@[simp] theorem FsState.iupdate_data (fs : FsState) (inum : Nat) (ip : DInode) :
    (fs.iupdate inum ip).data = fs.data := rfl

theorem FsState.writeBlock_data_of_ne (fs : FsState) {b b' : Nat} (f : (Nat → UInt8) → Nat → UInt8)
    (h : b' ≠ b) : (fs.writeBlock b f).data b' = fs.data b' := by
  simp [writeBlock, h]

@[simp] theorem FsState.writeBlock_data_self (fs : FsState) (b : Nat) (f : (Nat → UInt8) → Nat → UInt8) :
    (fs.writeBlock b f).data b = f (fs.data b) := by
  simp [writeBlock]

@[simp] theorem FsState.iupdate_inode_self (fs : FsState) (inum : Nat) (ip : DInode) :
    (fs.iupdate inum ip).inode inum = ip := by
  simp [iupdate]

theorem FsState.iupdate_inode_of_ne (fs : FsState) {inum i : Nat} (ip : DInode) (h : i ≠ inum) :
    (fs.iupdate inum ip).inode i = fs.inode i := by
  simp [iupdate, h]

@[simp] theorem FsState.iupdate_iupdate (fs : FsState) (inum : Nat) (ip ip' : DInode) :
    (fs.iupdate inum ip).iupdate inum ip' = fs.iupdate inum ip' := by
  simp [iupdate]

@[simp] theorem FsState.iupdate_self (fs : FsState) (inum : Nat) : fs.iupdate inum (fs.inode inum) = fs := by
  simp [iupdate]

theorem FsState.writeBlock_iupdate (fs : FsState) (b : Nat) (f : (Nat → UInt8) → Nat → UInt8) (inum : Nat)
    (ip : DInode) : (fs.writeBlock b f).iupdate inum ip = (fs.iupdate inum ip).writeBlock b f := rfl

def setByte (i : Nat) (f : UInt8 → UInt8) (bytes : Nat → UInt8) : Nat → UInt8 :=
  update bytes i (f (bytes i))

/-! ## ブロックの割り当て -/

/-- ブロック b がビットマップで使用中である。 -/
def FsState.used (sb : SuperBlock) (fs : FsState) (b : Nat) : Bool :=
  testMask (fs.data (BBLOCK b sb) (b % BPB / 8)) (b % BPB)

def bzero (b : Nat) (fs : FsState) : FsState := fs.writeBlock b fun _ _ => 0

/-- `balloc` の内側のループ: ビットマップのブロックの中身 bits で、`bi < BPB && b + bi < size`
の間、印の立っていない最初の bi を探す。燃料は残りの回数。 -/
def ballocBit (size b : Nat) (bits : Nat → UInt8) : (bi fuel : Nat) → Option Nat
  | _, 0 => none
  | bi, fuel + 1 =>
    if bi < BPB ∧ b + bi < size then
      if bits (bi / 8) &&& bitMask bi = 0 then some bi else ballocBit size b bits (bi + 1) fuel
    else none

/-- `balloc` の外側のループ: `b = 0, BPB, 2*BPB, ...` ごとにビットマップのブロックを読む。`int b` の
`b += BPB` はブロックの数が 2^31 - BPB を越えると溢れるので、ここでは溢れない配置（`LayoutOK`）での
働きを Nat で書く。 -/
def ballocBlock (sb : SuperBlock) (fs : FsState) : (b fuel : Nat) → Option (Nat × Nat)
  | _, 0 => none
  | b, fuel + 1 =>
    if b < sb.size then
      match ballocBit sb.size b (fs.data (BBLOCK b sb)) 0 BPB with
      | some bi => some (b, bi)
      | none => ballocBlock sb fs (b + BPB) fuel
    else none

/-- `balloc(dev)`: 印を立て（`bp->data[bi/8] |= m`）、ブロックを 0 で埋めて番号を返す。
空きがなければ 0 を返す。 -/
def balloc (sb : SuperBlock) (fs : FsState) : Nat × FsState :=
  match ballocBlock sb fs 0 (sb.size / BPB + 1) with
  | some (b, bi) =>
    (b + bi, bzero (b + bi) (fs.writeBlock (BBLOCK b sb) (setByte (bi / 8) (· ||| bitMask bi))))
  | none => (0, fs)

/-- `bfree(dev, b)`。`none` は `panic("freeing free block")`。 -/
def bfree (sb : SuperBlock) (b : Nat) (fs : FsState) : Option FsState :=
  let bi := b % BPB
  if fs.data (BBLOCK b sb) (bi / 8) &&& bitMask bi = 0 then none
  else some (fs.writeBlock (BBLOCK b sb) (setByte (bi / 8) (· &&& ~~~bitMask bi)))

/-! ## inode の中身 -/

/-- `bmap` の間接ブロックの部分: 間接ブロック ind の bn 番目の語を読み、0 なら割り当てて
書き込む（`a[bn] = addr; log_write(bp)`）。割り当てに失敗すれば 0 を返す。 -/
def bmapIndirect (sb : SuperBlock) (ind bn : Nat) (fs : FsState) : Nat × FsState :=
  if getWord (fs.data ind) bn = 0 then
    let (addr, fs) := balloc sb fs
    if addr = 0 then (0, fs) else (addr, fs.writeBlock ind fun a => setWord a bn addr)
  else (getWord (fs.data ind) bn, fs)

/-- `bmap(ip, bn)`: inode ip の bn 番目のブロックの番号。なければ割り当てる。割り当てに失敗
すれば 0 を返す。`none` は `panic("bmap: out of range")`。 -/
def bmap (sb : SuperBlock) (ip : DInode) (bn : Nat) (fs : FsState) : Option (Nat × DInode × FsState) :=
  if bn < NDIRECT then
    if ip.addrs bn = 0 then
      let (addr, fs) := balloc sb fs
      if addr = 0 then some (0, ip, fs) else some (addr, ip.setAddr bn addr, fs)
    else some (ip.addrs bn, ip, fs)
  else if bn - NDIRECT < NINDIRECT then
    if ip.addrs NDIRECT = 0 then
      let (ind, fs) := balloc sb fs
      if ind = 0 then some (0, ip, fs)
      else
        let (addr, fs) := bmapIndirect sb ind (bn - NDIRECT) fs
        some (addr, ip.setAddr NDIRECT ind, fs)
    else
      let (addr, fs) := bmapIndirect sb (ip.addrs NDIRECT) (bn - NDIRECT) fs
      some (addr, ip, fs)
  else none

/-- `itrunc` の直接ブロックのループの一回分。 -/
def itruncDirect (sb : SuperBlock) (r : DInode × FsState) (k : Nat) : Option (DInode × FsState) :=
  if r.1.addrs k ≠ 0 then
    (bfree sb (r.1.addrs k) r.2).map fun fs => (r.1.setAddr k 0, fs)
  else some r

/-- `itrunc` の間接ブロックのループの一回分。`a[j]` はバッファから毎回読む。 -/
def itruncEntry (sb : SuperBlock) (ind : Nat) (fs : FsState) (j : Nat) : Option FsState :=
  if getWord (fs.data ind) j ≠ 0 then bfree sb (getWord (fs.data ind) j) fs else some fs

/-- `itrunc(ip)`: 直接ブロック、間接ブロックの指すブロック、間接ブロックを解放し、大きさを
0 にして `iupdate` する。 -/
def itrunc (sb : SuperBlock) (inum : Nat) (fs : FsState) : Option FsState := do
  let (ip, fs) ← (List.range NDIRECT).foldlM (itruncDirect sb) (fs.inode inum, fs)
  let (ip, fs) ←
    if ip.addrs NDIRECT ≠ 0 then do
      let fs ← (List.range NINDIRECT).foldlM (itruncEntry sb (ip.addrs NDIRECT)) fs
      let fs ← bfree sb (ip.addrs NDIRECT) fs
      some (ip.setAddr NDIRECT 0, fs)
    else some (ip, fs)
  some (fs.iupdate inum { ip with size := 0 })

/-- `iput` の、リンクのない inode の最後の参照を落とすときの道: `itrunc(ip); ip->type = 0;
iupdate(ip)`。 -/
def iputFree (sb : SuperBlock) (inum : Nat) (fs : FsState) : Option FsState := do
  let fs ← itrunc sb inum fs
  some (fs.iupdate inum { fs.inode inum with type := 0 })

/-- `ialloc` のループ: 番号 inum から、空いた（`type == 0`）最初の inode を探す。 -/
def iallocLoop (sb : SuperBlock) (fs : FsState) : (inum fuel : Nat) → Option Nat
  | _, 0 => none
  | inum, fuel + 1 =>
    if inum < sb.ninodes then
      if (fs.inode inum).type = 0 then some inum else iallocLoop sb fs (inum + 1) fuel
    else none

/-- `ialloc(dev, type)`: 見つけた inode を 0 で埋め（`memset`）、型を書く。`none` は空きがない
こと。 -/
def ialloc (sb : SuperBlock) (type : Int) (fs : FsState) : Option (Nat × FsState) :=
  match iallocLoop sb fs 1 sb.ninodes with
  | some inum => some (inum, fs.iupdate inum ⟨type, 0, 0, fun _ => 0⟩)
  | none => none

/-! ## readi と writei -/

/-- `either_copyin`: 呼び出し元の記憶 mem の src から m バイトを写す。読めない番地があれば失敗。 -/
def copyin (mem : Nat → Option UInt8) (src m : Nat) : Option (List UInt8) :=
  (List.range m).mapM fun k => mem (src + k)

/-- バッファの start バイト目からバイトの列を書く。 -/
def putBytes (start : Nat) (bs : List UInt8) (bytes : Nat → UInt8) : Nat → UInt8 := fun i =>
  if start ≤ i ∧ i < start + bs.length then bs.getD (i - start) 0 else bytes i

/-- `writei` のループ。燃料は n で、一回ごとに `tot` が 1 以上増えるので足りる。戻り値は
ループを出たときの `tot`、`off`、メモリ上の inode と状態。 -/
def writeiLoop (sb : SuperBlock) (mem : Nat → Option UInt8) (src n : Nat) :
    (fuel tot off : Nat) → DInode → FsState → Option (Nat × Nat × DInode × FsState)
  | 0, tot, off, ip, fs => some (tot, off, ip, fs)
  | fuel + 1, tot, off, ip, fs =>
    if tot < n then
      match bmap sb ip (off / BSIZE) fs with
      | none => none
      | some (addr, ip, fs) =>
        if addr = 0 then some (tot, off, ip, fs)
        else
          let m := min (n - tot) (BSIZE - off % BSIZE)
          match copyin mem (src + tot) m with
          | none => some (tot, off, ip, fs)
          | some bs =>
            writeiLoop sb mem src n fuel (tot + m) (off + m) ip
              (fs.writeBlock addr (putBytes (off % BSIZE) bs))
    else some (tot, off, ip, fs)

/-- `writei(ip, user_src, src, off, n)`: 戻り値は書いたバイト数か -1。最後に大きさを伸ばし、
`iupdate` する。 -/
def writei (sb : SuperBlock) (inum : Nat) (mem : Nat → Option UInt8) (src off n : Nat) (fs : FsState) :
    Option (Int × FsState) :=
  let ip := fs.inode inum
  if ip.size < off ∨ (off + n) % 2 ^ 32 < off then some (-1, fs)
  else if MAXFILE * BSIZE < off + n then some (-1, fs)
  else
    match writeiLoop sb mem src n n 0 off ip fs with
    | none => none
    | some (tot, off, ip, fs) =>
      let ip := if ip.size < off then { ip with size := off } else ip
      some (tot, fs.iupdate inum ip)

/-- `readi` のループ。`out dst m` は `either_copyout` が成功するか。写したバイトを順に集める。 -/
def readiLoop (sb : SuperBlock) (out : Nat → Nat → Bool) (dst n : Nat) :
    (fuel tot off : Nat) → List UInt8 → DInode → FsState → Option (Int × List UInt8 × DInode × FsState)
  | 0, tot, _, acc, ip, fs => some (tot, acc, ip, fs)
  | fuel + 1, tot, off, acc, ip, fs =>
    if tot < n then
      match bmap sb ip (off / BSIZE) fs with
      | none => none
      | some (addr, ip, fs) =>
        if addr = 0 then some (tot, acc, ip, fs)
        else
          let m := min (n - tot) (BSIZE - off % BSIZE)
          if out (dst + tot) m then
            readiLoop sb out dst n fuel (tot + m) (off + m)
              (acc ++ (List.range m).map fun k => fs.data addr (off % BSIZE + k)) ip fs
          else some (-1, acc, ip, fs)
    else some (tot, acc, ip, fs)

/-- `readi(ip, user_dst, dst, off, n)`: 戻り値は読んだバイト数か -1 と、写したバイトの列。
`readi` は `iupdate` しないが、`bmap` がメモリ上の inode に加えたブロックは表に残す。 -/
def readi (sb : SuperBlock) (inum : Nat) (out : Nat → Nat → Bool) (dst off n : Nat) (fs : FsState) :
    Option (Int × List UInt8 × FsState) :=
  let ip := fs.inode inum
  if ip.size < off ∨ (off + n) % 2 ^ 32 < off then some (0, [], fs)
  else
    let n := if ip.size < off + n then ip.size - off else n
    match readiLoop sb out dst n n 0 off [] ip fs with
    | none => none
    | some (tot, acc, ip, fs) => some (tot, acc, fs.iupdate inum ip)

end Xv6.Fs
