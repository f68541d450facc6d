import Xv6.Lib.Crash

/-!
# ログ（`kernel/log.c`）の写し: commit と回復のディスク書き込み

ディスクは、ログの先頭 `log.start` のヘッダのブロックと、ほかのブロックの中身 `data` からなる。
ブロックの中身の型 `α` は何でもよい。`bwrite` は一つのブロックを原子的に書く。
`commit` と `recover_from_log` が行う `bwrite` を、その順に書き込みの列として表す。
`install_trans` はログのブロックを `bread` で読むので、その時のディスクの中身を写す。
ヘッダの `block[i]` は `i < n` の添字しか読まれないので `Nat → Nat` とする。
-/

namespace Xv6.Log

open Xv6.Lib

/-- `struct logheader`。 -/
structure LogHeader where
  n : Nat
  block : Nat → Nat

/-- ディスク: ログのヘッダのブロックと、ほかのブロックの中身。 -/
structure Disk (α : Type) where
  head : LogHeader
  data : Nat → α

/-- commit が読む `struct log` の欄と、ログに載ったブロックのキャッシュの中身。 -/
structure LogMem (α : Type) where
  start : Nat
  size : Nat
  lh : LogHeader
  /-- `bread(log.dev, b)` が返すキャッシュのブロック b の中身。ログに載ったブロックは pin
  されているので、commit の間キャッシュにある。 -/
  cache : Nat → α

variable {α : Type}

/-! ## 一つのブロックの書き込み -/

/-- `bwrite(b)` でブロック b に v を書く。 -/
def bwriteData (b : Nat) (v : α) (d : Disk α) : Disk α :=
  { d with data := Function.update d.data b v }

/-- `install_trans` の一回分: ブロック src を読んで、その中身をブロック dst に書く。 -/
def copyBlock (dst src : Nat) (d : Disk α) : Disk α :=
  { d with data := Function.update d.data dst (d.data src) }

/-- `write_head` の `bwrite`: ヘッダのブロックを読み、`n` と `block[i]`（`i < n`）を書き換えて書く。 -/
def bwriteHead (lh : LogHeader) (d : Disk α) : Disk α :=
  { d with head := { n := lh.n, block := fun i => if i < lh.n then lh.block i else d.head.block i } }

/-! ## log.c の手続き -/

/-- `write_log()` のループの一回分: `block[tail]` のキャッシュの中身を、ログのブロック
`start + tail + 1` に書く。 -/
def writeLogBlock (m : LogMem α) (tail : Nat) : Disk α → Disk α :=
  bwriteData (m.start + tail + 1) (m.cache (m.lh.block tail))

/-- `write_log()`。 -/
def writeLog (m : LogMem α) : List (Disk α → Disk α) :=
  (List.range m.lh.n).map (writeLogBlock m)

/-- `write_head()`。 -/
def writeHead (lh : LogHeader) : List (Disk α → Disk α) := [bwriteHead lh]

/-- `install_trans()` のループの一回分: ログのブロック `start + tail + 1` を、その本来の場所
`block[tail]` に写す。 -/
def installBlock (start : Nat) (lh : LogHeader) (tail : Nat) : Disk α → Disk α :=
  copyBlock (lh.block tail) (start + tail + 1)

/-- `install_trans()`。 -/
def installTrans (start : Nat) (lh : LogHeader) : List (Disk α → Disk α) :=
  (List.range lh.n).map (installBlock start lh)

/-- `read_head()`。 -/
def readHead (d : Disk α) : LogHeader := d.head

/-- `commit()`: ログを書き、ヘッダを書き（ここで確定）、本来の場所に写し、ヘッダの n を 0 に戻す。 -/
def commit (m : LogMem α) : List (Disk α → Disk α) :=
  if 0 < m.lh.n then
    writeLog m ++ writeHead m.lh ++ installTrans m.start m.lh ++ writeHead { m.lh with n := 0 }
  else []

/-- `recover_from_log()`: ヘッダを読み、確定した取引を本来の場所に写し、ヘッダの n を 0 に戻す。 -/
def recoverFromLog (start : Nat) (d : Disk α) : List (Disk α → Disk α) :=
  installTrans start (readHead d) ++ writeHead { readHead d with n := 0 }

end Xv6.Log
