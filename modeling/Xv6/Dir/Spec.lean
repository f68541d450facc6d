import Mathlib.Algebra.BigOperators.Group.Finset.Basic
import Xv6.Dir.Syscall

/-!
# 木とリンクの数の不変条件

ディレクトリの木について主張される性質を、モデルの言葉で書く: どのディレクトリも 0 バイト目に
自分を指す "."、`sizeof(de)` バイト目に親を指す ".." を持つ。各ディレクトリの生きた項目の
名前は `namecmp` で互いに違い、生きた項目はどれも使われている inode を指す。使われている
inode の `nlink` は、それを指す生きた項目（"." を除く）の数に整数として等しく、`nlink` が 0 の
inode は参照がなくなったときに解放されている。
-/

namespace Xv6.Dir

/-- 項目の列のうち、i を指す生きた項目（"." の項目を除く）の数。 -/
def entryCount (des : List Dirent) (i : Nat) : Nat :=
  des.countP fun de => de.inum != 0 && de.inum == i && !namecmp de.name dotName

/-- i を指す生きた項目の数（"." を除く）。表のすべてのディレクトリにわたって数える。 -/
def linkCount (fs : DirFs) (i : Nat) : Nat :=
  ∑ d ∈ Finset.range fs.ninodes,
    if (fs.inode d).type = .dir then entryCount (fs.inode d).dirents i else 0

/-- p は d の親: 根は自分の親で、ほかは p の "." と ".." でない生きた項目が d を指す。 -/
def IsParent (fs : DirFs) (p d : Nat) : Prop :=
  (p = ROOTINO ∧ d = ROOTINO) ∨
    ((fs.inode p).type = .dir ∧
      ∃ de ∈ (fs.inode p).dirents, de.inum = d ∧ de.name ≠ dotName ∧ de.name ≠ dotdotName)

/-- ディレクトリ d の最初の二つの項目は、d を指す "." と、親を指す ".."。 -/
def DotsOK (fs : DirFs) (d : Nat) : Prop :=
  match (fs.inode d).dirents with
  | e₀ :: e₁ :: _ => e₀ = ⟨d, dotName⟩ ∧ e₁.name = dotdotName ∧ IsParent fs e₁.inum d
  | _ => False

structure DirTreeOK (fs : DirFs) : Prop where
  dots : ∀ d < fs.ninodes, (fs.inode d).type = .dir → DotsOK fs d
  names : ∀ d < fs.ninodes, (fs.inode d).type = .dir →
    (((fs.inode d).dirents.filter (·.inum != 0)).map (·.name)).Pairwise fun a b => namecmp a b = false
  alloc : ∀ d < fs.ninodes, (fs.inode d).type = .dir → ∀ de ∈ (fs.inode d).dirents, de.inum ≠ 0 →
    de.inum < fs.ninodes ∧ (fs.inode de.inum).type ≠ .free
  nlink : ∀ i < fs.ninodes, (fs.inode i).type ≠ .free → (fs.inode i).nlink = linkCount fs i
  freed : ∀ i < fs.ninodes, (fs.inode i).type ≠ .free → (fs.inode i).nlink = 0 → 0 < fs.refs i

end Xv6.Dir
