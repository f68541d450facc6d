import Xv6.Umalloc.Basic

/-!
# malloc の単位の数と、sbrk に渡る大きさ

`nunits` は 64 ビットで計算するので回らず、いつも要求を覆う（`nunitsOf_toNat`, `le_nunitsOf`）。
回るのは morecore が sbrk の `int` の引数に渡す `nu * sizeof(Header)` で、`nbytes = 0xFFFFFFFF`
では `nu = 2^28 + 1` 単位の区画を、16 バイトだけ伸ばした break の上に作り、それを malloc が返す
（`malloc_returns_block_beyond_break`）。
-/

namespace Xv6.Umalloc

/-- `nunits` は `⌈nbytes / 16⌉ + 1` で、`uint` に切っても変わらない。 -/
theorem nunitsOf_toNat (nbytes : UInt32) : (nunitsOf nbytes).toNat = (nbytes.toNat + 15) / 16 + 1 := by
  have hn := nbytes.toNat_lt
  simp only [nunitsOf, UInt64.toNat_toUInt32, UInt64.toNat_add, UInt64.toNat_div, UInt64.toNat_sub,
    UInt32.toNat_toUInt64, UInt64.reduceToNat]
  omega

/-- 区画は header と、要求された nbytes を覆う。 -/
theorem le_nunitsOf (nbytes : UInt32) : nbytes.toNat + HSIZE ≤ HSIZE * (nunitsOf nbytes).toNat := by
  rw [nunitsOf_toNat, show HSIZE = 16 from rfl]
  omega

/-- malloc を呼んだことのない利用者の空間: break は 0x3000。 -/
def freshHeap : UHeap := ⟨fun _ => ⟨0, 0⟩, 0, 0x3000⟩

/-- `malloc(0xFFFFFFFF)` は 0 でないポインタを返すが、break は 16 バイトしか伸びず、返したポインタは
break の上にある: 要求の 0xFFFFFFFF バイトはどれも sbrk で得たヒープの中にない。 -/
theorem malloc_returns_block_beyond_break :
    ∃ (s s' : UHeap) (p : Nat), s.freep = 0 ∧ malloc (fun _ _ => true) 0x1000 2 0xFFFFFFFF s = some (p, s') ∧
      p ≠ 0 ∧ s'.sz = s.sz + HSIZE ∧ s'.sz ≤ p := by
  have h : (malloc (fun _ _ => true) 0x1000 2 0xFFFFFFFF freshHeap).map (fun r => (r.1, r.2.sz)) =
      some (0x3010, 0x3010) := by decide
  cases hm : malloc (fun _ _ => true) 0x1000 2 0xFFFFFFFF freshHeap with
  | none => rw [hm] at h; cases h
  | some r =>
    obtain ⟨p, s'⟩ := r
    rw [hm, Option.map_some, Option.some.injEq, Prod.mk.injEq] at h
    obtain ⟨rfl, hsz⟩ := h
    exact ⟨freshHeap, s', 0x3010, rfl, hm, by decide, hsz, Nat.le_of_eq hsz⟩

end Xv6.Umalloc
