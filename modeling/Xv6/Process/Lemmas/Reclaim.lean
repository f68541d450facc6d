import Xv6.Process.Lemmas.NsInv
import Mathlib.Data.Fintype.Card

/-!
# 名前空間の枠は返らない

allocnamespace は `used == 0` の枠を取って `used = 1` にするが、`used` を 0 に戻すコードも、
`num_proc` を減らすコードもない。使用中の名前空間は、到達可能な状態から先のどのシステムコールでも
使用中のままで（`UsedMono`）、空きの枠がある間、clone は呼ばれるたびに一つ取る。起動の後は根が
使用中なので、どの経路でも -1 でない値を返す clone は高々 `NUMNS - 1` 回で、すべての枠が使用中に
なった後の clone は -1 を返す。
-/

namespace Xv6.Process

open Xv6.Lib

variable {k k' k₁ k₂ : Kernel} {p : ProcId}

/-- 使用中の名前空間の数。 -/
def usedCount (k : Kernel) : Nat :=
  (Finset.univ.filter fun n : NsId => (k.namespaces n).used = true).card

/-- k で使用中の名前空間は k' でも使用中。 -/
def UsedMono (k k' : Kernel) : Prop :=
  ∀ n, (k.namespaces n).used = true → (k'.namespaces n).used = true

theorem UsedMono.refl (k : Kernel) : UsedMono k k := fun _ h => h

theorem UsedMono.trans (h₁ : UsedMono k k₁) (h₂ : UsedMono k₁ k₂) : UsedMono k k₂ :=
  fun n h => h₂ n (h₁ n h)

theorem UsedMono.usedCount_le (h : UsedMono k k') : usedCount k ≤ usedCount k' :=
  Finset.card_le_card fun n hn => by simp only [Finset.mem_filter] at hn ⊢; exact ⟨hn.1, h n hn.2⟩

/-- 使用中の枠が減らず、k で空きの n が k' で使用中なら、使用中の数は増える。 -/
theorem UsedMono.usedCount_lt {n : NsId} (h : UsedMono k k') (hn : (k.namespaces n).used = false)
    (hn' : (k'.namespaces n).used = true) : usedCount k < usedCount k' := by
  refine Finset.card_lt_card ⟨fun m hm => ?_, fun hsub => ?_⟩
  · simp only [Finset.mem_filter] at hm ⊢
    exact ⟨hm.1, h m hm.2⟩
  · have := hsub (Finset.mem_filter.mpr ⟨Finset.mem_univ n, hn'⟩)
    rw [Finset.mem_filter, hn] at this
    cases this.2

theorem usedCount_le (k : Kernel) : usedCount k ≤ NUMNS :=
  (Finset.card_filter_le _ _).trans (by simp)

/-! ## どの書き換えも使用中の名前空間を返さない -/

theorem NoAlloc.usedMono (h : NoAlloc k k') : UsedMono k k' := fun n hn => by
  rw [h.namespaces]; exact hn

theorem usedMono_head (k : Kernel) (n : NsId) (np : ProcId) :
    UsedMono k (k.updNs n fun m => { m with head := some np }) := fun m hm => by
  by_cases e : m = n
  · subst e; simpa using hm
  · simpa [e] using hm

theorem FreshNs.usedMono {n : NsId} (h : FreshNs k k' n) : UsedMono k k' := fun m hm => by
  by_cases e : m = n
  · subst e; exact h.used
  · rw [h.other m e]; exact hm

theorem allocproc_usedMono {c : NsId} {t g : Bool} {r : Option ProcId × Kernel}
    (h : allocproc (some c) t g k = some r) : UsedMono k r.2 :=
  allocproc_rule (UsedMono k) h (UsedMono.refl k) (fun h₁ hn => h₁.trans hn.usedMono)
    fun _ hf _ n hn => by
      rw [(fillPids_countersOnly hf).used n]
      exact hn

/-- 使用中のプロセスのシステムコールは、使用中の名前空間を返さない。 -/
theorem NsInv.syscall_usedMono {c : Syscall} {v : Int} (hk : NsInv k) (hp : Live k p)
    (h : Xv6.Process.syscall p c k = some (v, k')) : UsedMono k k' :=
  hk.syscall_rule (UsedMono k) (UsedMono.refl k) hp h (fun h₁ hn => h₁.trans hn.usedMono)
    (fun n np h₁ => h₁.trans (usedMono_head _ n np)) (fun _ _ _ h₁ hfr => h₁.trans hfr.usedMono)
    fun _ _ h₁ ha _ => h₁.trans (allocproc_usedMono ha)

/-! ## clone は空きの名前空間を一つ取る -/

/-- 空きの名前空間がある状態で使用中のプロセスが clone を呼ぶと、戻り値が -1 でも、空きだった
名前空間を一つ取っている。深さの検査、allocproc、uvmcopy の失敗の経路は、取った枠を返さない。 -/
theorem NsInv.clone_usedCount_lt_of_free {o : MemOutcome} {v : Int} (hk : NsInv k) (hp : Live k p)
    (h : clone p o k = some (v, k')) (hfree : ∃ n, (k.namespaces n).used = false) :
    usedCount k < usedCount k' := by
  rcases clone_cases (fun c hc => (hk.nsOK hp.1 hc).chain.used) h with ⟨-, -, hall⟩ |
      ⟨-, n, hfr⟩ | ⟨n, c, k₃, r, k₄, -, hfr, -, -, -, hal, hr⟩
  · obtain ⟨n, hn⟩ := hfree
    rw [hall n] at hn
    cases hn
  · exact hfr.usedMono.usedCount_lt hfr.unused hfr.used
  have h₄ : UsedMono k₃ k₄ := allocproc_usedMono hal
  have h₃ : UsedMono k₃ k' := by
    rcases hr with ⟨-, -, rfl⟩ | ⟨np, -, hf⟩
    · exact h₄
    · -- forkFinish は名前空間の表を、解放でも書き換えでも変えない
      refine (h₄.trans (usedMono_head k₄ n np)).trans fun m hm => ?_
      rcases forkFinish_cases hf with rfl | ⟨-, -, -, rfl⟩ <;> simpa using hm
  exact (hfr.usedMono.trans h₃).usedCount_lt hfr.unused (h₃ n hfr.used)

/-- 使用中のプロセスの clone が -1 でない値を返すと、空きだった名前空間を一つ取っている。 -/
theorem NsInv.clone_usedCount_lt {o : MemOutcome} {v : Int} (hk : NsInv k) (hp : Live k p)
    (h : clone p o k = some (v, k')) (hv : v ≠ -1) : usedCount k < usedCount k' := by
  -- -1 でない値を返すのは名前空間が取れた場合だけ
  rcases clone_cases (fun c hc => (hk.nsOK hp.1 hc).chain.used) h with ⟨rfl, -, -⟩ |
      ⟨-, n, hfr⟩ | ⟨n, _, _, _, _, -, hfr, -⟩
  · exact absurd rfl hv
  all_goals exact hk.clone_usedCount_lt_of_free hp h ⟨n, hfr.unused⟩

/-- すべての名前空間が使用中なら、clone は何も変えずに -1 を返す。 -/
theorem clone_of_usedCount {o : MemOutcome} (h : usedCount k = NUMNS) :
    clone p o k = some (-1, k) := by
  have hall : ∀ n : NsId, (k.namespaces n).used = true := by
    intro n
    by_contra hn
    have hlt : usedCount k < NUMNS := by
      refine lt_of_lt_of_le (Finset.card_lt_card ⟨Finset.subset_univ _, fun hsub => ?_⟩) (by simp)
      have := Finset.mem_filter.mp (hsub (Finset.mem_univ n))
      exact hn this.2
    omega
  have hnone : allocnamespace k = (none, k) := by
    unfold allocnamespace
    rw [firstIdx_eq_none_iff.mpr fun n => by simp [hall n]]
  unfold clone
  rw [hnone]

/-! ## どの経路でも -/

/-- 列の中で -1 でない値を返した clone の数。 -/
def cloneCount : List (ProcId × Syscall) → List Int → Nat
  | (_, .clone _) :: l, v :: vs => (if v = -1 then 0 else 1) + cloneCount l vs
  | _ :: l, _ :: vs => cloneCount l vs
  | _, _ => 0

/-- 到達可能な状態からのどの経路でも、-1 でない値を返した clone の数だけ使用中の名前空間が増える。 -/
theorem reach_runOut_cloneCount {l : List (ProcId × Syscall)} {vs : List Int} (hk : Reach k)
    (h : runOut l k = some (vs, k')) : usedCount k + cloneCount l vs ≤ usedCount k' := by
  induction l generalizing k vs with
  | nil =>
      simp only [runOut, Option.some.injEq, Prod.mk.injEq] at h
      obtain ⟨rfl, rfl⟩ := h
      simp [cloneCount]
  | cons a l ih =>
      obtain ⟨p, c⟩ := a
      obtain ⟨v, k₁, vs', hp, hs, hr, rfl⟩ := runOut_cons h
      have hinv := NsInv.reach hk
      have ih₁ := ih (Reachable.step hk ⟨p, c, v, hp, hs⟩) hr
      have hmono := (hinv.syscall_usedMono hp hs).usedCount_le
      cases c with
      | clone o =>
          simp only [cloneCount]
          split
          · omega
          · rename_i hv
            have := hinv.clone_usedCount_lt hp hs hv
            omega
      | _ => simp only [cloneCount]; omega

/-- 起動の後のどの経路でも、-1 でない値を返す clone は高々 `NUMNS - 1` 回。 -/
theorem runOut_cloneCount_le {l : List (ProcId × Syscall)} {vs : List Int}
    (h : runOut l (onlyInit 2 1) = some (vs, k')) : cloneCount l vs ≤ NUMNS - 1 := by
  have h₁ := reach_runOut_cloneCount reach_onlyInit h
  have h₀ : usedCount (onlyInit 2 1) = 1 := by decide
  have := usedCount_le k'
  omega

/-- init が A を clone し、A が C を clone する経路: 二つとも成功する。 -/
theorem runOut_cloneCount_le_twice :
    ∃ vs k', runOut [(0, .clone .ok), (1, .clone .ok)] (onlyInit 2 1) = some (vs, k') ∧
      cloneCount [(0, .clone .ok), (1, .clone .ok)] vs = 2 ∧
      cloneCount [(0, .clone .ok), (1, .clone .ok)] vs ≤ NUMNS - 1 := by
  obtain ⟨⟨vs, k'⟩, h, hb⟩ := (Option.any_eq_true _ _).mp (by decide +kernel :
    (runOut [(0, .clone .ok), (1, .clone .ok)] (onlyInit 2 1)).any
      (fun r => decide (cloneCount [(0, .clone .ok), (1, .clone .ok)] r.1 = 2)) = true)
  exact ⟨vs, k', h, of_decide_eq_true hb, runOut_cloneCount_le h⟩

/-- init の clone で作った A が exit し、init が wait で回収した後、名前空間 1 は根でなく、
使用中で `num_proc` は 1 のままだが、使用中のプロセスはすべて根の名前空間にいる。根の
`num_proc` も 2 のまま。 -/
theorem namespace_leak_run :
    ∃ k, run [(0, .clone .ok), (1, .exit 0), (0, .wait false)] (onlyInit 2 1) = some k ∧
      Reach k ∧ k.initnamespace = some 0 ∧ (k.namespaces 1).used = true ∧
      (k.namespaces 1).numProc = 1 ∧ (k.namespaces 0).numProc = 2 ∧
      ∀ q c, (k.proc q).state ≠ .unused → (k.proc q).ns = some c → ¬ InSubtree k 1 c := by
  have h : (run [(0, .clone .ok), (1, .exit 0), (0, .wait false)] (onlyInit 2 1)).any (fun k =>
      decide (k.initnamespace = some 0 ∧ (k.namespaces 1).used = true ∧
        (k.namespaces 1).numProc = 1 ∧ (k.namespaces 0).numProc = 2 ∧
        (k.namespaces 0).parent = none ∧
        ∀ q, (k.proc q).state ≠ .unused → (k.proc q).ns = some 0)) = true := by
    decide +kernel
  obtain ⟨k, hk, hb⟩ := (Option.any_eq_true _ _).mp h
  obtain ⟨hi, hu, hn1, hn0, hroot, hall⟩ := of_decide_eq_true hb
  refine ⟨k, hk, reach_run reach_onlyInit hk, hi, hu, hn1, hn0, fun q c hq hc hs => ?_⟩
  rw [hall q hq, Option.some.injEq] at hc
  subst hc
  exact absurd (hs.eq_of_parent_none hroot) (by decide)

/-- 起動の後、trapframe の kalloc が失敗する init の clone は -1 を返し、プロセス表の状態は元の
ままだが、取った名前空間 1 は使用中で、親が根、深さが 1 のまま残る。allocproc のループが増やした
根と名前空間 1 の `num_proc` も戻らない。trapframe の kalloc が失敗する init の fork も -1 を
返し、根の `num_proc` を 2 にしたまま残す。 -/
theorem alloc_failure_leaks_run :
    (∃ k, runOut [(0, .clone ⟨false, true, true⟩)] (onlyInit 2 1) = some ([-1], k) ∧ Reach k ∧
      (∀ q, (k.proc q).state = ((onlyInit 2 1).proc q).state) ∧
      ((onlyInit 2 1).namespaces 1).used = false ∧ (k.namespaces 1).used = true ∧
      (k.namespaces 1).parent = some 0 ∧ (k.namespaces 1).depth = 1 ∧
      (k.namespaces 1).numProc = 1 ∧ ((onlyInit 2 1).namespaces 0).numProc = 1 ∧
      (k.namespaces 0).numProc = 2) ∧
    ∃ k, runOut [(0, .fork ⟨false, true, true⟩)] (onlyInit 2 1) = some ([-1], k) ∧ Reach k ∧
      (∀ q, (k.proc q).state = ((onlyInit 2 1).proc q).state) ∧ (k.namespaces 0).numProc = 2 := by
  have hc : (runOut [(0, .clone ⟨false, true, true⟩)] (onlyInit 2 1)).any (fun r =>
      decide (r.1 = [-1] ∧ (∀ q, (r.2.proc q).state = ((onlyInit 2 1).proc q).state) ∧
        ((onlyInit 2 1).namespaces 1).used = false ∧ (r.2.namespaces 1).used = true ∧
        (r.2.namespaces 1).parent = some 0 ∧ (r.2.namespaces 1).depth = 1 ∧
        (r.2.namespaces 1).numProc = 1 ∧ ((onlyInit 2 1).namespaces 0).numProc = 1 ∧
        (r.2.namespaces 0).numProc = 2)) = true := by
    decide +kernel
  have hf : (runOut [(0, .fork ⟨false, true, true⟩)] (onlyInit 2 1)).any (fun r =>
      decide (r.1 = [-1] ∧ (∀ q, (r.2.proc q).state = ((onlyInit 2 1).proc q).state) ∧
        (r.2.namespaces 0).numProc = 2)) = true := by
    decide +kernel
  obtain ⟨⟨vs, k⟩, hk, hb⟩ := (Option.any_eq_true _ _).mp hc
  obtain ⟨rfl, hb⟩ := of_decide_eq_true hb
  obtain ⟨⟨vs', k'⟩, hk', hb'⟩ := (Option.any_eq_true _ _).mp hf
  obtain ⟨rfl, hb'⟩ := of_decide_eq_true hb'
  exact ⟨⟨k, hk, reach_runOut reach_onlyInit hk, hb⟩, k', hk', reach_runOut reach_onlyInit hk', hb'⟩

end Xv6.Process
