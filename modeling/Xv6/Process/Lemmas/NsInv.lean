import Xv6.Process.Lemmas.Tree
import Xv6.Process.Lemmas.Boot

/-!
# 名前空間の木の不変条件

使用中のプロセスの名前空間は正しい鎖の上にあり、空きの枠の親は null である（`NsInv`）。
これは起動の後に成り立ち、どのシステムコールでも保たれる。
-/

namespace Xv6.Process

open Xv6.Lib

variable {k k' k₁ : Kernel} {p np : ProcId}

/-- 名前空間の木の不変条件。 -/
structure NsInv (k : Kernel) : Prop where
  /-- 使用中のプロセスの名前空間は null でなく、正しい鎖の上にある。 -/
  chain : ∀ q, (k.proc q).state ≠ .unused → ∃ c, (k.proc q).ns = some c ∧ NsOK k c
  /-- 空きの枠の親は null。 -/
  clean : FreeClean k

theorem NsInv.nsOK (hk : NsInv k) {q : ProcId} {c : NsId} (hq : (k.proc q).state ≠ .unused)
    (hc : (k.proc q).ns = some c) : NsOK k c := by
  obtain ⟨c', hc', hok⟩ := hk.chain q hq
  rw [hc, Option.some.injEq] at hc'
  exact hc' ▸ hok

/-! ## 書き換えの種類ごとの保存 -/

theorem NsInv.noAlloc (hk : NsInv k) (h : NoAlloc k k') : NsInv k' where
  chain q hq := by
    obtain ⟨hu, hn, -, -⟩ := (h.slot q).inUse hq
    obtain ⟨c, hc, hok⟩ := hk.chain q hu
    exact ⟨c, hn.trans hc, hok.keep (KeepsShape.of_namespaces h.namespaces h.initnamespace)⟩
  clean := h.freeClean hk.clean

theorem NsInv.keepsShape (hk : NsInv k) (hs : KeepsShape k k') (hp : k'.proc = k.proc) :
    NsInv k' where
  chain q hq := by
    rw [hp] at hq ⊢
    obtain ⟨c, hc, hok⟩ := hk.chain q hq
    exact ⟨c, hc, hok.keep hs⟩
  clean q hq := by rw [hp] at hq ⊢; exact hk.clean q hq

/-- 使用中でなかった名前空間 n だけを書き換えても、形は変わらない。 -/
theorem KeepsShape.of_fresh {n : NsId} (hn : (k.namespaces n).used = false)
    (h : ∀ m, m ≠ n → k'.namespaces m = k.namespaces m)
    (hi : k'.initnamespace = k.initnamespace) : KeepsShape k k' where
  ns m hm := by
    have : m ≠ n := by rintro rfl; rw [hn] at hm; cases hm
    rw [h m this]; exact ⟨rfl, rfl, hm⟩
  initnamespace := hi

/-- allocproc のループの後: 空きだった枠 np が、正しい鎖の上の名前空間 c のプロセスになる。 -/
theorem NsInv.alloc {c : NsId} (hk : NsInv k) (hc : NsOK k c) (hnp : (k.proc np).state = .unused)
    (hf : fillPids np (k.namespaces c).depth (some c) (allocInit np (some c) k) = some k₁) :
    NsInv k₁ := by
  have h₁ := fillPids_countersOnly hf
  have h₀ : KeepsShape k (allocInit np (some c) k) := KeepsShape.of_namespaces rfl rfl
  have hs : KeepsShape k k₁ := h₀.trans h₁.keepsShape
  refine ⟨fun q hq => ?_, fun q hq => ?_⟩
  · obtain ⟨hst, -, hns, -⟩ := h₁.proc_field q
    by_cases e : q = np
    · subst e
      simp only [allocInit_proc] at hns
      exact ⟨c, hns, hc.keep hs⟩
    · simp only [allocInit_proc, if_neg e] at hst hns
      obtain ⟨c', hc', hok⟩ := hk.chain q (hst ▸ hq)
      exact ⟨c', hns.trans hc', hok.keep hs⟩
  · obtain ⟨hst, hpar, -, -⟩ := h₁.proc_field q
    by_cases e : q = np
    · subst e; simp at hst; rw [hst] at hq; cases hq
    · simp only [allocInit_proc, if_neg e] at hst hpar
      rw [hpar]; exact hk.clean q (hst ▸ hq)

/-- fork と clone の後半で、使用中の子の親と状態を書く。 -/
theorem NsInv.forkDone (hk : NsInv k) (hnp : (k.proc np).state ≠ .unused) :
    NsInv ((k.updProc np fun q => { q with parent := some p }).updProc np
      fun q => { q with state := .runnable }) :=
  hk.noAlloc (forkDone_noAlloc hnp)


/-- 使用中の枠は使用中のまま。 -/
def KeepsInUse (k k' : Kernel) : Prop :=
  ∀ q, (k.proc q).state ≠ .unused → (k'.proc q).state ≠ .unused

/-- 使用中でなかった n に、正しい鎖の上の c の子として親と深さを書くと、n も正しい鎖の上にある。 -/
theorem NsOK.child {c n : NsId} (hok : NsOK k c) (hn : (k.namespaces n).used = false)
    (h : ∀ m, m ≠ n → k'.namespaces m = k.namespaces m) (hi : k'.initnamespace = k.initnamespace)
    (hu : (k'.namespaces n).used = true) (hp : (k'.namespaces n).parent = some c)
    (hd : (k'.namespaces n).depth = (k.namespaces c).depth + 1)
    (hlt : (k.namespaces c).depth + 1 < MAXDEPTH) : NsOK k' n := by
  have hcd : ChainOK k' (k.namespaces c).depth c := hok.chain.keep (KeepsShape.of_fresh hn h hi)
  have : ChainOK k' ((k.namespaces c).depth + 1) n := ⟨hu, hd, hlt, c, hp, hcd⟩
  exact this.nsOK

/-! ## 止まらずに不変条件を保つ関数

正しい鎖の上では、allocproc, fork, clone, reparent, exit は `none`（参照外し、範囲外の書き込み、
終わらないループ）に当たらない。fork と clone は結果の状態で不変条件を保つ。 -/

/-- 正しい鎖の上の名前空間 c での allocproc は止まらず、不変条件と使用中の枠を保ち、返した枠は
使用中。 -/
theorem NsInv.allocproc_total {c : NsId} (t g : Bool) (hk : NsInv k) (hc : NsOK k c) :
    ∃ r, allocproc (some c) t g k = some r ∧ NsInv r.2 ∧ KeepsInUse k r.2 ∧
      ∀ np, r.1 = some np → (r.2.proc np).state ≠ .unused := by
  unfold Xv6.Process.allocproc
  split
  · exact ⟨(none, k), rfl, hk, fun _ h => h, by simp⟩
  rename_i np hnp
  have hu : (k.proc np).state = .unused := by simpa using firstIdx_spec hnp
  have h₀ : KeepsShape k (allocInit np (some c) k) := KeepsShape.of_namespaces rfl rfl
  have hc₀ : ChainOK (allocInit np (some c) k) (k.namespaces c).depth c := hc.chain.keep h₀
  obtain ⟨k₁, hf, -⟩ := fillPids_spec np hc₀
  have hk₁ := hk.alloc hc hu hf
  -- 使用中だった枠は np ではないので、fillPids と freeproc np の後も使用中
  have hst : ∀ q, (k₁.proc q).state = if q = np then .used else (k.proc q).state := by
    intro q
    rw [((fillPids_countersOnly hf).proc_field q).1]
    by_cases e : q = np <;> simp [e]
  have hkeep₁ : KeepsInUse k k₁ := by
    intro q hq
    have e : q ≠ np := by rintro rfl; exact hq hu
    rw [hst, if_neg e]; exact hq
  have hkeep₂ : KeepsInUse k (freeproc np k₁) := by
    intro q hq
    have e : q ≠ np := by rintro rfl; exact hq hu
    simpa [freeproc_eq, e] using hkeep₁ q hq
  simp only [allocInit_namespaces, Option.bind_eq_bind, Option.bind_some, hf]
  cases t
  · exact ⟨_, rfl, hk₁.noAlloc (freeproc_noAlloc _ _), hkeep₂, by simp⟩
  cases g
  · exact ⟨_, rfl, hk₁.noAlloc (freeproc_noAlloc _ _), hkeep₂, by simp⟩
  refine ⟨_, rfl, hk₁, hkeep₁, ?_⟩
  rintro _ ⟨⟩
  rw [hst, if_pos rfl]; simp

/-- fork と clone の後半は止まらず、不変条件を保つ。 -/
theorem NsInv.forkFinish_total (u : Bool) (hk : NsInv k) (hp : (k.proc p).state ≠ .unused)
    (hnp : (k.proc np).state ≠ .unused) :
    ∃ v k', forkFinish p np u k = some (v, k') ∧ NsInv k' := by
  obtain ⟨c, hc, hok⟩ := hk.chain p hp
  unfold Xv6.Process.forkFinish
  cases u
  · exact ⟨_, _, rfl, hk.noAlloc (freeproc_noAlloc _ _)⟩
  · simp only [Bool.not_true, hc, pidAt_of_lt _ hok.chain.lt, Option.bind_eq_bind, Option.bind_some]
    exact ⟨_, _, rfl, hk.forkDone hnp⟩

theorem NsInv.fork_total (o : MemOutcome) (hk : NsInv k) (hp : (k.proc p).state ≠ .unused) :
    ∃ v k', fork p o k = some (v, k') ∧ NsInv k' := by
  obtain ⟨c, hc, hok⟩ := hk.chain p hp
  obtain ⟨⟨r, k₁⟩, ha, hk₁, hkeep, hnew⟩ := hk.allocproc_total o.trapframe o.pagetable hok
  unfold Xv6.Process.fork
  rw [hc, ha]
  simp only [Option.bind_eq_bind, Option.bind_some]
  cases r with
  | none => exact ⟨_, _, rfl, hk₁⟩
  | some np => exact hk₁.forkFinish_total o.uvmcopy (hkeep p hp) (hnew np rfl)

theorem NsInv.clone_total (o : MemOutcome) (hk : NsInv k) (hp : (k.proc p).state ≠ .unused) :
    ∃ v k', clone p o k = some (v, k') ∧ NsInv k' := by
  obtain ⟨c, hc, hok⟩ := hk.chain p hp
  unfold Xv6.Process.clone
  rcases allocnamespace_cases k with ⟨ha, -⟩ | ⟨n, hn, ha⟩
  · rw [ha]; exact ⟨_, _, rfl, hk⟩
  rw [ha]
  simp only [Kernel.updNs_proc, hc, Option.bind_eq_bind, Option.bind_some]
  -- 取った名前空間 n は使用中でなかったので、n の書き換えは木の形を変えない
  set k₂ := (k.updNs n fun m =>
      { m with head := none, parent := none, used := true, numProc := 0, depth := 0,
               nextNsPid := 1 }).updNs n fun m => { m with parent := some c } with hk₂
  have hnc : n ≠ c := by
    rintro rfl
    have := hok.chain.used
    rw [hn] at this; cases this
  have hdc : (k₂.namespaces c).depth = (k.namespaces c).depth := by simp [hk₂, hnc.symm]
  split
  · exact ⟨_, _, rfl, hk.keepsShape (KeepsShape.of_fresh hn (fun m hm => by simp [hk₂, hm]) rfl) rfl⟩
  rename_i hdepth
  rw [hdc] at hdepth
  set k₃ := k₂.updNs n fun m => { m with depth := (k₂.namespaces c).depth + 1 } with hk₃
  have hinv₃ : NsInv k₃ :=
    hk.keepsShape (KeepsShape.of_fresh hn (fun m hm => by simp [hk₃, hk₂, hm]) rfl) rfl
  -- 新しい名前空間 n は、c の子として正しい鎖の上にある
  have hok₃ : NsOK k₃ n :=
    hok.child hn (fun m hm => by simp [hk₃, hk₂, hm]) rfl (by simp [hk₃, hk₂]) (by simp [hk₃, hk₂])
      (by simp [hk₃, hdc]) (by omega)
  obtain ⟨⟨r, k₄⟩, hal, hk₄, hkeep, hnew⟩ := hinv₃.allocproc_total o.trapframe o.pagetable hok₃
  rw [hal]
  cases r with
  | none => exact ⟨_, _, rfl, hk₄⟩
  | some np =>
      have hhead : NsInv (k₄.updNs n fun m => { m with head := some np }) :=
        hk₄.keepsShape ⟨fun m hm => by
          simp only at hm
          by_cases e : m = n
          · subst e; simp [hm]
          · simp [e, hm], rfl⟩ rfl
      exact hhead.forkFinish_total o.uvmcopy (by simpa using hkeep p hp) (by simpa using hnew np rfl)

/-- 使用中のプロセスの親を付け替える reparent は止まらない: 親が p の枠は使用中で
（空きの枠の親は null）、その名前空間から `get_ns_head` の走査は終わる。 -/
theorem NsInv.reparent_total (hk : NsInv k) (p : ProcId) : ∃ k', reparent p k = some k' := by
  refine (foldlM_option_total NsInv _ (List.finRange NPROC) k hk ?_).imp fun _ h => h.1
  intro k₁ pp _ hk₁
  split
  · rename_i hpar
    have hu : (k₁.proc pp).state ≠ .unused := by
      intro hu; rw [hk₁.clean pp hu] at hpar; cases hpar
    obtain ⟨c, hc, hok⟩ := hk₁.chain pp hu
    obtain ⟨np, hnp⟩ := Option.ne_none_iff_exists'.mp (getNsHead_ne_none hok)
    rw [hc, hnp]
    refine ⟨_, rfl, hk₁.noAlloc ?_⟩
    exact (updProc_noAlloc pp _ hu hu rfl rfl rfl).trans (wakeup_noAlloc _ _ _)
  · exact ⟨k₁, rfl, hk₁⟩

/-- initproc 以外の使用中のプロセスの exit は止まらない。 -/
theorem NsInv.exit_total (st : Int) (hk : NsInv k) (hi : k.initproc ≠ some p) :
    ∃ k', exit p st k = some k' := by
  obtain ⟨k₁, hr⟩ := hk.reparent_total p
  unfold Xv6.Process.exit
  rw [if_neg hi, hr]
  exact ⟨_, rfl⟩

theorem NsInv.syscall {c : Syscall} {v : Int} (hk : NsInv k) (hp : Live k p)
    (h : syscall p c k = some (v, k')) : NsInv k' := by
  cases c with
  | fork o =>
      obtain ⟨v', k₁, hf, hk₁⟩ := hk.fork_total o hp.1
      rw [show Xv6.Process.syscall p (.fork o) k = Xv6.Process.fork p o k from rfl, hf] at h
      cases h; exact hk₁
  | clone o =>
      obtain ⟨v', k₁, hf, hk₁⟩ := hk.clone_total o hp.1
      rw [show Xv6.Process.syscall p (.clone o) k = Xv6.Process.clone p o k from rfl, hf] at h
      cases h; exact hk₁
  | exit status =>
      simp only [Xv6.Process.syscall, Option.map_eq_some_iff, Prod.mk.injEq] at h
      obtain ⟨k₁, hx, -, rfl⟩ := h
      exact hk.noAlloc (exit_noAlloc hk.clean hp.1 hx)
  | wait b => exact hk.noAlloc (wait_noAlloc h)
  | kill pid =>
      simp only [Xv6.Process.syscall, Option.some.injEq] at h
      have hn := kill_noAlloc pid k
      rw [h] at hn
      exact hk.noAlloc hn
  | getpid =>
      simp only [Xv6.Process.syscall, Option.map_eq_some_iff, Prod.mk.injEq] at h
      obtain ⟨_, -, -, rfl⟩ := h; exact hk
  | getppid =>
      simp only [Xv6.Process.syscall, Option.some.injEq, Prod.mk.injEq] at h
      obtain ⟨-, rfl⟩ := h; exact hk
  | psList limit global copyout =>
      simp only [Xv6.Process.syscall, Option.map_eq_some_iff, Prod.mk.injEq] at h
      obtain ⟨_, -, -, rfl⟩ := h; exact hk
  | psInfo pid ok =>
      simp only [Xv6.Process.syscall, Option.map_eq_some_iff, Prod.mk.injEq] at h
      obtain ⟨_, -, -, rfl⟩ := h; exact hk

/-! ## システムコールが保つ性質の規則 -/

/-- 使用中のプロセスのシステムコールは、割り当てのない書き換え（`NoAlloc`）、名前空間の head の
書き込み、clone が取った名前空間の初期化（`FreshNs`）と、正しい鎖の上の名前空間での allocproc を
組み合わせたものである。この四つで保たれる性質は、システムコールで保たれる。allocproc の規則には、
その後の `nextpid` がシステムコールの後と同じであることも渡す。 -/
theorem NsInv.syscall_rule (I : Kernel → Prop) {c : Syscall} {v : Int} (hk : NsInv k) (hI : I k)
    (hp : Live k p) (h : Xv6.Process.syscall p c k = some (v, k'))
    (noAlloc : ∀ {k₁ k₂}, I k₁ → NoAlloc k₁ k₂ → I k₂)
    (head : ∀ {k₁} n np, I k₁ → I (k₁.updNs n fun m => { m with head := some np }))
    (fresh : ∀ {k₁ k₂ c} n, NsInv k₁ → NsOK k₁ c → I k₁ → FreshNs k₁ k₂ n → I k₂)
    (alloc : ∀ {k₁ k₂ c t g r}, NsInv k₁ → NsOK k₁ c → I k₁ →
      allocproc (some c) t g k₁ = some (r, k₂) → k₂.nextpid = k'.nextpid → I k₂) :
    I k' := by
  obtain ⟨c₀, hc₀, hok₀⟩ := hk.chain p hp.1
  cases c with
  | fork o =>
      change Xv6.Process.fork p o k = some (v, k') at h
      obtain ⟨r, k₁, ha, hr⟩ := fork_cases h
      rw [hc₀] at ha
      rcases hr with ⟨rfl, -, rfl⟩ | ⟨np, rfl, hf⟩
      · exact alloc hk hok₀ hI ha rfl
      · -- 返した子は使用中なので、後半は割り当ても解放もしない
        obtain ⟨r', ha', -, -, hnew⟩ := hk.allocproc_total o.trapframe o.pagetable hok₀
        rw [ha, Option.some.injEq] at ha'
        subst ha'
        have hna := forkFinish_noAlloc (hnew np rfl) hf
        exact noAlloc (alloc hk hok₀ hI ha hna.nextpid.symm) hna
  | clone o =>
      change Xv6.Process.clone p o k = some (v, k') at h
      rcases clone_cases (fun c hc => (hk.nsOK hp.1 hc).chain.used) h with ⟨-, rfl, -⟩ |
          ⟨-, n, hfr⟩ | ⟨n, c, k₃, r, k₄, hc, hfr, hpar, hdep, hlt, hal, hr⟩
      · exact hI
      · exact fresh n hk hok₀ hI hfr
      rw [hc₀, Option.some.injEq] at hc
      subst hc
      have hk₃ : NsInv k₃ :=
        hk.keepsShape (KeepsShape.of_fresh hfr.unused hfr.other hfr.initnamespace) hfr.proc
      have hI₃ := fresh n hk hok₀ hI hfr
      have hok₃ : NsOK k₃ n :=
        hok₀.child hfr.unused hfr.other hfr.initnamespace hfr.used hpar hdep hlt
      rcases hr with ⟨rfl, -, rfl⟩ | ⟨np, rfl, hf⟩
      · exact alloc hk₃ hok₃ hI₃ hal rfl
      obtain ⟨r', hal', -, -, hnew⟩ := hk₃.allocproc_total o.trapframe o.pagetable hok₃
      rw [hal, Option.some.injEq] at hal'
      subst hal'
      have hna := forkFinish_noAlloc (by simpa using hnew np rfl) hf
      exact noAlloc (head n np (alloc hk₃ hok₃ hI₃ hal (by simpa using hna.nextpid.symm))) hna
  | exit status =>
      simp only [Xv6.Process.syscall, Option.map_eq_some_iff, Prod.mk.injEq] at h
      obtain ⟨k₁, hx, -, rfl⟩ := h
      exact noAlloc hI (exit_noAlloc hk.clean hp.1 hx)
  | wait b => exact noAlloc hI (wait_noAlloc h)
  | kill pid =>
      simp only [Xv6.Process.syscall, Option.some.injEq] at h
      have hn := kill_noAlloc pid k
      rw [h] at hn
      exact noAlloc hI hn
  | getpid =>
      simp only [Xv6.Process.syscall, Option.map_eq_some_iff, Prod.mk.injEq] at h
      obtain ⟨_, -, -, rfl⟩ := h; exact hI
  | getppid =>
      simp only [Xv6.Process.syscall, Option.some.injEq, Prod.mk.injEq] at h
      obtain ⟨-, rfl⟩ := h; exact hI
  | psList limit global copyout =>
      simp only [Xv6.Process.syscall, Option.map_eq_some_iff, Prod.mk.injEq] at h
      obtain ⟨_, -, -, rfl⟩ := h; exact hI
  | psInfo pid ok =>
      simp only [Xv6.Process.syscall, Option.map_eq_some_iff, Prod.mk.injEq] at h
      obtain ⟨_, -, -, rfl⟩ := h; exact hI

/-! ## 起動の後と到達可能な状態 -/

theorem NsInv.onlyInit (c n : Int) : NsInv (onlyInit c n) where
  chain q hq := by
    by_cases e : q = 0
    · subst e
      refine ⟨0, by simp [Xv6.Process.onlyInit], ?_⟩
      show ChainOK _ _ _
      simp [Xv6.Process.onlyInit, ChainOK, Namespace.empty]
    · rw [onlyInit_proc_ne e] at hq; exact absurd rfl hq
  clean q hq := by
    by_cases e : q = 0
    · subst e; simp [Xv6.Process.onlyInit] at hq
    · rw [onlyInit_proc_ne e]; rfl

theorem NsInv.reach (h : Reach k) : NsInv k :=
  Reachable.inv (fun _ hs => init_iff.mp hs ▸ NsInv.onlyInit 2 1)
    (fun _ _ hk ⟨_, _, _, hp, hs⟩ => hk.syscall hp hs) h

end Xv6.Process
