import Xv6.Process.Lemmas.NsInv

/-!
# 大域の pid と名前空間の pid

fork, clone, getpid, ps_list はプロセスを `pids[depth]` で呼び、wait, kill, ps_info は大域の
`pid` で呼ぶ。allocproc は `nextpid` と根の `next_ns_pid` を一つずつ進めるので二つの数は
いつも等しく、大域の `pid` は `pids[0]` である（`PidSync`）。根の名前空間の外では二つは異なる。
-/

namespace Xv6.Process

open Xv6.Lib

variable {k k' k₁ : Kernel} {p : ProcId}

/-! ## 大域の pid は根の名前空間の pid -/

/-- 根の `next_ns_pid` は `nextpid` に等しく、使用中のプロセスの大域の `pid` は `pids[0]`。 -/
structure PidSync (k : Kernel) : Prop where
  root : ∀ r, k.initnamespace = some r → (k.namespaces r).nextNsPid = k.nextpid
  pid_eq : ∀ q, (k.proc q).state ≠ .unused → pidAt (k.proc q) 0 = some (k.proc q).pid

theorem PidSync.noAlloc (hs : PidSync k) (h : NoAlloc k k') : PidSync k' where
  root r hr := by
    rw [h.namespaces, h.nextpid]
    exact hs.root r (h.initnamespace ▸ hr)
  pid_eq q hq := by
    obtain ⟨hu, -, hp, hi⟩ := (h.slot q).inUse hq
    rw [pidAt_congr hp, hi]
    exact hs.pid_eq q hu

theorem PidSync.head (hs : PidSync k) (n : NsId) (np : ProcId) :
    PidSync (k.updNs n fun m => { m with head := some np }) where
  root r hr := by
    have e : ((k.updNs n fun m => { m with head := some np }).namespaces r).nextNsPid =
        (k.namespaces r).nextNsPid := by
      by_cases e : r = n <;> simp [e]
    rw [e]
    exact hs.root r hr
  pid_eq := hs.pid_eq

/-- clone が取った名前空間 n は使用中でなかったので、根ではない。 -/
theorem PidSync.freshNs {n c : NsId} (hs : PidSync k) (hc : NsOK k c) (h : FreshNs k k' n) :
    PidSync k' where
  root r hr := by
    rw [h.initnamespace] at hr
    obtain ⟨r', hr', hok⟩ := hc.chain.root
    rw [hr, Option.some.injEq] at hr'
    subst hr'
    have hne : r ≠ n := by
      rintro rfl
      have hu := hok.used
      rw [h.unused] at hu
      cases hu
    rw [h.other r hne, h.nextpid]
    exact hs.root r hr
  pid_eq q hq := by
    rw [h.proc] at hq ⊢
    exact hs.pid_eq q hq

/-- allocproc のループの後: np の大域の pid は以前の `nextpid`、`pids[0]` は根の以前の
`next_ns_pid` で、二つは等しい。どちらも同じく一つ進む。 -/
theorem PidSync.alloc {c : NsId} {np : ProcId} (hs : PidSync k) (hc : NsOK k c)
    (hf : fillPids np (k.namespaces c).depth (some c) (allocInit np (some c) k) = some k₁) :
    PidSync k₁ := by
  have h₀ : KeepsShape k (allocInit np (some c) k) := KeepsShape.of_namespaces rfl rfl
  obtain ⟨k₂, hf₂, hpids, -, hcnt, -⟩ := fillPids_spec np (hc.chain.keep h₀)
  rw [hf, Option.some.injEq] at hf₂
  subst hf₂
  have h₁ := fillPids_countersOnly hf
  obtain ⟨r, hr, hok⟩ := hc.chain.root
  have hrc : InSubtree (allocInit np (some c) k) r c :=
    (InSubtree.of_parent (k := k) (fun _ => rfl :
      ∀ m, ((allocInit np (some c) k).namespaces m).parent = (k.namespaces m).parent)).mpr
      (hc.chain.root_inSubtree hr)
  have hr₁ : k₁.initnamespace = some r := by rw [h₁.initnamespace]; exact hr
  refine ⟨fun r' hr' => ?_, fun q hq => ?_⟩
  · rw [hr₁, Option.some.injEq] at hr'
    subst hr'
    rw [hcnt r hrc, h₁.nextpid, allocInit_nextpid, allocInit_namespaces, hs.root r hr]
  · obtain ⟨hst, -, -, hpid⟩ := h₁.proc_field q
    by_cases e : q = np
    · subst e
      have hlt : ((allocInit q (some c) k).namespaces r).depth < MAXDEPTH := by
        rw [allocInit_namespaces, hok.depth_eq]; decide
      have h0 : ((allocInit q (some c) k).namespaces r).depth = 0 := hok.depth_eq
      rw [hpid, allocInit_proc, if_pos rfl, pidAt_of_lt _ (by decide)]
      have := hpids r hlt hrc
      simp only [h0] at this
      rw [this, allocInit_namespaces, hs.root r hr]
    · rw [h₁.proc_other q e, allocInit_proc, if_neg e] at hq ⊢
      exact hs.pid_eq q hq

theorem PidSync.allocproc {c : NsId} {t g : Bool} {r : Option ProcId × Kernel} (hs : PidSync k)
    (hc : NsOK k c) (h : allocproc (some c) t g k = some r) : PidSync r.2 :=
  allocproc_rule PidSync h hs (fun hs hn => hs.noAlloc hn) fun _ hf _ => hs.alloc hc hf

theorem PidSync.syscall {c : Syscall} {v : Int} (hk : NsInv k) (hs : PidSync k) (hp : Live k p)
    (h : syscall p c k = some (v, k')) : PidSync k' :=
  hk.syscall_rule PidSync hs hp h (fun hs hn => hs.noAlloc hn) (fun n np hs => hs.head n np)
    (fun _ _ hc hs hfr => hs.freshNs hc hfr) (fun _ hc hs ha _ => hs.allocproc hc ha)

theorem PidSync.onlyInit (c n : Int) : PidSync (onlyInit c n) where
  root r hr := by
    simp only [Xv6.Process.onlyInit, Option.some.injEq] at hr
    subst hr
    simp [Xv6.Process.onlyInit]
  pid_eq q hq := by
    by_cases e : q = 0
    · subst e
      simp [Xv6.Process.onlyInit, pidAt]
    · rw [onlyInit_proc_ne e] at hq
      exact absurd rfl hq

theorem PidSync.reach (h : Reach k) : PidSync k :=
  (Reachable.inv (I := fun k => NsInv k ∧ PidSync k)
    (fun _ hs => by rw [init_iff.mp hs]; exact ⟨NsInv.onlyInit 2 1, PidSync.onlyInit 2 1⟩)
    (fun _ _ ⟨hk, hs⟩ ⟨_, _, _, hp, h⟩ => ⟨hk.syscall hp h, hs.syscall hk hp h⟩) h).2

/-! ## wait -/

/-- wait の結果: -1 を返して何も変えないか、親が p の ZOMBIE の子 q を解放して、その大域の
pid を返した。 -/
theorem wait_cases {b : Bool} {v : Int} (h : wait p b k = some (v, k')) :
    (v = -1 ∧ k' = k) ∨ ∃ q, (k.proc q).parent = some p ∧ (k.proc q).state = .zombie ∧
      v = (k.proc q).pid ∧ k' = freeproc q k := by
  unfold wait at h
  split at h
  · rename_i q hq
    have hz := firstIdx_spec hq
    simp only [Bool.and_eq_true, beq_iff_eq] at hz
    split at h
    · cases h; exact Or.inl ⟨rfl, rfl⟩
    · cases h; exact Or.inr ⟨q, hz.1, hz.2, rfl, rfl⟩
  · simp only at h
    split at h
    · cases h; exact Or.inl ⟨rfl, rfl⟩
    · cases h

/-- 到達可能な状態で wait が返す -1 でない値は、回収した子の根の名前空間での pid `pids[0]`。 -/
theorem reach_wait_pid {b : Bool} {v : Int} (hk : Reach k) (h : wait p b k = some (v, k'))
    (hv : v ≠ -1) : ∃ q, (k.proc q).parent = some p ∧ (k.proc q).state = .zombie ∧
      pidAt (k.proc q) 0 = some v ∧ k' = freeproc q k := by
  rcases wait_cases h with ⟨rfl, -⟩ | ⟨q, hpar, hz, rfl, rfl⟩
  · exact absurd rfl hv
  · refine ⟨q, hpar, hz, (PidSync.reach hk).pid_eq q ?_, rfl⟩
    rw [hz]; simp

/-- init が clone した A（名前空間 1）が fork した B は、fork と getpid では A の名前空間での
pid 2 を受け取るが、B が exit した後の A の wait は B の大域の pid 3 を返す。 -/
theorem wait_global_pid_run :
    ∃ k, runOut [(0, .clone .ok), (1, .fork .ok), (2, .getpid), (2, .exit 0), (1, .wait false)]
      (onlyInit 2 1) = some ([2, 2, 2, 0, 3], k) ∧ Reach k := by
  have h : (runOut [(0, .clone .ok), (1, .fork .ok), (2, .getpid), (2, .exit 0), (1, .wait false)]
      (onlyInit 2 1)).any (fun r => decide (r.1 = [2, 2, 2, 0, 3])) = true := by
    decide +kernel
  obtain ⟨⟨vs, k⟩, hk, hb⟩ := (Option.any_eq_true _ _).mp h
  obtain rfl : vs = [2, 2, 2, 0, 3] := of_decide_eq_true hb
  exact ⟨k, hk, reach_runOut reach_onlyInit hk⟩

/-! ## kill -/

/-- kill(v) は、大域の pid が v の最初の枠に印を付けて 0 を返し、ほかの枠は変えない。
その枠の状態も名前空間も見ない。そのような枠がなければ -1 を返して何も変えない。 -/
theorem kill_cases (v : Int) (k : Kernel) :
    (kill v k = (-1, k) ∧ ∀ q, (k.proc q).pid ≠ v) ∨
    ∃ q, (k.proc q).pid = v ∧ (∀ j, j < q → (k.proc j).pid ≠ v) ∧ (kill v k).1 = 0 ∧
      ((kill v k).2.proc q).killed = true ∧ ∀ j, j ≠ q → (kill v k).2.proc j = k.proc j := by
  unfold kill
  split
  · rename_i hq
    refine Or.inl ⟨rfl, fun q => ?_⟩
    simpa using firstIdx_eq_none_iff.mp hq q
  · rename_i q hq
    obtain ⟨hv, hfirst⟩ := firstIdx_eq_some_iff.mp hq
    refine Or.inr ⟨q, by simpa using hv, fun j hj => by simpa using hfirst j hj, rfl, by simp,
      fun j hj => by simp [hj]⟩

/-- 到達可能な状態で kill(v) が 0 を返すと、印を付けた枠は、使用中なら根の名前空間での pid
`pids[0]` が v のプロセスで、空きなら大域の pid が v の空きの枠。 -/
theorem reach_kill_marks {v : Int} (hk : Reach k) (h : (kill v k).1 = 0) :
    ∃ q, ((kill v k).2.proc q).killed = true ∧ (k.proc q).pid = v ∧
      ((k.proc q).state ≠ .unused → pidAt (k.proc q) 0 = some v) := by
  rcases kill_cases v k with ⟨e, -⟩ | ⟨q, hv, -, -, hkill, -⟩
  · rw [e] at h; cases h
  · refine ⟨q, hkill, hv, fun hq => ?_⟩
    rw [← hv]
    exact (PidSync.reach hk).pid_eq q hq

/-- init が clone した A（枠 1、名前空間 1 で pid 1）が kill(1) を呼ぶと、0 が返り、名前空間 1 の
外の init（枠 0）に印が付き、A には付かない。続けて init が kill(0) を呼ぶと空きの枠 2 に印が
付き、init の次の fork はその枠を印の付いたまま子にする。 -/
theorem kill_global_pid_run :
    ∃ k, runOut [(0, .clone .ok), (1, .kill 1), (0, .kill 0), (0, .fork .ok)] (onlyInit 2 1) =
      some ([2, 0, 0, 3], k) ∧ Reach k ∧
      (k.proc 0).killed = true ∧ (k.proc 0).ns = some 0 ∧ ¬ InSubtree k 1 0 ∧
      (k.proc 1).ns = some 1 ∧ pidAt (k.proc 1) 1 = some 1 ∧ (k.proc 1).killed = false ∧
      (k.proc 2).state = .runnable ∧ (k.proc 2).killed = true := by
  have h : (runOut [(0, .clone .ok), (1, .kill 1), (0, .kill 0), (0, .fork .ok)]
      (onlyInit 2 1)).any (fun r => decide (r.1 = [2, 0, 0, 3] ∧ (r.2.proc 0).killed = true ∧
        (r.2.proc 0).ns = some 0 ∧ (r.2.namespaces 0).parent = none ∧
        (r.2.proc 1).ns = some 1 ∧ pidAt (r.2.proc 1) 1 = some 1 ∧
        (r.2.proc 1).killed = false ∧ (r.2.proc 2).state = .runnable ∧
        (r.2.proc 2).killed = true)) = true := by
    decide +kernel
  obtain ⟨⟨vs, k⟩, hk, hb⟩ := (Option.any_eq_true _ _).mp h
  obtain ⟨rfl, h0, hns0, hroot, hns1, hpid, h1, hst, h2⟩ := of_decide_eq_true hb
  refine ⟨k, hk, reach_runOut reach_onlyInit hk, h0, hns0, fun hs => ?_, hns1, hpid, h1, hst, h2⟩
  exact absurd (hs.eq_of_parent_none hroot) (by decide)

end Xv6.Process
