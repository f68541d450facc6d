import Xv6.Process.Lemmas.Safety
import Xv6.Process.Lemmas.Pids
import Xv6.Process.Lemmas.Cycle
import Xv6.Process.Lemmas.PsList

/-!
# プロセスと名前空間の定理

到達可能な状態についての主な結果。証明に使う補題は `Lemmas/` に置く。名前空間の木の形と
止まらない関数は、`Lemmas/NsInv.lean` の不変条件 `NsInv` から導く。
-/

namespace Xv6.Process

open Xv6.Lib

/-- 到達可能な状態では、使用中のプロセスの名前空間とその祖先は形が正しく、使用中のプロセスが
呼ぶ fork, clone, exit, getpid, getppid, ps_list と、名前空間をたどる `compare_ns` と
`get_ns_head`、見つかった枠についての ps_info は `none` に当たらない。 -/
theorem reach_nsSafe {k : Kernel} (h : Reach k) : NsSafe k :=
  (NsInv.reach h).nsSafe

/-- init が clone した A（名前空間 1）が fork した B がいる状態。 -/
theorem clone_fork_nsSafe :
    ∃ k, run [(0, .clone .ok), (1, .fork .ok)] (onlyInit 2 1) = some k ∧ Reach k ∧ NsSafe k := by
  obtain ⟨k, hk⟩ := Option.isSome_iff_exists.mp
    (by decide +kernel : (run [(0, .clone .ok), (1, .fork .ok)] (onlyInit 2 1)).isSome)
  have hr := reach_run reach_onlyInit hk
  exact ⟨k, hk, hr, reach_nsSafe hr⟩

/-- `nextpid` が正であり続ける経路、つまり 32 ビットの数が回らない経路で着く状態では、使用中の
プロセスの名前空間の祖先 N ごとに、N の部分木にいる使用中のプロセスの `pids[depth N]` は 1 以上で
N の `next_ns_pid` より小さく、互いに異なる。祖先は深さごとに一つである。 -/
theorem reachWithin_pidsUnique {k : Kernel}
    (h : ReachableWithin Init Step (fun k => 0 < k.nextpid) k) : PidsUnique k := by
  obtain ⟨hk, hi⟩ := reachWithin_pidInv h
  exact hk.pidsUnique hi

/-- 同じ状態で、B の `pids[1]` は 2、A の `pids[1]` は 1。 -/
theorem clone_fork_pidsUnique :
    ∃ k, run [(0, .clone .ok), (1, .fork .ok)] (onlyInit 2 1) = some k ∧
      ReachableWithin Init Step (fun k => 0 < k.nextpid) k ∧ PidsUnique k := by
  obtain ⟨k, hk⟩ := Option.isSome_iff_exists.mp
    (by decide +kernel : (run [(0, .clone .ok), (1, .fork .ok)] (onlyInit 2 1)).isSome)
  have h : ReachableWithin Init Step (fun k => 0 < k.nextpid) k :=
    reachWithin_run (Reachable.init ⟨init_iff.mpr rfl, by decide⟩) (by decide +kernel) hk
  exact ⟨k, hk, h, reachWithin_pidsUnique h⟩

/-- 2^32 - 1 回の一巡で根の `next_ns_pid` は 1 に戻り、その後で init が fork した子（枠 1）の
`pids[0]` は init と同じ 1 になる。二つは根の名前空間 0（深さ 0）にいる。 -/
theorem fork_pid_collision :
    ∃ k, Reach k ∧ (k.proc 0).state ≠ .unused ∧ (k.proc 1).state ≠ .unused ∧
      (k.proc 0).ns = some 0 ∧ (k.proc 1).ns = some 0 ∧ InSubtree k 0 0 ∧
      pidAt (k.proc 0) (k.namespaces 0).depth = pidAt (k.proc 1) (k.namespaces 0).depth ∧
      pidAt (k.proc 1) (k.namespaces 0).depth = some 1 := by
  have h := reach_onlyInit_iter (2 ^ 32 - 1)
  rw [(by decide : wrap32 (2 + ((2 ^ 32 - 1 : Nat) : Int)) = 1),
    (by decide : wrap32 (1 + ((2 ^ 32 - 1 : Nat) : Int)) = 0)] at h
  refine ⟨onlyInitChild 1 0 .runnable,
    Reachable.step h ⟨0, .fork .ok, 1, by simp [Live, onlyInit], fork_onlyInit⟩, ?_⟩
  simp [onlyInitChild, onlyInit, pidAt, InSubtree.self, Namespace.empty, MAXDEPTH]

/-- 到達可能な状態で、名前空間 N（深さ d）のプロセス P が ps_list と ps_list_global を呼ぶ。
どちらも、N の部分木にいる UNUSED でないプロセスの数を返す。copyout が失敗しなければ、それらの
プロセスを表の順に並べた列の頭の limit 個（負なら 0 個）について、ps_list は `pids[d]` を、
ps_list_global は `pid` を書く。二つの列の i 番目は同じプロセスを指す。 -/
theorem reach_psList {k : Kernel} (h : Reach k) {P : ProcId} {N : NsId} {d : Fin MAXDEPTH}
    (hN : (k.proc P).ns = some N) (hd : (k.namespaces N).depth = d) (limit : Int) (copyout : Nat → Bool)
    (hcopy : ∀ j, j < (max limit 0).toNat → j < (visible k N).length → copyout j = true) :
    psList P limit false copyout k = some (((visible k N).length : Int),
        ((visible k N).take (max limit 0).toNat).map fun q => (k.proc q).pids d) ∧
      psList P limit true copyout k = some (((visible k N).length : Int),
        ((visible k N).take (max limit 0).toNat).map fun q => (k.proc q).pid) := by
  have hk := NsInv.reach h
  constructor
  · rw [hk.psList_eq hN hd limit false copyout hcopy]
    simp
  · rw [hk.psList_eq hN hd limit true copyout hcopy]
    simp

/-- 同じ状態で、名前空間 1（深さ 1）の B が ps_list と ps_list_global を呼ぶ。 -/
theorem clone_fork_psList :
    ∃ k, run [(0, .clone .ok), (1, .fork .ok)] (onlyInit 2 1) = some k ∧ Reach k ∧
      (k.proc 2).ns = some 1 ∧ (k.namespaces 1).depth = ((1 : Fin MAXDEPTH) : Nat) ∧
      (psList 2 3 false (fun _ => true) k = some (((visible k 1).length : Int),
          ((visible k 1).take (max (3 : Int) 0).toNat).map fun q => (k.proc q).pids 1) ∧
        psList 2 3 true (fun _ => true) k = some (((visible k 1).length : Int),
          ((visible k 1).take (max (3 : Int) 0).toNat).map fun q => (k.proc q).pid)) := by
  obtain ⟨k, hk, hb⟩ := (Option.any_eq_true _ _).mp (by decide +kernel :
    (run [(0, .clone .ok), (1, .fork .ok)] (onlyInit 2 1)).any
      (fun k => decide ((k.proc 2).ns = some 1 ∧ (k.namespaces 1).depth = 1)) = true)
  obtain ⟨hN, hd⟩ := of_decide_eq_true hb
  have hr := reach_run reach_onlyInit hk
  exact ⟨k, hk, hr, hN, hd, reach_psList hr (P := 2) (N := 1) (d := 1) hN hd 3 _ fun _ _ _ => rfl⟩

end Xv6.Process
