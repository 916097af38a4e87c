import Zeos.AnyRun
import Zeos.Paging

/-!
# What `exit` leaves behind

`sys_exit` frees the threads in the two lists of its process.  Its caller is in neither.
-/

namespace Zeos

open GuardedRun

namespace Kernel

/-- Every thread whose process was the given one is linked exactly once among the free threads, has
no number, and is linked among no ready, blocked or waiting ones. -/
def Releases (s s' : Kernel) (p : TaskId) : Prop :=
  ∀ t, (s.thread t).p = .slot p → (s'.linked .freeThreadqueue).count (.thread t) = 1 ∧
    (s'.thread t).tid = -1 ∧ (∀ other, .thread t ∉ s'.linked (.ready other) ∧
      .thread t ∉ s'.linked (.blocked other)) ∧ ∀ m, .thread t ∉ s'.waiters m

end Kernel

open Kernel

variable {layout : Layout} {s s' : Kernel} {q q' : Queues} {result : Result}

/-- The caller of `exit` is in no list after it. -/
theorem Orderly.absent_exit (orderly : Orderly s q)
    (performed : s.perform layout .exit = .ok (s', result)) :
    ∃ q', Orderly s' q' ∧ q'.threads.Absent s.current := by
  obtain ⟨q', move, orderly'⟩ := orderly.step performed
  refine ⟨q', orderly', fun queue member => ?_⟩
  have switches : result = .switches := exit_switches layout s _ performed
  cases move with
  | stayed reached stay =>
      cases stay with
      | refused => exact absurd switches (by simp)
  | switched reached picked =>
      have member := Lanes.mem_of_mem_remove member
      cases picked.parks with
      | exit =>
          rw [Queues.threads_drainThreads, Lanes.mem_drain (by simp)] at member
          rcases member.2 with kept | ⟨_, blocked⟩
          · rw [Queues.threads_drainThreads, Lanes.mem_drain (by simp)] at kept
            rcases kept.2 with kept | ⟨_, ready⟩
            · exact orderly.absent _ kept
            · exact orderly.absent _ ready
          · rw [Queues.threads_drainThreads, Lanes.drain_other (by simp) (by simp)] at blocked
            exact orderly.absent _ blocked

/-- No `exit` releases every thread of its process: its caller is in no list. -/
theorem not_releases_of_exit (layout : Layout) (s s' : Kernel) (result : Result) (p : TaskId)
    (reachable : Reachable layout anyStep s) (process : s.currentP = .ok p)
    (exited : s.perform layout .exit = .ok (s', result)) : ¬s.Releases s' p := by
  obtain ⟨q, orderly⟩ := reachable.orderly
  obtain ⟨q', orderly', absent⟩ := orderly.absent_exit exited
  intro releases
  obtain ⟨once, _⟩ := releases s.current (currentP_eq_ok.mp process)
  have linked : .thread s.current ∉ s'.linked .freeThreadqueue := fun member =>
    absent .free ((orderly'.threads.linked_iff .free s.current).mp member)
  rw [List.count_eq_zero_of_not_mem linked] at once
  exact absurd once (by decide)

/-- The first process forks and exits. -/
theorem not_releases_of_exit_first :
    ∃ s s' result, Reachable plainLayout anyStep s ∧ s.currentP = .ok 1 ∧
      s.perform plainLayout .exit = .ok (s', result) ∧ ¬s.Releases s' 1 := by
  obtain ⟨s, s', result, reachable, exited, goal⟩ := performed_of_checkBoot anyStep
    (fun _ _ => true) .exit (fun s _ _ => decide (s.currentP = .ok 1)) [.fork fun _ => 0]
    (fun _ _ _ => trivial) (by decide +kernel)
  have process := of_decide_eq_true goal
  exact ⟨s, s', result, reachable, process, exited,
    not_releases_of_exit plainLayout s s' result 1 reachable process exited⟩

/-- The first process forks and exits: its thread is not among the free ones. -/
theorem not_releases_fork :
    ¬∀ layout s s' result p, Reachable layout anyStep s → s.currentP = .ok p →
      s.perform layout .exit = .ok (s', result) → s.Releases s' p := by
  intro releases
  obtain ⟨s, s', result, reachable, exited, goal⟩ := performed_of_checkBoot anyStep
    (fun _ _ => true) .exit
    (fun s s' _ => decide (s.currentP = .ok 1 ∧ (s.thread (.slot 1)).p = .slot 1 ∧
      (s'.linked .freeThreadqueue).count (.thread (.slot 1)) = 0))
    [.fork fun _ => 0] (fun _ _ _ => trivial) (by decide +kernel)
  obtain ⟨process, own, count⟩ := of_decide_eq_true goal
  have once := (releases plainLayout s s' result 1 reachable process exited (.slot 1) own).1
  exact absurd (count.symm.trans once) (by decide)

end Zeos
