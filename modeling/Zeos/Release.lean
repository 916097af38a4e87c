import Zeos.AnyRun
import Zeos.Rejection

/-!
# The release of a mutex without waiters

`mutex_unlock` does not ask whether anybody waits.  The first node of an empty list is its head, so
that the page of the kernel image with the mutex is taken for a thread.
-/

namespace Zeos

open IntrusiveList GuardedRun Kernel

namespace Kernel

/-- The list node that `mutex_unlock` takes for that of a thread, if it gets so far. -/
def unlockNode (s : Kernel) (n : Int) : Option Node :=
  (mutexIndex n).bind fun m =>
    if (s.mutexVector m).owner.toInt < 0 ∨ (s.mutexVector m).locked = 0 then none
    else some (s.listFirst (.mutex m))

/-- `mutex_unlock` returns 0 with nothing changed but `locked`, and has taken no list head for the
node of a thread. -/
structure ReleasesOnly (layout : Layout) (s : Kernel) (n : Int) (m : MutexId) : Prop where
  released : s.perform layout (.mutexUnlock n) =
    .ok (s.setMutex m fun mutex => { mutex with locked := 0 }, .returns 0)
  noHead : s.unlockNode n ≠ some (.mutex m)

end Kernel

variable {layout : Layout} {s s' : Kernel} {q : Queues} {n : Int} {m : MutexId}

theorem unlockNode_eq (accepted : mutexIndex n = some m)
    (usable : 0 ≤ (s.mutexVector m).owner.toInt) (locked : (s.mutexVector m).locked ≠ 0) :
    s.unlockNode n = some (s.listFirst (.mutex m)) := by
  rw [unlockNode, accepted]
  exact if_neg (not_or.mpr ⟨Int.not_lt.mpr usable, locked⟩)

namespace Orderly

/-- Nobody waits exactly if the queue is empty. -/
theorem waiters_eq_nil_iff (orderly : Orderly s q) :
    s.waiters m = [] ↔ q.threads (.mutex m) = [] := by
  have linked := orderly.threads.linked (.mutex m)
  rw [ThreadQueue.node_mutex] at linked
  rw [Kernel.waiters, linked, List.map_eq_nil_iff]

/-- The list of a mutex without waiters begins with its own head, or with the null pointer as long
as the head is zero. -/
theorem listFirst_nobody (orderly : Orderly s q) (nobody : s.waiters m = []) :
    s.listFirst (.mutex m) = .mutex m ∨ s.listFirst (.mutex m) = .null := by
  cases head : q.head m with
  | listed =>
      have first := orderly.threads.first_threads (.mutex m) head
      rw [orderly.waiters_eq_nil_iff.mp nobody] at first
      exact .inl first
  | unlisted last => exact .inr (orderly.listFirst_unlisted head)

/-- If `mutex_unlock` without a waiter returns 0, a page of the kernel image is ready in the
caller's process. -/
theorem readyImage_of_unlock (orderly : Orderly s q) (accepted : mutexIndex n = some m)
    (locked : (s.mutexVector m).locked ≠ 0) (nobody : s.waiters m = [])
    (performed : s.perform layout (.mutexUnlock n) = .ok (s', .returns 0)) :
    .thread (.image (layout.imagePage m)) ∈ s'.linked (.ready s.cr3) ∧
      (s'.thread (.image (layout.imagePage m))).state = .stReady := by
  obtain ⟨q', move, threads⟩ := orderly.move_of_perform performed
  cases move with
  | stayed reached stay =>
      cases stay with
      | refused negative => exact absurd negative (by decide)
      | unlockedFree accepted' _ free =>
          obtain rfl := Option.some.inj (accepted.symm.trans accepted')
          exact absurd free locked
      | unlocked accepted' _ _ first =>
          obtain rfl := Option.some.inj (accepted.symm.trans accepted')
          rw [orderly.waiters_eq_nil_iff.mp nobody] at first
          exact absurd first (by simp)
      | unlockedNobody accepted' _ _ listed _ =>
          obtain rfl := Option.some.inj (accepted.symm.trans accepted')
          have linked := threads.linked_iff (.ready s.cr3) (.image (layout.imagePage m))
          rw [ThreadQueue.node_ready] at linked
          exact ⟨linked.mpr (by simp), by simp⟩

end Orderly

/-- In no state of any run does `mutex_unlock` of a locked mutex without waiters do nothing but
release it. -/
theorem not_releasesOnly (layout : Layout) (s : Kernel) (n : Int) (m : MutexId)
    (reachable : Reachable layout anyStep s) (accepted : mutexIndex n = some m)
    (locked : (s.mutexVector m).locked ≠ 0) (nobody : s.waiters m = []) :
    ¬s.ReleasesOnly layout n m := by
  obtain ⟨q, orderly⟩ := reachable.orderly
  rintro ⟨released, noHead⟩
  rw [perform, sysMutexUnlock, accepted] at released
  dsimp only at released
  by_cases usable : 0 ≤ (s.mutexVector m).owner.toInt
  · rw [if_neg (Int.not_lt.mpr usable), if_neg locked] at released
    rcases orderly.listFirst_nobody nobody with first | first
    · exact noHead ((unlockNode_eq accepted usable locked).trans (congrArg some first))
    · rw [first] at released
      exact absurd released (by simp [listHeadToThreadStruct])
  · rw [if_pos (Int.not_le.mp usable)] at released
    obtain ⟨_, returned⟩ := Prod.mk.inj (Except.ok.inj released)
    exact absurd returned (by decide)

/-- The mutex has just been locked. -/
theorem not_releasesOnly_locked : ∃ s, Reachable plainLayout anyStep s ∧
    (s.mutexVector 3).locked = 1 ∧ s.waiters 3 = [] ∧ ¬s.ReleasesOnly plainLayout 3 3 := by
  obtain ⟨s, reachable, goal⟩ := reachable_of_checkBoot anyStep (fun _ _ => true)
    (fun s => decide ((s.mutexVector 3).locked = 1 ∧ s.waiters 3 = []))
    [.mutexInit 3, .mutexLock 3] (fun _ _ _ => trivial) (by decide +kernel)
  obtain ⟨locked, nobody⟩ := of_decide_eq_true goal
  exact ⟨s, reachable, locked, nobody, not_releasesOnly plainLayout s 3 3 reachable rfl
    (by simp [locked]) nobody⟩

/-- The page of the kernel image that holds the mutex is linked among the ready threads. -/
theorem not_forall_releasesOnly : ¬∀ (layout : Layout) (s : Kernel) (initialised : MutexId → Bool)
    (n : Int) (m : MutexId), ReachableRecorded layout (s, initialised) → mutexIndex n = some m →
      initialised m = true → (s.mutexVector m).locked ≠ 0 → s.waiters m = [] →
      s.ReleasesOnly layout n m := by
  intro releases
  obtain ⟨⟨s, initialised⟩, reachable, goal⟩ := reachableWith_of_checkBoot recordMutexes
    (fun _ => false) (fun _ _ => True) (fun _ _ => true)
    (fun state => decide ((state.1.mutexVector 3).locked ≠ 0 ∧ state.1.waiters 3 = [] ∧
      state.2 3 = true ∧ state.1.unlockNode 3 = some (.mutex 3)))
    [.mutexInit 3, .mutexLock 3] (fun _ _ _ => trivial) (by decide +kernel)
  obtain ⟨locked, nobody, known, head⟩ := of_decide_eq_true goal
  exact (releases plainLayout s initialised 3 3 reachable rfl known locked nobody).noHead head

end Zeos
