import Zeos.Frame
import Zeos.Observation

/-!
# Mutexes without an owner

`mutex_destroy` and the memory before the first `mutex_init` leave the owner 0 in a mutex.  Only a
negative owner makes `mutex_lock` and `mutex_unlock` reject it.
-/

namespace Zeos

open IntrusiveList GuardedRun Kernel

/-- The mutexes that have been initialised and not been destroyed since, after one more step. -/
def recordMutexes (initialised : MutexId → Bool) (_ : Kernel) (action : Action) (_ : Kernel)
    (result : Result) (m : MutexId) : Bool :=
  match action with
  | .mutexInit n => decide (mutexIndex n = some m ∧ result = .returns 0) || initialised m
  | .mutexDestroy n => !decide (mutexIndex n = some m ∧ result = .returns 0) && initialised m
  | _ => initialised m

namespace Kernel

/-- A state of a run from boot, with the mutexes that are initialised there. -/
abbrev ReachableRecorded (layout : Layout) (state : Kernel × (MutexId → Bool)) : Prop :=
  ReachableWith layout recordMutexes (fun _ => false) (fun _ _ => True) state

/-- A call returns `-EINVAL` and leaves the mutexes, the lists and the states of the threads as they
are. -/
def Rejects (layout : Layout) (s : Kernel) (action : Action) : Prop :=
  ∃ s', s.perform layout action = .ok (s', .returns (-EINVAL)) ∧
    s'.mutexVector = s.mutexVector ∧ s'.heap = s.heap ∧
    ∀ t, (s'.thread t).state = (s.thread t).state

variable {layout : Layout} {s : Kernel}

/-- A mutex that is not initialised has no owner. -/
theorem ReachableRecorded.unowned {state : Kernel × (MutexId → Bool)}
    (reachable : ReachableRecorded layout state) (m : MutexId) (uninitialised : state.2 m = false) :
    (state.1.mutexVector m).owner = 0 := by
  obtain ⟨start, booting, reaches⟩ := reachable
  obtain ⟨heap, boots, _⟩ := boot_eq layout
  obtain rfl : booted layout heap = start := Except.ok.inj (boots.symm.trans booting)
  refine reaches.invariant (fun state => ∀ m, state.2 m = false →
    (state.1.mutexVector m).owner = 0) ?_ (fun _ _ => rfl) m uninitialised
  rintro ⟨s, initialised⟩ state' action unowned _ stepped m without
  obtain ⟨s', result, performed, rfl⟩ := recordStep_eq_ok.mp stepped
  dsimp only at unowned performed without ⊢
  cases action with
  | mutexInit n =>
      obtain ⟨other, before⟩ := Bool.or_eq_false_iff.mp without
      rw [decide_eq_false_iff_not] at other
      rcases (s.sysMutexInit_cases n _ performed).2 with ⟨_, kept⟩ | ⟨done, m', accepted, _, others⟩
      · dsimp only at kept
        rw [kept]
        exact unowned m before
      · have different : m ≠ m' := fun same => other ⟨same ▸ accepted, done⟩
        dsimp only at others
        rw [others m different]
        exact unowned m before
  | mutexDestroy n =>
      rw [recordMutexes, Bool.and_eq_false_iff, Bool.not_eq_false', decide_eq_true_iff] at without
      rcases sysMutexDestroy_cases layout s n _ performed with
        ⟨refused, kept⟩ | ⟨done, m', accepted, cleared, released, framed, _, _, others⟩
      · dsimp only at kept
        rw [kept]
        exact unowned m (without.resolve_left fun returned => refused returned.2)
      · by_cases same : m = m'
        · rw [same]
          exact cleared
        · have before := without.resolve_left fun returned =>
            same (Option.some.inj (returned.1.symm.trans accepted))
          dsimp only at others
          rw [others m same, framed.owner]
          exact unowned m before
  | _ =>
      have retained := retained_perform layout s _ id _ performed
      rw [retained.owner]
      exact unowned m without

/-- Without an owner, `mutex_lock` does not return an error. -/
theorem perform_mutexLock {n : Int} {m : MutexId} (accepted : mutexIndex n = some m)
    (unowned : (s.mutexVector m).owner = 0) :
    Ensures (fun next => next.2 = .switches ∨ next.2 = .returns 0)
      (s.perform layout (.mutexLock n)) := by
  have usable : ¬((s.enter layout .mutexLock).mutexVector m).owner.toInt < 0 := by
    rw [show ((s.enter layout .mutexLock).mutexVector m).owner = 0 from unowned]
    decide
  show Ensures _ ((s.enter layout .mutexLock).sysMutexLock layout n)
  unfold sysMutexLock
  rw [accepted]
  dsimp only
  rw [if_neg usable]
  split
  · refine Ensures.skip fun s₁ => ?_
    refine Ensures.skip fun s₂ => ?_
    exact .ok (.inl rfl)
  · exact .ok (.inr rfl)

/-- Without an owner, `mutex_unlock` does not return an error. -/
theorem perform_mutexUnlock {n : Int} {m : MutexId} (accepted : mutexIndex n = some m)
    (unowned : (s.mutexVector m).owner = 0) :
    Ensures (fun next => next.2 = .returns 0) (s.perform layout (.mutexUnlock n)) := by
  have usable : ¬(s.mutexVector m).owner.toInt < 0 := by
    rw [unowned]
    decide
  show Ensures _ (s.sysMutexUnlock layout n)
  unfold sysMutexUnlock
  rw [accepted]
  dsimp only
  rw [if_neg usable]
  split
  · exact .ok rfl
  · refine Ensures.skip fun t => ?_
    refine Ensures.skip fun p => ?_
    refine Ensures.skip fun s₁ => ?_
    split
    · exact .ok rfl
    · exact .ok rfl

end Kernel

/-- In no state of any run is an operation on a mutex that is not initialised rejected. -/
theorem not_rejects_uninitialised (layout : Layout) (s : Kernel) (initialised : MutexId → Bool)
    (n : Int) (m : MutexId) (accepted : mutexIndex n = some m)
    (reachable : ReachableRecorded layout (s, initialised)) (without : initialised m = false) :
    ¬s.Rejects layout (.mutexLock n) ∧ ¬s.Rejects layout (.mutexUnlock n) := by
  have unowned := ReachableRecorded.unowned reachable m without
  constructor
  · rintro ⟨s', performed, _⟩
    rcases perform_mutexLock accepted unowned _ performed with blocked | returned
    · exact absurd blocked (by simp)
    · exact absurd (Result.returns.inj returned) (by decide)
  · rintro ⟨s', performed, _⟩
    have returned := perform_mutexUnlock accepted unowned _ performed
    exact absurd (Result.returns.inj returned) (by decide)

/-- Neither call is rejected after a mutex has been destroyed. -/
theorem not_rejects_uninitialised_destroyed :
    ∃ s initialised, ReachableRecorded plainLayout (s, initialised) ∧ initialised 3 = false ∧
      (s.mutexVector 3).locked = 1 ∧
      ¬s.Rejects plainLayout (.mutexLock 3) ∧ ¬s.Rejects plainLayout (.mutexUnlock 3) := by
  obtain ⟨⟨s, initialised⟩, reachable, goal⟩ := reachableWith_of_checkBoot recordMutexes
    (fun _ => false) (fun _ _ => True) (fun _ _ => true)
    (fun state => decide (state.2 3 = false ∧ (state.1.mutexVector 3).locked = 1))
    [.mutexInit 3, .mutexDestroy 3, .mutexLock 3] (fun _ _ _ => trivial) (by decide +kernel)
  obtain ⟨without, locked⟩ := of_decide_eq_true goal
  exact ⟨s, initialised, reachable, without, locked,
    not_rejects_uninitialised plainLayout s initialised 3 3 rfl reachable without⟩

/-- A thread waits for a mutex that has been destroyed before.  `mutex_unlock` does not reject the
mutex, and `mutex_init` drops the thread. -/
theorem not_rejects_reinitialised :
    ∃ s initialised, ReachableRecorded plainLayout (s, initialised) ∧ initialised 3 = false ∧
      ¬s.Rejects plainLayout (.mutexUnlock 3) ∧ s.waiters 3 = [.thread (.slot 2)] ∧
      ∃ s', s.perform plainLayout (.mutexInit 3) = .ok (s', .returns 0) ∧ s'.waiters 3 = [] := by
  obtain ⟨⟨s, initialised⟩, reachable, goal⟩ := reachableWith_of_checkBoot recordMutexes
    (fun _ => false) (fun _ _ => True) (fun _ _ => true)
    (fun state => decide (state.2 3 = false ∧ state.1.waiters 3 = [.thread (.slot 2)]) &&
      passes (state.1.perform plainLayout (.mutexUnlock 3)) (fun next =>
        decide (next.2 = .returns 0)) &&
      passes (state.1.perform plainLayout (.mutexInit 3)) fun next =>
        decide (next.2 = .returns 0 ∧ next.1.waiters 3 = []))
    [.mutexInit 3, .mutexDestroy 3, .pthreadCreate (fun _ => 0) 0x108000 0x100000, .mutexLock 3,
      .yield, .mutexLock 3]
    (fun _ _ _ => trivial) (by decide +kernel)
  simp only [Bool.and_eq_true, decide_eq_true_eq, passes_eq_true] at goal
  obtain ⟨⟨⟨without, waiters⟩, ⟨_, unlocked⟩, first, rfl⟩, ⟨s', _⟩, second, rfl, empty⟩ := goal
  refine ⟨s, initialised, reachable, without, ?_, waiters, s', second, empty⟩
  rintro ⟨other, performed, _⟩
  rw [performed, Except.ok.injEq, Prod.mk.injEq] at first
  exact absurd (Result.returns.inj first.2) (by decide)

end Zeos
