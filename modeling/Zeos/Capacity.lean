import Zeos.Ownership
import Zeos.Observation

/-!
# The pool of threads

`init_freethreadqueue` puts as many threads into the pool as there are tasks, not as there are
threads.
-/

namespace Zeos

open GuardedRun Kernel

namespace Kernel

/-- A thread that runs, or is the idle one, or is linked in a list of threads that wait. -/
def Alive (s : Kernel) (t : ThreadPtr) : Prop :=
  s.current = t ∨ s.idleTask = some t ∨
    (∃ p, .thread t ∈ s.linked (.ready p) ∨ .thread t ∈ s.linked (.blocked p)) ∨
    ∃ m, .thread t ∈ s.waiters m

instance (s : Kernel) : DecidablePred s.Alive := fun _ =>
  inferInstanceAs (Decidable (_ = _ ∨ _ = _ ∨ (∃ _, _ ∨ _) ∨ ∃ _, _))

/-- The number of threads that are alive. -/
def aliveCount (s : Kernel) : Nat :=
  (Finset.univ.filter fun u : ThreadSlot => s.Alive (.slot u)).card

/-- The calls that take a free thread. -/
def TakesThread : Action → Prop
  | .fork _ | .pthreadCreate _ _ _ => True
  | _ => False

/-- `fork` and `pthread_create` find no free thread only when all `NR_THREADS` threads are alive. -/
def UsesCapacity (layout : Layout) (s : Kernel) : Prop :=
  ∀ action s', TakesThread action → s.perform layout action = .ok (s', .returns (-ENOMEM)) →
    s.listEmpty .freeThreadqueue = true → nrThreads ≤ s.aliveCount

end Kernel

variable {layout : Layout} {s s' : Kernel} {q q' : Queues} {action : Action} {result : Result}

/-- The threads that are in use, free or waiting come from the pool. -/
structure Pooled (s : Kernel) (q : Queues) : Prop where
  current : ∀ {u : ThreadSlot}, s.current = .slot u → u.val < nrTasks
  idle : ∀ {u : ThreadSlot}, s.idleTask = some (.slot u) → u.val < nrTasks
  waits : ∀ {u : ThreadSlot} {queue}, .slot u ∈ q.threads queue → u.val < nrTasks

theorem Pooled.step (pooled : Pooled s q) (orderly : Orderly s q)
    (move : Move layout s q action s' q' result) : Pooled s' q' where
  current {u} current := by
    cases move with
    | stayed reached stay =>
        have same : s'.current = s.current := by cases stay <;> rfl
        exact pooled.current (same.symm.trans current)
    | switched reached picked busy =>
        rcases picked.source busy with ⟨queue, _, member⟩ | own
        · exact pooled.waits (ThreadPtr.slot.inj current ▸ member)
        · exact pooled.current (own.symm.trans current)
  idle {u} idle := by
    cases move with
    | stayed reached stay =>
        have same : s'.idleTask = s.idleTask := by cases stay <;> rfl
        exact pooled.idle (same.symm.trans idle)
    | switched reached picked => exact pooled.idle (picked.idleTask.symm.trans idle)
  waits {u queue} member := by
    rcases move.source orderly member with ⟨before, waits⟩ | own | ⟨⟨page, image⟩, _⟩
    · exact pooled.waits waits
    · exact pooled.current own.symm
    · exact absurd image (by simp)

/-- No more threads are alive than the pool has. -/
theorem Pooled.aliveCount_le (pooled : Pooled s q) (orderly : Orderly s q) :
    s.aliveCount ≤ nrTasks := by
  have inside : (Finset.univ.filter fun u : ThreadSlot => s.Alive (.slot u)) ⊆
      Finset.univ.filter fun u : ThreadSlot => u.val < nrTasks := by
    intro u member
    rw [Finset.mem_filter] at member ⊢
    refine ⟨Finset.mem_univ u, ?_⟩
    have linked := fun queue => orderly.threads.linked_iff queue (.slot u)
    rcases member.2 with current | idle | ⟨p, ready | blocked⟩ | ⟨m, waits⟩
    · exact pooled.current current
    · exact pooled.idle idle
    · exact pooled.waits ((linked (.ready p)).mp ready)
    · exact pooled.waits ((linked (.blocked p)).mp blocked)
    · exact pooled.waits ((linked (.mutex m)).mp waits)
  calc s.aliveCount ≤ (Finset.univ.filter fun u : ThreadSlot => u.val < nrTasks).card :=
        Finset.card_le_card inside
    _ = nrTasks := by decide

/-- Boot puts as many threads into the pool as there are tasks. -/
theorem pooledThreads_small :
    ∀ t ∈ pooledThreads, ∃ u : ThreadSlot, t = .slot u ∧ u.val < nrTasks := by
  decide

/-- `pthread_create` reports that there is no free thread. -/
theorem full_pthreadCreate (layout : Layout) (full : s.listEmpty .freeThreadqueue = true) :
    ∃ s', s.perform layout (.pthreadCreate (fun _ => 0) 0x108000 0x100000) =
      .ok (s', .returns (-ENOMEM)) := by
  have readable : accessOk .read 0x100000 4 = true := by decide
  have full : (s.enterWith fun _ => 0).listEmpty .freeThreadqueue = true := full
  exact ⟨_, by rw [perform, sysPthreadCreate, readable, full]; rfl⟩

/-- In every run at most as many threads are alive as there are tasks, and calls use the capacity
for threads exactly as long as there is a free one. -/
theorem usesCapacity_iff (layout : Layout) (s : Kernel) (reachable : Reachable layout anyStep s) :
    s.aliveCount ≤ nrTasks ∧ (s.UsesCapacity layout ↔ s.listEmpty .freeThreadqueue = false) := by
  obtain ⟨q, orderly, pooled⟩ := reachable.moves Pooled
    (fun heap _ => {
      current := fun same => ThreadPtr.slot.inj same ▸ by decide
      idle := fun same => ThreadPtr.slot.inj (Option.some.inj same) ▸ by decide
      waits := fun {u queue} member => by
        obtain ⟨rfl, _⟩ := mem_bootQueues member
        obtain ⟨_, same, small⟩ := pooledThreads_small _ (List.mem_of_mem_drop member)
        exact ThreadPtr.slot.inj same ▸ small })
    fun orderly pooled _ _ _ move => pooled.step orderly move
  have few := pooled.aliveCount_le orderly
  refine ⟨few, fun uses => ?_, fun free action s' _ _ full => ?_⟩
  · apply Bool.eq_false_iff.mpr
    intro full
    obtain ⟨s', refused⟩ := full_pthreadCreate layout full
    have enough := uses (.pthreadCreate (fun _ => 0) 0x108000 0x100000) s' trivial refused full
    exact absurd (enough.trans few) (by decide)
  · exact absurd (full.symm.trans free) (by simp)

/-- After one `pthread_create` there still is a free thread. -/
theorem usesCapacity_create :
    ∃ s, Reachable plainLayout anyStep s ∧ s.current = .slot 1 ∧ s.UsesCapacity plainLayout := by
  obtain ⟨s, reachable, goal⟩ := reachable_of_checkBoot anyStep (fun _ _ => true)
    (fun s => decide (s.current = .slot 1) && !s.listEmpty .freeThreadqueue)
    [.pthreadCreate (fun _ => 0) 0x108000 0x100000] (fun _ _ _ => trivial) (by decide +kernel)
  obtain ⟨current, free⟩ := Bool.and_eq_true_iff.mp goal
  have free : s.listEmpty .freeThreadqueue = false := by simpa using free
  exact ⟨s, reachable, of_decide_eq_true current,
    (usesCapacity_iff plainLayout s reachable).2.mpr free⟩

/-- Eight threads are created: ten are alive and there is no free one. -/
theorem not_usesCapacity :
    ¬∀ layout s, Reachable layout anyStep s → s.UsesCapacity layout := by
  intro uses
  obtain ⟨s, reachable, goal⟩ := reachable_of_checkBoot anyStep (fun _ _ => true)
    (fun s => s.listEmpty .freeThreadqueue && decide (s.aliveCount < nrThreads))
    (List.replicate 8 (.pthreadCreate (fun _ => 0) 0x108000 0x100000)) (fun _ _ _ => trivial)
    (by decide +kernel)
  obtain ⟨full, few⟩ := Bool.and_eq_true_iff.mp goal
  obtain ⟨s', refused⟩ := full_pthreadCreate plainLayout full
  have enough := uses plainLayout s reachable (.pthreadCreate (fun _ => 0) 0x108000 0x100000) s'
    trivial refused full
  exact absurd (of_decide_eq_true few) (Nat.not_lt.mpr enough)

end Zeos
