import Zeos.Affinity

/-!
# There is always a thread to dispatch

The scheduler takes the first node of a ready list without looking whether there is one.  A call
that gives up the processor reaches the head of an empty list when no other thread of the process is
ready.
-/

namespace Zeos

open IntrusiveList GuardedRun Kernel

namespace Kernel

/-- The scheduler only converts nodes of threads: no step comes to the head of a ready list, and
nothing else than threads is linked there. -/
def DispatchesThreads (layout : Layout) (s : Kernel) (action : Action) : Prop :=
  (∀ p, s.step layout action ≠ .error (.notThread (.ready p))) ∧
    ∀ p, ∀ node ∈ s.linked (.ready p), ∃ t : ThreadSlot, node = .thread (.slot t)

/-- A thread that gives up the processor leaves another one of its process ready, and
`mutex_unlock` wakes threads of its caller's process. -/
def KeepsRunnable (layout : Layout) (s : Kernel) : Action → Prop
  | .pthreadJoin _ => ∀ p, (s.thread s.current).p = .slot p → 2 ≤ (s.task p).nthread.toNat →
      s.listEmpty (.ready p) = false
  | .pthreadExit => ∀ p, (s.thread s.current).p = .slot p → s.listEmpty (.ready p) = false ∨
      ∃ t, s.listFirst (.blocked p) = .thread t ∧ s.Joins t
  | .mutexLock n => ∀ m p, mutexIndex n = some m → 0 ≤ (s.mutexVector m).owner.toInt →
      (s.mutexVector m).locked ≠ 0 → (s.thread s.current).p = .slot p →
      s.listEmpty (.ready p) = false
  | .mutexUnlock n => s.UnlocksOwn layout (.mutexUnlock n)
  | _ => True

instance (layout : Layout) (s : Kernel) : DecidablePred (s.KeepsRunnable layout)
  | .pthreadJoin _ => inferInstanceAs (Decidable (∀ _, _ = _ → _ → _ = _))
  | .pthreadExit => inferInstanceAs (Decidable (∀ _, _ = _ → _ ∨ ∃ t, _ = _ ∧ s.Joins t))
  | .mutexLock n => inferInstanceAs (Decidable (∀ m _, mutexIndex n = some m → _ → _ → _ → _ = _))
  | .mutexUnlock n => inferInstanceAs (Decidable (s.UnlocksOwn layout (.mutexUnlock n)))
  | .tick | .fork _ | .pthreadCreate _ _ _ | .yield | .exit | .mutexInit _ | .mutexDestroy _
  | .store _ _ | .others _ => isTrue trivial

theorem KeepsRunnable.unlocksOwn {layout : Layout} {s : Kernel} {action : Action}
    (keeps : s.KeepsRunnable layout action) : s.UnlocksOwn layout action := by
  cases action with
  | mutexUnlock n => exact keeps
  | _ => trivial

end Kernel

variable {layout : Layout} {s : Kernel} {q : Queues} {action : Action}

namespace Consistent

theorem ready_ne_nil (consistent : Consistent s q) {p : TaskId}
    (nonempty : s.listEmpty (.ready p) = false) : q.threads (.ready p) ≠ [] := by
  intro empty
  have listEmpty_eq := consistent.represents.empty_threads (.ready p) trivial
  rw [ThreadQueue.node_ready, nonempty, empty] at listEmpty_eq
  exact absurd listEmpty_eq (by simp)

/-- `pthread_exit` leaves the ready threads ready. -/
theorem ready_ne_nil_wakeFirst {p : TaskId} {wakes : ThreadPtr → Prop} [DecidablePred wakes]
    (ready : q.threads (.ready p) ≠ [] ∨ ∃ t rest, q.threads (.blocked p) = t :: rest ∧ wakes t) :
    ((q.pushThread .free s.current).wakeFirst p wakes).threads (.ready p) ≠ [] := by
  have blocked_eq : (q.pushThread .free s.current).threads (.blocked p) =
      q.threads (.blocked p) := by simp
  rw [Queues.wakeFirst, blocked_eq]
  rcases ready with ready | ⟨t, rest, blocked, joins⟩
  · cases q.threads (.blocked p) with
    | nil => simpa using ready
    | cons t rest =>
        dsimp only
        split
        · simp
        · simpa using ready
  · rw [blocked]
    dsimp only
    rw [if_pos joins]
    simp

/-- With another ready thread no call starves its process. -/
theorem not_starved (consistent : Consistent s q) (keeps : s.KeepsRunnable layout action) :
    ¬Starved s q action := by
  intro starved
  cases action with
  | pthreadJoin id =>
      exact consistent.ready_ne_nil (keeps s.cr3 consistent.process starved.1) starved.2
  | mutexLock n =>
      obtain ⟨m, accepted, usable, taken, empty⟩ := starved
      exact consistent.ready_ne_nil (keeps m s.cr3 accepted usable taken consistent.process) empty
  | pthreadExit =>
      refine ready_ne_nil_wakeFirst ?_ starved
      rcases keeps s.cr3 consistent.process with ready | ⟨t, first, joins⟩
      · exact .inl (consistent.ready_ne_nil ready)
      · right
        have node := consistent.represents.first_threads (.blocked s.cr3) trivial
        rw [ThreadQueue.node_blocked, first] at node
        cases blocked : q.threads (.blocked s.cr3) with
        | nil =>
            rw [blocked] at node
            exact absurd node (by simp)
        | cons u rest =>
            rw [blocked] at node
            obtain rfl : t = u := by simpa using node
            exact ⟨t, rest, rfl, joins⟩
  | _ => exact starved

end Consistent

/-- Along runs that keep to `KeepsRunnable` and spare the frames of the kernel, no step that does so
dispatches from an empty ready list. -/
theorem dispatchesThreads_of_keepsRunnable (image : Image) (s : Kernel) (action : Action)
    (reachable : image.Reachable (Sparing (KeepsRunnable image.layout)) s)
    (keeps : Sparing (KeepsRunnable image.layout) s action) :
    s.DispatchesThreads image.layout action := by
  obtain ⟨start, booted, reaches⟩ := reachable.spared
  have unlocks : Kernel.Reachable image.layout (UnlocksOwn image.layout) s :=
    ⟨start, booted, reaches.mono fun keeps => keeps.unlocksOwn⟩
  obtain ⟨q, consistent, noImage⟩ := noImage_of_unlocksOwn unlocks
  constructor
  · intro p stepped
    have outcome := consistent.perform image.layout action
    cases performed : s.perform image.layout action with
    | ok next =>
        rw [step, performed] at stepped
        exact absurd stepped (by simp)
    | error fault =>
        rw [step, performed] at stepped
        rw [performed] at outcome
        have empty : fault = .notThread (.ready p) := Except.error.inj stepped
        exact consistent.not_starved keeps.1 (outcome p empty)
  · intro p node member
    have ready := consistent.linked_threads (.ready p)
    rw [ThreadQueue.node_ready] at ready
    rw [ready] at member
    obtain ⟨t, waits, rfl⟩ := List.mem_map.mp member
    cases t with
    | image page => exact absurd waits (noImage _ page)
    | slot slot => exact ⟨slot, rfl⟩

/-- A thread locks a mutex that is taken while another one of its process is ready. -/
theorem dispatchesThreads_of_keepsRunnable_lock :
    ∃ s, plainImage.Reachable (Sparing (KeepsRunnable plainLayout)) s ∧
      Sparing (KeepsRunnable plainLayout) s (.mutexLock 3) ∧
      s.linked (.ready 1) = [.thread (.slot 1)] ∧
      s.DispatchesThreads plainLayout (.mutexLock 3) := by
  obtain ⟨s, reachable, goal⟩ := spared_of_checkBoot (KeepsRunnable plainLayout)
    (fun s action => decide (s.KeepsRunnable plainLayout action))
    (fun s => decide (s.KeepsRunnable plainLayout (.mutexLock 3) ∧
      s.linked (.ready 1) = [.thread (.slot 1)]))
    [.mutexInit 3, .pthreadCreate (fun _ => 0) 0x108000 0x100000, .mutexLock 3, .yield]
    (fun _ _ => of_decide_eq_true) (by decide +kernel)
  obtain ⟨keeps, ready⟩ := of_decide_eq_true goal
  exact ⟨s, reachable, ⟨keeps, trivial⟩, ready,
    dispatchesThreads_of_keepsRunnable plainImage s _ reachable ⟨keeps, trivial⟩⟩

/-- The only thread of the first process locks a mutex twice. -/
theorem not_dispatchesThreads_relock :
    ¬∀ layout s action, Reachable layout anyStep s → s.DispatchesThreads layout action := by
  intro dispatches
  obtain ⟨s, reachable, alone⟩ := reachable_of_checkBoot anyStep (fun _ _ => true)
    (fun s => match s.step plainLayout (.mutexLock 3) with
      | .error fault => decide (fault = .notThread (.ready 1))
      | .ok _ => false)
    [.mutexInit 3, .mutexLock 3] (fun _ _ _ => trivial) (by decide +kernel)
  have safe := (dispatches plainLayout s (.mutexLock 3) reachable).1 1
  cases stepped : s.step plainLayout (.mutexLock 3) with
  | ok _ =>
      rw [stepped] at alone
      exact absurd alone (by simp)
  | error fault =>
      rw [stepped] at alone
      rw [stepped] at safe
      exact safe (congrArg _ (of_decide_eq_true alone))

end Zeos
