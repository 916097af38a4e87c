import Zeos.AnyRun
import Zeos.Paging
import Zeos.Runnable

/-!
# The owners of threads that are dispatched

Ordinary threads belong to a process that has its own page directory.  The idle thread belongs to
none, and neither does what `mutex_unlock` takes for a waiter when there is none.
-/

namespace Zeos

open GuardedRun Kernel

namespace Kernel

/-- A thread belongs to a process whose page directory is that of its slot. -/
def Owned (s : Kernel) (t : ThreadPtr) : Prop :=
  ∃ p, (s.thread t).p = .slot p ∧ (s.task p).dirPagesBaseAddr = some p

instance (s : Kernel) : DecidablePred s.Owned := fun t =>
  inferInstanceAs (Decidable (∃ p, (s.thread t).p = .slot p ∧ (s.task p).dirPagesBaseAddr = some p))

/-- `exit` finds a ready process, and `mutex_unlock` of a locked mutex finds a waiter. -/
def FindsThreads (s : Kernel) : Action → Prop
  | .exit => s.listEmpty .readyqueue = false
  | .mutexUnlock n => ∀ m ∈ mutexIndex n, 0 ≤ (s.mutexVector m).owner.toInt →
      (s.mutexVector m).locked ≠ 0 → s.waiters m ≠ []
  | _ => True

instance (s : Kernel) : DecidablePred s.FindsThreads
  | .exit => inferInstanceAs (Decidable (_ = _))
  | .mutexUnlock n => inferInstanceAs (Decidable (∀ m ∈ mutexIndex n, _ ≤ _ → _ ≠ _ → _ ≠ _))
  | .tick | .fork _ | .pthreadCreate _ _ _ | .pthreadJoin _ | .pthreadExit | .yield | .mutexInit _
  | .mutexLock _ | .mutexDestroy _ | .store _ _ | .others _ => isTrue trivial

/-- A step that finds threads, and leaves one to dispatch. -/
def FindsOwned (layout : Layout) (s : Kernel) (action : Action) : Prop :=
  s.FindsThreads action ∧ s.KeepsRunnable layout action

instance (layout : Layout) (s : Kernel) : DecidablePred (s.FindsOwned layout) := fun _ =>
  inferInstanceAs (Decidable (_ ∧ _))

end Kernel

variable {layout : Layout} {s s' : Kernel} {q q' : Queues} {action : Action} {result : Result}
  {t : ThreadPtr} {queue : ThreadQueue}

theorem Stay.source (stay : Stay layout s q action s' q' result) (orderly : Orderly s q)
    (member : t ∈ q'.threads queue) : (∃ before, t ∈ q.threads before) ∨
      (∃ page, t = .image page) ∧ ∃ n m, action = .mutexUnlock n ∧ mutexIndex n = some m ∧
        0 ≤ (s.mutexVector m).owner.toInt ∧ (s.mutexVector m).locked ≠ 0 ∧
        q.threads (.mutex m) = [] := by
  cases stay with
  | refused | stored | others | ticked | unlockedFree | locked => exact .inl ⟨queue, member⟩
  | initialised => exact .inl ⟨queue, (Lanes.mem_clear.mp member).2⟩
  | forked freeThread | created freeThread =>
      rcases Lanes.mem_push.mp member with before | ⟨_, rfl⟩
      · exact .inl ⟨_, Lanes.mem_of_mem_remove before⟩
      · exact .inl ⟨.free, by simp [freeThread]⟩
  | forkFailed => exact .inl ⟨_, Lanes.mem_of_mem_remove member⟩
  | @unlocked n m u others heap accepted usable taken first =>
      rcases Lanes.mem_push.mp member with before | ⟨_, rfl⟩
      · exact .inl ⟨_, Lanes.mem_of_mem_remove before⟩
      · exact .inl ⟨.mutex m, by simp [first]⟩
  | @unlockedNobody n m heap accepted usable taken listed nobody =>
      rcases Lanes.mem_push.mp member with before | ⟨_, same⟩
      · exact .inl ⟨_, Lanes.mem_of_mem_remove before⟩
      · exact .inr ⟨⟨_, same⟩, n, m, rfl, accepted, usable, taken, nobody⟩
  | @destroyed n m =>
      rw [Transition.mem_moveHome orderly.threads.separate] at member
      split_ifs at member with waits
      · exact .inl ⟨.mutex m, waits⟩
      · exact .inl ⟨queue, member⟩

/-- What is in a queue after a step was in one before, has run, or is what `mutex_unlock` takes for
a waiter. -/
theorem Move.source (move : Move layout s q action s' q' result) (orderly : Orderly s q)
    (member : t ∈ q'.threads queue) : (∃ before, t ∈ q.threads before) ∨ t = s.current ∨
      (∃ page, t = .image page) ∧ ∃ n m, action = .mutexUnlock n ∧ mutexIndex n = some m ∧
        0 ≤ (s.mutexVector m).owner.toInt ∧ (s.mutexVector m).locked ≠ 0 ∧
        q.threads (.mutex m) = [] := by
  cases move with
  | stayed reached stay => exact (stay.source orderly member).imp_right .inr
  | switched reached picked =>
      rcases picked.parks.mem (Lanes.mem_of_mem_remove member) with ⟨before, _, member⟩ | own
      · exact .inl ⟨before, member⟩
      · exact .inr (.inl own)

/-- In a run whose calls find threads no page of the kernel image is taken for one. -/
theorem Kernel.Reachable.noImage (reachable : Reachable layout FindsThreads s) :
    ∃ q, Orderly s q ∧ ∀ page, q.threads.Absent (.image page) := by
  refine reachable.moves (fun _ q => ∀ page, q.threads.Absent (.image page)) ?_ ?_
  · intro heap _ page queue member
    obtain ⟨_, _, equal, _⟩ := mem_bootQueues member
    exact absurd equal (by simp)
  · intro s q action s' q' result orderly absent finds orderly' _ move page queue member
    rcases move.source orderly member with ⟨before, waits⟩ | own |
      ⟨_, n, m, rfl, accepted, usable, taken, nobody⟩
    · exact absent page before waits
    · obtain ⟨c, current⟩ := orderly.slot
      exact absurd (own.trans current) (by simp)
    · have waiters : s.waiters m = (q.threads (.mutex m)).map .thread :=
        orderly.threads.linked (.mutex m)
      exact finds m accepted usable taken (by rw [waiters, nobody]; rfl)

/-- A thread that is chosen is the idle thread, a page of the kernel image or one of a process. -/
theorem Picked.owned {s₁ : Kernel} {site : Site} {threads₀ : ThreadPtr → ThreadStruct}
    {q₀ : Queues} (picked : Picked layout s q action s₁ t site threads₀ q₀)
    (orderly : Orderly s q) (busy : s.idleTask ≠ some t) (slot : ∀ page, t ≠ .image page) :
    s₁.Owned t := by
  have process : ∃ p, (s.thread t).p = .slot p := by
    rcases picked.source busy with ⟨queue, waits, member⟩ | own
    · cases t with
      | slot u => exact (orderly.fits waits member).1
      | image page => exact absurd rfl (slot page)
    · exact own ▸ ⟨_, orderly.process⟩
  obtain ⟨p, process⟩ := process
  exact ⟨p, (picked.process t).1.trans process,
    (picked.directory p).trans (orderly.owner process)⟩

/-- The idle thread is chosen only by an `exit` that finds no ready process. -/
theorem Picked.busy {s₁ : Kernel} {site : Site} {threads₀ : ThreadPtr → ThreadStruct} {q₀ : Queues}
    (picked : Picked layout s q action s₁ t site threads₀ q₀) (orderly : Orderly s q)
    (finds : action = .exit → s.listEmpty .readyqueue = false) : s.idleTask ≠ some t := by
  intro idle
  obtain ⟨slot, found, null, absent⟩ := orderly.idle
  obtain rfl : ThreadPtr.slot slot = t := Option.some.inj (found.symm.trans idle)
  obtain ⟨p, others, first⟩ := picked.idle_or_first.resolve_left fun ⟨exits, empty, _⟩ =>
    absurd (empty.symm.trans (finds exits)) (by simp)
  have ready : .slot slot ∈ q₀.threads (.ready p) := by simp [first]
  rcases picked.parks.mem ready with ⟨before, _, waits⟩ | own
  · exact absent before waits
  · have process := orderly.process
    rw [← own, null] at process
    exact absurd process (by simp)

/-- In every run whose calls find threads, that leaves a thread to dispatch and spares the frames of
the kernel, the running thread and the thread of every switch belong to a process whose page
directory is that of its slot. -/
theorem owned_of_findsThreads (image : Image) (s : Kernel)
    (reachable : image.Reachable (Sparing (FindsOwned image.layout)) s) :
    s.Owned s.current ∧ ∀ action s₁ t, Sparing (FindsOwned image.layout) s action →
      s.upToSwitch image.layout action = .ok (.inr (s₁, t)) → s₁.Owned t := by
  obtain ⟨start, booted, reaches⟩ := reachable.spared
  have finding : Kernel.Reachable image.layout FindsThreads s :=
    ⟨start, booted, reaches.mono fun finds => finds.1⟩
  obtain ⟨q, orderly, absent⟩ := finding.noImage
  refine ⟨⟨s.cr3, orderly.process, orderly.owner orderly.process⟩, ?_⟩
  rintro action s₁ t ⟨⟨finds, _⟩, _⟩ switches
  obtain ⟨site, threads₀, q₀, picked⟩ := orderly.arrives action _ switches
  have busy : s.idleTask ≠ some t := picked.busy orderly fun exits => by
    rw [exits] at finds
    exact finds
  refine picked.owned orderly busy ?_
  rintro page rfl
  rcases picked.source busy with ⟨queue, _, member⟩ | own
  · exact absent page queue member
  · obtain ⟨c, current⟩ := orderly.slot
    exact absurd (own.trans current) (by simp)

/-- The first process forks and exits: its child is dispatched. -/
theorem owned_of_findsThreads_fork :
    ∃ s s₁ t, plainImage.Reachable (Sparing (FindsOwned plainLayout)) s ∧
      Sparing (FindsOwned plainLayout) s .exit ∧
      s.upToSwitch plainLayout .exit = .ok (.inr (s₁, t)) ∧ s.Owned s.current ∧ s₁.Owned t := by
  obtain ⟨s, reachable, goal⟩ := spared_of_checkBoot (FindsOwned plainLayout)
    (fun s action => decide (s.FindsOwned plainLayout action))
    (fun s => decide (s.FindsOwned plainLayout .exit) &&
      s.dispatches plainLayout .exit fun _ _ => true)
    [.fork fun _ => 0] (fun _ _ => of_decide_eq_true) (by decide +kernel)
  obtain ⟨finds, switches⟩ := Bool.and_eq_true_iff.mp goal
  have finds : Sparing (FindsOwned plainLayout) s .exit := ⟨of_decide_eq_true finds, trivial⟩
  obtain ⟨s₁, t, reached, _⟩ := exists_of_dispatches switches
  obtain ⟨current, owned⟩ := owned_of_findsThreads plainImage s reachable
  exact ⟨s, s₁, t, reachable, finds, reached, current, owned _ s₁ t finds reached⟩

/-- The first process exits: the idle thread, which belongs to no process, is dispatched. -/
theorem not_owned_exit :
    ¬∀ layout s, Reachable layout anyStep s → s.Owned s.current ∧ ∀ action s₁ t,
      s.upToSwitch layout action = .ok (.inr (s₁, t)) → s₁.Owned t := by
  intro owned
  obtain ⟨s, reachable, goal⟩ := reachable_of_checkBoot anyStep (fun _ _ => true)
    (fun s => s.dispatches plainLayout .exit fun s₁ t => decide (¬s₁.Owned t))
    [] (fun _ _ _ => trivial) (by decide +kernel)
  obtain ⟨s₁, t, reached, foreign⟩ := exists_of_dispatches goal
  exact of_decide_eq_true foreign ((owned plainLayout s reachable).2 .exit s₁ t reached)

end Zeos
