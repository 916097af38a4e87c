import Zeos.Affinity

/-!
# Processes and their queues

Every process other than the idle one runs, is ready or is free, and its fields and lists agree with
the queue it is in.
-/

namespace Zeos

open IntrusiveList GuardedRun Kernel

/-- The process of the idle thread. -/
abbrev idleProcess : TaskId := 0

namespace Kernel

/-- The running process runs and is in no queue, every other live one is ready, and free ones have
no threads. -/
def ProcessesAgree (s : Kernel) : Prop :=
  s.idleTask ≠ some s.current →
    (∃ p, (s.thread s.current).p = .slot p ∧ (s.task p).state = .stRun ∧
      .task p ∉ s.linked .freequeue ∧ .task p ∉ s.linked .readyqueue ∧
      ∀ other, other ≠ p → other ≠ idleProcess → (s.task other).pid ≠ -1 →
        (s.task other).state = .stReady ∧ (s.linked .readyqueue).count (.task other) = 1 ∧
          ∃ t : ThreadSlot, .thread (.slot t) ∈ s.linked (.ready other)) ∧
    ∀ free, (s.task free).pid = -1 → (s.linked .freequeue).count (.task free) = 1 ∧
      s.linked (.ready free) = [] ∧ s.linked (.blocked free) = []

/-- `mutex_unlock` wakes no thread of another process, no waiter of a mutex that is destroyed
belongs to a free process, and `fork` does not give out the number that marks free processes. -/
def KeepsProcesses (s : Kernel) : Action → Prop
  | .mutexUnlock n => s.WakesOwn (.mutexUnlock n)
  | .mutexDestroy n => ∀ m t p, mutexIndex n = some m → 0 < (s.mutexVector m).owner.toInt →
      (s.thread s.current).tid = (s.mutexVector m).owner → .thread t ∈ s.waiters m →
      (s.thread t).p = .slot p → (s.task p).pid ≠ -1
  | .fork _ => s.globalPID + 1 ≠ -1
  | _ => True

theorem KeepsProcesses.wakesOwn {s : Kernel} {action : Action} (keeps : s.KeepsProcesses action) :
    s.WakesOwn action := by
  cases action with
  | mutexUnlock n => exact keeps
  | _ => trivial

end Kernel

/-- The queues of processes and their numbers agree. -/
structure Coherent (s : Kernel) (q : Queues) : Prop where
  /-- The free processes are those without a number. -/
  free : ∀ p, (s.task p).pid = -1 ↔ p ∈ q.processes .free
  /-- Every process but the idle one runs or is in a queue. -/
  placed : ∀ p, p = idleProcess ∨ p = s.cr3 ∨ ∃ queue, p ∈ q.processes queue
  /-- Free processes have no ready or blocked threads. -/
  bare : ∀ p ∈ q.processes .free, q.threads (.ready p) = [] ∧ q.threads (.blocked p) = []

namespace Coherent

variable {layout : Layout} {s s' : Kernel} {q q' : Queues} {action : Action} {result : Result}

/-- Steps that leave the processes alone and give free ones no thread. -/
theorem of_same (coherent : Coherent s q) (pid : ∀ p, (s'.task p).pid = (s.task p).pid)
    (cr3 : s'.cr3 = s.cr3) (processes : q'.processes = q.processes)
    (ready : ∀ p ∈ q.processes .free, q'.threads (.ready p) ⊆ q.threads (.ready p))
    (blocked : ∀ p ∈ q.processes .free, q'.threads (.blocked p) ⊆ q.threads (.blocked p)) :
    Coherent s' q' where
  free p := by rw [pid, processes]; exact coherent.free p
  placed p := by rw [cr3, processes]; exact coherent.placed p
  bare p member := by
    rw [processes] at member
    obtain ⟨noReady, noBlocked⟩ := coherent.bare p member
    exact ⟨List.subset_nil.mp (noReady ▸ ready p member),
      List.subset_nil.mp (noBlocked ▸ blocked p member)⟩

theorem mem_free_bootQueues (p : TaskId) :
    p ∈ bootQueues.processes .free ↔ p ≠ idleProcess ∧ p ≠ 1 := by
  revert p
  decide

theorem booted (layout : Layout) (heap : Heap Node) :
    Coherent (Kernel.booted layout heap) bootQueues where
  free p := by
    rw [mem_free_bootQueues]
    by_cases idle : p = idleProcess
    · simp [Kernel.booted, idle]
    · by_cases first : p = 1
      · subst first
        exact iff_of_false (show (1 : Word) ≠ -1 by decide) (by simp)
      · simp [Kernel.booted, idle, first]
  placed p := by
    by_cases idle : p = idleProcess
    · exact .inl idle
    · by_cases first : p = 1
      · exact .inr (.inl first)
      · exact .inr (.inr ⟨.free, (mem_free_bootQueues p).mpr ⟨idle, first⟩⟩)
  bare p member := ⟨rfl, rfl⟩

/-- Threads that join the lists of the running process, or lists of no process, join none of a free
process. -/
theorem not_bare (consistent : Consistent s q) {lane : ThreadQueue}
    (target : lane = .ready s.cr3 ∨ lane = .blocked s.cr3 ∨ lane = .free ∨ ∃ m, lane = .mutex m)
    {p : TaskId} (free : p ∈ q.processes .free) : .ready p ≠ lane ∧ .blocked p ≠ lane := by
  have different := Ne.symm (consistent.cr3_ne_of_mem free)
  rcases target with rfl | rfl | rfl | ⟨m, rfl⟩ <;> simp [different]

/-- The running thread has joined a list and another thread has been taken out of one. -/
theorem of_push_remove (coherent : Coherent s q) (consistent : Consistent s q) {lane : ThreadQueue}
    {t u : ThreadPtr}
    (target : lane = .ready s.cr3 ∨ lane = .blocked s.cr3 ∨ lane = .free ∨ ∃ m, lane = .mutex m)
    (pid : ∀ p, (s'.task p).pid = (s.task p).pid) (cr3 : s'.cr3 = s.cr3) :
    Coherent s' ((q.pushThread lane t).removeThread u) := by
  refine coherent.of_same pid cr3 rfl ?_ ?_
  · intro p free x member
    have pushed := Lanes.mem_of_mem_remove member
    rwa [Queues.threads_pushThread, Lanes.push_other (not_bare consistent target free).1] at pushed
  · intro p free x member
    have pushed := Lanes.mem_of_mem_remove member
    rwa [Queues.threads_pushThread, Lanes.push_other (not_bare consistent target free).2] at pushed

/-- A thread has moved to a list of the running process. -/
theorem of_moveThread (coherent : Coherent s q) (consistent : Consistent s q) {u : ThreadPtr}
    (pid : ∀ p, (s'.task p).pid = (s.task p).pid) (cr3 : s'.cr3 = s.cr3) :
    Coherent s' (q.moveThread u (.ready s.cr3)) := by
  refine coherent.of_same pid cr3 rfl ?_ ?_
  · intro p free x member
    rw [Queues.threads_moveThread,
      Lanes.push_other (not_bare consistent (.inl rfl) free).1] at member
    exact Lanes.mem_of_mem_remove member
  · intro p free x member
    rw [Queues.threads_moveThread,
      Lanes.push_other (not_bare consistent (.inl rfl) free).2] at member
    exact Lanes.mem_of_mem_remove member

/-- The running process has gone to a queue and a ready one has taken its place. -/
theorem switch (coherent : Coherent s q) (consistent : Consistent s q) (queue : ProcessQueue)
    {p : TaskId} (ready : p ∈ q.processes .ready)
    (pid : ∀ x, (s'.task x).pid = if x = s.cr3 ∧ queue = .free then -1 else (s.task x).pid)
    (cr3 : s'.cr3 = p) (processes : q'.processes = (q.processes.push queue s.cr3).remove p)
    (noReady : ∀ x ∈ q.processes .free, q'.threads (.ready x) ⊆ q.threads (.ready x))
    (noBlocked : ∀ x ∈ q.processes .free, q'.threads (.blocked x) ⊆ q.threads (.blocked x))
    (bare : queue = .free → q'.threads (.ready s.cr3) = [] ∧ q'.threads (.blocked s.cr3) = []) :
    Coherent s' q' := by
  have different := consistent.cr3_ne_of_mem ready
  have separate : (q.processes.push queue s.cr3).Separate :=
    consistent.processes.push consistent.processAbsent
  have mem_iff : ∀ {x lane}, x ∈ q'.processes lane ↔
      x ≠ p ∧ (x ∈ q.processes lane ∨ lane = queue ∧ x = s.cr3) := by
    intro x lane
    rw [processes, separate.mem_remove, Lanes.mem_push]
  have not_free : p ∉ q.processes .free := fun free =>
    absurd (consistent.processes.unique ready free) (by simp)
  refine ⟨fun x => ?_, fun x => ?_, fun x member => ?_⟩
  · rw [pid, mem_iff]
    by_cases running : x = s.cr3 ∧ queue = .free
    · rw [if_pos running]
      exact iff_of_true rfl ⟨running.1 ▸ different, .inr ⟨running.2.symm, running.1⟩⟩
    · rw [if_neg running, coherent.free x]
      constructor
      · intro free
        exact ⟨fun equal => not_free (equal ▸ free), .inl free⟩
      · rintro ⟨_, free | ⟨same, equal⟩⟩
        · exact free
        · exact absurd ⟨equal, same.symm⟩ running
  · rw [cr3]
    rcases coherent.placed x with idle | running | ⟨lane, member⟩
    · exact .inl idle
    · exact .inr (.inr ⟨queue, mem_iff.mpr ⟨running ▸ different, .inr ⟨rfl, running⟩⟩⟩)
    · by_cases next : x = p
      · exact .inr (.inl next)
      · exact .inr (.inr ⟨lane, mem_iff.mpr ⟨next, .inl member⟩⟩)
  · obtain ⟨_, free | ⟨same, equal⟩⟩ := mem_iff.mp member
    · obtain ⟨ready_nil, blocked_nil⟩ := coherent.bare x free
      exact ⟨List.subset_nil.mp (ready_nil ▸ noReady x free),
        List.subset_nil.mp (blocked_nil ▸ noBlocked x free)⟩
    · exact equal ▸ bare same.symm

theorem of_forked (coherent : Coherent s q) (consistent : Consistent s q) {child : TaskId}
    {u : ThreadPtr}
    (pid : ∀ x, (s'.task x).pid = if x = child then s.globalPID + 1 else (s.task x).pid)
    (valid : s.globalPID + 1 ≠ -1) (cr3 : s'.cr3 = s.cr3) :
    Coherent s' ((((q.removeProcess child).removeThread u).pushProcess .ready child).pushThread
      (.ready child) u) := by
  have separate := consistent.processes
  refine ⟨fun x => ?_, fun x => ?_, fun x member => ?_⟩
  · rw [pid]
    simp only [Queues.processes_pushThread, Queues.processes_pushProcess,
      Queues.processes_removeThread, Queues.processes_removeProcess, Lanes.mem_push,
      separate.mem_remove]
    by_cases same : x = child
    · rw [if_pos same]
      exact iff_of_false valid (by simp [same])
    · simpa [same] using coherent.free x
  · rw [cr3]
    simp only [Queues.processes_pushThread, Queues.processes_pushProcess,
      Queues.processes_removeThread, Queues.processes_removeProcess, Lanes.mem_push,
      separate.mem_remove]
    rcases coherent.placed x with idle | running | ⟨lane, member⟩
    · exact .inl idle
    · exact .inr (.inl running)
    · by_cases same : x = child
      · exact .inr (.inr ⟨.ready, .inr ⟨rfl, same⟩⟩)
      · exact .inr (.inr ⟨lane, .inl ⟨same, member⟩⟩)
  · simp only [Queues.processes_pushThread, Queues.processes_pushProcess,
      Queues.processes_removeThread, Queues.processes_removeProcess, Lanes.mem_push,
      separate.mem_remove] at member
    rcases member with ⟨different, member⟩ | ⟨equal, _⟩
    · obtain ⟨noReady, noBlocked⟩ := coherent.bare x member
      simp [Lanes.push_other, Lanes.remove, different, noReady, noBlocked]
    · exact absurd equal (by simp)

theorem of_forkFailed (coherent : Coherent s q) (consistent : Consistent s q) {child : TaskId}
    {u : ThreadPtr} (free : child ∈ q.processes .free)
    (pid : ∀ x, (s'.task x).pid = (s.task x).pid) (cr3 : s'.cr3 = s.cr3) :
    Coherent s' (((q.removeProcess child).removeThread u).pushProcess .free child) := by
  have separate := consistent.processes
  have mem_iff : ∀ {x lane}, x ∈ (((q.removeProcess child).removeThread u).pushProcess .free
      child).processes lane ↔ x ∈ q.processes lane := by
    intro x lane
    simp only [Queues.processes_pushProcess, Queues.processes_removeThread,
      Queues.processes_removeProcess, Lanes.mem_push, separate.mem_remove]
    constructor
    · rintro (⟨_, member⟩ | ⟨rfl, rfl⟩)
      · exact member
      · exact free
    · intro member
      by_cases same : x = child
      · exact .inr ⟨separate.unique member (same ▸ free), same⟩
      · exact .inl ⟨same, member⟩
  refine ⟨fun x => ?_, fun x => ?_, fun x member => ?_⟩
  · rw [pid, mem_iff]
    exact coherent.free x
  · rw [cr3]
    exact (coherent.placed x).imp id (Or.imp id (Exists.imp fun lane member => mem_iff.mpr member))
  · obtain ⟨noReady, noBlocked⟩ := coherent.bare x (mem_iff.mp member)
    simp [Lanes.remove, noReady, noBlocked]

/-- The first blocked thread only moves to the ready ones. -/
theorem wakeFirst_subset {p : TaskId} {wakes : ThreadPtr → Prop} [DecidablePred wakes]
    {lane : ThreadQueue} (other : lane ≠ .ready p) :
    (q.wakeFirst p wakes).threads lane ⊆ q.threads lane := by
  unfold Queues.wakeFirst
  split
  · exact List.Subset.refl _
  · split
    · intro t member
      rw [Queues.threads_moveThread, Lanes.push_other other] at member
      exact Lanes.mem_of_mem_remove member
    · exact List.Subset.refl _

/-- The process of a thread that waits in a mutex. -/
theorem home_of_waits (consistent : Consistent s q) {m : MutexId} {t : ThreadPtr}
    (waits : t ∈ q.threads (.mutex m)) : (s.thread t).p = .slot (s.home t) := by
  cases t with
  | image page => exact absurd waits (consistent.noImage m page)
  | slot slot =>
      obtain ⟨⟨p, process⟩, _⟩ := consistent.fits waits
      rw [home, process]

/-- A step keeps the agreement. -/
theorem preserved (coherent : Coherent s q) (consistent : Consistent s q)
    (keeps : s.KeepsProcesses action) (transition : Transition layout s q action s' q' result) :
    Coherent s' q' := by
  cases transition with
  | refused | stored | others | ticked | locked =>
      exact coherent.of_same (fun _ => rfl) rfl rfl (fun _ _ _ => id) fun _ _ _ => id
  | unlockedFree => exact coherent
  | tickedThread =>
      exact coherent.of_push_remove consistent (.inl rfl) (fun _ => rfl) rfl
  | yielded => exact coherent.of_push_remove consistent (.inl rfl) (fun _ => rfl) rfl
  | joined => exact coherent.of_push_remove consistent (.inr (.inl rfl)) (fun _ => rfl) rfl
  | @waited n m =>
      exact coherent.of_push_remove consistent (.inr (.inr (.inr ⟨m, rfl⟩))) (fun _ => rfl) rfl
  | @tickedProcess p processes t rest heap expired firstProcess first =>
      have parked : Coherent s ((q.pushThread (.ready s.cr3) s.current).removeThread (.slot t)) :=
        coherent.of_push_remove consistent (.inl rfl) (fun _ => rfl) rfl
      refine coherent.switch consistent .ready (by simp [firstProcess]) ?_ rfl rfl ?_ ?_ (by simp)
      · intro x
        by_cases running : x = s.cr3
        · subst running
          by_cases next : s.cr3 = p
          · simp [next]
          · simp [next]
        · by_cases next : x = p
          · subst next
            simp [running]
          · simp [running, next]
      · intro x free
        exact (parked.bare x free).1 ▸ List.nil_subset _
      · intro x free
        exact (parked.bare x free).2 ▸ List.nil_subset _
  | @forked stack child processes u threads heap stack' mem freeProcess freeThread =>
      refine coherent.of_forked consistent (fun x => ?_) keeps rfl
      by_cases same : x = child
      · simp [same, childTask]
      · simp [same]
  | @forkFailed stack child processes u threads heap stack' mem freeProcess freeThread =>
      refine coherent.of_forkFailed consistent (by simp [freeProcess]) (fun x => ?_) rfl
      by_cases same : x = child
      · simp [same, allocateDIR]
      · simp [same, allocateDIR]
  | created =>
      refine coherent.of_moveThread consistent (fun x => ?_) rfl
      by_cases same : x = s.cr3
      · simp [same]
      · simp [same]
  | @ended t =>
      have free_subset : ∀ lane, lane ≠ .free → lane ≠ .ready s.cr3 →
          (((q.pushThread .free s.current).wakeFirst s.cr3 s.Joins).removeThread
            (.slot t)).threads lane ⊆ q.threads lane := by
        intro lane not_free not_ready x member
        have woken := wakeFirst_subset not_ready (Lanes.mem_of_mem_remove member)
        rwa [Queues.threads_pushThread, Lanes.push_other not_free] at woken
      refine coherent.of_same (fun _ => rfl) rfl (by simp)
        (fun p free => free_subset _ (by simp) ?_) fun p free => free_subset _ (by simp) (by simp)
      exact (not_bare consistent (.inl rfl) free).1
  | @exited p processes t rest heap mem firstProcess first =>
      have drained : ∀ lane, lane ≠ .free →
          (((((q.pushProcess .free s.cr3).drainThreads (.ready s.cr3)).drainThreads
            (.blocked s.cr3)).removeProcess p).removeThread (.slot t)).threads lane ⊆
              q.threads lane ∧
          (lane = .ready s.cr3 ∨ lane = .blocked s.cr3 →
            (((((q.pushProcess .free s.cr3).drainThreads (.ready s.cr3)).drainThreads
              (.blocked s.cr3)).removeProcess p).removeThread (.slot t)).threads lane = []) := by
        intro lane not_free
        have member_of : ∀ x ∈ (((((q.pushProcess .free s.cr3).drainThreads
            (.ready s.cr3)).drainThreads (.blocked s.cr3)).removeProcess p).removeThread
              (.slot t)).threads lane,
            lane ≠ .blocked s.cr3 ∧ lane ≠ .ready s.cr3 ∧ x ∈ q.threads lane := by
          intro x member
          have outer := (Lanes.mem_drain (by simp)).mp (Lanes.mem_of_mem_remove member)
          obtain ⟨not_blocked, member | ⟨equal, _⟩⟩ := outer
          · obtain ⟨not_ready, member | ⟨equal, _⟩⟩ := (Lanes.mem_drain (by simp)).mp member
            · exact ⟨not_blocked, not_ready, member⟩
            · exact absurd equal not_free
          · exact absurd equal not_free
        refine ⟨fun x member => (member_of x member).2.2, fun own => ?_⟩
        rw [List.eq_nil_iff_forall_not_mem]
        intro x member
        exact own.elim (member_of x member).2.1 (member_of x member).1
      refine coherent.switch consistent .free (by simp [firstProcess]) ?_ rfl rfl ?_ ?_ ?_
      · intro x
        have ready : p ∈ q.processes .ready := by simp [firstProcess]
        have different := consistent.cr3_ne_of_mem ready
        by_cases running : x = s.cr3
        · subst running
          simp [different]
        · by_cases next : x = p
          · subst next
            simp [running]
          · simp [running, next]
      · exact fun x _ => (drained (.ready x) (by simp)).1
      · exact fun x _ => (drained (.blocked x) (by simp)).1
      · exact fun _ => ⟨(drained (.ready s.cr3) (by simp)).2 (.inl rfl),
          (drained (.blocked s.cr3) (by simp)).2 (.inr rfl)⟩
  | @initialised n m =>
      have cleared : ∀ lane, q.threads.clear (.mutex m) lane ⊆ q.threads lane :=
        fun lane x member => (Lanes.mem_clear.mp member).2
      exact coherent.of_same (fun _ => rfl) rfl rfl (fun p _ => cleared (.ready p))
        fun p _ => cleared (.blocked p)
  | lost =>
      exact coherent.of_same (fun _ => rfl) rfl rfl
        (fun _ _ _ member => Lanes.mem_of_mem_remove member)
        fun _ _ _ member => Lanes.mem_of_mem_remove member
  | unlocked => exact coherent.of_moveThread consistent (fun _ => rfl) rfl
  | unlockedNobody => exact coherent.of_moveThread consistent (fun _ => rfl) rfl
  | @destroyed n m heap accepted owned owner listed =>
      have live : ∀ lane x, x ∈ (q.moveHome s.home (q.threads (.mutex m))).threads lane →
          ∀ p ∈ q.processes .free, lane = .ready p ∨ lane = .blocked p → x ∈ q.threads lane := by
        intro lane x member p free target
        rw [Transition.mem_moveHome consistent.threads] at member
        split at member
        · rename_i waits
          have at_home : .ready (s.home x) = ThreadQueue.ready p := by
            rcases target with rfl | rfl
            · exact member.symm
            · exact absurd member (by simp)
          have own := home_of_waits consistent waits
          rw [ThreadQueue.ready.inj at_home] at own
          have waiter := (consistent.linked_thread_iff (.mutex m) x).mpr waits
          exact absurd ((coherent.free p).mpr free) (keeps m x p accepted owned owner waiter own)
        · exact member
      exact coherent.of_same (fun _ => rfl) rfl
        (by simp)
        (fun p free x member => live _ x member p free (.inl rfl))
        fun p free x member => live _ x member p free (.inr rfl)

end Coherent

namespace Consistent

variable {s : Kernel} {q : Queues}

/-- A process in a queue is linked there once. -/
theorem count_linked (consistent : Consistent s q) {queue : ProcessQueue} {p : TaskId}
    (member : p ∈ q.processes queue) : (s.linked queue.node).count (.task p) = 1 := by
  rw [consistent.linked_processes, List.count_map_of_injective _ _ task_injective]
  exact List.count_eq_one_of_mem (consistent.processes.nodup queue) member

theorem task_linked_iff (consistent : Consistent s q) (queue : ProcessQueue) (p : TaskId) :
    .task p ∈ s.linked queue.node ↔ p ∈ q.processes queue := by
  rw [consistent.linked_processes, List.mem_map_of_injective task_injective]

end Consistent

theorem Coherent.agree {s : Kernel} {q : Queues} (coherent : Coherent s q)
    (consistent : Consistent s q) : s.ProcessesAgree := by
  intro _
  refine ⟨⟨s.cr3, consistent.process, consistent.processRunning, ?_, ?_, ?_⟩, ?_⟩
  · exact fun member => consistent.processAbsent .free
      ((consistent.task_linked_iff .free s.cr3).mp member)
  · exact fun member => consistent.processAbsent .ready
      ((consistent.task_linked_iff .ready s.cr3).mp member)
  · intro other different notIdle live
    have ready : other ∈ q.processes .ready := by
      rcases coherent.placed other with idle | running | ⟨queue, member⟩
      · exact absurd idle notIdle
      · exact absurd running different
      · cases queue with
        | free => exact absurd ((coherent.free other).mpr member) live
        | ready => exact member
    obtain ⟨state, _, t, waits⟩ := consistent.readyProcess other ready
    exact ⟨state, consistent.count_linked ready, t,
      (consistent.linked_thread_iff (.ready other) _).mpr waits⟩
  · intro free unnumbered
    have member := (coherent.free free).mp unnumbered
    obtain ⟨noReady, noBlocked⟩ := coherent.bare free member
    have ready := consistent.linked_threads (.ready free)
    have blocked := consistent.linked_threads (.blocked free)
    rw [noReady] at ready
    rw [noBlocked] at blocked
    exact ⟨consistent.count_linked member, ready, blocked⟩

end Zeos
