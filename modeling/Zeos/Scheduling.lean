import Zeos.Loops
import Zeos.Preservation

/-!
# What the scheduler relies on

The running thread and process, the ready ones, and that a clock tick or a yield from there faults
or is a transition.
-/

namespace Zeos

open IntrusiveList GuardedRun Kernel

/-- The process has no ready thread left to dispatch. -/
def Starved (s : Kernel) (q : Queues) : Action → Prop
  | .pthreadJoin _ => 2 ≤ (s.task s.cr3).nthread.toNat ∧ q.threads (.ready s.cr3) = []
  | .pthreadExit =>
      ((q.pushThread .free s.current).wakeFirst s.cr3 s.Joins).threads (.ready s.cr3) = []
  | .mutexLock n => ∃ m, mutexIndex n = some m ∧ 0 ≤ (s.mutexVector m).owner.toInt ∧
      (s.mutexVector m).locked ≠ 0 ∧ q.threads (.ready s.cr3) = []
  | _ => False

/-- A step is a transition to a state whose heap represents the queues, or a fault, which is the
conversion of an empty ready list only for want of a ready thread. -/
def Outcome (layout : Layout) (s : Kernel) (q : Queues) (action : Action) :
    Except Fault (Kernel × Result) → Prop
  | .ok (s', result) =>
      ∃ q', Transition layout s q action s' q' result ∧ Represents s'.heap q'
  | .error fault => ∀ p, fault = .notThread (.ready p) → Starved s q action

variable {layout : Layout} {s s' : Kernel} {q q' : Queues} {action : Action} {p : TaskId}
  {t : ThreadPtr}

theorem outcome_error {fault : Fault} (memory : fault.Memory) :
    Outcome layout s q action (.error fault) := by
  rintro p rfl
  rcases memory with equal | equal
  · exact absurd equal (by simp)
  · exact absurd equal (by simp)

/-- A part of a step that only raises memory faults can be taken to succeed. -/
theorem outcome_bind {β : Type} {first : Except Fault β} {next : β → Except Fault (Kernel × Result)}
    (raises : Raises Fault.Memory first)
    (continued : ∀ value, first = .ok value → Outcome layout s q action (next value)) :
    Outcome layout s q action (first >>= next) := by
  cases first with
  | error fault => exact outcome_error (raises fault rfl)
  | ok value => exact continued value rfl

theorem outcome_dispatched {result : Except Fault Kernel}
    (dispatched : s'.Dispatched q' p t result)
    (transition : ∀ slot heap, t = .slot slot → Transition layout s q action
      { s'.saveEsp.resume p (.slot slot) with heap } (q'.removeThread (.slot slot)) .switches) :
    Outcome layout s q action (result >>= fun s => pure (s, .switches)) := by
  rcases dispatched with ⟨fault, rfl, memory⟩ | ⟨slot, heap, rfl, rfl, represents⟩
  · exact outcome_error memory
  · exact ⟨_, transition slot heap rfl, represents⟩

/-- A thread in a ready list can run next. -/
theorem Stable.waits (stable : Stable s q) (member : t ∈ q.threads (.ready p)) :
    s.Waits p t := by
  cases t with
  | image page =>
      exact ⟨(stable.image member).1, .inl (stable.imageP page), fun _ _ => stable.imageP page⟩
  | slot slot =>
      obtain ⟨process, stopped, index, saved⟩ := stable.fits member
      exact ⟨stopped, .inr ⟨process, .inr ⟨index, saved⟩⟩, by simp⟩

/-! ## States the scheduler can work with -/

/-- The queues, the running thread and process, and those that are ready. -/
structure Scheduled (s : Kernel) (q : Queues) : Prop where
  represents : Represents s.heap q
  /-- The threads in a ready list can run next as threads of its process. -/
  waits : ∀ {p t}, t ∈ q.threads (.ready p) → s.Waits p t
  owns : ∀ {p slot}, .slot slot ∈ q.threads (.ready p) → (s.thread (.slot slot)).p = .slot p
  /-- A process that is ready has a page directory and a thread that is ready. -/
  readyProcess : ∀ p ∈ q.processes .ready,
    (s.task p).dirPagesBaseAddr = some p ∧ q.threads (.ready p) ≠ []
  slot : ∃ slot, s.current = .slot slot
  absent : q.threads.Absent s.current
  last : ∀ {index slot}, q.head index = .unlisted (some slot) → s.current ≠ .slot slot
  running : (s.thread s.current).state = .stRun
  process : (s.thread s.current).p = .slot s.cr3
  processRunning : (s.task s.cr3).state = .stRun
  processAbsent : q.processes.Absent s.cr3
  ownDirectory : (s.task s.cr3).dirPagesBaseAddr = some s.cr3
  saved : (s.thread s.current).registerEsp = .null ∨
    ∃ index, (s.thread s.current).registerEsp = .on s.current index

theorem Consistent.scheduled (consistent : Consistent s q) : Scheduled s q :=
  { consistent with
    waits := consistent.waits
    owns := fun member => (consistent.fits member).1
    readyProcess := fun p member => by
      obtain ⟨_, directory, slot, waits⟩ := consistent.readyProcess p member
      exact ⟨directory, List.ne_nil_of_mem waits⟩ }

namespace Scheduled

theorem of_eq (scheduled : Scheduled s q) (current : s'.current = s.current)
    (cr3 : s'.cr3 = s.cr3) (thread : s'.thread = s.thread) (task : s'.task = s.task)
    (heap : s'.heap = s.heap) : Scheduled s' q where
  represents := by rw [heap]; exact scheduled.represents
  waits member := by
    have waits := scheduled.waits member
    rw [Waits, Resumable] at waits ⊢
    rw [thread]
    exact waits
  owns := by rw [thread]; exact scheduled.owns
  readyProcess := by rw [task]; exact scheduled.readyProcess
  slot := by rw [current]; exact scheduled.slot
  absent := by rw [current]; exact scheduled.absent
  last := by rw [current]; exact scheduled.last
  running := by rw [thread, current]; exact scheduled.running
  process := by rw [thread, current, cr3]; exact scheduled.process
  processRunning := by rw [task, cr3]; exact scheduled.processRunning
  processAbsent := by rw [cr3]; exact scheduled.processAbsent
  ownDirectory := by rw [task, cr3]; exact scheduled.ownDirectory
  saved := by rw [thread, current]; exact scheduled.saved

theorem ne_of_mem (scheduled : Scheduled s q) {queue : ThreadQueue}
    (member : t ∈ q.threads queue) : s.current ≠ t :=
  fun equal => scheduled.absent queue (equal ▸ member)

theorem cr3_ne_of_mem (scheduled : Scheduled s q) {queue : ProcessQueue}
    (member : p ∈ q.processes queue) : s.cr3 ≠ p :=
  fun equal => scheduled.processAbsent queue (equal ▸ member)

/-- The running thread joins a queue. -/
theorem push_current (scheduled : Scheduled s q) (queue : ThreadQueue)
    (listed : q.Listed queue) {state : RunState} (state_eq : queueState s.cr3 queue = state) :
    ∃ heap, s.updateThreadStateRr s.current (some queue.node) =
        .ok ({ s with heap }.setState s.current state) ∧
      Represents heap (q.pushThread queue s.current) :=
  state_eq ▸ updateThreadStateRr_push scheduled.represents queue listed scheduled.absent
    (fun _ _ => scheduled.last) scheduled.running scheduled.process

/-- The ready threads of the running process can run next, and so can the running one once it has
stopped. -/
theorem waits_stopped (scheduled : Scheduled s q) {heap : Heap Node} {state : RunState}
    (stopped : state ≠ .stRun) (member : t ∈ q.threads (.ready s.cr3) ∨ t = s.current) :
    ({ s with heap }.setState s.current state).Waits s.cr3 t := by
  obtain ⟨slot, current⟩ := scheduled.slot
  by_cases same : t = s.current
  · subst same
    refine ⟨by simpa using stopped, .inr ⟨by simpa using scheduled.process,
      by simpa using scheduled.saved⟩, fun page equal => ?_⟩
    exact absurd (current.symm.trans equal) (by simp)
  · simpa [Waits, Resumable, same] using scheduled.waits (member.resolve_right same)

/-- The running thread has joined a queue and the next ready thread is dispatched. -/
theorem dispatched (scheduled : Scheduled s q) {queue : ThreadQueue} {heap : Heap Node}
    {state : RunState} (stopped : state ≠ .stRun)
    (represents : Represents heap (q.pushThread queue s.current)) {rest : List ThreadPtr}
    (first : (q.pushThread queue s.current).threads (.ready s.cr3) = t :: rest) :
    ({ s with heap }.setState s.current state).Dispatched (q.pushThread queue s.current) s.cr3 t
      (({ s with heap }.setState s.current state).schedNextThreadRr layout) :=
  schedNextThreadRr_cons layout represents (by simpa using scheduled.process)
    scheduled.ownDirectory first (scheduled.waits_stopped stopped (by
      have member : t ∈ (q.pushThread queue s.current).threads (.ready s.cr3) := by simp [first]
      rw [Queues.threads_pushThread, Lanes.mem_push] at member
      exact member.imp id And.right))

theorem starved (scheduled : Scheduled s q) {queue : ThreadQueue} {heap : Heap Node}
    {state : RunState} (represents : Represents heap (q.pushThread queue s.current))
    (empty : (q.pushThread queue s.current).threads (.ready s.cr3) = []) :
    ({ s with heap }.setState s.current state).schedNextThreadRr layout =
      .error (.notThread (.ready s.cr3)) :=
  schedNextThreadRr_nil layout represents (by simpa using scheduled.process) empty

/-- The running thread has joined a queue, and the next ready thread is dispatched. -/
theorem outcome_next {s₁ : Kernel} (scheduled : Scheduled s₁ q) (queue : ThreadQueue)
    {heap : Heap Node} {state : RunState} (stopped : state ≠ .stRun)
    (represents : Represents heap (q.pushThread queue s₁.current))
    (empty : (q.pushThread queue s₁.current).threads (.ready s₁.cr3) = [] → Starved s q action)
    (transition : ∀ slot rest heap,
      (q.pushThread queue s₁.current).threads (.ready s₁.cr3) = .slot slot :: rest →
      Transition layout s q action { (s₁.suspend state).resume s₁.cr3 (.slot slot) with heap }
        ((q.pushThread queue s₁.current).removeThread (.slot slot)) .switches) :
    Outcome layout s q action (({ s₁ with heap }.setState s₁.current state).schedNextThreadRr
      layout >>= fun s => pure (s, .switches)) := by
  cases first : (q.pushThread queue s₁.current).threads (.ready s₁.cr3) with
  | nil =>
      rw [scheduled.starved represents first]
      exact fun _ _ => empty first
  | cons t rest =>
      refine outcome_dispatched (scheduled.dispatched stopped represents first) ?_
      rintro slot heap rfl
      exact transition slot rest heap first

/-- The running thread joins a queue, and the next ready thread is dispatched. -/
theorem outcome_block {s₁ : Kernel} (scheduled : Scheduled s₁ q) (queue : ThreadQueue)
    (listed : q.Listed queue) {state : RunState} (stopped : state ≠ .stRun)
    (state_eq : queueState s₁.cr3 queue = state)
    (empty : (q.pushThread queue s₁.current).threads (.ready s₁.cr3) = [] → Starved s q action)
    (transition : ∀ slot rest heap,
      (q.pushThread queue s₁.current).threads (.ready s₁.cr3) = .slot slot :: rest →
      Transition layout s q action { (s₁.suspend state).resume s₁.cr3 (.slot slot) with heap }
        ((q.pushThread queue s₁.current).removeThread (.slot slot)) .switches) :
    Outcome layout s q action (s₁.updateThreadStateRr s₁.current (some queue.node) >>= fun s =>
      s.schedNextThreadRr layout >>= fun s => pure (s, .switches)) := by
  obtain ⟨heap, pushed, represents⟩ := scheduled.push_current queue listed state_eq
  rw [pushed, ok_bind]
  exact outcome_next scheduled queue stopped represents empty transition

theorem outcome_yield (scheduled : Scheduled s q) :
    Outcome layout s q .yield (s.perform layout .yield) := by
  have entered : Scheduled (s.enter layout .yield) q := scheduled.of_eq rfl rfl rfl rfl rfl
  rw [perform, sysYield, forceThreadSwitch, currentP_eq entered.process, ok_bind, bind_assoc]
  refine outcome_block entered (.ready s.cr3) trivial (by simp) (if_pos rfl) ?_ ?_
  · simp
  · intro slot rest heap first
    exact .yielded (by simpa using first)

/-! ## The clock -/

theorem needsSchedRr_eq (scheduled : Scheduled s q) :
    s.needsSchedRr = .ok (
      if s.remainingQuantumP = 0 ∧ q.processes .ready ≠ [] then (1, s)
      else if s.remainingQuantumT = 0 ∧ q.threads (.ready s.cr3) ≠ [] then (2, s)
      else (0, s.reloadQuanta s.cr3)) := by
  have processes : (!s.listEmpty .readyqueue) = true ↔ q.processes .ready ≠ [] := by
    have empty_eq := scheduled.represents.empty_processes .ready
    rw [ProcessQueue.node_ready] at empty_eq
    rw [empty_eq]
    simp
  have threads : (!s.listEmpty (.ready s.cr3)) = true ↔ q.threads (.ready s.cr3) ≠ [] := by
    have empty_eq := scheduled.represents.empty_threads (.ready s.cr3) trivial
    rw [ThreadQueue.node_ready] at empty_eq
    rw [empty_eq]
    simp
  rw [needsSchedRr, currentP_eq scheduled.process]
  simp only [processes, threads, ok_bind, pure_eq_ok]
  split
  · rfl
  · split <;> rfl

/-- The process switch of the clock. -/
theorem outcome_tickProcess {s₁ : Kernel} (scheduled : Scheduled s₁ q) {processes : List TaskId}
    (firstProcess : q.processes .ready = p :: processes)
    (transition : ∀ slot rest heap, q.threads (.ready p) = .slot slot :: rest →
      Transition layout s q action
        { ((s₁.setTask s₁.cr3 fun c => { c with state := .stReady }).suspend
            .stReady |>.resumeProcess p).resume p (.slot slot) with heap }
        ((((q.pushProcess .ready s₁.cr3).pushThread (.ready s₁.cr3) s₁.current).removeProcess
          p).removeThread (.slot slot)) .switches) :
    Outcome layout s q action ((do
      let s ← s₁.updateProcessStateRr s₁.cr3 (some .readyqueue)
      let s ← s.updateThreadStateRr s.current (some (.ready s₁.cr3))
      s.schedNextProcessRr layout) >>= fun s => pure (s, .switches)) := by
  have ready : p ∈ q.processes .ready := by simp [firstProcess]
  have different := scheduled.cr3_ne_of_mem ready
  obtain ⟨heap, pushed, represents⟩ := updateProcessStateRr_ready scheduled.represents
    scheduled.processAbsent scheduled.processRunning
  obtain ⟨heap', parked, represents'⟩ := updateThreadStateRr_push
    (s := { s₁ with heap }.setTask s₁.cr3 fun c => { c with state := .stReady })
    (q := q.pushProcess .ready s₁.cr3) represents (.ready s₁.cr3) trivial
    scheduled.absent (fun _ _ => scheduled.last)
    scheduled.running scheduled.process
  rw [queueState, if_pos rfl] at parked
  simp only [ThreadQueue.node_ready, current_setTask] at parked
  rw [pushed, ok_bind]
  simp only [current_setTask, parked, ok_bind]
  obtain ⟨directory, waiting⟩ := scheduled.readyProcess p ready
  cases first : q.threads (.ready p) with
  | nil => exact absurd first waiting
  | cons t rest =>
      have firstProcess' : ((q.pushProcess .ready s₁.cr3).pushThread (.ready s₁.cr3)
          s₁.current).processes .ready = p :: (processes ++ [s₁.cr3]) := by
        simp [firstProcess]
      have first' : ((q.pushProcess .ready s₁.cr3).pushThread (.ready s₁.cr3)
          s₁.current).threads (.ready p) = t :: rest := by
        simp [Ne.symm different, first]
      have waits : Kernel.Waits ({ { s₁ with heap }.setTask s₁.cr3
          (fun c => { c with state := .stReady }) with heap := heap' }.setState s₁.current
            .stReady) p t := by
        have not_current : t ≠ s₁.current := Ne.symm (scheduled.ne_of_mem
          (show t ∈ q.threads (.ready p) by simp [first]))
        have same : (({ { s₁ with heap }.setTask s₁.cr3
            (fun c => { c with state := .stReady }) with heap := heap' }.setState s₁.current
              .stReady).thread t) = s₁.thread t := by simp [not_current]
        exact (scheduled.waits (p := p) (by simp [first])).of_eq (by rw [same]; exact id)
          (by rw [same]) (by rw [same])
      rcases schedNextProcessRr_cons layout represents' firstProcess' first'
        (by simpa [Ne.symm different] using directory) waits with
        ⟨fault, failed, memory⟩ | ⟨slot, heap, rfl, switched, represents⟩
      · exact failed ▸ outcome_error memory
      · refine switched ▸ ⟨_, transition slot rest heap first, represents⟩

theorem outcome_tick (scheduled : Scheduled s q) :
    Outcome layout s q .tick (s.perform layout .tick) := by
  have entered : Scheduled (s.enter layout .clock).updateSchedDataRr q :=
    scheduled.of_eq rfl rfl rfl rfl rfl
  rw [perform, schedule, entered.needsSchedRr_eq, ok_bind]
  by_cases expired : (s.enter layout .clock).updateSchedDataRr.remainingQuantumP = 0 ∧
      q.processes .ready ≠ []
  · obtain ⟨p, processes, firstProcess⟩ := List.exists_cons_of_ne_nil expired.2
    rw [if_pos expired]
    dsimp only
    rw [if_pos rfl, currentP_eq entered.process, ok_bind]
    exact entered.outcome_tickProcess firstProcess fun slot rest heap first =>
      .tickedProcess expired.1 firstProcess first
  · rw [if_neg expired]
    by_cases expiredT : (s.enter layout .clock).updateSchedDataRr.remainingQuantumT = 0 ∧
        q.threads (.ready (s.enter layout .clock).updateSchedDataRr.cr3) ≠ []
    · rw [if_pos expiredT]
      dsimp only
      rw [if_neg (by decide), if_pos rfl, currentP_eq entered.process, ok_bind, bind_assoc]
      obtain ⟨t, rest, some_ready⟩ := List.exists_cons_of_ne_nil expiredT.2
      refine entered.outcome_block (.ready s.cr3) trivial (by simp) (if_pos rfl) (by simp) ?_
      intro slot others heap first
      have same : t = .slot slot := by
        have split : (q.threads (.ready s.cr3) ++ [s.current]) = .slot slot :: others := by
          simpa using first
        rw [show q.threads (.ready s.cr3) = t :: rest from some_ready] at split
        exact (List.cons.inj split).1
      subst same
      exact .tickedThread expired expiredT.1 some_ready
    · rw [if_neg expiredT]
      dsimp only
      rw [if_neg (by decide), if_neg (by decide)]
      exact ⟨q, .ticked expired expiredT, scheduled.represents⟩

end Scheduled

end Zeos
