import Zeos.Transition

/-!
# What the scheduler functions do

The functions of `sched.c` on a heap that represents queues: which queues the heap represents
afterwards, and which fields they change.
-/

namespace Zeos

open IntrusiveList GuardedRun

/-- Not the conversion of an empty ready list. -/
def Fault.Memory (fault : Fault) : Prop := fault = .page ∨ fault = .foreign

namespace Memory

variable (m : Memory) (row cr3 parent child : TaskId)

theorem frameOf_raises (page : Nat) : Raises Fault.Memory (m.frameOf row page) := by
  simp only [frameOf]
  split
  · exact .ok _
  · exact .error (.inl rfl)

theorem translate_raises (addr : Nat) : Raises Fault.Memory (m.translate cr3 addr) :=
  (m.frameOf_raises cr3 _).bind fun _ _ => .ok _

theorem loadWord_raises (addr : Word) : Raises Fault.Memory (m.loadWord cr3 addr) := by
  have byte : ∀ offset, Raises Fault.Memory (do
      return m.ram (← m.translate cr3 (addr.toNat + offset)) : Except Fault Byte) :=
    fun offset => (m.translate_raises cr3 _).bind fun _ _ => .ok _
  exact (byte 3).bind fun _ _ => (byte 2).bind fun _ _ => (byte 1).bind fun _ _ =>
    (byte 0).bind fun _ _ => .ok _

theorem storeWord_raises (addr value : Word) :
    Raises Fault.Memory (m.storeWord cr3 addr value) := by
  refine Raises.foldlM (fun m offset => ?_) _ _
  refine (m.translate_raises cr3 _).bind fun physical _ => ?_
  split
  · exact .error (.inr rfl)
  · exact .ok _

theorem copyDataPages_raises : Raises Fault.Memory (m.copyDataPages cr3 parent child) := by
  refine Raises.foldlM (fun m page => ?_) _ _
  refine Raises.bind ?_ fun _ _ => .ok _
  exact (frameOf_raises _ cr3 _).bind fun _ _ => (frameOf_raises _ cr3 _).bind fun _ _ => .ok _

theorem findStackEntry_raises (fuel index : Nat) :
    Raises Fault.Memory (m.findStackEntry fuel index) := by
  induction fuel generalizing index with
  | zero => exact .error (.inr rfl)
  | succ fuel induction =>
      unfold findStackEntry
      split
      · split
        · exact .ok _
        · exact induction (index + 1)
      · exact .error (.inr rfl)

end Memory

namespace Kernel

variable {s : Kernel} {q : Queues} {p : TaskId} {t : ThreadPtr} {queue : ThreadQueue}

theorem deref_slot (s : Kernel) (p : TaskId) : s.deref (.slot p) = .ok p := rfl

theorem currentP_eq (process : (s.thread s.current).p = .slot p) : s.currentP = .ok p := by
  rw [currentP, process, deref_slot]

theorem deref_raises (s : Kernel) (pointer : TaskPtr) : Raises Fault.Memory (s.deref pointer) := by
  cases pointer with
  | slot index => exact .ok index
  | null =>
      refine .error ?_
      split
      · exact .inr rfl
      · exact .inl rfl
  | wild => exact .error (.inr rfl)

theorem getPT_raises (s : Kernel) (p : TaskId) : Raises Fault.Memory (s.getPT p) := by
  unfold getPT
  split
  · exact .ok _
  · refine .error ?_
    split
    · exact .inr rfl
    · exact .inl rfl

theorem setCr3_raises (s : Kernel) (p : TaskId) : Raises Fault.Memory (s.setCr3 p) := by
  unfold setCr3
  split
  · exact .ok _
  · exact .error (.inr rfl)

/-! ## Moving a thread -/

/-- The state that `update_thread_state_rr` gives a thread in a queue. -/
def queueState (p : TaskId) (queue : ThreadQueue) : RunState :=
  if queue = .ready p then .stReady else .stBlocked

theorem queueState_eq (p : TaskId) (queue : ThreadQueue) :
    (if queue.node ≠ .ready p then RunState.stBlocked else .stReady) = queueState p queue := by
  cases queue with
  | ready process => by_cases same : process = p <;> simp [queueState, same]
  | _ => simp [queueState]

/-- The running thread joins a queue. -/
theorem updateThreadStateRr_push (represents : Represents s.heap q) (queue : ThreadQueue)
    (listed : q.Listed queue) (absent : q.threads.Absent t)
    (not_last : ∀ index slot, q.head index = .unlisted (some slot) → t ≠ .slot slot)
    (running : (s.thread t).state = .stRun) (process : (s.thread s.current).p = .slot p) :
    ∃ heap, s.updateThreadStateRr t (some queue.node) =
        .ok ({ s with heap }.setState t (queueState p queue)) ∧
      Represents heap (q.pushThread queue t) := by
  obtain ⟨heap, added, result⟩ := represents.pushThread queue listed absent not_last
  refine ⟨heap, ?_, result⟩
  have cur : { s with heap }.currentP = .ok p := currentP_eq process
  rw [updateThreadStateRr, if_neg (by simp [running])]
  simp only [pure_eq_ok, ok_bind, added, cur, queueState_eq]
  rfl

/-- A waiting thread moves to another queue. -/
theorem updateThreadStateRr_move (represents : Represents s.heap q) {source : ThreadQueue}
    (member : t ∈ q.threads source) (queue : ThreadQueue) (listed : q.Listed queue)
    (stopped : (s.thread t).state ≠ .stRun) (process : (s.thread s.current).p = .slot p) :
    ∃ heap, s.updateThreadStateRr t (some queue.node) =
        .ok ({ s with heap }.setState t (queueState p queue)) ∧
      Represents heap (q.moveThread t queue) := by
  obtain ⟨between, heap, deleted, added, result⟩ := represents.moveThread queue member listed
  refine ⟨heap, ?_, result⟩
  have cur : { s with heap }.currentP = .ok p := currentP_eq process
  rw [updateThreadStateRr, if_pos stopped, deleted]
  simp only [ok_bind, added, cur, queueState_eq, pure_eq_ok]
  rfl

/-- The running process joins the ready ones. -/
theorem updateProcessStateRr_ready (represents : Represents s.heap q)
    (absent : q.processes.Absent p) (running : (s.task p).state = .stRun) :
    ∃ heap, s.updateProcessStateRr p (some .readyqueue) =
        .ok ({ s with heap }.setTask p fun c => { c with state := .stReady }) ∧
      Represents heap (q.pushProcess .ready p) := by
  obtain ⟨heap, added, result⟩ := represents.pushProcess .ready absent
  refine ⟨heap, ?_, result⟩
  rw [updateProcessStateRr, if_neg (by simp [running])]
  simp only [pure_eq_ok, ok_bind, ProcessQueue.node] at added ⊢
  rw [added]
  rfl

/-! ## Switching -/

theorem saveEsp_resume_thread (s : Kernel) (p : TaskId) (t : ThreadPtr) :
    (s.saveEsp.resume p t).thread =
      Function.update (Function.update s.thread t { s.thread t with state := .stRun }) s.current
        { Function.update s.thread t { s.thread t with state := .stRun } s.current with
          registerEsp := .on s.current s.ebp } := by
  by_cases same : s.current = t
  · subst same
    simp [resume, saveEsp, setState]
  · simp [resume, saveEsp, setState, same, Ne.symm same, Function.update_comm same]

/-- What `task_switch` needs to know of the thread it switches to. -/
def Resumable (s : Kernel) (p : TaskId) (t : ThreadPtr) : Prop :=
  (s.thread t).p = .wild ∨ (s.thread t).p = .slot p ∧
    ((s.thread t).registerEsp = .null ∨ ∃ index, (s.thread t).registerEsp = .on t index)

/-- A thread that can run next. -/
def Waits (s : Kernel) (p : TaskId) (t : ThreadPtr) : Prop :=
  (s.thread t).state ≠ .stRun ∧ s.Resumable p t ∧
    ∀ page, t = .image page → (s.thread t).p = .wild

/-- Neither the marks of `pthread_exit` nor the numbers of threads matter. -/
theorem Waits.of_eq {s s' : Kernel} (waits : s.Waits p t)
    (state : (s'.thread t).state = .stRun → (s.thread t).state = .stRun)
    (process : (s'.thread t).p = (s.thread t).p)
    (registerEsp : (s'.thread t).registerEsp = (s.thread t).registerEsp) : s'.Waits p t := by
  obtain ⟨stopped, resumable, image⟩ := waits
  refine ⟨fun running => stopped (state running), ?_, ?_⟩
  · rw [Resumable, process, registerEsp]
    exact resumable
  · rw [process]
    exact image

/-- The two ends of a dispatch: a fault, or the thread runs. -/
def Dispatched (s : Kernel) (q : Queues) (p : TaskId) (t : ThreadPtr)
    (result : Except Fault Kernel) : Prop :=
  (∃ fault, result = .error fault ∧ fault.Memory) ∨
    ∃ slot heap, t = .slot slot ∧ result = .ok { s.saveEsp.resume p t with heap } ∧
      Represents heap (q.removeThread t)

/-- The end of both `sched_next` functions. -/
def start (s : Kernel) (t : ThreadPtr) : Except Fault Kernel :=
  { s.setState t .stRun with
    remainingQuantumT := ((s.setState t .stRun).thread t).quantum }.taskSwitch t

theorem taskSwitch_error (wild : (s.thread t).p = .wild) : s.taskSwitch t = .error .foreign := by
  rw [taskSwitch, wild]
  rfl

theorem taskSwitch_cases (process : (s.thread t).p = .slot p)
    (directory : (s.task p).dirPagesBaseAddr = some p)
    (saved : (s.thread t).registerEsp = .null ∨ ∃ index, (s.thread t).registerEsp = .on t index) :
    (∃ fault, s.taskSwitch t = .error fault ∧ fault.Memory) ∨
      s.taskSwitch t = .ok { s.saveEsp with cr3 := p, current := t } := by
  rw [taskSwitch, process]
  simp only [deref_slot, ok_bind, setCr3, directory, switchStack]
  rcases saved with null | ⟨index, on⟩
  · left
    rw [null]
    refine ⟨_, rfl, ?_⟩
    split
    · exact .inr rfl
    · exact .inl rfl
  · right
    rw [on]
    rfl

theorem start_cases (directory : (s.task p).dirPagesBaseAddr = some p)
    (resumable : s.Resumable p t) :
    (∃ fault, s.start t = .error fault ∧ fault.Memory) ∨
      s.start t = .ok (s.saveEsp.resume p t) := by
  rcases resumable with wild | ⟨process, saved⟩
  · exact .inl ⟨_, taskSwitch_error (by simpa using wild), .inr rfl⟩
  · have quantum : (s.saveEsp.thread t).quantum = (s.thread t).quantum := by
      by_cases same : t = s.current
      · subst same
        simp [saveEsp]
      · simp [saveEsp, same]
    rcases taskSwitch_cases (s := { s.setState t .stRun with
        remainingQuantumT := ((s.setState t .stRun).thread t).quantum }) (t := t)
        (by simpa using process)
        directory (by simpa using saved) with failed | switched
    · exact .inl failed
    · right
      rw [start, switched, resume]
      refine congrArg Except.ok ?_
      rw [Kernel.mk.injEq]
      refine ⟨rfl, rfl, rfl, rfl, rfl, (s.saveEsp_resume_thread p t).symm, rfl, rfl, rfl, ?_, rfl,
        rfl, rfl⟩
      show ((s.setState t .stRun).thread t).quantum = (s.saveEsp.thread t).quantum
      rw [quantum, thread_setState, Function.update_self]

theorem updateThreadStateRr_remove (represents : Represents s.heap q)
    (member : t ∈ q.threads queue) (stopped : (s.thread t).state ≠ .stRun) :
    ∃ heap, s.updateThreadStateRr t none = .ok ({ s with heap }.setState t .stRun) ∧
      ∀ slot, t = .slot slot → Represents heap (q.removeThread t) := by
  rw [updateThreadStateRr, if_pos stopped]
  cases t with
  | image page =>
      obtain ⟨heap, deleted, _, _, _⟩ := represents.listDel_thread member
      exact ⟨heap, by rw [deleted]; rfl, by simp⟩
  | slot slot =>
      obtain ⟨heap, deleted, removed⟩ := represents.removeThread member
      exact ⟨heap, by rw [deleted]; rfl, fun _ _ => removed⟩

/-- From the removal of the thread on, both `sched_next` functions end like this. -/
theorem dispatched_of_start (directory : (s.task p).dirPagesBaseAddr = some p)
    (waits : s.Waits p t) {heap : Heap Node}
    (removed : ∀ slot, t = .slot slot → Represents heap (q.removeThread t)) :
    s.Dispatched q p t ({ s with heap }.start t) := by
  obtain ⟨_, resumable, image⟩ := waits
  cases t with
  | image page =>
      exact .inl ⟨_, taskSwitch_error (by simpa using image page rfl), .inr rfl⟩
  | slot slot =>
      refine (start_cases (s := { s with heap }) directory resumable).imp id fun started => ?_
      exact ⟨slot, heap, rfl, started, removed slot rfl⟩

theorem schedNextThreadRr_nil (layout : Layout) (represents : Represents s.heap q)
    (process : (s.thread s.current).p = .slot p) (empty : q.threads (.ready p) = []) :
    s.schedNextThreadRr layout = .error (.notThread (.ready p)) := by
  have node : s.listFirst (.ready p) = .ready p := by
    simpa [empty] using represents.first_threads (.ready p) trivial
  rw [schedNextThreadRr, currentP_eq process]
  simp only [ok_bind, node]
  rfl

theorem schedNextThreadRr_cons (layout : Layout) (represents : Represents s.heap q)
    (process : (s.thread s.current).p = .slot p)
    (directory : (s.task p).dirPagesBaseAddr = some p) {rest : List ThreadPtr}
    (first : q.threads (.ready p) = t :: rest) (waits : s.Waits p t) :
    s.Dispatched q p t (s.schedNextThreadRr layout) := by
  have member : t ∈ q.threads (.ready p) := by simp [first]
  have node : s.listFirst (.ready p) = .thread t := by
    simpa [first] using represents.first_threads (.ready p) trivial
  obtain ⟨heap, updated, removed⟩ := updateThreadStateRr_remove represents member waits.1
  rw [schedNextThreadRr, currentP_eq process]
  simp only [ok_bind, node, listHeadToThreadStruct, updated]
  exact dispatched_of_start directory waits removed

/-! ## Switching to another process -/

theorem schedNextProcessRr_nil (layout : Layout) (represents : Represents s.heap q)
    (empty : q.processes .ready = []) {idle : ThreadPtr} (found : s.idleTask = some idle)
    (null : (s.thread idle).p = .null) :
    ∃ fault, s.schedNextProcessRr layout = .error fault ∧ fault.Memory := by
  have listEmpty_eq : s.listEmpty .readyqueue = true := by
    simpa [empty] using represents.empty_processes .ready
  rw [schedNextProcessRr, if_neg (by simp [listEmpty_eq]), found]
  simp only [taskSwitch, thread_setThread, Function.update_self, null]
  cases deref_eq : deref _ _ with
  | error fault => exact ⟨fault, rfl, deref_raises _ _ fault deref_eq⟩
  | ok p => exact absurd deref_eq (by simp [deref])

/-- The two ends of a switch to another process: a fault, or its first ready thread runs. -/
def DispatchedProcess (s : Kernel) (q : Queues) (p : TaskId) (t : ThreadPtr)
    (result : Except Fault Kernel) : Prop :=
  (∃ fault, result = .error fault ∧ fault.Memory) ∨
    ∃ slot heap, t = .slot slot ∧
      result = .ok { (s.saveEsp.resumeProcess p).resume p t with heap } ∧
      Represents heap ((q.removeProcess p).removeThread t)

theorem schedNextProcessRr_cons (layout : Layout) (represents : Represents s.heap q)
    {processes : List TaskId} {rest : List ThreadPtr}
    (firstProcess : q.processes .ready = p :: processes)
    (first : q.threads (.ready p) = t :: rest)
    (directory : (s.task p).dirPagesBaseAddr = some p) (waits : s.Waits p t) :
    s.DispatchedProcess q p t (s.schedNextProcessRr layout) := by
  have some_ready : s.listEmpty .readyqueue = false := by
    simpa [firstProcess] using represents.empty_processes .ready
  have node : s.listFirst .readyqueue = .task p := by
    simpa [firstProcess] using represents.first_processes .ready
  have ready : p ∈ q.processes .ready := by simp [firstProcess]
  obtain ⟨heap, deleted, represents'⟩ := represents.removeProcess ready
  have node' : { s with heap }.listFirst (.ready p) = .thread t := by
    simpa [first] using Represents.first_threads (s := { s with heap }) represents' (.ready p)
      trivial
  have member : t ∈ (q.removeProcess p).threads (.ready p) := by simp [first]
  have updated : ∃ heap', { s with heap }.listDel (.thread t) = .ok { s with heap := heap' } ∧
      ∀ slot, t = .slot slot → Represents heap' ((q.removeProcess p).removeThread t) := by
    cases t with
    | image page =>
        obtain ⟨heap', result, _⟩ :=
          Represents.listDel_thread (s := { s with heap }) represents' member
        exact ⟨heap', result, by simp⟩
    | slot slot =>
        obtain ⟨heap', result, removed⟩ :=
          Represents.removeThread (s := { s with heap }) represents' member
        exact ⟨heap', result, fun _ _ => removed⟩
  obtain ⟨heap', deleted', removed⟩ := updated
  rw [schedNextProcessRr, if_pos (by simp [some_ready])]
  simp only [node, deleted, ok_bind, listHeadToTaskStruct, node', listHeadToThreadStruct,
    deleted']
  have same : { { s with heap := heap' }.setTask p fun c => { c with state := .stRun } with
      remainingQuantumP := (({ s with heap := heap' }.setTask p
        fun c => { c with state := .stRun }).task p).totalQuantum } =
      { s.resumeProcess p with heap := heap' } := by
    simp [resumeProcess, setTask]
  change s.DispatchedProcess q p t (start _ t)
  rw [same]
  exact dispatched_of_start (s := s.resumeProcess p) (by simpa using directory) waits removed

end Kernel

end Zeos
