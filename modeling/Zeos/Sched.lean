import Zeos.Memory

/-!
# Scheduling

The functions of `sched.c` and `kernel-utils.S` that move processes and threads between queues and
switch from one thread to another.
-/

namespace Zeos

open GuardedRun

namespace Kernel

/-! ## Page directories -/

/-- `get_PT`: the row of `pagusr_table` that the page directory of a process points to. -/
def getPT (s : Kernel) (t : TaskId) : Except Fault TaskId :=
  match (s.task t).dirPagesBaseAddr with
  | some row => .ok row
  | none => .error (if s.page0Present then .foreign else .page)

/-- `set_cr3(get_DIR(t))`. -/
def setCr3 (s : Kernel) (t : TaskId) : Except Fault Kernel :=
  match (s.task t).dirPagesBaseAddr with
  | some row => .ok { s with cr3 := row }
  | none => .error .foreign

/-- `allocate_DIR`. -/
def allocateDIR (s : Kernel) (t : TaskId) : Kernel :=
  s.setTask t fun c => { c with dirPagesBaseAddr := some t }

/-! ## Switching -/

/-- `switch_stack`, called with the addresses of the current thread and of `new`.  The stack pointer
of the new thread is read before the frame pointer of the current one is saved: a thread that is
switched to itself returns through the frame it saved before, and where the call has overwritten
that frame the step here goes on although the code does not. -/
def switchStack (s : Kernel) (new : ThreadPtr) : Except Fault Kernel :=
  let newSp := (s.thread new).registerEsp
  let s := s.setThread s.current fun t => { t with registerEsp := .on s.current s.ebp }
  match newSp with
  | .on thread _ => .ok { s with current := thread }
  | .null => .error (if s.page0Present then .foreign else .page)
  | .wild => .error .foreign

/-- `task_switch` and `inner_task_switch`. -/
def taskSwitch (s : Kernel) (new : ThreadPtr) : Except Fault Kernel := do
  let p ← s.deref (s.thread new).p
  let s ← s.setCr3 p
  s.switchStack new

/-! ## Queues -/

/-- `update_process_state_rr`. -/
def updateProcessStateRr (s : Kernel) (t : TaskId) (dstQueue : Option Node) :
    Except Fault Kernel := do
  let s ← if (s.task t).state ≠ .stRun then s.listDel (.task t) else pure s
  match dstQueue with
  | some queue =>
      let s ← s.listAddTail (.task t) queue
      return s.setTask t fun c =>
        { c with state := if queue ≠ .readyqueue then .stBlocked else .stReady }
  | none => return s.setTask t fun c => { c with state := .stRun }

/-- `update_thread_state_rr`. -/
def updateThreadStateRr (s : Kernel) (t : ThreadPtr) (dstQueue : Option Node) :
    Except Fault Kernel := do
  let s ← if (s.thread t).state ≠ .stRun then s.listDel (.thread t) else pure s
  match dstQueue with
  | some queue =>
      let s ← s.listAddTail (.thread t) queue
      let p ← s.currentP
      return s.setThread t fun c =>
        { c with state := if queue ≠ .ready p then .stBlocked else .stReady }
  | none => return s.setThread t fun c => { c with state := .stRun }

/-- `sched_next_process_rr`. -/
def schedNextProcessRr (layout : Layout) (s : Kernel) : Except Fault Kernel := do
  if !s.listEmpty .readyqueue then
    let e := s.listFirst .readyqueue
    let s ← s.listDel e
    let p ← listHeadToTaskStruct e
    let a := s.listFirst (.ready p)
    let t ← listHeadToThreadStruct layout a
    let s ← s.listDel a
    let s := s.setTask p fun c => { c with state := .stRun }
    let s := { s with remainingQuantumP := (s.task p).totalQuantum }
    let s := s.setThread t fun c => { c with state := .stRun }
    let s := { s with remainingQuantumT := (s.thread t).quantum }
    s.taskSwitch t
  else
    match s.idleTask with
    | some t =>
        let s := s.setThread t fun c => { c with state := .stRun }
        let s := { s with remainingQuantumT := (s.thread t).quantum }
        s.taskSwitch t
    | none => .error .foreign

/-- `sched_next_thread_rr`. -/
def schedNextThreadRr (layout : Layout) (s : Kernel) : Except Fault Kernel := do
  let p ← s.currentP
  let e := s.listFirst (.ready p)
  let t ← listHeadToThreadStruct layout e
  let s ← s.updateThreadStateRr t none
  let s := { s with remainingQuantumT := (s.thread t).quantum }
  s.taskSwitch t

/-- `force_thread_switch`. -/
def forceThreadSwitch (layout : Layout) (s : Kernel) : Except Fault Kernel := do
  let p ← s.currentP
  let s ← s.updateThreadStateRr s.current (some (.ready p))
  s.schedNextThreadRr layout

/-! ## The clock -/

/-- `update_sched_data_rr`. -/
def updateSchedDataRr (s : Kernel) : Kernel :=
  { s with
    remainingQuantumT := s.remainingQuantumT - 1
    remainingQuantumP := s.remainingQuantumP - 1 }

/-- The reloads at the end of `needs_sched_rr`, for the current process `p`. -/
def reloadQuanta (s : Kernel) (p : TaskId) : Kernel :=
  { s with
    remainingQuantumP :=
      if s.remainingQuantumP = 0 then (s.task p).totalQuantum else s.remainingQuantumP
    remainingQuantumT :=
      if s.remainingQuantumT = 0 then (s.thread s.current).quantum else s.remainingQuantumT }

/-- `needs_sched_rr`: 1 for a process switch, 2 for a thread switch, 0 for none. -/
def needsSchedRr (s : Kernel) : Except Fault (Nat × Kernel) := do
  if s.remainingQuantumP = 0 ∧ !s.listEmpty .readyqueue then return (1, s)
  else
    let p ← s.currentP
    if s.remainingQuantumT = 0 ∧ !s.listEmpty (.ready p) then return (2, s)
    else return (0, s.reloadQuanta p)

/-- `schedule`. -/
def schedule (layout : Layout) (s : Kernel) : Except Fault Kernel := do
  let (scheduler, s) ← s.updateSchedDataRr.needsSchedRr
  if scheduler = 1 then
    let p ← s.currentP
    let s ← s.updateProcessStateRr p (some .readyqueue)
    let s ← s.updateThreadStateRr s.current (some (.ready p))
    s.schedNextProcessRr layout
  else if scheduler = 2 then
    let p ← s.currentP
    let s ← s.updateThreadStateRr s.current (some (.ready p))
    s.schedNextThreadRr layout
  else return s

end Kernel

end Zeos
