import Zeos.Boot

/-!
# Up to the switch

Every step calls `task_switch` at most once, and this is the last thing it does.  The functions here
are those of the scheduler and of the system calls up to that call.
-/

namespace Zeos

open GuardedRun

namespace Kernel

/-- `sched_next_process_rr` up to its call of `task_switch`, with the argument of the call. -/
def pickProcess (layout : Layout) (s : Kernel) : Except Fault (Kernel × ThreadPtr) := do
  if !s.listEmpty .readyqueue then
    let e := s.listFirst .readyqueue
    let s ← s.listDel e
    let p ← listHeadToTaskStruct e
    let a := s.listFirst (.ready p)
    let t ← listHeadToThreadStruct layout a
    let s ← s.listDel a
    let s := s.setTask p fun c => { c with state := .stRun }
    let s := { s with remainingQuantumP := (s.task p).totalQuantum }
    let s := s.setThread t fun c => { c with state := .stRun }
    return ({ s with remainingQuantumT := (s.thread t).quantum }, t)
  else
    match s.idleTask with
    | some t =>
        let s := s.setThread t fun c => { c with state := .stRun }
        return ({ s with remainingQuantumT := (s.thread t).quantum }, t)
    | none => .error .foreign

/-- `sched_next_thread_rr` up to its call of `task_switch`. -/
def pickThread (layout : Layout) (s : Kernel) : Except Fault (Kernel × ThreadPtr) := do
  let p ← s.currentP
  let e := s.listFirst (.ready p)
  let t ← listHeadToThreadStruct layout e
  let s ← s.updateThreadStateRr t none
  return ({ s with remainingQuantumT := (s.thread t).quantum }, t)

/-- A step up to its call of `task_switch`, with the argument of the call, or the end of a step
that does not switch. -/
def upToSwitch (layout : Layout) (s : Kernel) :
    Action → Except Fault ((Kernel × Result) ⊕ (Kernel × ThreadPtr))
  | .tick => do
      let (scheduler, s) ← (s.enter layout .clock).updateSchedDataRr.needsSchedRr
      if scheduler = 1 then
        let p ← s.currentP
        let s ← s.updateProcessStateRr p (some .readyqueue)
        let s ← s.updateThreadStateRr s.current (some (.ready p))
        return .inr (← s.pickProcess layout)
      else if scheduler = 2 then
        let p ← s.currentP
        let s ← s.updateThreadStateRr s.current (some (.ready p))
        return .inr (← s.pickThread layout)
      else return .inl (s, .switches)
  | .pthreadJoin id => do
      let s := s.enter layout .pthreadJoin
      let p ← s.currentP
      if (s.task p).nthread.toNat < 2 then return .inl (s, .returns (-EFAULT))
      else
        let tid ← s.mem.loadWord s.cr3 id
        let s := s.setThread s.current fun t => { t with blockedBy := tid }
        let s ← s.updateThreadStateRr s.current (some (.blocked p))
        return .inr (← s.pickThread layout)
  | .pthreadExit => do
      let s := s.enter layout .pthreadExit
      let s ← s.listAddTail (.thread s.current) .freeThreadqueue
      let p ← s.currentP
      let s ← s.wakeJoiners layout p
      return .inr (← s.pickThread layout)
  | .yield => do
      let s := s.enter layout .yield
      let p ← s.currentP
      let s ← s.updateThreadStateRr s.current (some (.ready p))
      return .inr (← s.pickThread layout)
  | .exit => do
      let s := s.enter layout .exit
      let p ← s.currentP
      let processPT ← s.getPT p
      let s := { s with mem := s.mem.releaseDataPages processPT numPagData }
      let s ← s.listAddTail (.task p) .freequeue
      let s := s.setTask p fun c => { c with pid := -1 }
      let s ← freeThreadsOf layout (.ready p) listFuel s
      let s ← freeThreadsOf layout (.blocked p) listFuel s
      return .inr (← s.pickProcess layout)
  | .mutexLock n =>
      let s := s.enter layout .mutexLock
      match mutexIndex n with
      | none => return .inl (s, .returns (-EINVAL))
      | some m =>
          if (s.mutexVector m).owner.toInt < 0 then return .inl (s, .returns (-EINVAL))
          else if (s.mutexVector m).locked ≠ 0 then do
            let s := s.setThread s.current fun t => { t with state := .stBlocked }
            let s ← s.listAddTail (.thread s.current) (.mutex m)
            return .inr (← s.pickThread layout)
          else
            return .inl (s.setMutex m fun mutex => { mutex with locked := 1 }, .returns 0)
  | action => do return .inl (← s.perform layout action)

/-- A step gets to its call of `task_switch`, and there a test is passed. -/
def dispatches (layout : Layout) (s : Kernel) (action : Action)
    (test : Kernel → ThreadPtr → Bool) : Bool :=
  passes (s.upToSwitch layout action) (Sum.elim (fun _ => false) fun next => test next.1 next.2)

theorem exists_of_dispatches {layout : Layout} {s : Kernel} {action : Action}
    {test : Kernel → ThreadPtr → Bool} (check : s.dispatches layout action test = true) :
    ∃ s₁ t, s.upToSwitch layout action = .ok (.inr (s₁, t)) ∧ test s₁ t = true := by
  obtain ⟨next, reached, passed⟩ := passes_eq_true.mp check
  cases next with
  | inl other => exact absurd passed (by simp)
  | inr next => exact ⟨next.1, next.2, reached, passed⟩

/-- The end of a step that has come up to its call of `task_switch`. -/
def fromSwitch : (Kernel × Result) ⊕ (Kernel × ThreadPtr) → Except Fault (Kernel × Result)
  | .inl ended => return ended
  | .inr (s, t) => do return (← s.taskSwitch t, .switches)

variable (layout : Layout) (s : Kernel)

theorem schedNextThreadRr_eq :
    s.schedNextThreadRr layout = s.pickThread layout >>= fun next => next.1.taskSwitch next.2 := by
  simp only [schedNextThreadRr, pickThread, bind_assoc, pure_bind]

theorem schedNextProcessRr_eq :
    s.schedNextProcessRr layout = s.pickProcess layout >>= fun next =>
      next.1.taskSwitch next.2 := by
  unfold schedNextProcessRr pickProcess
  split
  · simp only [bind_assoc, pure_bind]
  · cases s.idleTask with
    | none => rfl
    | some t => simp only [pure_bind]

/-- A step is what it does up to the switch, and then the switch. -/
theorem perform_eq (action : Action) :
    s.perform layout action = s.upToSwitch layout action >>= fromSwitch := by
  cases action with
  | tick =>
      simp only [perform, schedule, upToSwitch, schedNextThreadRr_eq, schedNextProcessRr_eq,
        bind_assoc]
      refine bind_congr fun next => ?_
      split
      · simp only [bind_assoc, pure_bind]
        rfl
      · split
        · simp only [bind_assoc, pure_bind]
          rfl
        · rfl
  | pthreadJoin id =>
      simp only [perform, sysPthreadJoin, upToSwitch, schedNextThreadRr_eq, bind_assoc]
      refine bind_congr fun p => ?_
      split
      · rfl
      · simp only [bind_assoc, pure_bind]
        rfl
  | pthreadExit =>
      simp only [perform, sysPthreadExit, upToSwitch, schedNextThreadRr_eq, bind_assoc, pure_bind]
      rfl
  | yield =>
      simp only [perform, sysYield, forceThreadSwitch, upToSwitch, schedNextThreadRr_eq,
        bind_assoc, pure_bind]
      rfl
  | exit =>
      simp only [perform, sysExit, upToSwitch, schedNextProcessRr_eq, bind_assoc, pure_bind]
      rfl
  | mutexLock n =>
      simp only [perform, sysMutexLock, upToSwitch, schedNextThreadRr_eq]
      cases mutexIndex n with
      | none => rfl
      | some m =>
          dsimp only
          split
          · rfl
          · split
            · simp only [bind_assoc, pure_bind]
              rfl
            · rfl
  | _ =>
      simp only [upToSwitch, bind_assoc, pure_bind, fromSwitch]
      exact (bind_pure _).symm

/-! ## Steps that return no value -/

theorem tick_switches : Ensures (fun next => next.2 = .switches) (s.perform layout .tick) :=
  Ensures.skip fun _ => .ok rfl

theorem yield_switches : Ensures (fun next => next.2 = .switches) (s.perform layout .yield) :=
  Ensures.skip fun _ => .ok rfl

/-- `exit` does not return. -/
theorem exit_switches : Ensures (fun next => next.2 = .switches) (s.perform layout .exit) := by
  rw [perform, sysExit]
  refine Ensures.skip fun p => Ensures.skip fun row => Ensures.skip fun s₁ => ?_
  exact Ensures.skip fun s₂ => Ensures.skip fun s₃ => Ensures.skip fun s₄ => .ok rfl

end Kernel

end Zeos
