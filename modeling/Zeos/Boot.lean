import Zeos.Sys

/-!
# Boot

The initialisation of `system.c`, as far as it sets the modelled variables, and the steps of the
running system.
-/

namespace Zeos

open IntrusiveList GuardedRun

namespace Kernel

/-- Memory as the boot loader leaves it: all variables are zero.  What is read through a
`thread_struct` pointer into the kernel image belongs to other variables, so its pointers lead
nowhere the model knows. -/
def zeroed (layout : Layout) : Kernel where
  current := .slot 1
  ebp := 0
  cr3 := 0
  heap
    | .thread (.image _) => ⟨.wild, .wild⟩
    | _ => ⟨.null, .null⟩
  task _ :=
    { pid := 0, dirPagesBaseAddr := none, state := .stRun, totalQuantum := 0, nthread := 0 }
  thread
    | .slot _ =>
        { tid := 0, dirPagesBaseAddr := none, p := .null, registerEsp := .null, state := .stRun
          quantum := 0, blockedBy := 0 }
    | .image page =>
        { tid := 0, dirPagesBaseAddr := none, p := .wild, registerEsp := .wild
          state := layout.imageState page, quantum := 0, blockedBy := 0 }
  stack _ _ := 0
  mutexVector _ := { locked := 0, owner := 0 }
  idleTask := none
  remainingQuantumT := 0
  remainingQuantumP := 0
  globalPID := 1000
  mem := { physMem := fun _ => 0, pagusrTable := fun _ => .zero, ram := layout.ram }

/-- `init_mm`. -/
def initMm (layout : Layout) (s : Kernel) : Except Fault Kernel :=
  let s := { s with mem := (s.mem.initTablePages layout).initFrames }
  (s.allocateDIR 0).setCr3 0

/-- One round of the loop of `init_freequeue`. -/
def initTaskSlot (s : Kernel) (i : TaskId) : Except Fault Kernel := do
  let s := s.setTask i fun c => { c with pid := -1 }
  let s ← s.initListHead (.ready i)
  let s ← s.initListHead (.blocked i)
  s.listAddTail (.task i) .freequeue

/-- `init_freequeue`. -/
def initFreequeue (s : Kernel) : Except Fault Kernel := do
  let s ← s.initListHead .freequeue
  (List.finRange nrTasks).foldlM initTaskSlot s

/-- The thread slots that `init_freethreadqueue` visits: its loop runs to the number of tasks. -/
def pooledThreads : List ThreadPtr :=
  (List.finRange nrTasks).map fun i => .slot (i.castLE (by decide))

/-- One round of the loop of `init_freethreadqueue`. -/
def initThreadSlot (s : Kernel) (t : ThreadPtr) : Except Fault Kernel :=
  (s.setThread t fun c => { c with tid := -1 }).listAddTail (.thread t) .freeThreadqueue

/-- `init_freethreadqueue`. -/
def initFreethreadqueue (s : Kernel) : Except Fault Kernel := do
  let s ← s.initListHead .freeThreadqueue
  pooledThreads.foldlM initThreadSlot s

/-- `init_sched`. -/
def initSched (s : Kernel) : Except Fault Kernel := do
  let s ← s.initFreequeue
  let s ← s.initListHead .readyqueue
  s.initFreethreadqueue

/-- `init_idle`. -/
def initIdle (layout : Layout) (s : Kernel) : Except Fault Kernel := do
  let l := s.listFirst .freequeue
  let s ← s.listDel l
  let c ← listHeadToTaskStruct l
  let lhT := s.listFirst .freeThreadqueue
  let s ← s.listDel lhT
  let ts ← listHeadToThreadStruct layout lhT
  let s := s.setTask c fun c => { c with pid := 0, totalQuantum := defaultQuantumP }
  let s := s.allocateDIR c
  let s := s.setStack ts (kernelStackSize - 1) layout.cpuIdle
  let s := s.setStack ts (kernelStackSize - 2) 0
  let s := s.setThread ts fun t =>
    { t with tid := 0, registerEsp := .on ts (kernelStackSize - 2) }
  return { s with idleTask := some ts }

/-- `init_task1`.  The processor goes on with the kernel stack of the thread it sets up. -/
def initTask1 (layout : Layout) (s : Kernel) : Except Fault Kernel := do
  let l := s.listFirst .freequeue
  let s ← s.listDel l
  let c ← listHeadToTaskStruct l
  let lhT := s.listFirst .freeThreadqueue
  let s ← s.listDel lhT
  let ts ← listHeadToThreadStruct layout lhT
  let s := s.setTask c fun c =>
    { c with pid := 1, totalQuantum := defaultQuantumP, state := .stRun, nthread := 1 }
  let s := { s with remainingQuantumP := (s.task c).totalQuantum }
  let s := s.allocateDIR c
  let row ← s.getPT c
  let s := { s with mem := s.mem.setUserPages row }
  let nthread := (s.task c).nthread
  let s := s.setTask c fun c => { c with nthread := c.nthread + 1 }
  let s := s.setThread ts fun t =>
    { t with
      tid := nthread
      dirPagesBaseAddr := (s.task c).dirPagesBaseAddr
      p := .slot c
      state := .stRun
      quantum := defaultQuantumT }
  let s := { s with remainingQuantumT := (s.thread ts).quantum }
  let s ← s.setCr3 c
  return { s with current := ts }

/-- The initialisations of `main`, up to the first instruction of the first user program. -/
def boot (layout : Layout) : Except Fault Kernel := do
  let s ← (zeroed layout).initMm layout
  let s ← s.initSched
  let s ← s.initIdle layout
  s.initTask1 layout

end Kernel

/-- What can happen to the running thread: a clock tick, or a system call with its arguments.  A
call that copies the thread's kernel stack comes with the contents of that stack.  Between calls the
thread can store bytes in the pages it may write, and the parts of the kernel that are not modelled
can leave any bytes in its frames. -/
inductive Action
  | tick
  | fork (stack : Nat → Word)
  | pthreadCreate (stack : Nat → Word) (id startRoutine : Word)
  | pthreadJoin (id : Word)
  | pthreadExit
  | yield
  | exit
  | mutexInit (n : Int)
  | mutexLock (n : Int)
  | mutexUnlock (n : Int)
  | mutexDestroy (n : Int)
  | store (addr : Word) (value : Byte)
  | others (bytes : Nat → Byte)

namespace Kernel

/-- Enter the kernel on a path that can lead to a switch at `site`. -/
def enter (layout : Layout) (s : Kernel) (site : Site) : Kernel :=
  { s with ebp := layout.frame site }

/-- Enter the kernel with given contents of the running thread's kernel stack. -/
def enterWith (s : Kernel) (stack : Nat → Word) : Kernel :=
  { s with stack := Function.update s.stack s.current stack }

/-- A byte store of the running program: without effect unless the page is present, writable and
accessible to the user.  (A page fault of a program ends its use of the processor; it is not a step
of the kernel.)  What a store to a frame of the kernel does to its variables is in
`Image.userStore`. -/
def userStore (s : Kernel) (addr : Word) (value : Byte) : Kernel :=
  let entry := s.mem.pagusrTable (entryIndex s.cr3 (addr.toNat / pageSize))
  if addr.toNat / pageSize < totalPages ∧ entry.present ∧ entry.rw ∧ entry.user then
    { s with
      mem := { s.mem with
        ram := Function.update s.mem.ram
          (entry.pbaseAddr.toNat * pageSize + addr.toNat % pageSize) value } }
  else s

/-- New bytes in the frames of the kernel, for what reads there through a pointer of the user. -/
def setKernelBytes (s : Kernel) (bytes : Nat → Byte) : Kernel :=
  { s with
    mem := { s.mem with
      ram := fun physical =>
        if physical < numPagKernel * pageSize then bytes physical else s.mem.ram physical } }

/-- The effect of an action, with what a system call does to its caller. -/
def perform (layout : Layout) (s : Kernel) : Action → Except Fault (Kernel × Result)
  | .tick => do return (← (s.enter layout .clock).schedule layout, .switches)
  | .fork stack => (s.enterWith stack).sysFork layout
  | .pthreadCreate stack id startRoutine =>
      (s.enterWith stack).sysPthreadCreate layout id startRoutine
  | .pthreadJoin id => (s.enter layout .pthreadJoin).sysPthreadJoin layout id
  | .pthreadExit => (s.enter layout .pthreadExit).sysPthreadExit layout
  | .yield => (s.enter layout .yield).sysYield layout
  | .exit => (s.enter layout .exit).sysExit layout
  | .mutexInit n => s.sysMutexInit n
  | .mutexLock n => (s.enter layout .mutexLock).sysMutexLock layout n
  | .mutexUnlock n => s.sysMutexUnlock layout n
  | .mutexDestroy n => s.sysMutexDestroy layout n
  | .store addr value => return (s.userStore addr value, .returns 0)
  | .others bytes => return (s.setKernelBytes bytes, .returns 0)

/-- One atomic step: the kernel runs with interrupts disabled from its entry to the return to user
mode, in this thread or in the one it switches to. -/
def step (layout : Layout) (s : Kernel) (action : Action) : Except Fault Kernel := do
  let (s, _) ← s.perform layout action
  return s

/-- The states reached from boot by steps that all meet the guard. -/
def Reachable (layout : Layout) (guard : Kernel → Action → Prop) (s : Kernel) : Prop :=
  ∃ start, boot layout = .ok start ∧ Reaches (step layout) guard start s

/-- No restriction on the steps of a run. -/
def anyStep (_ : Kernel) (_ : Action) : Prop := True

end Kernel

end Zeos
