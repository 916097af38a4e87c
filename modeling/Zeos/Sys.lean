import Zeos.Mutex

/-!
# Process and thread calls

The system calls of `sys.c` that create, block and end processes and threads.
-/

namespace Zeos

open GuardedRun

/-- Stack index of the frame pointer of a system call's C function: the handler leaves sixteen words
on the stack, the call its return address, and the function saves `ebp`. -/
abbrev syscallFrame : Nat := kernelStackSize - 18

/-- Size of the buffer of `sys_write` in the kernel. -/
abbrev tamBuffer : Nat := 512

namespace Kernel

/-- `copy_data` from the running thread's `thread_union` to another one.  A destination in the
kernel image overwrites other variables. -/
def copyThreadUnion (s : Kernel) (dest : ThreadPtr) : Except Fault Kernel :=
  match dest with
  | .slot _ =>
      .ok { s with
        thread := Function.update s.thread dest (s.thread s.current)
        stack := Function.update s.stack dest (s.stack s.current)
        heap := Function.update s.heap (.thread dest) (s.heap (.thread s.current)) }
  | .image _ => .error .foreign

/-- The page tables and frames of a child whose data pages have been allocated: share the system and
code pages and copy the data pages. -/
def forkPages (s : Kernel) (processPT : TaskId) : Except Fault Kernel := do
  let p ← s.currentP
  let parentPT ← s.getPT p
  let mem := s.mem.shareSystemAndCode parentPT processPT
  let mem ← mem.copyDataPages s.cr3 parentPT processPT
  let s := { s with mem }
  s.setCr3 p

/-- The fields of the child's `task_struct` that `sys_fork` sets. -/
def forkTask (s : Kernel) (uchild : TaskId) : Kernel :=
  let s := { s with globalPID := s.globalPID + 1 }
  s.setTask uchild fun c =>
    { c with
      pid := s.globalPID
      state := .stReady
      totalQuantum := defaultQuantumP
      nthread := 1 }

/-- The fields of the child's `thread_struct` that `sys_fork` sets, and the two words it writes to
the child's stack. -/
def forkThread (layout : Layout) (s : Kernel) (uchild : TaskId) (uthread : ThreadPtr) : Kernel :=
  let nthread := (s.task uchild).nthread
  let s := s.setTask uchild fun c => { c with nthread := c.nthread + 1 }
  let s := s.setThread uthread fun t =>
    { t with
      tid := nthread
      state := .stReady
      dirPagesBaseAddr := (s.task uchild).dirPagesBaseAddr
      p := .slot uchild }
  let tempEbp := s.stack uthread syscallFrame
  let s := s.setStack uthread syscallFrame layout.retFromFork
  let s := s.setStack uthread (syscallFrame - 1) tempEbp
  s.setThread uthread fun t => { t with registerEsp := .on uthread (syscallFrame - 1) }

/-- `sys_fork`. -/
def sysFork (layout : Layout) (s : Kernel) : Except Fault (Kernel × Result) := do
  if s.listEmpty .freequeue then return (s, .returns (-ENOMEM))
  else if s.listEmpty .freeThreadqueue then return (s, .returns (-ENOMEM))
  else
    let lhcurrent := s.listFirst .freequeue
    let tLh := s.listFirst .freeThreadqueue
    let s ← s.listDel lhcurrent
    let s ← s.listDel tLh
    let uchild ← listHeadToTaskStruct lhcurrent
    let uthread ← listHeadToThreadStruct layout tLh
    let s ← s.copyThreadUnion uthread
    let s := s.allocateDIR uchild
    let processPT ← s.getPT uchild
    match s.mem.allocDataPages processPT numPagData 0 with
    | (false, mem) =>
        let s ← { s with mem }.listAddTail lhcurrent .freequeue
        return (s, .returns (-EAGAIN))
    | (true, mem) =>
        let s ← { s with mem }.forkPages processPT
        let s := (s.forkTask uchild).forkThread layout uchild uthread
        let s ← s.listAddTail (.task uchild) .readyqueue
        let s ← s.listAddTail (.thread uthread) (.ready uchild)
        return (s, .returns (s.task uchild).pid.toInt)

/-- `check_fd` for `ESCRIPTURA`; its test of the permissions never fails. -/
def checkFd (fd : Int) : Int := if fd ≠ 1 then -EBADF else 0

/-- The loop of `sys_write` over the blocks of the buffer, and the block that is left: the bytes
that `sys_write_console` prints. -/
def writeBlocks (m : Memory) (cr3 : TaskId) (buffer : Word) (bytesLeft : Nat) :
    Except Fault (List Byte) :=
  if _more : tamBuffer < bytesLeft then do
    let block ← m.copyFromUser cr3 buffer tamBuffer
    let rest ← writeBlocks m cr3 (buffer + BitVec.ofNat 32 tamBuffer) (bytesLeft - tamBuffer)
    return block ++ rest
  else if 0 < bytesLeft then m.copyFromUser cr3 buffer bytesLeft
  else return []
termination_by bytesLeft
decreasing_by exact Nat.sub_lt (Nat.zero_lt_of_lt _more) (by decide)

/-- `sys_write`: the bytes that are printed and the value that is returned.  No variable of the
kernel changes. -/
def sysWrite (s : Kernel) (fd : Int) (buffer : Word) (nbytes : Int) :
    Except Fault (List Byte × Int) :=
  if checkFd fd ≠ 0 then return ([], checkFd fd)
  else if nbytes < 0 then return ([], -EINVAL)
  else if !accessOk .read buffer (BitVec.ofInt 32 nbytes) then return ([], -EFAULT)
  else do
    let printed ← writeBlocks s.mem s.cr3 buffer nbytes.toNat
    return (printed, nbytes)

/-- The words that `sys_pthread_create` writes to the new thread's stack before it looks for a stack
page, and the stack pointer that leads to them. -/
def createContext (s : Kernel) (uthread : ThreadPtr) (startRoutine : Word) : Kernel :=
  let s := s.setStack uthread syscallFrame 0
  let s := s.setThread uthread fun t => { t with registerEsp := .on uthread syscallFrame }
  s.setStack uthread (kernelStackSize - 5) startRoutine

/-- The new thread's user stack: the first entry from the end of the data pages on without a frame
gets one, also when there is none left to give. -/
def createStack (s : Kernel) (uthread : ThreadPtr) (processPT : TaskId) :
    Except Fault Kernel := do
  let first := entryIndex processPT (pagLogInitData + numPagData)
  let entry ← s.mem.findStackEntry (nrTasks * totalPages) first
  let (newPhPag, mem) := s.mem.allocFrame
  let mem := mem.setEntry entry
    { present := true, rw := true, user := true, pbaseAddr := BitVec.ofInt 20 newPhPag }
  let logAdress := BitVec.ofNat 32 ((entry - entryIndex processPT 0 + 1) * pageSize)
  return { s with mem }.setStack uthread (kernelStackSize - 2) logAdress

/-- The fields of the new thread that `sys_pthread_create` sets, for the current process `p`. -/
def createThread (s : Kernel) (uthread : ThreadPtr) (p : TaskId) : Kernel :=
  let nthread := (s.task p).nthread
  let s := s.setTask p fun c => { c with nthread := c.nthread + 1 }
  s.setThread uthread fun t =>
    { t with
      tid := nthread
      quantum := defaultQuantumT
      state := .stReady
      p := (s.thread s.current).p
      dirPagesBaseAddr := (s.task p).dirPagesBaseAddr }

/-- `sys_pthread_create`.  The last argument of the call is not used. -/
def sysPthreadCreate (layout : Layout) (s : Kernel) (id startRoutine : Word) :
    Except Fault (Kernel × Result) := do
  if !accessOk .read startRoutine 4 then return (s, .returns (-EFAULT))
  else if s.listEmpty .freeThreadqueue then return (s, .returns (-ENOMEM))
  else
    let tLh := s.listFirst .freeThreadqueue
    let uthread ← listHeadToThreadStruct layout tLh
    let s ← s.listDel tLh
    let s ← s.copyThreadUnion uthread
    let s := s.createContext uthread startRoutine
    let p ← s.currentP
    let processPT ← s.getPT p
    let s ← s.createStack uthread processPT
    let s := s.createThread uthread p
    let mem ← s.mem.storeWord s.cr3 id (s.thread uthread).tid
    let s ← { s with mem }.listAddTail (.thread uthread) (.ready p)
    return (s, .returns 0)

/-- The loops of `sys_exit` that return the threads of a list to the free ones. -/
def freeThreadsOf (layout : Layout) (head : Node) : Nat → Kernel → Except Fault Kernel
  | 0, _ => .error .hang
  | fuel + 1, s =>
      if s.listEmpty head then .ok s
      else do
        let l := s.listFirst head
        let t ← listHeadToThreadStruct layout l
        let s ← s.listDel l
        let s ← s.listAddTail (.thread t) .freeThreadqueue
        freeThreadsOf layout head fuel (s.setThread t fun c => { c with tid := -1 })

/-- `sys_exit`. -/
def sysExit (layout : Layout) (s : Kernel) : Except Fault (Kernel × Result) := do
  let p ← s.currentP
  let processPT ← s.getPT p
  let s := { s with mem := s.mem.releaseDataPages processPT numPagData }
  let s ← s.listAddTail (.task p) .freequeue
  let s := s.setTask p fun c => { c with pid := -1 }
  let s ← freeThreadsOf layout (.ready p) listFuel s
  let s ← freeThreadsOf layout (.blocked p) listFuel s
  let s ← s.schedNextProcessRr layout
  return (s, .switches)

/-- `sys_yield`. -/
def sysYield (layout : Layout) (s : Kernel) : Except Fault (Kernel × Result) := do
  let s ← s.forceThreadSwitch layout
  return (s, .switches)

/-- `sys_pthread_join`.  The second argument of the call is not used. -/
def sysPthreadJoin (layout : Layout) (s : Kernel) (id : Word) :
    Except Fault (Kernel × Result) := do
  let p ← s.currentP
  if (s.task p).nthread.toNat < 2 then return (s, .returns (-EFAULT))
  else
    let tid ← s.mem.loadWord s.cr3 id
    let s := s.setThread s.current fun t => { t with blockedBy := tid }
    let s ← s.updateThreadStateRr s.current (some (.blocked p))
    let s ← s.schedNextThreadRr layout
    return (s, .switches)

/-- The test and wake-up of one blocked thread in `sys_pthread_exit`. -/
def wakeJoiner (s : Kernel) (p : TaskId) (t : ThreadPtr) : Except Fault Kernel :=
  if (s.thread t).blockedBy = (s.thread s.current).tid then
    s.updateThreadStateRr t (some (.ready p))
  else .ok s

/-- The loop of `sys_pthread_exit` over the blocked threads, up to the node `i` that was first and
has been moved to the end. -/
def wakeLoop (layout : Layout) (p : TaskId) (i : Node) : Nat → Kernel → Except Fault Kernel
  | 0, _ => .error .hang
  | fuel + 1, s =>
      let it := s.listFirst (.blocked p)
      if it = i then .ok s
      else do
        let t ← listHeadToThreadStruct layout it
        let s ← s.wakeJoiner p t
        let s ← s.listDel it
        let s ← s.listAddTail it (.blocked p)
        wakeLoop layout p i fuel s

/-- The part of `sys_pthread_exit` that wakes the threads which join the current one. -/
def wakeJoiners (layout : Layout) (s : Kernel) (p : TaskId) : Except Fault Kernel :=
  if s.listEmpty (.blocked p) then .ok s
  else do
    let i := s.listFirst (.blocked p)
    let s ← s.listDel i
    let s ← s.listAddTail i (.blocked p)
    let s ← wakeLoop layout p i listFuel s
    let t ← listHeadToThreadStruct layout (s.listFirst (.blocked p))
    s.wakeJoiner p t

/-- `sys_pthread_exit`.  Its argument is not used. -/
def sysPthreadExit (layout : Layout) (s : Kernel) : Except Fault (Kernel × Result) := do
  let s ← s.listAddTail (.thread s.current) .freeThreadqueue
  let p ← s.currentP
  let s ← s.wakeJoiners layout p
  let s ← s.schedNextThreadRr layout
  return (s, .switches)

end Kernel

end Zeos
