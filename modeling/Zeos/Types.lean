import Mathlib.Data.Fintype.Sum
import Mathlib.Tactic.DeriveFintype
import Zeos.IntrusiveList
import Zeos.GuardedRun

/-!
# Kernel data

The structures of `include/sched.h`, `include/mutex.h` and `include/types.h`, and the record of all
global variables.  A structure keeps its own fields; the list nodes embedded in it are nodes of one
heap, addressed by the structure and the field they belong to.
-/

namespace Zeos

open IntrusiveList GuardedRun

/-! ## Constants -/

abbrev nrTasks : Nat := 10
abbrev nrThreads : Nat := 20
abbrev nrMutex : Nat := 20
abbrev kernelStackSize : Nat := 1024
abbrev totalPages : Nat := 1024
abbrev numPagKernel : Nat := 256
abbrev numPagCode : Nat := 8
abbrev numPagData : Nat := 20
abbrev pageSize : Nat := 4096

/-- `L_USER_START >> 12`. -/
abbrev pagLogInitCode : Nat := 256
abbrev pagLogInitData : Nat := pagLogInitCode + numPagCode

abbrev EPERM : Int := 1
abbrev EBADF : Int := 9
abbrev EAGAIN : Int := 11
abbrev ENOMEM : Int := 12
abbrev EFAULT : Int := 14
abbrev EBUSY : Int := 16
abbrev EINVAL : Int := 22

/-- A 32-bit machine word. -/
abbrev Word := BitVec 32

abbrev Byte := BitVec 8

abbrev defaultQuantumP : Word := 20
abbrev defaultQuantumT : Word := 10

/-- The words of a `thread_struct`, at the beginning of its `thread_union`. -/
abbrev threadStructWords : Nat := 9

/-! ## Addresses -/

/-- A slot of the `task` array, which `dir_pages` and `pagusr_table` share as index. -/
abbrev TaskId := Fin nrTasks

/-- A slot of the `thread_tasks` array. -/
abbrev ThreadSlot := Fin (nrThreads + 2)

@[instance]
theorem neZero_nrTasks : @NeZero Nat Zero.ofOfNat0 nrTasks := ⟨by decide⟩

@[instance (high)]
theorem neZero_nrThreads : @NeZero Nat Zero.ofOfNat0 (nrThreads + 2) := ⟨by decide⟩

/-- An index that the mutex calls accept. -/
abbrev MutexId := Fin nrMutex

/-- A `thread_struct *`: a slot of `thread_tasks`, or the beginning of one of the two pages of the
kernel image in which `mutex_vector` lies.  Nothing the kernel keeps as a thread is there, but
masking the address of a mutex's list head yields such a pointer. -/
inductive ThreadPtr
  | slot (index : ThreadSlot)
  | image (page : Fin 2)
  deriving DecidableEq, Fintype

/-- A `task_struct *`. -/
inductive TaskPtr
  | null
  | slot (index : TaskId)
  | wild
  deriving DecidableEq

/-- A saved stack pointer: a word of a thread's kernel stack. -/
inductive StackPtr
  | null
  | on (thread : ThreadPtr) (index : Nat)
  | wild
  deriving DecidableEq

/-- A `list_head *`. -/
inductive Node
  | null
  | freequeue
  | readyqueue
  | freeThreadqueue
  | task (index : TaskId)
  | ready (index : TaskId)
  | blocked (index : TaskId)
  | thread (thread : ThreadPtr)
  | mutex (index : MutexId)
  | wild
  deriving DecidableEq

/-- Why the kernel gets no further. -/
inductive Fault
  /-- A page fault: the access is to page 0 and the current page table does not map it. -/
  | page
  /-- The access is to memory that holds none of the modelled variables, or to their bytes, whose
  places `Image` adds. -/
  | foreign
  /-- `list_head_to_task_struct` of a node that no `task_struct` holds. -/
  | notTask (node : Node)
  /-- `list_head_to_thread_struct` of a node that no `thread_struct` holds. -/
  | notThread (node : Node)
  /-- A list traversal that does not end. -/
  | hang
  deriving DecidableEq

/-! ## Structures -/

/-- `enum state_t`. -/
inductive RunState
  | stRun
  | stReady
  | stBlocked
  deriving DecidableEq

/-- `struct task_struct` without its three list nodes. -/
structure TaskStruct where
  pid : Word
  /-- The page directory `dir_pages[k]`, or the null pointer. -/
  dirPagesBaseAddr : Option TaskId
  state : RunState
  totalQuantum : Word
  nthread : Word
  deriving DecidableEq

/-- `struct thread_struct` without its list node. -/
structure ThreadStruct where
  tid : Word
  dirPagesBaseAddr : Option TaskId
  p : TaskPtr
  registerEsp : StackPtr
  state : RunState
  quantum : Word
  blockedBy : Word
  deriving DecidableEq

/-- `struct mutex_t` without its list head. -/
structure Mutex where
  locked : Word
  owner : Word
  deriving DecidableEq

/-- The bit fields of a `page_table_entry` that the kernel sets. -/
@[ext]
structure PageTableEntry where
  present : Bool
  rw : Bool
  user : Bool
  pbaseAddr : BitVec 20
  deriving DecidableEq

/-- `entry = 0`. -/
def PageTableEntry.zero : PageTableEntry := ⟨false, false, false, 0⟩

/-- The variables of `mm.c` and the contents of physical memory. -/
structure Memory where
  physMem : Nat → Byte
  /-- The rows of `pagusr_table`, one after the other as in memory. -/
  pagusrTable : Nat → PageTableEntry
  /-- The bytes of the frames above the kernel.  The variables in the kernel's own frames are fields
  of their own; the bytes here for those frames are left open. -/
  ram : Nat → Byte

/-- The program points from which the running thread can be switched out. -/
inductive Site
  | clock
  | yield
  | pthreadJoin
  | pthreadExit
  | mutexLock
  | exit
  deriving DecidableEq

/-- What the linker and the compiler decide. -/
structure Layout where
  /-- Address of `mutex_vector`. -/
  mutexVector : Nat
  /-- The word of `state` in a `thread_struct` read at the beginning of a page of the kernel
  image. -/
  imageState : Fin 2 → RunState
  /-- Page number of `protected_tasks`. -/
  protectedTasks : Nat
  /-- Address of `cpu_idle`. -/
  cpuIdle : Word
  /-- Address of `ret_from_fork`. -/
  retFromFork : Word
  /-- Stack index of the frame that `switch_stack` saves. -/
  frame : Site → Nat
  /-- Contents of physical memory when the kernel starts. -/
  ram : Nat → Byte

/-- All registers and variables that the scheduler, the mutexes, the process calls and the memory
manager use. -/
structure Kernel where
  /-- The thread whose kernel stack is in use, `current_t()`. -/
  current : ThreadPtr
  /-- Stack index in `ebp` when `switch_stack` is reached. -/
  ebp : Nat
  /-- The page directory in use. -/
  cr3 : TaskId
  heap : Heap Node
  task : TaskId → TaskStruct
  thread : ThreadPtr → ThreadStruct
  /-- The words of each `thread_union` above its `thread_struct`. -/
  stack : ThreadPtr → Nat → Word
  mutexVector : MutexId → Mutex
  idleTask : Option ThreadPtr
  remainingQuantumT : Word
  remainingQuantumP : Word
  globalPID : Word
  mem : Memory

/-- What a system call does to its caller: return a value to it, or leave it suspended in the
kernel.  A suspended `yield`, `pthread_join` or `mutex_lock` returns 0 when its thread is resumed;
`exit` and `pthread_exit` do not return. -/
inductive Result
  | returns (value : Int)
  | switches
  deriving DecidableEq

/-! ## Conversions between nodes and structures -/

/-- The page of the kernel image that holds the list head of a mutex.  A `mutex_t` has 20 bytes and
its list head starts at byte 12. -/
def Layout.imagePage (layout : Layout) (index : MutexId) : Fin 2 :=
  if (layout.mutexVector + 20 * index + 12) / pageSize = (layout.mutexVector + 12) / pageSize then 0
  else 1

/-- `list_head_to_task_struct`: the page of the node.  For a node of another kind the run ends here,
where the code goes on with a page that holds no process. -/
def listHeadToTaskStruct : Node → Except Fault TaskId
  | .task index | .ready index | .blocked index => .ok index
  | node => .error (.notTask node)

/-- `list_head_to_thread_struct`: the page of the node.  For a list head of another kind and for
null the run ends here, where the code goes on with a page that holds no thread. -/
def listHeadToThreadStruct (layout : Layout) : Node → Except Fault ThreadPtr
  | .thread thread => .ok thread
  | .mutex index => .ok (.image (layout.imagePage index))
  | node => .error (.notThread node)

/-- Index of the entry of a logical page in `pagusr_table`. -/
def entryIndex (row : TaskId) (page : Nat) : Nat := totalPages * row + page

namespace Kernel

/-! ## Accesses -/

/-- Whether the page table in use maps page 0. -/
def page0Present (s : Kernel) : Bool := (s.mem.pagusrTable (entryIndex s.cr3 0)).present

/-- An access to the list node at an address. -/
def access (s : Kernel) : Node → Except Fault Unit
  | .null => if s.page0Present then .ok () else .error .page
  | .wild => .error .foreign
  | _ => .ok ()

/-- An access to the fields of a `task_struct`. -/
def deref (s : Kernel) : TaskPtr → Except Fault TaskId
  | .slot index => .ok index
  | .null => .error (if s.page0Present then .foreign else .page)
  | .wild => .error .foreign

/-- `current_p()`, followed by an access to the structure. -/
def currentP (s : Kernel) : Except Fault TaskId := s.deref (s.thread s.current).p

/-! ## Lists -/

def initListHead (s : Kernel) (list : Node) : Except Fault Kernel := do
  let heap ← IntrusiveList.initListHead s.access s.heap list
  return { s with heap }

def listAddTail (s : Kernel) (new head : Node) : Except Fault Kernel := do
  let heap ← IntrusiveList.listAddTail s.access s.heap new head
  return { s with heap }

def listDel (s : Kernel) (entry : Node) : Except Fault Kernel := do
  let heap ← IntrusiveList.listDel s.access .null s.heap entry
  return { s with heap }

def listFirst (s : Kernel) (head : Node) : Node := IntrusiveList.listFirst s.heap head

def listEmpty (s : Kernel) (head : Node) : Bool := IntrusiveList.listEmpty s.heap head

/-! ## Field updates -/

def setThread (s : Kernel) (thread : ThreadPtr) (update : ThreadStruct → ThreadStruct) : Kernel :=
  { s with thread := Function.update s.thread thread (update (s.thread thread)) }

def setTask (s : Kernel) (task : TaskId) (update : TaskStruct → TaskStruct) : Kernel :=
  { s with task := Function.update s.task task (update (s.task task)) }

def setMutex (s : Kernel) (index : MutexId) (update : Mutex → Mutex) : Kernel :=
  { s with mutexVector := Function.update s.mutexVector index (update (s.mutexVector index)) }

def setStack (s : Kernel) (thread : ThreadPtr) (index : Nat) (word : Word) : Kernel :=
  { s with stack := Function.update s.stack thread (Function.update (s.stack thread) index word) }

end Kernel

end Zeos
