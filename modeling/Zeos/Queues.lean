import Zeos.Lanes
import Zeos.Boot

/-!
# Queues

The lists of the kernel as sequences of processes and threads, and what it means that the heap
represents them.
-/

namespace Zeos

open IntrusiveList GuardedRun

/-- The queues of processes. -/
inductive ProcessQueue
  | free
  | ready
  deriving DecidableEq

/-- The queues of threads. -/
inductive ThreadQueue
  | free
  | ready (process : TaskId)
  | blocked (process : TaskId)
  | mutex (index : MutexId)
  deriving DecidableEq

/-- The list head of a queue. -/
def ProcessQueue.node : ProcessQueue → Node
  | .free => .freequeue
  | .ready => .readyqueue

/-- The list head of a queue. -/
def ThreadQueue.node : ThreadQueue → Node
  | .free => .freeThreadqueue
  | .ready process => .ready process
  | .blocked process => .blocked process
  | .mutex index => .mutex index

@[simp] theorem ProcessQueue.node_free : node .free = .freequeue := rfl
@[simp] theorem ProcessQueue.node_ready : node .ready = .readyqueue := rfl
@[simp] theorem ThreadQueue.node_free : node .free = .freeThreadqueue := rfl
@[simp] theorem ThreadQueue.node_ready (p : TaskId) : node (.ready p) = .ready p := rfl
@[simp] theorem ThreadQueue.node_blocked (p : TaskId) : node (.blocked p) = .blocked p := rfl
@[simp] theorem ThreadQueue.node_mutex (m : MutexId) : node (.mutex m) = .mutex m := rfl

/-- The list head in a mutex: an empty or longer list, or still zero, but for the address of the
last thread that has been added to it in this condition. -/
inductive MutexHead
  | listed
  | unlisted (last : Option ThreadSlot)
  deriving DecidableEq

/-- All lists of the kernel. -/
structure Queues where
  processes : Lanes ProcessQueue TaskId
  threads : Lanes ThreadQueue ThreadPtr
  head : MutexId → MutexHead

theorem task_injective : Function.Injective Node.task := fun _ _ => Node.task.inj

theorem thread_injective : Function.Injective Node.thread := fun _ _ => Node.thread.inj

namespace Queues

/-- The lists, by the address of their heads. -/
def lists (q : Queues) : Node → Option (List Node)
  | .freequeue => some ((q.processes .free).map .task)
  | .readyqueue => some ((q.processes .ready).map .task)
  | .freeThreadqueue => some ((q.threads .free).map .thread)
  | .ready process => some ((q.threads (.ready process)).map .thread)
  | .blocked process => some ((q.threads (.blocked process)).map .thread)
  | .mutex index =>
      if q.head index = .listed then some ((q.threads (.mutex index)).map .thread) else none
  | _ => none

/-- The queue has a list head that is not zero. -/
def Listed (q : Queues) : ThreadQueue → Prop
  | .mutex index => q.head index = .listed
  | _ => True

def pushProcess (q : Queues) (queue : ProcessQueue) (process : TaskId) : Queues :=
  { q with processes := q.processes.push queue process }

def removeProcess (q : Queues) (process : TaskId) : Queues :=
  { q with processes := q.processes.remove process }

def pushThread (q : Queues) (queue : ThreadQueue) (thread : ThreadPtr) : Queues :=
  { q with threads := q.threads.push queue thread }

def removeThread (q : Queues) (thread : ThreadPtr) : Queues :=
  { q with threads := q.threads.remove thread }

section Fields

variable (q : Queues) (queue : ProcessQueue) (process : TaskId) (lane : ThreadQueue)
  (thread : ThreadPtr)

@[simp] theorem processes_pushProcess :
    (q.pushProcess queue process).processes = q.processes.push queue process := rfl
@[simp] theorem threads_pushProcess : (q.pushProcess queue process).threads = q.threads := rfl
@[simp] theorem head_pushProcess : (q.pushProcess queue process).head = q.head := rfl
@[simp] theorem processes_removeProcess :
    (q.removeProcess process).processes = q.processes.remove process := rfl
@[simp] theorem threads_removeProcess : (q.removeProcess process).threads = q.threads := rfl
@[simp] theorem head_removeProcess : (q.removeProcess process).head = q.head := rfl
@[simp] theorem processes_pushThread : (q.pushThread lane thread).processes = q.processes := rfl
@[simp] theorem threads_pushThread :
    (q.pushThread lane thread).threads = q.threads.push lane thread := rfl
@[simp] theorem head_pushThread : (q.pushThread lane thread).head = q.head := rfl
@[simp] theorem processes_removeThread : (q.removeThread thread).processes = q.processes := rfl
@[simp] theorem threads_removeThread :
    (q.removeThread thread).threads = q.threads.remove thread := rfl
@[simp] theorem head_removeThread : (q.removeThread thread).head = q.head := rfl

end Fields

theorem lists_processNode (q : Queues) (queue : ProcessQueue) :
    q.lists queue.node = some ((q.processes queue).map .task) := by
  cases queue <;> rfl

theorem lists_threadNode {q : Queues} {queue : ThreadQueue} (listed : q.Listed queue) :
    q.lists queue.node = some ((q.threads queue).map .thread) := by
  cases queue with
  | mutex index => exact if_pos listed
  | _ => rfl

/-- Every list is one of processes or one of threads. -/
theorem lists_eq_some {q : Queues} {head : Node} {members : List Node}
    (found : q.lists head = some members) :
    (∃ queue : ProcessQueue, head = queue.node ∧ members = (q.processes queue).map .task) ∨
      ∃ queue : ThreadQueue, q.Listed queue ∧ head = queue.node ∧
        members = (q.threads queue).map .thread := by
  cases head with
  | freequeue => exact .inl ⟨.free, rfl, (Option.some.inj found).symm⟩
  | readyqueue => exact .inl ⟨.ready, rfl, (Option.some.inj found).symm⟩
  | freeThreadqueue => exact .inr ⟨.free, trivial, rfl, (Option.some.inj found).symm⟩
  | ready process => exact .inr ⟨.ready process, trivial, rfl, (Option.some.inj found).symm⟩
  | blocked process => exact .inr ⟨.blocked process, trivial, rfl, (Option.some.inj found).symm⟩
  | mutex index =>
      by_cases listed : q.head index = .listed
      · rw [lists, if_pos listed] at found
        exact .inr ⟨.mutex index, listed, rfl, (Option.some.inj found).symm⟩
      · rw [lists, if_neg listed] at found
        exact absurd found (by simp)
  | _ => exact absurd found (by simp [lists])

theorem lists_mutex (q : Queues) (index : MutexId) : q.lists (.mutex index) =
    if q.head index = .listed then some ((q.threads (.mutex index)).map .thread) else none := rfl

theorem lists_updateProcesses (q : Queues) (queue : ProcessQueue) (items : List TaskId) :
    { q with processes := Function.update q.processes queue items }.lists =
      Function.update q.lists queue.node (some (items.map .task)) := by
  funext node
  cases node with
  | freequeue => cases queue <;> simp [lists]
  | readyqueue => cases queue <;> simp [lists]
  | _ => cases queue <;> rfl

theorem lists_updateThreads {q : Queues} {queue : ThreadQueue} (listed : q.Listed queue)
    (items : List ThreadPtr) :
    { q with threads := Function.update q.threads queue items }.lists =
      Function.update q.lists queue.node (some (items.map .thread)) := by
  funext node
  cases node with
  | mutex index =>
      by_cases same : queue = .mutex index
      · subst same
        rw [ThreadQueue.node, Function.update_self, lists_mutex]
        exact (if_pos listed).trans (by simp only [Function.update_self])
      · have node_ne : (.mutex index : Node) ≠ queue.node := by
          cases queue with
          | mutex other => exact fun equal => same (by simpa using equal.symm)
          | _ => simp
        have items_eq : Function.update q.threads queue items (.mutex index) =
            q.threads (.mutex index) := Function.update_of_ne (Ne.symm same) _ _
        rw [Function.update_of_ne node_ne, lists_mutex, lists_mutex]
        simp only [items_eq]
  | freeThreadqueue => cases queue <;> simp [lists]
  | ready process => cases queue <;> simp [lists, Function.update_apply]; split <;> rfl
  | blocked process => cases queue <;> simp [lists, Function.update_apply]; split <;> rfl
  | _ => cases queue <;> rfl

theorem lists_pushProcess (q : Queues) (queue : ProcessQueue) (process : TaskId) :
    (q.pushProcess queue process).lists = Function.update q.lists queue.node
      (some ((q.processes queue).map .task ++ [.task process])) := by
  rw [← List.map_singleton, ← List.map_append]
  exact lists_updateProcesses q queue _

theorem lists_removeProcess {q : Queues} {queue : ProcessQueue} {process : TaskId}
    (separate : q.processes.Separate) (member : process ∈ q.processes queue) :
    (q.removeProcess process).lists = Function.update q.lists queue.node
      (some (((q.processes queue).map .task).erase (.task process))) := by
  rw [← List.map_erase task_injective, removeProcess, separate.remove_eq member]
  exact lists_updateProcesses q queue _

theorem lists_pushThread {q : Queues} {queue : ThreadQueue} (listed : q.Listed queue)
    (thread : ThreadPtr) :
    (q.pushThread queue thread).lists = Function.update q.lists queue.node
      (some ((q.threads queue).map .thread ++ [.thread thread])) := by
  rw [← List.map_singleton, ← List.map_append]
  exact lists_updateThreads listed _

theorem lists_removeThread {q : Queues} {queue : ThreadQueue} (listed : q.Listed queue)
    {thread : ThreadPtr} (separate : q.threads.Separate) (member : thread ∈ q.threads queue) :
    (q.removeThread thread).lists = Function.update q.lists queue.node
      (some (((q.threads queue).map .thread).erase (.thread thread))) := by
  rw [← List.map_erase thread_injective, removeThread, separate.remove_eq member]
  exact lists_updateThreads listed _

end Queues

/-- A node that can be accessed whatever the page table in use. -/
def Node.Valid (node : Node) : Prop := node ≠ .null ∧ node ≠ .wild

theorem Kernel.access_valid (s : Kernel) (node : Node) (valid : node.Valid) :
    s.access node = .ok () := by
  cases node with
  | null => exact absurd rfl valid.1
  | wild => exact absurd rfl valid.2
  | _ => rfl

/-- The last thread added to a head that is still zero. -/
def lastNode : Option ThreadSlot → Node
  | none => .null
  | some slot => .thread (.slot slot)

/-- The heap holds the lists, and the zero heads of mutexes never initialised. -/
structure Represents (heap : Heap Node) (q : Queues) : Prop where
  family : Family Node.Valid heap q.lists
  /-- A head still zero leads to the thread added last, which is in no list. -/
  unlisted : ∀ {index last}, q.head index = .unlisted last →
    q.threads (.mutex index) = [] ∧
      heap (.mutex index) = ⟨.null, lastNode last⟩ ∧
      ∀ slot ∈ last, q.threads.Absent (.slot slot)
  /-- What is at the place of the node of a `thread_struct` in a page of the kernel image, as long
  as it is in no list, leads nowhere. -/
  image : ∀ page, q.threads.Absent (.image page) →
    heap (.thread (.image page)) = ⟨.wild, .wild⟩

namespace Represents

variable {heap : Heap Node} {q : Queues}

theorem owned_thread_iff (represents : Represents heap q) {thread : ThreadPtr} :
    Owned q.lists (.thread thread) ↔ ¬q.threads.Absent thread := by
  constructor
  · intro owned absent
    obtain ⟨head, members, found, member⟩ := owned
    rcases Queues.lists_eq_some found with ⟨queue, rfl, rfl⟩ | ⟨queue, _, rfl, rfl⟩
    · cases queue <;> simp at member
    · have waiting : thread ∈ q.threads queue := by cases queue <;> simpa using member
      exact absent queue waiting
  · intro present
    simp only [Lanes.Absent, not_forall, not_not] at present
    obtain ⟨queue, member⟩ := present
    have listed : q.Listed queue := by
      cases queue with
      | mutex index =>
          cases head_eq : q.head index with
          | listed => exact head_eq
          | unlisted last =>
              rw [(represents.unlisted head_eq).1] at member
              exact absurd member List.not_mem_nil
      | _ => trivial
    exact ⟨_, _, Queues.lists_threadNode listed, by simp [member]⟩

theorem owned_task_iff {process : TaskId} :
    Owned q.lists (.task process) ↔ ¬q.processes.Absent process := by
  constructor
  · intro owned absent
    obtain ⟨head, members, found, member⟩ := owned
    rcases Queues.lists_eq_some found with ⟨queue, rfl, rfl⟩ | ⟨queue, _, rfl, rfl⟩
    · have waiting : process ∈ q.processes queue := by cases queue <;> simpa using member
      exact absent queue waiting
    · cases queue <;> simp at member
  · intro present
    simp only [Lanes.Absent, not_forall, not_not] at present
    obtain ⟨queue, member⟩ := present
    exact ⟨_, _, Queues.lists_processNode q queue, by simp [member]⟩

/-- A queue with members has a list head. -/
theorem listed_of_mem (represents : Represents heap q) {queue : ThreadQueue} {thread : ThreadPtr}
    (member : thread ∈ q.threads queue) : q.Listed queue := by
  cases queue with
  | mutex index =>
      cases head_eq : q.head index with
      | listed => exact head_eq
      | unlisted last =>
          rw [(represents.unlisted head_eq).1] at member
          exact absurd member List.not_mem_nil
  | _ => trivial

theorem separate_processes (represents : Represents heap q) : q.processes.Separate where
  nodup queue := by
    have ring := represents.family.ring (Queues.lists_processNode q queue)
    exact List.Nodup.of_map _ (List.nodup_cons.mp ring.nodup).2
  unique {queue queue' process} member member' := by
    have inside : .task process ∈ queue.node :: (q.processes queue).map .task := by simp [member]
    have inside' : .task process ∈ queue'.node :: (q.processes queue').map .task := by
      simp [member']
    have node_eq : queue.node = queue'.node := represents.family.head_unique
      (Queues.lists_processNode q queue) (Queues.lists_processNode q queue') inside inside'
    cases queue <;> cases queue' <;> simp_all

theorem separate_threads (represents : Represents heap q) : q.threads.Separate where
  nodup queue := by
    by_cases empty : q.threads queue = []
    · rw [empty]
      exact List.nodup_nil
    · obtain ⟨thread, member⟩ := List.exists_mem_of_ne_nil _ empty
      have ring := represents.family.ring
        (Queues.lists_threadNode (represents.listed_of_mem member))
      exact List.Nodup.of_map _ (List.nodup_cons.mp ring.nodup).2
  unique {queue queue' thread} member member' := by
    have inside : .thread thread ∈ queue.node :: (q.threads queue).map .thread := by
      simp [member]
    have inside' : .thread thread ∈ queue'.node :: (q.threads queue').map .thread := by
      simp [member']
    have node_eq : queue.node = queue'.node := represents.family.head_unique
      (Queues.lists_threadNode (represents.listed_of_mem member))
      (Queues.lists_threadNode (represents.listed_of_mem member')) inside inside'
    cases queue <;> cases queue' <;> simp_all

/-! ## Reading -/

variable {s : Kernel}

theorem first_processes (represents : Represents s.heap q) (queue : ProcessQueue) :
    s.listFirst queue.node = ((q.processes queue).map .task).headD queue.node :=
  (represents.family.ring (Queues.lists_processNode q queue)).listFirst

theorem first_threads (represents : Represents s.heap q) (queue : ThreadQueue)
    (listed : q.Listed queue) :
    s.listFirst queue.node = ((q.threads queue).map .thread).headD queue.node :=
  (represents.family.ring (Queues.lists_threadNode listed)).listFirst

theorem empty_processes (represents : Represents s.heap q) (queue : ProcessQueue) :
    s.listEmpty queue.node = (q.processes queue).isEmpty := by
  rw [Kernel.listEmpty, (represents.family.ring (Queues.lists_processNode q queue)).listEmpty,
    List.isEmpty_map]

theorem empty_threads (represents : Represents s.heap q) (queue : ThreadQueue)
    (listed : q.Listed queue) : s.listEmpty queue.node = (q.threads queue).isEmpty := by
  rw [Kernel.listEmpty, (represents.family.ring (Queues.lists_threadNode listed)).listEmpty,
    List.isEmpty_map]

/-! ## Changing -/

theorem not_owned_mutex {index : MutexId} {last : Option ThreadSlot}
    (unlisted : q.head index = .unlisted last) : ¬Owned q.lists (.mutex index) := by
  rintro ⟨head, members, found, member⟩
  rcases Queues.lists_eq_some found with ⟨queue, rfl, rfl⟩ | ⟨queue, listed, rfl, rfl⟩
  · cases queue <;> simp at member
  · cases queue with
    | mutex other =>
        obtain rfl : index = other := by simpa using member
        rw [Queues.Listed, unlisted] at listed
        exact absurd listed (by simp)
    | _ => simp at member

/-- The heads and nodes outside all lists stay as they are when only nodes of the lists and one
more node change. -/
theorem of_family (represents : Represents heap q) {heap' : Heap Node} {q' : Queues} (new : Node)
    (family : Family Node.Valid heap' q'.lists) (head_eq : q'.head = q.head)
    (unlisted : ∀ {index last}, q.head index = .unlisted last → q'.threads (.mutex index) = [])
    (last : ∀ {index slot}, q.head index = .unlisted (some slot) →
      q'.threads.Absent (.slot slot))
    (image : ∀ {page}, q'.threads.Absent (.image page) →
      q.threads.Absent (.image page) ∧ new ≠ .thread (.image page))
    (new_ne : ∀ index, new ≠ .mutex index)
    (same : ∀ node, ¬Owned q.lists node → node ≠ new → heap' node = heap node) :
    Represents heap' q' where
  family := family
  unlisted {index last'} found := by
    rw [head_eq] at found
    refine ⟨unlisted found, ?_, ?_⟩
    · rw [same _ (not_owned_mutex found) (Ne.symm (new_ne index))]
      exact (represents.unlisted found).2.1
    · intro slot member
      rw [Option.mem_def.mp member] at found
      exact last found
  image page absent := by
    obtain ⟨absent, different⟩ := image absent
    rw [same _ (fun owned => represents.owned_thread_iff.mp owned absent) (Ne.symm different)]
    exact represents.image page absent

/-- Append a process that waits nowhere. -/
theorem pushProcess (represents : Represents s.heap q) (queue : ProcessQueue) {process : TaskId}
    (absent : q.processes.Absent process) :
    ∃ heap, s.listAddTail (.task process) queue.node = .ok { s with heap } ∧
      Represents heap (q.pushProcess queue process) := by
  obtain ⟨heap, result, family, same⟩ := Family.listAddTail s.access_valid represents.family
    (Queues.lists_processNode q queue) (.task process)
    (fun owned => owned_task_iff.mp owned absent) (by simp [Node.Valid])
  rw [← Queues.lists_pushProcess] at family
  refine ⟨heap, by rw [Kernel.listAddTail, result]; rfl, represents.of_family (.task process)
    family rfl ?_ ?_ ?_ (by simp) ?_⟩
  · intro index last found
    exact (represents.unlisted found).1
  · intro index thread found
    exact (represents.unlisted found).2.2 thread rfl
  · intro page absent
    exact ⟨absent, by simp⟩
  · intro node outside different
    exact same node different fun member =>
      outside ⟨_, _, Queues.lists_processNode q queue, member⟩

/-- Take out a waiting process. -/
theorem removeProcess (represents : Represents s.heap q) {queue : ProcessQueue} {process : TaskId}
    (member : process ∈ q.processes queue) :
    ∃ heap, s.listDel (.task process) = .ok { s with heap } ∧
      Represents heap (q.removeProcess process) := by
  obtain ⟨heap, result, family, _, same⟩ := Family.listDel s.access_valid .null represents.family
    (Queues.lists_processNode q queue) (.task process) (by simp [member])
  rw [← Queues.lists_removeProcess represents.separate_processes member] at family
  refine ⟨heap, by rw [Kernel.listDel, result]; rfl, represents.of_family (.task process)
    family rfl ?_ ?_ ?_ (by simp) ?_⟩
  · intro index last found
    exact (represents.unlisted found).1
  · intro index thread found
    exact (represents.unlisted found).2.2 thread rfl
  · intro page absent
    exact ⟨absent, by simp⟩
  · intro node outside _
    exact same node fun member => outside ⟨_, _, Queues.lists_processNode q queue, member⟩

/-- Append a thread that waits nowhere. -/
theorem pushThread (represents : Represents s.heap q) (queue : ThreadQueue)
    (listed : q.Listed queue) {thread : ThreadPtr} (absent : q.threads.Absent thread)
    (not_last : ∀ index slot, q.head index = .unlisted (some slot) → thread ≠ .slot slot) :
    ∃ heap, s.listAddTail (.thread thread) queue.node = .ok { s with heap } ∧
      Represents heap (q.pushThread queue thread) := by
  obtain ⟨heap, result, family, same⟩ := Family.listAddTail s.access_valid represents.family
    (Queues.lists_threadNode listed) (.thread thread)
    (fun owned => represents.owned_thread_iff.mp owned absent) (by simp [Node.Valid])
  rw [← Queues.lists_pushThread listed] at family
  refine ⟨heap, by rw [Kernel.listAddTail, result]; rfl,
    represents.of_family (.thread thread) family rfl ?_ ?_ ?_ (by simp) ?_⟩
  · intro index last found
    have other : ThreadQueue.mutex index ≠ queue := by
      rintro rfl
      rw [Queues.Listed, found] at listed
      exact absurd listed (by simp)
    rw [Queues.threads_pushThread, Lanes.push_other other]
    exact (represents.unlisted found).1
  · intro index last found
    rw [Queues.threads_pushThread, Lanes.absent_push]
    exact ⟨(represents.unlisted found).2.2 last rfl, (not_last index last found).symm⟩
  · intro page absent'
    rw [Queues.threads_pushThread, Lanes.absent_push] at absent'
    exact ⟨absent'.1, fun equal => absent'.2 (thread_injective equal).symm⟩
  · intro node outside different
    exact same node different fun member =>
      outside ⟨_, _, Queues.lists_threadNode listed, member⟩

theorem listDel_thread (represents : Represents s.heap q) {queue : ThreadQueue}
    {thread : ThreadPtr} (member : thread ∈ q.threads queue) :
    ∃ heap, s.listDel (.thread thread) = .ok { s with heap } ∧
      Family Node.Valid heap (q.removeThread thread).lists ∧
      heap (.thread thread) = ⟨.null, .null⟩ ∧
      ∀ node, ¬Owned q.lists node → heap node = s.heap node := by
  have listed := represents.listed_of_mem member
  obtain ⟨heap, result, family, nulled, same⟩ :=
    Family.listDel s.access_valid .null represents.family
    (Queues.lists_threadNode listed) (.thread thread) (by simp [member])
  rw [← Queues.lists_removeThread listed represents.separate_threads member] at family
  refine ⟨heap, by rw [Kernel.listDel, result]; rfl, family, nulled, ?_⟩
  intro node outside
  exact same node fun inside => outside ⟨_, _, Queues.lists_threadNode listed, inside⟩

theorem removed_mutex (represents : Represents heap q) {thread : ThreadPtr} {index : MutexId}
    {last : Option ThreadSlot} (found : q.head index = .unlisted last) :
    (q.removeThread thread).threads (.mutex index) = [] := by
  show (q.threads (.mutex index)).erase thread = []
  rw [(represents.unlisted found).1, List.erase_nil]

/-- Take out a waiting thread. -/
theorem removeThread (represents : Represents s.heap q) {queue : ThreadQueue}
    {slot : ThreadSlot} (member : .slot slot ∈ q.threads queue) :
    ∃ heap, s.listDel (.thread (.slot slot)) = .ok { s with heap } ∧
      Represents heap (q.removeThread (.slot slot)) := by
  obtain ⟨heap, result, family, _, same⟩ := represents.listDel_thread member
  have separate := represents.separate_threads
  refine ⟨heap, result, represents.of_family (.thread (.slot slot)) family rfl
    represents.removed_mutex ?_ ?_ (by simp) fun node outside _ => same node outside⟩
  · intro index thread found
    rw [Queues.threads_removeThread, separate.absent_remove]
    exact .inl ((represents.unlisted found).2.2 thread rfl)
  · intro page absent
    rw [Queues.threads_removeThread, separate.absent_remove] at absent
    exact ⟨absent.resolve_right (by simp), by simp⟩

/-- Take out a waiting thread and append it to a queue, also when a write to page 0 comes in
between. -/
theorem moveThread_via (represents : Represents s.heap q) {source : ThreadQueue}
    (target : ThreadQueue) {thread : ThreadPtr} (member : thread ∈ q.threads source)
    (listed : q.Listed target) :
    ∃ between, s.listDel (.thread thread) = .ok { s with heap := between } ∧
      between (.thread thread) = ⟨.null, .null⟩ ∧
      ∀ heap₂ : Heap Node, (∀ node, node ≠ .null → heap₂ node = between node) →
        ∃ heap, { s with heap := heap₂ }.listAddTail (.thread thread) target.node =
            .ok { s with heap } ∧
          Represents heap ((q.removeThread thread).pushThread target thread) := by
  have separate := represents.separate_threads
  obtain ⟨between, deleted, family, nulled, same⟩ := represents.listDel_thread member
  refine ⟨between, deleted, nulled, fun heap₂ equal => ?_⟩
  have absent : (q.removeThread thread).threads.Absent thread :=
    separate.absent_remove.mpr (.inr rfl)
  have fresh : ¬Owned (q.removeThread thread).lists (.thread thread) := by
    rintro ⟨head, members, found, inside⟩
    rcases Queues.lists_eq_some found with ⟨queue, rfl, rfl⟩ | ⟨queue, _, rfl, rfl⟩
    · cases queue <;> simp at inside
    · have waiting : thread ∈ (q.removeThread thread).threads queue := by
        cases queue <;> simpa using inside
      exact absent queue waiting
  have family₂ : Family Node.Valid heap₂ (q.removeThread thread).lists := by
    refine family.frame fun node owned => equal node ?_
    rintro rfl
    obtain ⟨_, _, found, inside⟩ := owned
    exact (family.valid found _ inside).1 rfl
  obtain ⟨heap, added, family', same'⟩ := Family.listAddTail
    (Kernel.access_valid { s with heap := heap₂ }) family₂
    (Queues.lists_threadNode (q := q.removeThread thread) listed) _ fresh
    (by simp [Node.Valid])
  rw [← Queues.lists_pushThread (q := q.removeThread thread) listed] at family'
  have kept : ∀ node, ¬Owned q.lists node → node ≠ .thread thread → node ≠ .null →
      heap node = s.heap node := by
    intro node outside different not_null
    rw [same' node different, equal node not_null, same node outside]
    intro inside
    rcases List.mem_cons.mp inside with rfl | inside
    · exact outside ⟨_, _, Queues.lists_threadNode listed, List.mem_cons_self⟩
    · obtain ⟨other, waiting, rfl⟩ := List.mem_map.mp inside
      exact outside ⟨_, _, Queues.lists_threadNode listed, List.mem_cons_of_mem _
        (List.mem_map_of_mem (Lanes.mem_of_mem_remove waiting))⟩
  refine ⟨heap, by rw [Kernel.listAddTail, added]; rfl, family', ?_, ?_⟩
  · intro index last found
    have other : ThreadQueue.mutex index ≠ target := by
      rintro rfl
      rw [Queues.Listed, show q.head index = .unlisted last from found] at listed
      exact absurd listed (by simp)
    obtain ⟨_, links, out⟩ := represents.unlisted found
    refine ⟨?_, ?_, fun slot inside => ?_⟩
    · rw [Queues.threads_pushThread, Lanes.push_other other]
      exact represents.removed_mutex found
    · rw [kept _ (not_owned_mutex found) (by simp) (by simp), links]
    · rw [Queues.threads_pushThread, Lanes.absent_push, Queues.threads_removeThread,
        separate.absent_remove]
      refine ⟨.inl (out slot inside), ?_⟩
      rintro rfl
      exact out slot inside source member
  · intro page absent'
    rw [Queues.threads_pushThread, Lanes.absent_push, Queues.threads_removeThread,
      separate.absent_remove] at absent'
    have gone := absent'.1.resolve_right absent'.2
    rw [kept _ (fun owned => represents.owned_thread_iff.mp owned gone)
      (fun equal => absent'.2 (thread_injective equal)) (by simp)]
    exact represents.image page gone

/-- Take out a waiting thread and append it to a queue. -/
theorem moveThread (represents : Represents s.heap q) {source : ThreadQueue}
    (target : ThreadQueue) {thread : ThreadPtr} (member : thread ∈ q.threads source)
    (listed : q.Listed target) :
    ∃ between heap, s.listDel (.thread thread) = .ok { s with heap := between } ∧
      { s with heap := between }.listAddTail (.thread thread) target.node =
        .ok { s with heap } ∧
      Represents heap ((q.removeThread thread).pushThread target thread) := by
  obtain ⟨between, deleted, _, added⟩ := represents.moveThread_via target member listed
  obtain ⟨heap, result, moved⟩ := added between fun _ _ => rfl
  exact ⟨between, heap, deleted, result, moved⟩

/-- A head that is still zero stays without a list. -/
theorem lists_unlisted {index : MutexId} {last : Option ThreadSlot}
    (unlisted : q.head index = .unlisted last) (last' : Option ThreadSlot) :
    { q with head := Function.update q.head index (.unlisted last') }.lists = q.lists := by
  funext node
  cases node with
  | mutex other =>
      rw [Queues.lists_mutex, Queues.lists_mutex]
      by_cases same : other = index
      · subst same
        exact (if_neg (by simp)).trans (if_neg (by simp [unlisted])).symm
      · have kept : Function.update q.head index (.unlisted last') other = q.head other :=
          Function.update_of_ne same _ _
        simp only [kept]
  | _ => rfl

/-- Append a thread to a head that is still zero: it becomes the last one added there, which is
possible if page 0 can be written. -/
theorem pushUnlisted (represents : Represents s.heap q) {index : MutexId}
    {last : Option ThreadSlot} (unlisted : q.head index = .unlisted last) {slot : ThreadSlot}
    (absent : q.threads.Absent (.slot slot)) :
    s.listAddTail (.thread (.slot slot)) (.mutex index) = .error .page ∨
      ∃ heap, s.listAddTail (.thread (.slot slot)) (.mutex index) = .ok { s with heap } ∧
        Represents heap
          { q with head := Function.update q.head index (.unlisted (some slot)) } := by
  obtain ⟨empty, links, out⟩ := represents.unlisted unlisted
  have prev_eq : (s.heap (.mutex index)).prev = lastNode last := by rw [links]
  have added : s.listAddTail (.thread (.slot slot)) (.mutex index) =
      (s.access (lastNode last) >>= fun _ => .ok { s with
        heap := insertBetween s.heap (.thread (.slot slot)) (lastNode last) (.mutex index) }) := by
    rw [Kernel.listAddTail, listAddTail, prev_eq]
    cases access_eq : s.access (lastNode last) with
    | error fault =>
        simp only [listAddBetween, access_eq]
        rfl
    | ok _ =>
        simp only [listAddBetween, access_eq]
        rfl
  rw [added]
  cases access_eq : s.access (lastNode last) with
  | error fault =>
      left
      cases last with
      | some other => exact absurd access_eq (by simp [lastNode, Kernel.access])
      | none =>
          rw [lastNode, Kernel.access] at access_eq
          split at access_eq
          · exact absurd access_eq (by simp)
          · rw [← access_eq]
            rfl
  | ok _ =>
      right
      have last_ne : ∀ {node}, (∀ other ∈ last, node ≠ .thread (.slot other)) → node ≠ .null →
          node ≠ lastNode last := by
        intro node not_last not_null
        cases last with
        | none => exact not_null
        | some other => exact not_last other rfl
      have same : ∀ node, node ≠ .mutex index → node ≠ .thread (.slot slot) →
          node ≠ lastNode last →
          insertBetween s.heap (.thread (.slot slot)) (lastNode last) (.mutex index) node =
            s.heap node :=
        fun node not_mutex not_new not_prev =>
          insertBetween_frame s.heap not_new not_prev not_mutex
      refine ⟨_, rfl, ?_, ?_, ?_⟩
      · rw [lists_unlisted unlisted]
        refine represents.family.frame fun node owned => same node ?_ ?_ (last_ne ?_ ?_)
        · rintro rfl
          exact not_owned_mutex unlisted owned
        · rintro rfl
          exact represents.owned_thread_iff.mp owned absent
        · rintro other member rfl
          exact represents.owned_thread_iff.mp owned (out other member)
        · rintro rfl
          obtain ⟨_, _, found, inside⟩ := owned
          exact (represents.family.valid found _ inside).1 rfl
      · intro index' last' found
        by_cases here : index' = index
        · subst here
          obtain rfl : some slot = last' := by simpa using found
          refine ⟨empty, ?_, fun slot' member => ?_⟩
          · ext
            · rw [insertBetween_next, if_neg (last_ne (by simp) (by simp)), if_neg (by simp),
                links]
            · rw [insertBetween_prev, if_neg (by simp), if_pos rfl]
              rfl
          · obtain rfl : slot = slot' := by simpa using member
            exact absent
        · have found' : q.head index' = .unlisted last' := by simpa [here] using found
          obtain ⟨empty', links', out'⟩ := represents.unlisted found'
          refine ⟨empty', ?_, out'⟩
          rw [same _ (by simp [here]) (by simp) (last_ne (by simp) (by simp)), links']
      · intro page gone
        rw [same _ (by simp) (by simp) (last_ne (by simp) (by simp))]
        exact represents.image page gone

theorem lists_initMutex (q : Queues) (index : MutexId) :
    { q with
      threads := q.threads.clear (.mutex index)
      head := Function.update q.head index .listed }.lists =
      Function.update q.lists (.mutex index) (some []) := by
  funext node
  cases node with
  | mutex other =>
      rw [Queues.lists_mutex]
      by_cases same : other = index
      · subst same
        simp [Lanes.clear]
      · rw [Function.update_of_ne (by simpa using same), Queues.lists_mutex]
        simp [Lanes.clear, same]
  | freeThreadqueue => simp [Queues.lists, Lanes.clear]
  | ready process => simp [Queues.lists, Lanes.clear]
  | blocked process => simp [Queues.lists, Lanes.clear]
  | _ => rfl

/-- Initialise the list head of a mutex, which drops its waiters. -/
theorem initMutex (represents : Represents s.heap q) (index : MutexId)
    (noImage : ∀ page, .image page ∉ q.threads (.mutex index)) :
    ∃ heap, s.initListHead (.mutex index) = .ok { s with heap } ∧
      Represents heap
        { q with
          threads := q.threads.clear (.mutex index)
          head := Function.update q.head index .listed } := by
  have separate : ∀ {head' members'}, q.lists head' = some members' → .mutex index ≠ head' →
      .mutex index ∉ head' :: members' := by
    intro head' members' found different member
    rcases Queues.lists_eq_some found with ⟨queue, rfl, rfl⟩ | ⟨queue, _, rfl, rfl⟩
    · cases queue <;> simp at member
    · rcases List.mem_cons.mp member with equal | member
      · exact different equal
      · simp at member
  obtain ⟨heap, result, family, same⟩ := Family.initListHead s.access_valid represents.family
    (show Node.Valid (.mutex index) by simp [Node.Valid]) separate
  rw [← lists_initMutex] at family
  refine ⟨heap, by rw [Kernel.initListHead, result]; rfl, family, ?_, ?_⟩
  · intro other last found
    have different : other ≠ index := by
      rintro rfl
      simp at found
    have found' : q.head other = .unlisted last := by simpa [different] using found
    obtain ⟨empty, links, out⟩ := represents.unlisted found'
    refine ⟨?_, ?_, fun slot inside lane member => ?_⟩
    · simpa [Lanes.clear, different] using empty
    · rw [same _ (by simpa using different), links]
    · exact out slot inside lane (Lanes.mem_clear.mp member).2
  · intro page absent
    rw [same _ (by simp)]
    refine represents.image page fun lane member => ?_
    by_cases here : lane = .mutex index
    · subst here
      exact noImage page member
    · exact absent lane (Lanes.mem_clear.mpr ⟨here, member⟩)

/-- Only the nodes in lists and those that `Represents` speaks of matter. -/
theorem update_absent (represents : Represents heap q) {slot : ThreadSlot}
    (absent : q.threads.Absent (.slot slot)) (links : Links Node) :
    Represents (Function.update heap (.thread (.slot slot)) links) q where
  family := by
    refine represents.family.frame fun node owned => Function.update_of_ne ?_ _ _
    rintro rfl
    exact represents.owned_thread_iff.mp owned absent
  unlisted {index last} found := by
    rw [Function.update_of_ne (by simp)]
    exact represents.unlisted found
  image page gone := by
    rw [Function.update_of_ne (by simp)]
    exact represents.image page gone

end Represents

end Zeos
