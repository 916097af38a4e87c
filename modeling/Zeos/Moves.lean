import Zeos.ThreadLists
import Zeos.Switching
import Zeos.Slots

/-!
# Threads in any run

What a step does to the lists of threads, whatever the lists of processes have become: a process
that exits while it is still on the ready queue takes that queue apart, but no thread is lost or
linked twice by it.
-/

namespace Zeos

open IntrusiveList GuardedRun Kernel

/-- A thread of some process that does not run and whose stack pointer leads to its own stack. -/
def Waiting (t : ThreadPtr) (c : ThreadStruct) : Prop := (∃ p, c.p = .slot p) ∧ Parked t c

/-- What holds of the threads in every run. -/
structure Orderly (s : Kernel) (q : Queues) : Prop where
  threads : Threads s.heap s.heap q
  fits : ∀ {queue slot}, queue ≠ .free → .slot slot ∈ q.threads queue →
    Waiting (.slot slot) (s.thread (.slot slot))
  /-- A page of the kernel image is taken for a thread that is ready or free. -/
  image : ∀ {queue page}, .image page ∈ q.threads queue →
    (s.thread (.image page)).state ≠ .stRun ∧ (queue = .free ∨ ∃ p, queue = .ready p)
  imageP : ∀ page, (s.thread (.image page)).p = .wild
  idle : ∃ slot, s.idleTask = some (.slot slot) ∧ (s.thread (.slot slot)).p = .null ∧
    q.threads.Absent (.slot slot)
  /-- The processes of threads have their own page directories. -/
  owner : ∀ {t p}, (s.thread t).p = .slot p → (s.task p).dirPagesBaseAddr = some p
  slot : ∃ slot, s.current = .slot slot
  absent : q.threads.Absent s.current
  last : ∀ {m slot}, q.head m = .unlisted (some slot) → s.current ≠ .slot slot
  running : (s.thread s.current).state = .stRun
  process : (s.thread s.current).p = .slot s.cr3
  saved : (s.thread s.current).registerEsp = .null ∨
    ∃ index, (s.thread s.current).registerEsp = .on s.current index

/-- What lists of processes lead to and is taken for a process is one. -/
theorem task_of_leads {node : Node} {p : TaskId} (leads : Leads Node.kind .processes node)
    (found : listHeadToTaskStruct node = .ok p) : node = .task p := by
  cases node with
  | task index => exact congrArg Node.task (Except.ok.inj found)
  | ready index => exact absurd leads (by simp [Leads, Node.kind])
  | blocked index => exact absurd leads (by simp [Leads, Node.kind])
  | _ => exact absurd found (by simp [listHeadToTaskStruct])

namespace Threads

variable {s : Kernel} {q : Queues} {rest : Heap Node} {layout : Layout} {p : TaskId}
  {t : ThreadPtr}

/-- A page that could be taken for a thread leads nowhere while it waits nowhere. -/
theorem image {heap : Heap Node} (threads : Threads rest heap q) {page : Fin 2}
    (absent : q.threads.Absent (.image page)) : heap (.thread (.image page)) = ⟨.wild, .wild⟩ := by
  obtain ⟨heap₀, agree, represents⟩ := threads.shadow
  rw [← agree _ (by simp [Node.kind])]
  exact represents.image page absent

/-- Take out a waiting thread, or what is taken for one. -/
theorem listDel (threads : Threads rest s.heap q) {queue : ThreadQueue}
    (member : t ∈ q.threads queue) :
    Ensures (fun s' => ∃ heap, s' = { s with heap } ∧
      ∀ slot, t = .slot slot → Threads rest heap (q.removeThread t))
      (s.listDel (.thread t)) := by
  cases t with
  | image page =>
      intro s' deleted
      obtain ⟨heap, _, result⟩ := bind_eq_ok.mp deleted
      exact ⟨heap, (Except.ok.inj result).symm, by simp⟩
  | slot slot =>
      refine (threads.remove member).mono ?_
      rintro s' ⟨heap, rfl, removed⟩
      exact ⟨heap, rfl, fun _ _ => removed⟩

theorem updateNone (threads : Threads rest s.heap q) {queue : ThreadQueue}
    (member : t ∈ q.threads queue) (stopped : (s.thread t).state ≠ .stRun) :
    Ensures (fun s' => ∃ heap, s' = { s with heap }.setState t .stRun ∧
      ∀ slot, t = .slot slot → Threads rest heap (q.removeThread t))
      (s.updateThreadStateRr t none) := by
  rw [updateThreadStateRr, if_pos stopped]
  refine (threads.listDel member).bind ?_
  rintro s' ⟨heap, rfl, removed⟩
  exact .ok ⟨heap, rfl, removed⟩

/-- The next thread is the first ready one of the running process. -/
theorem pickThread (threads : Threads rest s.heap q) (process : (s.thread s.current).p = .slot p)
    (stopped : ∀ t ∈ q.threads (.ready p), (s.thread t).state ≠ .stRun) :
    Ensures (fun next => ∃ t others heap, q.threads (.ready p) = t :: others ∧
        next = ({ { s with heap }.setState t .stRun with
          remainingQuantumT := (s.thread t).quantum }, t) ∧
        ∀ slot, t = .slot slot → Threads rest heap (q.removeThread t))
      (s.pickThread layout) := by
  have node := threads.first_threads (.ready p) trivial
  rw [ThreadQueue.node_ready] at node
  rw [Kernel.pickThread, currentP_eq process, ok_bind, node]
  cases ready : q.threads (.ready p) with
  | nil => exact .error _
  | cons t others =>
      have member : t ∈ q.threads (.ready p) := by simp [ready]
      refine (threads.updateNone member (stopped t member)).bind ?_
      rintro s' ⟨heap, rfl, removed⟩
      refine .ok ⟨t, others, heap, rfl, ?_, removed⟩
      simp [setState, setThread]

theorem task_of_first (threads : Threads rest s.heap q) (queue : ProcessQueue)
    (found : listHeadToTaskStruct (s.listFirst queue.node) = .ok p) :
    s.listFirst queue.node = .task p := by
  have queue_kind : queue.node.kind = some .processes := by cases queue <;> rfl
  exact task_of_leads (threads.apart queue.node .processes queue_kind).1 found

/-- The next process is the first ready one, and the next thread its first ready one, or it is the
idle thread. -/
theorem pickProcess (threads : Threads rest s.heap q) :
    Ensures (fun next => (s.listEmpty .readyqueue = true ∧ ∃ t, s.idleTask = some t ∧
        next = ({ s.setState t .stRun with remainingQuantumT := (s.thread t).quantum }, t)) ∨
      s.listEmpty .readyqueue = false ∧ ∃ p t others heap, s.listFirst .readyqueue = .task p ∧
        q.threads (.ready p) = t :: others ∧
        next = ({ ({ s with heap }.setTask p fun c => { c with state := .stRun }).setState t
            .stRun with
          remainingQuantumP := (s.task p).totalQuantum
          remainingQuantumT := (s.thread t).quantum }, t) ∧
        ∀ slot, t = .slot slot → Threads heap heap (q.removeThread t))
      (s.pickProcess layout) := by
  rw [Kernel.pickProcess]
  cases empty : s.listEmpty .readyqueue with
  | true =>
      rw [if_neg (by simp)]
      cases idle : s.idleTask with
      | none => exact .error _
      | some t =>
          refine .ok (.inl ⟨rfl, t, rfl, ?_⟩)
          simp [setState, setThread]
  | false =>
      rw [if_pos (by simp)]
      dsimp only
      cases found : listHeadToTaskStruct (s.listFirst .readyqueue) with
      | error fault => exact Ensures.skip fun _ => .error _
      | ok p =>
          have node : s.listFirst .readyqueue = .task p := threads.task_of_first .ready found
          rw [node]
          refine (threads.removeProcess p).bind ?_
          rintro s₁ ⟨heap₁, rfl, threads₁⟩
          rw [ok_bind]
          have first := first_threads (s := { s with heap := heap₁ }) threads₁ (.ready p) trivial
          rw [ThreadQueue.node_ready] at first
          rw [first]
          cases ready : q.threads (.ready p) with
          | nil => exact .error _
          | cons t others =>
              refine (listDel (s := { s with heap := heap₁ }) threads₁
                (show t ∈ q.threads (.ready p) by simp [ready])).bind ?_
              rintro s₂ ⟨heap, rfl, removed⟩
              refine .ok (.inr ⟨rfl, p, t, others, heap, rfl, ready, ?_, fun slot found => ?_⟩)
              · simp [setState, setThread, setTask]
              · exact (removed slot found).rebase

theorem nonempty_iff (s : Kernel) (head : Node) :
    s.listEmpty head = false ↔ (s.heap head).next ≠ head := by
  rw [Kernel.listEmpty, IntrusiveList.listEmpty, decide_eq_false_iff_not]

/-- A process becomes free, and the ready ones are not emptied by that. -/
theorem freeProcess (threads : Threads rest s.heap q) (p : TaskId) :
    Ensures (fun s' => ∃ heap, s' = { s with heap } ∧ Threads heap heap q ∧
        (s.listEmpty .readyqueue = false → (heap .readyqueue).next ≠ .readyqueue))
      (s.listAddTail (.task p) .freequeue) := by
  intro s' added
  obtain ⟨heap, rfl, threads'⟩ := threads.addProcess p .free s' added
  obtain ⟨heap', inserted, same⟩ := bind_eq_ok.mp added
  have heap_eq : heap' = heap := congrArg Kernel.heap (Except.ok.inj same)
  refine ⟨heap, rfl, threads', fun nonempty => ?_⟩
  rw [nonempty_iff] at nonempty
  rw [← heap_eq, eq_of_listAddTail inserted]
  exact next_ne_of_insert_other (by simp) nonempty

/-- A process joins the ready ones, which are not none after that. -/
theorem updateProcess (threads : Threads rest s.heap q) (p : TaskId)
    (nonempty : s.listEmpty .readyqueue = false) :
    Ensures (fun s' => ∃ heap,
        s' = { s with heap }.setTask p (fun c => { c with state := .stReady }) ∧
        Threads heap heap q ∧ s'.listEmpty .readyqueue = false)
      (s.updateProcessStateRr p (some .readyqueue)) := by
  rw [nonempty_iff] at nonempty
  unfold updateProcessStateRr
  extract_lets relink
  have linked : ∀ rest₁ heap₁, Threads rest₁ heap₁ q →
      ((heap₁ .readyqueue).next = .readyqueue → (heap₁ .readyqueue).prev = .readyqueue) →
      Ensures (fun s' => ∃ heap,
        s' = { s with heap }.setTask p (fun c => { c with state := .stReady }) ∧
          Threads heap heap q ∧ s'.listEmpty .readyqueue = false)
        (relink { s with heap := heap₁ }) := by
    intro rest₁ heap₁ threads₁ ring s' added
    obtain ⟨s₂, added, result⟩ := bind_eq_ok.mp added
    obtain ⟨heap, rfl, threads₂⟩ :=
      addProcess (s := { s with heap := heap₁ }) threads₁ p .ready s₂ added
    obtain ⟨heap', inserted, same⟩ := bind_eq_ok.mp added
    have heap_eq : heap' = heap := congrArg Kernel.heap (Except.ok.inj same)
    have after := eq_of_listAddTail inserted
    refine ⟨heap, (Except.ok.inj result).symm, threads₂, ?_⟩
    rw [← Except.ok.inj result, nonempty_iff]
    show (heap .readyqueue).next ≠ .readyqueue
    rw [← heap_eq, after]
    exact next_ne_of_insert (by simp) ring
  split
  · intro s' updated
    obtain ⟨s₁, deleted, updated⟩ := bind_eq_ok.mp updated
    obtain ⟨heap, rfl, threads₁⟩ := threads.removeProcess p s₁ deleted
    obtain ⟨heap', removed, same⟩ := bind_eq_ok.mp deleted
    have heap_eq : heap' = heap := congrArg Kernel.heap (Except.ok.inj same)
    have after := eq_of_listDel removed
    refine linked _ heap threads₁ ?_ s' updated
    rw [← heap_eq, after]
    exact prev_eq_of_remove (by simp) nonempty
  · exact linked _ s.heap threads fun alone => absurd alone nonempty

end Threads

/-! ## Steps -/

/-- What becomes of the running thread, and of the threads that it wakes or frees, before another
one is chosen. -/
inductive Parks (s : Kernel) (q : Queues) :
    Action → Site → (ThreadPtr → ThreadStruct) → Queues → Prop
  | tick : Parks s q .tick .clock (s.setState s.current .stReady).thread
      (q.pushThread (.ready s.cr3) s.current)
  | yield : Parks s q .yield .yield (s.setState s.current .stReady).thread
      (q.pushThread (.ready s.cr3) s.current)
  | join {id tid : Word} (loaded : s.mem.loadWord s.cr3 id = .ok tid) :
      Parks s q (.pthreadJoin id) .pthreadJoin
      ((s.setThread s.current fun c => { c with blockedBy := tid }).setState s.current
        .stBlocked).thread
      (q.pushThread (.blocked s.cr3) s.current)
  | exitThread : Parks s q .pthreadExit .pthreadExit
      (s.readyJoiners (q.threads (.blocked s.cr3))).thread
      ((q.pushThread .free s.current).wakeFirst s.cr3 s.Joins)
  | exit : Parks s q .exit .exit
      (s.clearTids (q.threads (.ready s.cr3) ++ q.threads (.blocked s.cr3))).thread
      ((q.drainThreads (.ready s.cr3)).drainThreads (.blocked s.cr3))
  | lock {n : Int} {m : MutexId} (accepted : mutexIndex n = some m)
      (usable : 0 ≤ (s.mutexVector m).owner.toInt) (taken : (s.mutexVector m).locked ≠ 0)
      (listed : q.head m = .listed) : Parks s q (.mutexLock n) .mutexLock
      (s.setState s.current .stBlocked).thread (q.pushThread (.mutex m) s.current)
  | lost {n : Int} {m : MutexId} {last : Option ThreadSlot} {c : ThreadSlot}
      (accepted : mutexIndex n = some m) (usable : 0 ≤ (s.mutexVector m).owner.toInt)
      (taken : (s.mutexVector m).locked ≠ 0) (unlisted : q.head m = .unlisted last)
      (current : s.current = .slot c) : Parks s q (.mutexLock n) .mutexLock
      (s.setState s.current .stBlocked).thread
      { q with head := Function.update q.head m (.unlisted (some c)) }

/-- The clock switches to another process. -/
def Kernel.Due (s : Kernel) : Prop :=
  s.remainingQuantumP - 1 = 0 ∧ s.listEmpty .readyqueue = false

/-- How the next thread is chosen. -/
inductive Chosen (layout : Layout) (s : Kernel) (q q₀ : Queues) : Action → ThreadPtr → Prop
  /-- `exit` finds no other process. -/
  | idle {t : ThreadPtr} (empty : s.listEmpty .readyqueue = true) (idle : s.idleTask = some t) :
      Chosen layout s q q₀ .exit t
  /-- The first ready thread of the running process. -/
  | thread {action : Action} {t : ThreadPtr} {others : List ThreadPtr}
      (first : q₀.threads (.ready s.cr3) = t :: others)
      (expired : action = .tick → ¬s.Due ∧ q.threads (.ready s.cr3) ≠ []) :
      Chosen layout s q q₀ action t
  /-- The first ready thread of the process that the clock switches to. -/
  | processTick {p : TaskId} {t : ThreadPtr} {others : List ThreadPtr} {queued : Kernel}
      (due : s.Due)
      (requeued : (s.enter layout .clock).updateSchedDataRr.updateProcessStateRr s.cr3
        (some .readyqueue) = .ok queued)
      (firstProcess : queued.listFirst .readyqueue = .task p)
      (first : q₀.threads (.ready p) = t :: others) : Chosen layout s q q₀ .tick t
  /-- The first ready thread of the process after one that has exited. -/
  | processExit {p : TaskId} {t : ThreadPtr} {others : List ThreadPtr}
      (first : q₀.threads (.ready p) = t :: others) : Chosen layout s q q₀ .exit t

/-- The state in which `task_switch` is called with the thread that has been chosen. -/
structure Picked (layout : Layout) (s : Kernel) (q : Queues) (action : Action) (s₁ : Kernel)
    (t : ThreadPtr) (site : Site) (threads₀ : ThreadPtr → ThreadStruct) (q₀ : Queues) : Prop where
  parks : Parks s q action site threads₀ q₀
  chosen : Chosen layout s q q₀ action t
  current : s₁.current = s.current
  ebp : s₁.ebp = layout.frame site
  mutexVector : s₁.mutexVector = s.mutexVector
  idleTask : s₁.idleTask = s.idleTask
  directory : ∀ p, (s₁.task p).dirPagesBaseAddr = (s.task p).dirPagesBaseAddr
  thread : s₁.thread = Function.update threads₀ t { threads₀ t with state := .stRun }
  placed : ∃ heap, Threads heap heap q₀
  lists : ∀ slot, t = .slot slot → s.idleTask ≠ some t →
    Threads s₁.heap s₁.heap (q₀.removeThread t)

/-- A step without a switch, as it concerns the threads. -/
inductive Stay (layout : Layout) (s : Kernel) (q : Queues) :
    Action → Kernel → Queues → Result → Prop
  /-- A call that returns an error at once. -/
  | refused {action : Action} {ebp : Nat} {stack : ThreadPtr → Nat → Word} {value : Int}
      (negative : value < 0)
      (empty : ∀ stack, action = .fork stack →
        s.listEmpty .freequeue = true ∨ s.listEmpty .freeThreadqueue = true) :
      Stay layout s q action { s with ebp, stack } q (.returns value)
  | stored {addr : Word} {value : Byte} {mem : Memory} :
      Stay layout s q (.store addr value) { s with mem } q (.returns 0)
  | others {bytes : Nat → Byte} {mem : Memory} :
      Stay layout s q (.others bytes) { s with mem } q (.returns 0)
  /-- A clock tick without a switch. -/
  | ticked {ebp : Nat} {remainingQuantumT remainingQuantumP : Word} : Stay layout s q .tick
        { s with ebp, remainingQuantumT, remainingQuantumP } q .switches
  | unlockedFree {n : Int} {m : MutexId} (accepted : mutexIndex n = some m)
      (usable : 0 ≤ (s.mutexVector m).owner.toInt) (free : (s.mutexVector m).locked = 0) :
      Stay layout s q (.mutexUnlock n) s q (.returns 0)
  | locked {n : Int} {m : MutexId} (accepted : mutexIndex n = some m)
      (usable : 0 ≤ (s.mutexVector m).owner.toInt) (unlocked : (s.mutexVector m).locked = 0) :
      Stay layout s q (.mutexLock n)
        ((s.enter layout .mutexLock).setMutex m fun mutex => { mutex with locked := 1 }) q
        (.returns 0)
  | forked {stack : Nat → Word} {child : TaskId} {u : ThreadSlot} {others : List ThreadPtr}
      {task : TaskId → TaskStruct} {globalPID : Word} {heap : Heap Node}
      {stack' : ThreadPtr → Nat → Word} {mem : Memory} {value : Int}
      (freeThread : q.threads .free = .slot u :: others)
      (own : (task child).dirPagesBaseAddr = some child)
      (numbered : globalPID = s.globalPID + 1) :
      Stay layout s q (.fork stack)
        { s.setThread (.slot u) (fun _ => s.childThread child (.slot u)) with
          task, globalPID, heap, stack := stack', mem }
        (q.moveThread (.slot u) (.ready child)) (.returns value)
  | forkFailed {stack : Nat → Word} {u : ThreadSlot} {others : List ThreadPtr}
      {task : TaskId → TaskStruct} {heap : Heap Node} {stack' : ThreadPtr → Nat → Word}
      {mem : Memory} (freeThread : q.threads .free = .slot u :: others) :
      Stay layout s q (.fork stack)
        { s.setThread (.slot u) (fun _ => s.thread s.current) with
          task, heap, stack := stack', mem }
        (q.removeThread (.slot u)) (.returns (-EAGAIN))
  | created {stack : Nat → Word} {id startRoutine : Word} {u : ThreadSlot}
      {others : List ThreadPtr} {task : TaskId → TaskStruct} {heap : Heap Node}
      {stack' : ThreadPtr → Nat → Word} {mem : Memory}
      (freeThread : q.threads .free = .slot u :: others) :
      Stay layout s q (.pthreadCreate stack id startRoutine)
        { s.setThread (.slot u) (fun _ => s.newThread (.slot u)) with
          task, heap, stack := stack', mem }
        (q.moveThread (.slot u) (.ready s.cr3)) (.returns 0)
  | initialised {n : Int} {m : MutexId} {heap : Heap Node} (accepted : mutexIndex n = some m)
      (unowned : (s.mutexVector m).owner = 0) : Stay layout s q (.mutexInit n)
        { s.setMutex m fun _ => { locked := 0, owner := (s.thread s.current).tid } with heap }
        { q with
          threads := q.threads.clear (.mutex m)
          head := Function.update q.head m .listed }
        (.returns 0)
  | unlocked {n : Int} {m : MutexId} {t : ThreadSlot} {others : List ThreadPtr} {heap : Heap Node}
      (accepted : mutexIndex n = some m)
      (usable : 0 ≤ (s.mutexVector m).owner.toInt) (taken : (s.mutexVector m).locked ≠ 0)
      (first : q.threads (.mutex m) = .slot t :: others) : Stay layout s q (.mutexUnlock n)
        { (s.setState (.slot t) .stReady).setMutex m fun mutex =>
            { mutex with locked := if others = [] then 0 else mutex.locked } with heap }
        (q.moveThread (.slot t) (.ready s.cr3)) (.returns 0)
  | unlockedNobody {n : Int} {m : MutexId} {heap : Heap Node}
      (accepted : mutexIndex n = some m) (usable : 0 ≤ (s.mutexVector m).owner.toInt)
      (taken : (s.mutexVector m).locked ≠ 0) (listed : q.head m = .listed)
      (nobody : q.threads (.mutex m) = []) : Stay layout s q (.mutexUnlock n)
        { (s.setState (.image (layout.imagePage m)) .stReady).setMutex m fun mutex =>
            { mutex with locked := 0 } with heap }
        (q.moveThread (.image (layout.imagePage m)) (.ready s.cr3)) (.returns 0)
  | destroyed {n : Int} {m : MutexId} {heap : Heap Node} (accepted : mutexIndex n = some m)
      (owned : 0 < (s.mutexVector m).owner.toInt)
      (owner : (s.thread s.current).tid = (s.mutexVector m).owner) (listed : q.head m = .listed) :
      Stay layout s q (.mutexDestroy n)
        { (s.releaseStates (q.threads (.mutex m))).setMutex m fun _ =>
            { locked := 0, owner := 0 } with heap }
        (q.moveHome s.home (q.threads (.mutex m))) (.returns 0)

/-- A step as it concerns the threads. -/
inductive Move (layout : Layout) (s : Kernel) (q : Queues) :
    Action → Kernel → Queues → Result → Prop
  | stayed {action : Action} {s' : Kernel} {q' : Queues} {result : Result}
      (reached : s.upToSwitch layout action = .ok (.inl (s', result)))
      (stay : Stay layout s q action s' q' result) : Move layout s q action s' q' result
  | switched {action : Action} {s₁ : Kernel} {t : ThreadSlot} {cr3 : TaskId} {site : Site}
      {threads₀ : ThreadPtr → ThreadStruct} {q₀ : Queues}
      (reached : s.upToSwitch layout action = .ok (.inr (s₁, .slot t)))
      (picked : Picked layout s q action s₁ (.slot t) site threads₀ q₀)
      (busy : s.idleTask ≠ some (.slot t)) (process : (s.thread (.slot t)).p = .slot cr3) :
      Move layout s q action { s₁.saveEsp with current := .slot t, cr3 }
        (q₀.removeThread (.slot t)) .switches

variable {layout : Layout} {s s' s₁ : Kernel} {q q' q₀ : Queues} {action : Action}
  {result : Result} {site : Site} {threads₀ : ThreadPtr → ThreadStruct} {p : TaskId}
  {t : ThreadPtr} {queue : ThreadQueue}

namespace Orderly

theorem ne_of_mem (orderly : Orderly s q) (member : t ∈ q.threads queue) : t ≠ s.current := by
  rintro rfl
  exact orderly.absent queue member

/-- Nothing that waits runs. -/
theorem stopped (orderly : Orderly s q) (busy : queue ≠ .free) (member : t ∈ q.threads queue) :
    (s.thread t).state ≠ .stRun := by
  cases t with
  | image page => exact (orderly.image member).1
  | slot slot => exact (orderly.fits busy member).2.1

/-- Only threads of processes wait in a mutex. -/
theorem home (orderly : Orderly s q) {m : MutexId} (member : t ∈ q.threads (.mutex m)) :
    (s.thread t).p = .slot (s.home t) := by
  cases t with
  | image page =>
      rcases (orderly.image member).2 with equal | ⟨_, equal⟩
      · exact absurd equal (by simp)
      · exact absurd equal (by simp)
  | slot slot =>
      obtain ⟨⟨p, process⟩, _⟩ := orderly.fits (by simp) member
      rw [Kernel.home, process]

theorem noImage (orderly : Orderly s q) (m : MutexId) (page : Fin 2) :
    .image page ∉ q.threads (.mutex m) := by
  intro member
  have process := orderly.home member
  rw [orderly.imageP] at process
  exact absurd process (by simp)

end Orderly

namespace Parks

/-- Neither processes nor stack pointers nor quanta of threads change before the switch. -/
theorem same (parks : Parks s q action site threads₀ q₀) (x : ThreadPtr) :
    (threads₀ x).p = (s.thread x).p ∧ (threads₀ x).registerEsp = (s.thread x).registerEsp ∧
      (threads₀ x).quantum = (s.thread x).quantum := by
  cases parks <;>
  · simp only [thread_setState, thread_setThread, readyJoiners, clearTids, Function.update_apply]
    split_ifs <;> simp_all

/-- What is in a queue after that was in one before or is the thread that has run. -/
theorem mem (parks : Parks s q action site threads₀ q₀) (member : t ∈ q₀.threads queue) :
    (∃ before, (queue ≠ .free → before ≠ .free) ∧ t ∈ q.threads before) ∨ t = s.current := by
  cases parks with
  | tick | yield | join | lock =>
      rcases Lanes.mem_push.mp member with member | ⟨_, same⟩
      · exact .inl ⟨queue, id, member⟩
      · exact .inr same
  | exitThread =>
      by_cases ready : queue = .ready s.cr3
      · subst ready
        rcases Transition.mem_ready_wakeFirst member with ready | blocked
        · exact .inl ⟨.ready s.cr3, id, by simpa using ready⟩
        · exact .inl ⟨.blocked s.cr3, by simp, by simpa using blocked⟩
      · have kept := Coherent.wakeFirst_subset ready member
        rw [Queues.threads_pushThread] at kept
        rcases Lanes.mem_push.mp kept with kept | ⟨_, same⟩
        · exact .inl ⟨queue, id, kept⟩
        · exact .inr same
  | exit =>
      rw [Queues.threads_drainThreads, Lanes.mem_drain (by simp)] at member
      rcases member.2 with kept | ⟨rfl, blocked⟩
      · rw [Queues.threads_drainThreads, Lanes.mem_drain (by simp)] at kept
        rcases kept.2 with kept | ⟨rfl, ready⟩
        · exact .inl ⟨queue, id, kept⟩
        · exact .inl ⟨.ready s.cr3, fun busy => absurd rfl busy, ready⟩
      · rw [Queues.threads_drainThreads, Lanes.drain_other (by simp) (by simp)] at blocked
        exact .inl ⟨.blocked s.cr3, fun busy => absurd rfl busy, blocked⟩
  | lost => exact .inl ⟨queue, id, member⟩

theorem stopped (parks : Parks s q action site threads₀ q₀) (orderly : Orderly s q)
    (busy : queue ≠ .free) (member : t ∈ q₀.threads queue) : (threads₀ t).state ≠ .stRun := by
  have before : t = s.current ∨ (s.thread t).state ≠ .stRun := by
    rcases parks.mem member with ⟨before, waiting, waits⟩ | same
    · exact .inr (orderly.stopped (waiting busy) waits)
    · exact .inl same
  cases parks with
  | tick | yield | join | lock | lost =>
      rw [thread_setState, Function.update_apply]
      split
      · simp
      · rename_i other
        simpa [other] using before.resolve_left other
  | exitThread =>
      have other : t ≠ s.current := by
        rintro rfl
        by_cases ready : queue = .ready s.cr3
        · subst ready
          rcases Transition.mem_ready_wakeFirst member with ready | blocked
          · exact orderly.absent (.ready s.cr3) (by simpa using ready)
          · exact orderly.absent (.blocked s.cr3) (by simpa using blocked)
        · have kept := Coherent.wakeFirst_subset ready member
          rw [Queues.threads_pushThread, Lanes.push_other busy] at kept
          exact orderly.absent queue kept
      have stopped := before.resolve_left other
      simp only [readyJoiners]
      split
      · simp
      · exact stopped
  | exit =>
      have other : t ≠ s.current := by
        rintro rfl
        rw [Queues.threads_drainThreads, Lanes.mem_drain (by simp)] at member
        have member := member.2.resolve_right fun drained => busy drained.1
        rw [Queues.threads_drainThreads, Lanes.mem_drain (by simp)] at member
        exact orderly.absent queue (member.2.resolve_right fun drained => busy drained.1)
      have stopped := before.resolve_left other
      simp only [clearTids]
      split
      · exact stopped
      · exact stopped

end Parks

/-- The end of a step that does not switch, or the state in which it calls `task_switch`. -/
def Arrives (layout : Layout) (s : Kernel) (q : Queues) (action : Action) :
    (Kernel × Result) ⊕ (Kernel × ThreadPtr) → Prop
  | .inl (s', result) =>
      ∃ q', Stay layout s q action s' q' result ∧ Threads s'.heap s'.heap q'
  | .inr (s₁, t) => ∃ site threads₀ q₀, Picked layout s q action s₁ t site threads₀ q₀

namespace Orderly

/-- The running thread has been parked, and the next one of its process is chosen. -/
theorem arrives_pickThread (orderly : Orderly s q) {k : Kernel} {rest : Heap Node}
    (parks : Parks s q action site k.thread q₀) (threads : Threads rest k.heap q₀)
    (current : k.current = s.current) (ebp : k.ebp = layout.frame site)
    (mutexVector : k.mutexVector = s.mutexVector) (idleTask : k.idleTask = s.idleTask)
    (task : k.task = s.task)
    (expired : action = .tick → ¬s.Due ∧ q.threads (.ready s.cr3) ≠ []) :
    Ensures (fun next => Arrives layout s q action next)
      (do return .inr (← k.pickThread layout)) := by
  have process : (k.thread k.current).p = .slot s.cr3 := by
    rw [current, (parks.same s.current).1, orderly.process]
  refine (threads.pickThread process fun t member =>
    parks.stopped orderly (by simp) member).bind ?_
  rintro _ ⟨t, others, heap, first, rfl, removed⟩
  refine .ok ⟨site, k.thread, q₀, parks, .thread first expired, current, ebp, mutexVector,
    idleTask, fun p => by rw [← task]; rfl, ?_, ⟨_, threads.rebase⟩,
    fun slot found _ => (removed slot found).rebase⟩
  exact thread_setState _ _ _

/-- The running thread goes to a queue, and the next one of its process is chosen. -/
theorem arrives_block (orderly : Orderly s q) {k : Kernel} (queue : ThreadQueue)
    (listed : q.Listed queue)
    (heap : k.heap = s.heap) (current : k.current = s.current)
    (running : (k.thread s.current).state = .stRun)
    (process : (k.thread s.current).p = .slot s.cr3)
    (parks : Parks s q action site (k.setState s.current (queueState s.cr3 queue)).thread
      (q.pushThread queue s.current))
    (ebp : k.ebp = layout.frame site) (mutexVector : k.mutexVector = s.mutexVector)
    (idleTask : k.idleTask = s.idleTask) (task : k.task = s.task)
    (expired : action = .tick → ¬s.Due ∧ q.threads (.ready s.cr3) ≠ []) :
    Ensures (fun next => Arrives layout s q action next) (do
      let s ← k.updateThreadStateRr s.current (some queue.node)
      return .inr (← s.pickThread layout)) := by
  have threads : Threads s.heap k.heap q := heap.symm ▸ orderly.threads
  refine (threads.updatePush queue listed orderly.absent (fun _ _ => orderly.last) running
    (by rw [current]; exact process)).bind ?_
  rintro _ ⟨heap', rfl, pushed⟩
  exact orderly.arrives_pickThread (k := { k with heap := heap' }.setState s.current _)
    parks pushed current ebp mutexVector idleTask task expired

theorem arrives_yield (orderly : Orderly s q) :
    Ensures (Arrives layout s q .yield) (s.upToSwitch layout .yield) := by
  simp only [upToSwitch]
  rw [show (s.enter layout .yield).currentP = .ok s.cr3 from currentP_eq orderly.process, ok_bind]
  refine orderly.arrives_block (k := s.enter layout .yield) (.ready s.cr3) trivial rfl rfl
    orderly.running orderly.process ?_ rfl rfl rfl rfl (by simp)
  rw [queueState, if_pos rfl]
  exact .yield

theorem arrives_join (orderly : Orderly s q) (id : Word) :
    Ensures (Arrives layout s q (.pthreadJoin id)) (s.upToSwitch layout (.pthreadJoin id)) := by
  simp only [upToSwitch]
  rw [show (s.enter layout .pthreadJoin).currentP = .ok s.cr3 from currentP_eq orderly.process,
    ok_bind]
  split
  · exact .ok ⟨q, .refused (by decide) (by simp), orderly.threads⟩
  · refine Ensures.bind (fun tid (loaded : s.mem.loadWord s.cr3 id = .ok tid) => loaded)
      fun tid loaded => ?_
    refine orderly.arrives_block (k := (s.enter layout .pthreadJoin).setThread s.current
      fun t => { t with blockedBy := tid }) (.blocked s.cr3) trivial rfl rfl ?_ ?_ ?_ rfl rfl rfl
      rfl (by simp)
    · simpa using orderly.running
    · simpa using orderly.process
    · rw [queueState, if_neg (by simp)]
      exact .join loaded

theorem arrives_pthreadExit (orderly : Orderly s q) :
    Ensures (Arrives layout s q .pthreadExit) (s.upToSwitch layout .pthreadExit) := by
  simp only [upToSwitch]
  have threads : Threads s.heap (s.enter layout .pthreadExit).heap q := orderly.threads
  refine (threads.push .free trivial orderly.absent fun _ _ => orderly.last).bind ?_
  rintro _ ⟨heap, rfl, pushed⟩
  rw [show Kernel.currentP { s.enter layout .pthreadExit with heap } = .ok s.cr3 from
    currentP_eq orderly.process, ok_bind]
  have blocked : (q.pushThread .free s.current).threads (.blocked s.cr3) =
      q.threads (.blocked s.cr3) := by simp
  refine (Threads.wakeJoiners (s := { s.enter layout .pthreadExit with heap }) pushed
    orderly.process (fun t member => ?_) fun member => ?_).bind ?_
  · rw [blocked] at member
    exact orderly.stopped (by simp) member
  · rw [blocked] at member
    exact orderly.absent _ member
  · rintro _ ⟨heap', rfl, woken⟩
    rw [blocked]
    exact orderly.arrives_pickThread (k := { (s.enter layout .pthreadExit).readyJoiners
      (q.threads (.blocked s.cr3)) with heap := heap' }) .exitThread woken rfl rfl rfl rfl rfl
      (by simp)

theorem arrives_exit (orderly : Orderly s q) :
    Ensures (Arrives layout s q .exit) (s.upToSwitch layout .exit) := by
  simp only [upToSwitch]
  rw [show (s.enter layout .exit).currentP = .ok s.cr3 from currentP_eq orderly.process, ok_bind]
  refine Ensures.skip fun row => ?_
  generalize (s.enter layout .exit).mem.releaseDataPages row numPagData = mem
  have threads : Threads s.heap ({ s.enter layout .exit with mem } : Kernel).heap q :=
    orderly.threads
  refine (threads.freeProcess s.cr3).bind ?_
  rintro _ ⟨heap, rfl, added, nonempty⟩
  rw [← bind_assoc]
  refine (Threads.freeThreadsOf (s := { s.enter layout .exit with mem, heap }.setTask s.cr3 fun c =>
    { c with pid := -1 }) added s.cr3).bind ?_
  rintro _ ⟨heap', rfl, freed⟩
  have same : heap' .readyqueue = heap .readyqueue := freed.kept _ rfl
  refine (freed.rebase.pickProcess (s := { ({ s.enter layout .exit with mem, heap }.setTask s.cr3
    fun c => { c with pid := -1 }).clearTids (q.threads (.ready s.cr3) ++
      q.threads (.blocked s.cr3)) with heap := heap' })).bind ?_
  rintro _ (⟨empty, t, idle, rfl⟩ | ⟨_, p, t, others, heap'', _, first, rfl, removed⟩)
  · refine .ok ⟨.exit, _, _, .exit, .idle ?_ idle, rfl, rfl, rfl, rfl, fun p => ?_,
      thread_setState _ _ _, ⟨_, freed.rebase⟩, fun slot _ busy => absurd idle busy⟩
    · rw [← Bool.not_eq_false]
      intro some_ready
      have none_left : (heap' .readyqueue).next = .readyqueue := of_decide_eq_true empty
      exact nonempty some_ready (same ▸ none_left)
    · simp only [setState, setThread, setTask, clearTids, Function.update_apply]
      split_ifs <;> simp_all
  · refine .ok ⟨.exit, _, _, .exit, .processExit first, rfl, rfl, rfl, rfl, fun p' => ?_,
      thread_setState _ _ _, ⟨_, freed.rebase⟩, fun slot found _ => removed slot found⟩
    simp only [setState, setThread, setTask, clearTids, Function.update_apply]
    split_ifs <;> simp_all

theorem arrives_lock (orderly : Orderly s q) (n : Int) :
    Ensures (Arrives layout s q (.mutexLock n)) (s.upToSwitch layout (.mutexLock n)) := by
  simp only [upToSwitch]
  cases accepted : mutexIndex n with
  | none => exact .ok ⟨q, .refused (by decide) (by simp), orderly.threads⟩
  | some m =>
      dsimp only
      split
      · exact .ok ⟨q, .refused (by decide) (by simp), orderly.threads⟩
      · rename_i owned
        have usable : 0 ≤ (s.mutexVector m).owner.toInt := Int.not_lt.mp owned
        split
        · rename_i taken
          have threads : Threads s.heap ((s.enter layout .mutexLock).setState s.current
            .stBlocked).heap q := orderly.threads
          cases head : q.head m with
          | listed =>
              refine (threads.push (.mutex m) head orderly.absent fun _ _ => orderly.last).bind ?_
              rintro _ ⟨heap, rfl, pushed⟩
              exact orderly.arrives_pickThread (k := { (s.enter layout .mutexLock).setState
                s.current .stBlocked with heap }) (.lock accepted usable taken head) pushed rfl
                rfl rfl rfl rfl (by simp)
          | unlisted last =>
              obtain ⟨c, current⟩ := orderly.slot
              have absent : q.threads.Absent (.slot c) := current ▸ orderly.absent
              have pushes := threads.pushUnlisted head absent
              rw [← current] at pushes
              refine pushes.bind ?_
              rintro _ ⟨heap, rfl, pushed⟩
              exact orderly.arrives_pickThread (k := { (s.enter layout .mutexLock).setState
                s.current .stBlocked with heap })
                (.lost accepted usable taken head current) pushed rfl rfl rfl rfl rfl (by simp)
        · rename_i free
          exact .ok ⟨q, .locked accepted usable (not_not.mp free), orderly.threads⟩

theorem arrives_tick (orderly : Orderly s q) :
    Ensures (Arrives layout s q .tick) (s.upToSwitch layout .tick) := by
  have process : (s.enter layout .clock).updateSchedDataRr.currentP = .ok s.cr3 :=
    currentP_eq orderly.process
  simp only [upToSwitch, needsSchedRr]
  split
  · rename_i due
    simp only [pure_eq_ok, ok_bind, process, if_true]
    have some_ready : (s.enter layout .clock).updateSchedDataRr.listEmpty .readyqueue = false := by
      simpa using due.2
    have threads : Threads s.heap (s.enter layout .clock).updateSchedDataRr.heap q :=
      orderly.threads
    refine (threads.updateProcess s.cr3 some_ready).traced.bind ?_
    rintro _ ⟨⟨heap, rfl, threads₁, nonempty⟩, requeued⟩
    refine (Threads.updatePush (p := s.cr3) (s := { (s.enter layout .clock).updateSchedDataRr with
      heap }.setTask s.cr3 fun c => { c with state := .stReady }) threads₁ (.ready s.cr3) trivial
        orderly.absent (fun _ _ => orderly.last) orderly.running orderly.process).bind ?_
    rintro _ ⟨heap', rfl, pushed⟩
    have same : heap' .readyqueue = heap .readyqueue := pushed.kept _ rfl
    refine (pushed.rebase.pickProcess (s := { ({ (s.enter layout .clock).updateSchedDataRr with
      heap }.setTask s.cr3 fun c => { c with state := .stReady }) with heap := heap' }.setState
        s.current (queueState s.cr3 (.ready s.cr3)))).bind ?_
    rintro _ (⟨empty, _⟩ | ⟨_, p, t, others, heap'', node, first, rfl, removed⟩)
    · have some_left : (heap .readyqueue).next ≠ .readyqueue := of_decide_eq_false nonempty
      have none_left : (heap' .readyqueue).next = .readyqueue := of_decide_eq_true empty
      exact absurd (same ▸ none_left) some_left
    · refine .ok ⟨.clock, _, _, .tick, .processTick ⟨due.1, some_ready⟩ requeued ?_ first, rfl, rfl,
        rfl, rfl, fun p' => ?_, ?_, ⟨_, pushed.rebase⟩, fun slot found _ => removed slot found⟩
      · rw [← node]
        exact congrArg Links.next same.symm
      · simp only [setState, setThread, setTask, Function.update_apply]
        split_ifs <;> simp_all
      · rw [queueState, if_pos rfl]
        exact thread_setState _ _ _
  · rename_i other
    simp only [process, ok_bind]
    split
    · rename_i expired
      simp only [pure_eq_ok, ok_bind, process]
      have siblings : (s.enter layout .clock).updateSchedDataRr.listEmpty (.ready s.cr3) =
        false := by
        simpa using expired.2
      refine orderly.arrives_block (k := (s.enter layout .clock).updateSchedDataRr) (.ready s.cr3)
        trivial rfl rfl orderly.running orderly.process ?_ rfl rfl rfl rfl fun _ => ⟨?_, ?_⟩
      · rw [queueState, if_pos rfl]
        exact .tick
      · intro due
        have some_ready : (s.enter layout .clock).updateSchedDataRr.listEmpty .readyqueue = false :=
          due.2
        exact other ⟨due.1, by simp [some_ready]⟩
      · have empty_eq := orderly.threads.empty_threads (.ready s.cr3) trivial
        intro alone
        rw [alone] at empty_eq
        have nobody : (s.enter layout .clock).updateSchedDataRr.listEmpty (.ready s.cr3) = true :=
          empty_eq
        exact absurd (siblings.symm.trans nobody) (by simp)
    · simp only [pure_eq_ok, ok_bind]
      exact .ok ⟨q, .ticked, orderly.threads⟩

end Orderly

end Zeos
