import Zeos.Consistency

/-!
# Transitions

What a step does to the queues and the variables, one rule for each way through a system call or
the clock interrupt that ends in user mode again.
-/

namespace Zeos

open IntrusiveList GuardedRun

/-! ## Effects on several threads -/

namespace Kernel

/-- The current thread is the one that a thread has named in `pthread_join`. -/
def Joins (s : Kernel) (t : ThreadPtr) : Prop :=
  (s.thread t).blockedBy = (s.thread s.current).tid

instance (s : Kernel) (t : ThreadPtr) : Decidable (s.Joins t) :=
  inferInstanceAs (Decidable (_ = _))

/-- Mark all threads of a list that join the current one as ready. -/
def readyJoiners (s : Kernel) (waiting : List ThreadPtr) : Kernel :=
  { s with
    thread := fun t =>
      if t ∈ waiting ∧ s.Joins t then { s.thread t with state := .stReady } else s.thread t }

/-- Mark the threads of a list as free. -/
def clearTids (s : Kernel) (ended : List ThreadPtr) : Kernel :=
  { s with thread := fun t => if t ∈ ended then { s.thread t with tid := -1 } else s.thread t }

/-- The process of a thread. -/
def home (s : Kernel) (t : ThreadPtr) : TaskId :=
  match (s.thread t).p with
  | .slot p => p
  | _ => s.cr3

/-- The state of a waiter when its mutex is destroyed, as `update_thread_state_rr` sets it. -/
def releasedState (s : Kernel) (t : ThreadPtr) : RunState :=
  if s.home t = s.cr3 then .stReady else .stBlocked

/-- Give the waiters of a destroyed mutex their new state. -/
def releaseStates (s : Kernel) (waiters : List ThreadPtr) : Kernel :=
  { s with
    thread := fun t =>
      if t ∈ waiters then { s.thread t with state := s.releasedState t } else s.thread t }

section Fields

variable (s : Kernel) (threads : List ThreadPtr)

@[simp] theorem task_saveEsp : s.saveEsp.task = s.task := rfl
@[simp] theorem current_saveEsp : s.saveEsp.current = s.current := rfl
@[simp] theorem cr3_saveEsp : s.saveEsp.cr3 = s.cr3 := rfl
@[simp] theorem mutexVector_saveEsp : s.saveEsp.mutexVector = s.mutexVector := rfl
@[simp] theorem task_readyJoiners : (s.readyJoiners threads).task = s.task := rfl
@[simp] theorem current_readyJoiners : (s.readyJoiners threads).current = s.current := rfl
@[simp] theorem cr3_readyJoiners : (s.readyJoiners threads).cr3 = s.cr3 := rfl
@[simp] theorem mutexVector_readyJoiners :
    (s.readyJoiners threads).mutexVector = s.mutexVector := rfl
@[simp] theorem task_clearTids : (s.clearTids threads).task = s.task := rfl
@[simp] theorem current_clearTids : (s.clearTids threads).current = s.current := rfl
@[simp] theorem cr3_clearTids : (s.clearTids threads).cr3 = s.cr3 := rfl
@[simp] theorem mutexVector_clearTids : (s.clearTids threads).mutexVector = s.mutexVector := rfl
@[simp] theorem task_releaseStates : (s.releaseStates threads).task = s.task := rfl
@[simp] theorem current_releaseStates : (s.releaseStates threads).current = s.current := rfl
@[simp] theorem cr3_releaseStates : (s.releaseStates threads).cr3 = s.cr3 := rfl
@[simp] theorem mutexVector_releaseStates :
    (s.releaseStates threads).mutexVector = s.mutexVector := rfl

end Fields

/-- The child's thread of a successful `fork`. -/
def childThread (s : Kernel) (child : TaskId) (u : ThreadPtr) : ThreadStruct :=
  { s.thread s.current with
    tid := 1
    state := .stReady
    dirPagesBaseAddr := some child
    p := .slot child
    registerEsp := .on u (syscallFrame - 1) }

/-- The child of a successful `fork`. -/
def childTask (s : Kernel) (child : TaskId) : TaskStruct where
  pid := s.globalPID + 1
  dirPagesBaseAddr := some child
  state := .stReady
  totalQuantum := defaultQuantumP
  nthread := 2

/-- The thread that `pthread_create` makes. -/
def newThread (s : Kernel) (u : ThreadPtr) : ThreadStruct :=
  { s.thread s.current with
    tid := (s.task s.cr3).nthread
    quantum := defaultQuantumT
    state := .stReady
    dirPagesBaseAddr := (s.task s.cr3).dirPagesBaseAddr
    registerEsp := .on u syscallFrame }

end Kernel

namespace Queues

/-- Move a thread to the end of a queue. -/
def moveThread (q : Queues) (t : ThreadPtr) (target : ThreadQueue) : Queues :=
  (q.removeThread t).pushThread target t

/-- Move all threads of a queue to the free ones. -/
def drainThreads (q : Queues) (source : ThreadQueue) : Queues :=
  { q with threads := q.threads.drain source .free }

/-- Move the first blocked thread of a process to its ready ones if it is to be woken. -/
def wakeFirst (q : Queues) (p : TaskId) (wakes : ThreadPtr → Prop) [DecidablePred wakes] :
    Queues :=
  match q.threads (.blocked p) with
  | [] => q
  | t :: _ => if wakes t then q.moveThread t (.ready p) else q

/-- Move threads to the ready ones of their processes. -/
def moveHome (q : Queues) (home : ThreadPtr → TaskId) (waiters : List ThreadPtr) : Queues :=
  waiters.foldl (fun q t => q.moveThread t (.ready (home t))) q

@[simp] theorem threads_moveThread (q : Queues) (t : ThreadPtr) (target : ThreadQueue) :
    (q.moveThread t target).threads = (q.threads.remove t).push target t := rfl
@[simp] theorem processes_moveThread (q : Queues) (t : ThreadPtr) (target : ThreadQueue) :
    (q.moveThread t target).processes = q.processes := rfl
@[simp] theorem head_moveThread (q : Queues) (t : ThreadPtr) (target : ThreadQueue) :
    (q.moveThread t target).head = q.head := rfl
@[simp] theorem threads_drainThreads (q : Queues) (source : ThreadQueue) :
    (q.drainThreads source).threads = q.threads.drain source .free := rfl
@[simp] theorem processes_drainThreads (q : Queues) (source : ThreadQueue) :
    (q.drainThreads source).processes = q.processes := rfl
@[simp] theorem head_drainThreads (q : Queues) (source : ThreadQueue) :
    (q.drainThreads source).head = q.head := rfl

section WakeFirst

variable (q : Queues) (p : TaskId) (wakes : ThreadPtr → Prop) [DecidablePred wakes]

@[simp] theorem processes_wakeFirst : (q.wakeFirst p wakes).processes = q.processes := by
  unfold wakeFirst
  split
  · rfl
  · split <;> rfl

@[simp] theorem head_wakeFirst : (q.wakeFirst p wakes).head = q.head := by
  unfold wakeFirst
  split
  · rfl
  · split <;> rfl

end WakeFirst

theorem moveHome_frame (q : Queues) (home : ThreadPtr → TaskId) (waiters : List ThreadPtr) :
    (q.moveHome home waiters).processes = q.processes ∧
      (q.moveHome home waiters).head = q.head := by
  induction waiters generalizing q with
  | nil => exact ⟨rfl, rfl⟩
  | cons t rest induction => exact induction _

/-- Threads that move home leave other queues than the ready ones as they are, if they are not in
them. -/
theorem threads_moveHome_other {q : Queues} {home : ThreadPtr → TaskId} {waiters : List ThreadPtr}
    {queue : ThreadQueue} (other : ∀ p, queue ≠ .ready p)
    (outside : ∀ t ∈ waiters, t ∉ q.threads queue) :
    (q.moveHome home waiters).threads queue = q.threads queue := by
  induction waiters generalizing q with
  | nil => rfl
  | cons first rest induction =>
      have kept : (q.moveThread first (.ready (home first))).threads queue = q.threads queue := by
        rw [threads_moveThread, Lanes.push_other (other _),
          Lanes.remove_of_not_mem (outside first List.mem_cons_self)]
      rw [moveHome, List.foldl_cons, ← moveHome, induction, kept]
      intro t member
      rw [kept]
      exact outside t (List.mem_cons_of_mem _ member)

/-- Threads that move home join the ready ones of their processes in order. -/
theorem threads_moveHome_ready {q : Queues} {home : ThreadPtr → TaskId} {waiters : List ThreadPtr}
    (nodup : waiters.Nodup) (outside : ∀ t ∈ waiters, ∀ p, t ∉ q.threads (.ready p)) (p : TaskId) :
    (q.moveHome home waiters).threads (.ready p) =
      q.threads (.ready p) ++ waiters.filter (home · = p) := by
  induction waiters generalizing q with
  | nil => exact (List.append_nil _).symm
  | cons first rest induction =>
      obtain ⟨fresh, nodup⟩ := List.nodup_cons.mp nodup
      have moved : ∀ p, (q.moveThread first (.ready (home first))).threads (.ready p) =
          q.threads (.ready p) ++ if home first = p then [first] else [] := by
        intro p
        have kept : q.threads.remove first (.ready p) = q.threads (.ready p) :=
          Lanes.remove_of_not_mem (outside first List.mem_cons_self p)
        rw [threads_moveThread]
        by_cases same : home first = p
        · subst same
          rw [Lanes.push_same, kept, if_pos rfl]
        · rw [Lanes.push_other (by simpa using Ne.symm same), kept, if_neg same, List.append_nil]
      rw [moveHome, List.foldl_cons, ← moveHome, induction nodup, moved, List.append_assoc,
        List.filter_cons]
      · split_ifs <;> simp_all
      · intro t member p' inside
        rw [moved] at inside
        rcases List.mem_append.mp inside with before | joined
        · exact outside t (List.mem_cons_of_mem _ member) p' before
        · split_ifs at joined
          · exact fresh (List.mem_singleton.mp joined ▸ member)
          · exact absurd joined List.not_mem_nil

@[simp] theorem processes_moveHome (q : Queues) (home : ThreadPtr → TaskId)
    (waiters : List ThreadPtr) : (q.moveHome home waiters).processes = q.processes :=
  (q.moveHome_frame home waiters).1

@[simp] theorem head_moveHome (q : Queues) (home : ThreadPtr → TaskId)
    (waiters : List ThreadPtr) : (q.moveHome home waiters).head = q.head :=
  (q.moveHome_frame home waiters).2

end Queues

/-! ## The rules -/

open Kernel in
/-- One step of the running system. -/
inductive Transition (layout : Layout) (s : Kernel) (q : Queues) :
    Action → Kernel → Queues → Result → Prop
  /-- A call that returns an error at once. -/
  | refused {action : Action} {ebp : Nat} {stack : ThreadPtr → Nat → Word} {value : Int}
      (negative : value < 0) :
      Transition layout s q action { s with ebp, stack } q (.returns value)
  /-- A store of the program. -/
  | stored {addr : Word} {value : Byte} {mem : Memory} :
      Transition layout s q (.store addr value) { s with mem } q (.returns 0)
  | others {bytes : Nat → Byte} {mem : Memory} :
      Transition layout s q (.others bytes) { s with mem } q (.returns 0)
  /-- A clock tick without a switch. -/
  | ticked
      (noProcess : ¬(s.remainingQuantumP - 1 = 0 ∧ q.processes .ready ≠ []))
      (noThread : ¬(s.remainingQuantumT - 1 = 0 ∧ q.threads (.ready s.cr3) ≠ [])) :
      Transition layout s q .tick ((s.enter layout .clock).updateSchedDataRr.reloadQuanta s.cr3) q
        .switches
  /-- A clock tick that switches to another thread of the process. -/
  | tickedThread {t : ThreadSlot} {rest : List ThreadPtr} {heap : Heap Node}
      (noProcess : ¬(s.remainingQuantumP - 1 = 0 ∧ q.processes .ready ≠ []))
      (expired : s.remainingQuantumT - 1 = 0)
      (first : q.threads (.ready s.cr3) = .slot t :: rest) :
      Transition layout s q .tick
        { ((s.enter layout .clock).updateSchedDataRr.suspend .stReady).resume s.cr3 (.slot t) with
          heap }
        ((q.pushThread (.ready s.cr3) s.current).removeThread (.slot t)) .switches
  /-- A clock tick that switches to another process. -/
  | tickedProcess {p : TaskId} {processes : List TaskId} {t : ThreadSlot}
      {rest : List ThreadPtr} {heap : Heap Node}
      (expired : s.remainingQuantumP - 1 = 0)
      (firstProcess : q.processes .ready = p :: processes)
      (first : q.threads (.ready p) = .slot t :: rest) :
      Transition layout s q .tick
        { (((s.enter layout .clock).updateSchedDataRr.setTask s.cr3
              fun c => { c with state := .stReady }).suspend .stReady |>.resumeProcess p).resume p
            (.slot t) with
          heap }
        ((((q.pushProcess .ready s.cr3).pushThread (.ready s.cr3) s.current).removeProcess
          p).removeThread (.slot t)) .switches
  /-- `fork` makes a process with one thread. -/
  | forked {stack : Nat → Word} {child : TaskId} {processes : List TaskId} {u : ThreadSlot}
      {threads : List ThreadPtr} {heap : Heap Node} {stack' : ThreadPtr → Nat → Word}
      {mem : Memory}
      (freeProcess : q.processes .free = child :: processes)
      (freeThread : q.threads .free = .slot u :: threads) :
      Transition layout s q (.fork stack)
        { (s.setThread (.slot u) fun _ => s.childThread child (.slot u)).setTask child
            fun _ => s.childTask child with
          globalPID := s.globalPID + 1
          heap
          stack := stack'
          mem }
        ((((q.removeProcess child).removeThread (.slot u)).pushProcess .ready child).pushThread
          (.ready child) (.slot u)) (.returns (s.globalPID + 1).toInt)
  /-- `fork` runs out of frames: the process goes back to the free ones, the thread does not. -/
  | forkFailed {stack : Nat → Word} {child : TaskId} {processes : List TaskId} {u : ThreadSlot}
      {threads : List ThreadPtr} {heap : Heap Node} {stack' : ThreadPtr → Nat → Word}
      {mem : Memory}
      (freeProcess : q.processes .free = child :: processes)
      (freeThread : q.threads .free = .slot u :: threads) :
      Transition layout s q (.fork stack)
        { (s.setThread (.slot u) fun _ => s.thread s.current).allocateDIR child with
          heap
          stack := stack'
          mem }
        (((q.removeProcess child).removeThread (.slot u)).pushProcess .free child)
        (.returns (-EAGAIN))
  /-- `pthread_create` makes a thread. -/
  | created {stack : Nat → Word} {id startRoutine : Word} {u : ThreadSlot}
      {threads : List ThreadPtr} {heap : Heap Node} {stack' : ThreadPtr → Nat → Word}
      {mem : Memory} (freeThread : q.threads .free = .slot u :: threads) :
      Transition layout s q (.pthreadCreate stack id startRoutine)
        { (s.setThread (.slot u) fun _ => s.newThread (.slot u)).setTask s.cr3
            fun c => { c with nthread := c.nthread + 1 } with
          heap
          stack := stack'
          mem }
        (q.moveThread (.slot u) (.ready s.cr3)) (.returns 0)
  /-- `pthread_join` blocks the thread. -/
  | joined {id tid : Word} {t : ThreadSlot} {rest : List ThreadPtr} {heap : Heap Node}
      (several : 2 ≤ (s.task s.cr3).nthread.toNat)
      (loaded : s.mem.loadWord s.cr3 id = .ok tid)
      (first : q.threads (.ready s.cr3) = .slot t :: rest) :
      Transition layout s q (.pthreadJoin id)
        { (((s.enter layout .pthreadJoin).setThread s.current
            fun c => { c with blockedBy := tid }).suspend .stBlocked).resume s.cr3 (.slot t) with
          heap }
        ((q.pushThread (.blocked s.cr3) s.current).removeThread (.slot t)) .switches
  /-- `pthread_exit` frees the thread and wakes the first blocked one if that joins it; further
  ones are only marked as ready. -/
  | ended {t : ThreadSlot} {rest : List ThreadPtr} {heap : Heap Node}
      (first : ((q.pushThread .free s.current).wakeFirst s.cr3 s.Joins).threads (.ready s.cr3) =
        .slot t :: rest) :
      Transition layout s q .pthreadExit
        { (((s.enter layout .pthreadExit).readyJoiners
            (q.threads (.blocked s.cr3))).saveEsp).resume s.cr3 (.slot t) with
          heap }
        (((q.pushThread .free s.current).wakeFirst s.cr3 s.Joins).removeThread (.slot t)) .switches
  /-- `exit` frees the process and its ready and blocked threads. -/
  | exited {p : TaskId} {processes : List TaskId} {t : ThreadSlot} {rest : List ThreadPtr}
      {heap : Heap Node} {mem : Memory}
      (firstProcess : q.processes .ready = p :: processes)
      (first : q.threads (.ready p) = .slot t :: rest) :
      Transition layout s q .exit
        { ((((s.enter layout .exit).setTask s.cr3 fun c => { c with pid := -1 }).clearTids
              (q.threads (.ready s.cr3) ++ q.threads (.blocked s.cr3))).saveEsp |>.resumeProcess
              p).resume p (.slot t) with
          heap
          mem }
        (((((q.pushProcess .free s.cr3).drainThreads (.ready s.cr3)).drainThreads
          (.blocked s.cr3)).removeProcess p).removeThread (.slot t)) .switches
  /-- `yield` switches to the first ready thread, which is the current one if there is no other. -/
  | yielded {t : ThreadSlot} {rest : List ThreadPtr} {heap : Heap Node}
      (first : q.threads (.ready s.cr3) ++ [s.current] = .slot t :: rest) :
      Transition layout s q .yield
        { ((s.enter layout .yield).suspend .stReady).resume s.cr3 (.slot t) with heap }
        ((q.pushThread (.ready s.cr3) s.current).removeThread (.slot t)) .switches
  /-- `mutex_init` of a mutex without an owner. -/
  | initialised {n : Int} {m : MutexId} {heap : Heap Node} (accepted : mutexIndex n = some m)
      (unowned : (s.mutexVector m).owner = 0) :
      Transition layout s q (.mutexInit n)
        { s.setMutex m fun _ => { locked := 0, owner := (s.thread s.current).tid } with heap }
        { q with
          threads := q.threads.clear (.mutex m)
          head := Function.update q.head m .listed }
        (.returns 0)
  /-- `mutex_lock` of a mutex that is not locked. -/
  | locked {n : Int} {m : MutexId} (accepted : mutexIndex n = some m)
      (usable : 0 ≤ (s.mutexVector m).owner.toInt) (unlocked : (s.mutexVector m).locked = 0) :
      Transition layout s q (.mutexLock n)
        ((s.enter layout .mutexLock).setMutex m fun mutex => { mutex with locked := 1 }) q
        (.returns 0)
  /-- `mutex_lock` of a locked mutex blocks the thread. -/
  | waited {n : Int} {m : MutexId} {t : ThreadSlot} {rest : List ThreadPtr} {heap : Heap Node}
      (accepted : mutexIndex n = some m) (usable : 0 ≤ (s.mutexVector m).owner.toInt)
      (taken : (s.mutexVector m).locked ≠ 0) (listed : q.head m = .listed)
      (first : q.threads (.ready s.cr3) = .slot t :: rest) :
      Transition layout s q (.mutexLock n)
        { ((s.enter layout .mutexLock).suspend .stBlocked).resume s.cr3 (.slot t) with heap }
        ((q.pushThread (.mutex m) s.current).removeThread (.slot t)) .switches
  /-- `mutex_lock` of a locked mutex that was never initialised blocks the thread for good. -/
  | lost {n : Int} {m : MutexId} {last : Option ThreadSlot} {c t : ThreadSlot}
      {rest : List ThreadPtr} {heap : Heap Node}
      (accepted : mutexIndex n = some m) (usable : 0 ≤ (s.mutexVector m).owner.toInt)
      (taken : (s.mutexVector m).locked ≠ 0) (unlisted : q.head m = .unlisted last)
      (current : s.current = .slot c) (first : q.threads (.ready s.cr3) = .slot t :: rest) :
      Transition layout s q (.mutexLock n)
        { ((s.enter layout .mutexLock).suspend .stBlocked).resume s.cr3 (.slot t) with heap }
        ({ q with head := Function.update q.head m (.unlisted (some c)) }.removeThread (.slot t))
        .switches
  /-- `mutex_unlock` of a mutex that is not locked. -/
  | unlockedFree {n : Int} {m : MutexId} (accepted : mutexIndex n = some m)
      (usable : 0 ≤ (s.mutexVector m).owner.toInt) (unlocked : (s.mutexVector m).locked = 0) :
      Transition layout s q (.mutexUnlock n) s q (.returns 0)
  /-- `mutex_unlock` wakes the first waiter; the mutex stays locked if there are more. -/
  | unlocked {n : Int} {m : MutexId} {t : ThreadSlot} {rest : List ThreadPtr} {heap : Heap Node}
      (accepted : mutexIndex n = some m) (usable : 0 ≤ (s.mutexVector m).owner.toInt)
      (taken : (s.mutexVector m).locked ≠ 0) (first : q.threads (.mutex m) = .slot t :: rest) :
      Transition layout s q (.mutexUnlock n)
        { (s.setState (.slot t) .stReady).setMutex m fun mutex =>
            { mutex with locked := if rest = [] then 0 else mutex.locked } with
          heap }
        (q.moveThread (.slot t) (.ready s.cr3)) (.returns 0)
  /-- `mutex_unlock` without a waiter takes the page of the list head for a thread. -/
  | unlockedNobody {n : Int} {m : MutexId} {heap : Heap Node} (accepted : mutexIndex n = some m)
      (usable : 0 ≤ (s.mutexVector m).owner.toInt) (taken : (s.mutexVector m).locked ≠ 0)
      (listed : q.head m = .listed) (nobody : q.threads (.mutex m) = []) :
      Transition layout s q (.mutexUnlock n)
        { (s.setState (.image (layout.imagePage m)) .stReady).setMutex m fun mutex =>
            { mutex with locked := 0 } with
          heap }
        (q.moveThread (.image (layout.imagePage m)) (.ready s.cr3)) (.returns 0)
  /-- `mutex_destroy` by the owner makes all waiters ready. -/
  | destroyed {n : Int} {m : MutexId} {heap : Heap Node} (accepted : mutexIndex n = some m)
      (owned : 0 < (s.mutexVector m).owner.toInt)
      (owner : (s.thread s.current).tid = (s.mutexVector m).owner) (listed : q.head m = .listed) :
      Transition layout s q (.mutexDestroy n)
        { (s.releaseStates (q.threads (.mutex m))).setMutex m fun _ =>
            { locked := 0, owner := 0 } with
          heap }
        (q.moveHome s.home (q.threads (.mutex m))) (.returns 0)

end Zeos
