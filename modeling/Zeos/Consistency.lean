import Zeos.Queues

/-!
# Consistent states

What the scheduler relies on between two steps.  `Stable` says it of the queues and of the threads
and processes in them, `Consistent` also of the running thread.  The laws of this module show that
the elementary changes of a step preserve it.
-/

namespace Zeos

open IntrusiveList GuardedRun

/-! ## Elementary changes -/

namespace Kernel

section Fields

variable (s : Kernel) (t : ThreadPtr) (f : ThreadStruct → ThreadStruct) (p : TaskId)
  (g : TaskStruct → TaskStruct) (m : MutexId) (k : Mutex → Mutex)

@[simp] theorem thread_setThread :
    (s.setThread t f).thread = Function.update s.thread t (f (s.thread t)) := rfl
@[simp] theorem task_setThread : (s.setThread t f).task = s.task := rfl
@[simp] theorem current_setThread : (s.setThread t f).current = s.current := rfl
@[simp] theorem cr3_setThread : (s.setThread t f).cr3 = s.cr3 := rfl
@[simp] theorem heap_setThread : (s.setThread t f).heap = s.heap := rfl
@[simp] theorem ebp_setThread : (s.setThread t f).ebp = s.ebp := rfl
@[simp] theorem idleTask_setThread : (s.setThread t f).idleTask = s.idleTask := rfl
@[simp] theorem mutexVector_setThread : (s.setThread t f).mutexVector = s.mutexVector := rfl
@[simp] theorem mem_setThread : (s.setThread t f).mem = s.mem := rfl

@[simp] theorem task_setTask :
    (s.setTask p g).task = Function.update s.task p (g (s.task p)) := rfl
@[simp] theorem thread_setTask : (s.setTask p g).thread = s.thread := rfl
@[simp] theorem current_setTask : (s.setTask p g).current = s.current := rfl
@[simp] theorem cr3_setTask : (s.setTask p g).cr3 = s.cr3 := rfl
@[simp] theorem heap_setTask : (s.setTask p g).heap = s.heap := rfl
@[simp] theorem ebp_setTask : (s.setTask p g).ebp = s.ebp := rfl
@[simp] theorem idleTask_setTask : (s.setTask p g).idleTask = s.idleTask := rfl
@[simp] theorem mutexVector_setTask : (s.setTask p g).mutexVector = s.mutexVector := rfl
@[simp] theorem mem_setTask : (s.setTask p g).mem = s.mem := rfl

@[simp] theorem mutexVector_setMutex :
    (s.setMutex m k).mutexVector = Function.update s.mutexVector m (k (s.mutexVector m)) := rfl
@[simp] theorem thread_setMutex : (s.setMutex m k).thread = s.thread := rfl
@[simp] theorem task_setMutex : (s.setMutex m k).task = s.task := rfl
@[simp] theorem current_setMutex : (s.setMutex m k).current = s.current := rfl
@[simp] theorem cr3_setMutex : (s.setMutex m k).cr3 = s.cr3 := rfl
@[simp] theorem heap_setMutex : (s.setMutex m k).heap = s.heap := rfl
@[simp] theorem idleTask_setMutex : (s.setMutex m k).idleTask = s.idleTask := rfl
@[simp] theorem mem_setMutex : (s.setMutex m k).mem = s.mem := rfl

end Fields

/-- Give a thread a new run state. -/
def setState (s : Kernel) (t : ThreadPtr) (state : RunState) : Kernel :=
  s.setThread t fun c => { c with state }

/-- Save the frame pointer of the running thread. -/
def saveEsp (s : Kernel) : Kernel :=
  s.setThread s.current fun c => { c with registerEsp := .on s.current s.ebp }

/-- The running thread leaves the processor in the given state. -/
def suspend (s : Kernel) (state : RunState) : Kernel := (s.setState s.current state).saveEsp

/-- A thread of a process gets the processor. -/
def resume (s : Kernel) (p : TaskId) (t : ThreadPtr) : Kernel :=
  { s.setState t .stRun with
    current := t
    cr3 := p
    remainingQuantumT := (s.thread t).quantum }

/-- A process gets the processor. -/
def resumeProcess (s : Kernel) (p : TaskId) : Kernel :=
  { s.setTask p fun c => { c with state := .stRun } with
    remainingQuantumP := (s.task p).totalQuantum }

section Effects

variable (s : Kernel) (t : ThreadPtr) (state : RunState) (p : TaskId) (layout : Layout)
  (site : Site)

@[simp] theorem thread_enter : (s.enter layout site).thread = s.thread := rfl
@[simp] theorem task_enter : (s.enter layout site).task = s.task := rfl
@[simp] theorem current_enter : (s.enter layout site).current = s.current := rfl
@[simp] theorem cr3_enter : (s.enter layout site).cr3 = s.cr3 := rfl
@[simp] theorem mutexVector_enter : (s.enter layout site).mutexVector = s.mutexVector := rfl
@[simp] theorem thread_updateSchedDataRr : s.updateSchedDataRr.thread = s.thread := rfl
@[simp] theorem task_updateSchedDataRr : s.updateSchedDataRr.task = s.task := rfl
@[simp] theorem current_updateSchedDataRr : s.updateSchedDataRr.current = s.current := rfl
@[simp] theorem cr3_updateSchedDataRr : s.updateSchedDataRr.cr3 = s.cr3 := rfl
@[simp] theorem mutexVector_updateSchedDataRr :
    s.updateSchedDataRr.mutexVector = s.mutexVector := rfl

@[simp] theorem task_setState : (s.setState t state).task = s.task := rfl
@[simp] theorem current_setState : (s.setState t state).current = s.current := rfl
@[simp] theorem cr3_setState : (s.setState t state).cr3 = s.cr3 := rfl
@[simp] theorem mutexVector_setState : (s.setState t state).mutexVector = s.mutexVector := rfl
@[simp] theorem thread_setState : (s.setState t state).thread =
    Function.update s.thread t { s.thread t with state } := rfl
@[simp] theorem task_suspend : (s.suspend state).task = s.task := rfl
@[simp] theorem current_suspend : (s.suspend state).current = s.current := rfl
@[simp] theorem cr3_suspend : (s.suspend state).cr3 = s.cr3 := rfl
@[simp] theorem mutexVector_suspend : (s.suspend state).mutexVector = s.mutexVector := rfl
@[simp] theorem task_resume : (s.resume p t).task = s.task := rfl
@[simp] theorem current_resume : (s.resume p t).current = t := rfl
@[simp] theorem cr3_resume : (s.resume p t).cr3 = p := rfl
@[simp] theorem mutexVector_resume : (s.resume p t).mutexVector = s.mutexVector := rfl
@[simp] theorem thread_resume : (s.resume p t).thread =
    Function.update s.thread t { s.thread t with state := .stRun } := rfl
@[simp] theorem thread_resumeProcess : (s.resumeProcess p).thread = s.thread := rfl
@[simp] theorem task_resumeProcess : (s.resumeProcess p).task =
    Function.update s.task p { s.task p with state := .stRun } := rfl
@[simp] theorem current_resumeProcess : (s.resumeProcess p).current = s.current := rfl
@[simp] theorem mutexVector_resumeProcess : (s.resumeProcess p).mutexVector = s.mutexVector := rfl

@[simp] theorem thread_suspend : (s.suspend state).thread = Function.update s.thread s.current
    { s.thread s.current with state, registerEsp := .on s.current s.ebp } := by
  simp [suspend, saveEsp, setState]

end Effects

end Kernel

/-! ## The invariant -/

/-- A thread that does not run and whose stack pointer leads to its own stack. -/
def Parked (t : ThreadPtr) (c : ThreadStruct) : Prop :=
  c.state ≠ .stRun ∧ ∃ index, c.registerEsp = .on t index

/-- What a `thread_struct` contains while it is in a queue. -/
def Fits : ThreadQueue → ThreadPtr → ThreadStruct → Prop
  | .free, _, _ => True
  | .ready p, t, c => c.p = .slot p ∧ Parked t c
  | .blocked p, t, c => c.p = .slot p ∧ Parked t c
  | .mutex _, t, c => (∃ p, c.p = .slot p) ∧ Parked t c

/-- The queues and what is in them. -/
structure Stable (s : Kernel) (q : Queues) : Prop where
  processes : q.processes.Separate
  threads : q.threads.Separate
  /-- A process has no page directory or its own one. -/
  directory : ∀ p, (s.task p).dirPagesBaseAddr = none ∨ (s.task p).dirPagesBaseAddr = some p
  /-- Threads in a queue fit there. -/
  fits : ∀ {queue slot}, .slot slot ∈ q.threads queue →
    Fits queue (.slot slot) (s.thread (.slot slot))
  /-- A page of the kernel image is taken for a thread that is ready or free. -/
  image : ∀ {queue page}, .image page ∈ q.threads queue →
    (s.thread (.image page)).state ≠ .stRun ∧ (queue = .free ∨ ∃ p, queue = .ready p)
  /-- No process has a page of the kernel image as a thread. -/
  imageP : ∀ page, (s.thread (.image page)).p = .wild
  /-- The idle thread belongs to no process and never waits. -/
  idle : ∃ slot, s.idleTask = some (.slot slot) ∧ (s.thread (.slot slot)).p = .null ∧
    q.threads.Absent (.slot slot)
  /-- A process that is ready has a page directory and a thread that is ready. -/
  readyProcess : ∀ p ∈ q.processes .ready,
    (s.task p).state = .stReady ∧ (s.task p).dirPagesBaseAddr = some p ∧
      ∃ slot, .slot slot ∈ q.threads (.ready p)

/-- The queues and the running thread. -/
structure Consistent (s : Kernel) (q : Queues) : Prop extends Stable s q where
  represents : Represents s.heap q
  /-- The running thread is one of the thread slots. -/
  slot : ∃ slot, s.current = .slot slot
  /-- The running thread is in no queue. -/
  absent : q.threads.Absent s.current
  last : ∀ {index slot}, q.head index = .unlisted (some slot) → s.current ≠ .slot slot
  running : (s.thread s.current).state = .stRun
  /-- The running thread belongs to the process whose address space is in use. -/
  process : (s.thread s.current).p = .slot s.cr3
  processRunning : (s.task s.cr3).state = .stRun
  processAbsent : q.processes.Absent s.cr3
  ownDirectory : (s.task s.cr3).dirPagesBaseAddr = some s.cr3
  /-- The saved stack pointer of the running thread is its own, if it has been saved before. -/
  saved : (s.thread s.current).registerEsp = .null ∨
    ∃ index, (s.thread s.current).registerEsp = .on s.current index

namespace Stable

variable {s s' : Kernel} {q : Queues}

/-- Only the threads, the processes and the idle thread matter. -/
theorem of_eq (stable : Stable s q) (thread : s'.thread = s.thread) (task : s'.task = s.task)
    (idleTask : s'.idleTask = s.idleTask) : Stable s' q where
  processes := stable.processes
  threads := stable.threads
  directory := by rw [task]; exact stable.directory
  fits := by rw [thread]; exact stable.fits
  image := by rw [thread]; exact stable.image
  imageP := by rw [thread]; exact stable.imageP
  idle := by rw [thread, idleTask]; exact stable.idle
  readyProcess := by rw [task]; exact stable.readyProcess

theorem idle_ne (stable : Stable s q) {slot : ThreadSlot}
    (idle : s.idleTask = some (.slot slot)) {t : ThreadPtr} {p : TaskId}
    (process : (s.thread t).p = .slot p) : t ≠ .slot slot := by
  obtain ⟨other, found, null, _⟩ := stable.idle
  rw [idle] at found
  rintro rfl
  obtain rfl : slot = other := by simpa using found
  rw [process] at null
  exact absurd null (by simp)

/-- Threads can change in all but their process and their saved stack pointer, as long as none gets
the state of a running one. -/
theorem rethread (stable : Stable s q) (task : s'.task = s.task)
    (idleTask : s'.idleTask = s.idleTask) (p : ∀ t, (s'.thread t).p = (s.thread t).p)
    (registerEsp : ∀ t, (s'.thread t).registerEsp = (s.thread t).registerEsp)
    (state : ∀ t, (s'.thread t).state = .stRun → (s.thread t).state = .stRun) : Stable s' q where
  processes := stable.processes
  threads := stable.threads
  directory := by rw [task]; exact stable.directory
  fits {queue slot} member := by
    have fits := stable.fits member
    have parked : Parked (.slot slot) (s.thread (.slot slot)) →
        Parked (.slot slot) (s'.thread (.slot slot)) := by
      rintro ⟨stopped, index, saved⟩
      exact ⟨fun running => stopped (state _ running), index, by rw [registerEsp, saved]⟩
    cases queue with
    | free => trivial
    | ready process => exact ⟨by rw [p, fits.1], parked fits.2⟩
    | blocked process => exact ⟨by rw [p, fits.1], parked fits.2⟩
    | mutex index =>
        obtain ⟨⟨process, own⟩, stopped⟩ := fits
        exact ⟨⟨process, by rw [p, own]⟩, parked stopped⟩
  image {queue page} member := by
    obtain ⟨stopped, target⟩ := stable.image member
    exact ⟨fun running => stopped (state _ running), target⟩
  imageP page := by rw [p]; exact stable.imageP page
  idle := by
    obtain ⟨idle, found, null, out⟩ := stable.idle
    exact ⟨idle, by rw [idleTask, found], by rw [p, null], out⟩
  readyProcess := by rw [task]; exact stable.readyProcess

/-- A thread slot that is in no queue and not idle can be changed. -/
theorem setThread (stable : Stable s q) {slot : ThreadSlot}
    (absent : q.threads.Absent (.slot slot)) (busy : s.idleTask ≠ some (.slot slot))
    (f : ThreadStruct → ThreadStruct) : Stable (s.setThread (.slot slot) f) q where
  processes := stable.processes
  threads := stable.threads
  directory := stable.directory
  fits {queue slot'} member := by
    have different : ThreadPtr.slot slot' ≠ .slot slot := by
      rintro equal
      exact absent queue (equal ▸ member)
    rw [Kernel.thread_setThread, Function.update_of_ne different]
    exact stable.fits member
  image {queue page} member := by
    rw [Kernel.thread_setThread, Function.update_of_ne (by simp)]
    exact stable.image member
  imageP page := by
    rw [Kernel.thread_setThread, Function.update_of_ne (by simp)]
    exact stable.imageP page
  idle := by
    obtain ⟨idle, found, null, out⟩ := stable.idle
    refine ⟨idle, found, ?_, out⟩
    have different : ThreadPtr.slot idle ≠ .slot slot := by
      rintro equal
      exact busy (equal ▸ found)
    rw [Kernel.thread_setThread, Function.update_of_ne different]
    exact null
  readyProcess := stable.readyProcess

/-- A thread slot that fits can join a queue. -/
theorem pushThread (stable : Stable s q) (queue : ThreadQueue) {slot : ThreadSlot}
    (absent : q.threads.Absent (.slot slot)) (busy : s.idleTask ≠ some (.slot slot))
    (fits : Fits queue (.slot slot) (s.thread (.slot slot))) :
    Stable s (q.pushThread queue (.slot slot)) where
  processes := stable.processes
  threads := stable.threads.push absent
  directory := stable.directory
  fits {queue' slot'} member := by
    rcases Lanes.mem_push.mp member with member | ⟨rfl, equal⟩
    · exact stable.fits member
    · rw [equal]
      exact fits
  image {queue' page} member := by
    rcases Lanes.mem_push.mp member with member | ⟨_, equal⟩
    · exact stable.image member
    · exact absurd equal (by simp)
  imageP := stable.imageP
  idle := by
    obtain ⟨idle, found, null, out⟩ := stable.idle
    refine ⟨idle, found, null, Lanes.absent_push.mpr ⟨out, ?_⟩⟩
    rintro equal
    exact busy (equal ▸ found)
  readyProcess p member := by
    obtain ⟨state, directory, slot', waits⟩ := stable.readyProcess p member
    exact ⟨state, directory, slot', Lanes.mem_push.mpr (.inl waits)⟩

/-- A page of the kernel image that does not run can join the ready or the free threads. -/
theorem pushImage (stable : Stable s q) {queue : ThreadQueue} {page : Fin 2}
    (absent : q.threads.Absent (.image page)) (state : (s.thread (.image page)).state ≠ .stRun)
    (target : queue = .free ∨ ∃ p, queue = .ready p) :
    Stable s (q.pushThread queue (.image page)) where
  processes := stable.processes
  threads := stable.threads.push absent
  directory := stable.directory
  fits {queue' slot'} member := by
    rcases Lanes.mem_push.mp member with member | ⟨_, equal⟩
    · exact stable.fits member
    · exact absurd equal (by simp)
  image {queue' page'} member := by
    rcases Lanes.mem_push.mp member with member | ⟨rfl, equal⟩
    · exact stable.image member
    · rw [equal]
      exact ⟨state, target⟩
  imageP := stable.imageP
  idle := by
    obtain ⟨idle, found, null, out⟩ := stable.idle
    exact ⟨idle, found, null, Lanes.absent_push.mpr ⟨out, by simp⟩⟩
  readyProcess p member := by
    obtain ⟨state, directory, slot', waits⟩ := stable.readyProcess p member
    exact ⟨state, directory, slot', Lanes.mem_push.mpr (.inl waits)⟩

/-- A thread can leave its queue, unless a ready process counts on it. -/
theorem removeThread (stable : Stable s q) {t : ThreadPtr}
    (spare : ∀ p ∈ q.processes .ready, ∀ slot, t = .slot slot → t ∉ q.threads (.ready p)) :
    Stable s (q.removeThread t) where
  processes := stable.processes
  threads := stable.threads.remove
  directory := stable.directory
  fits member := stable.fits (Lanes.mem_of_mem_remove member)
  image member := stable.image (Lanes.mem_of_mem_remove member)
  imageP := stable.imageP
  idle := by
    obtain ⟨idle, found, null, out⟩ := stable.idle
    exact ⟨idle, found, null, stable.threads.absent_remove.mpr (.inl out)⟩
  readyProcess p member := by
    obtain ⟨state, directory, slot', waits⟩ := stable.readyProcess p member
    refine ⟨state, directory, slot', stable.threads.mem_remove.mpr ⟨?_, waits⟩⟩
    rintro rfl
    exact spare p member slot' rfl waits

theorem busy_of_mem (stable : Stable s q) {queue : ThreadQueue} {slot : ThreadSlot}
    (member : .slot slot ∈ q.threads queue) : s.idleTask ≠ some (.slot slot) := by
  intro found
  obtain ⟨idle, found', _, out⟩ := stable.idle
  rw [found] at found'
  obtain rfl : slot = idle := by simpa using found'
  exact out queue member

/-- A thread can move to a queue where it fits, unless a ready process counts on it. -/
theorem moveThread (stable : Stable s q) {source : ThreadQueue} (target : ThreadQueue)
    {slot : ThreadSlot}
    (member : .slot slot ∈ q.threads source)
    (spare : ∀ p ∈ q.processes .ready, source ≠ .ready p)
    (fits : Fits target (.slot slot) (s.thread (.slot slot))) :
    Stable s ((q.removeThread (.slot slot)).pushThread target (.slot slot)) := by
  have removed : Stable s (q.removeThread (.slot slot)) := by
    refine stable.removeThread fun p ready _ _ waits => ?_
    exact spare p ready (stable.threads.unique member waits)
  exact removed.pushThread target (stable.threads.absent_remove.mpr (.inr rfl))
    (stable.busy_of_mem member) fits

/-- The threads of a process that is not ready can all become free. -/
theorem drainThreads (stable : Stable s q) (source : ThreadQueue) (different : source ≠ .free)
    (spare : ∀ p ∈ q.processes .ready, source ≠ .ready p) :
    Stable s { q with threads := q.threads.drain source .free } where
  processes := stable.processes
  threads := stable.threads.drain different
  directory := stable.directory
  fits member := by
    rcases ((Lanes.mem_drain different).mp member).2 with waits | ⟨rfl, _⟩
    · exact stable.fits waits
    · trivial
  image member := by
    rcases ((Lanes.mem_drain different).mp member).2 with waits | ⟨rfl, waits⟩
    · exact stable.image waits
    · exact ⟨(stable.image waits).1, .inl rfl⟩
  imageP := stable.imageP
  idle := by
    obtain ⟨idle, found, null, out⟩ := stable.idle
    exact ⟨idle, found, null, (Lanes.absent_drain different).mpr out⟩
  readyProcess p member := by
    obtain ⟨state, directory, slot, waits⟩ := stable.readyProcess p member
    exact ⟨state, directory, slot,
      (Lanes.mem_drain different).mpr ⟨Ne.symm (spare p member), .inl waits⟩⟩

/-- The waiters of a mutex can be dropped. -/
theorem clearMutex (stable : Stable s q) (m : MutexId) :
    Stable s { q with threads := q.threads.clear (.mutex m) } where
  processes := stable.processes
  threads := stable.threads.clear
  directory := stable.directory
  fits member := stable.fits (Lanes.mem_clear.mp member).2
  image member := stable.image (Lanes.mem_clear.mp member).2
  imageP := stable.imageP
  idle := by
    obtain ⟨idle, found, null, out⟩ := stable.idle
    exact ⟨idle, found, null, fun queue member => out queue (Lanes.mem_clear.mp member).2⟩
  readyProcess p member := by
    obtain ⟨state, directory, slot, waits⟩ := stable.readyProcess p member
    refine ⟨state, directory, slot, ?_⟩
    rw [Lanes.mem_clear]
    exact ⟨by simp, waits⟩

/-- A process that is not ready can change, apart from its page directory. -/
theorem setTask (stable : Stable s q) {p : TaskId} (out : p ∉ q.processes .ready)
    {g : TaskStruct → TaskStruct}
    (directory : (g (s.task p)).dirPagesBaseAddr = (s.task p).dirPagesBaseAddr ∨
      (g (s.task p)).dirPagesBaseAddr = some p) : Stable (s.setTask p g) q where
  processes := stable.processes
  threads := stable.threads
  directory p' := by
    by_cases same : p' = p
    · subst same
      rw [Kernel.task_setTask, Function.update_self]
      rcases directory with kept | own
      · rw [kept]
        exact stable.directory p'
      · exact .inr own
    · rw [Kernel.task_setTask, Function.update_of_ne same]
      exact stable.directory p'
  fits := stable.fits
  image := stable.image
  imageP := stable.imageP
  idle := stable.idle
  readyProcess p' member := by
    have different : p' ≠ p := fun equal => out (equal ▸ member)
    rw [Kernel.task_setTask, Function.update_of_ne different]
    exact stable.readyProcess p' member

/-- A process can become ready when one of its threads is. -/
theorem pushReady (stable : Stable s q) {p : TaskId} (absent : q.processes.Absent p)
    (state : (s.task p).state = .stReady)
    (directory : (s.task p).dirPagesBaseAddr = some p) (slot : ThreadSlot)
    (waits : .slot slot ∈ q.threads (.ready p)) : Stable s (q.pushProcess .ready p) where
  processes := stable.processes.push absent
  threads := stable.threads
  directory := stable.directory
  fits := stable.fits
  image := stable.image
  imageP := stable.imageP
  idle := stable.idle
  readyProcess p' member := by
    rw [Queues.processes_pushProcess, Lanes.mem_push] at member
    rcases member with member | ⟨_, rfl⟩
    · exact stable.readyProcess p' member
    · exact ⟨state, directory, slot, waits⟩

theorem pushFree (stable : Stable s q) {p : TaskId} (absent : q.processes.Absent p) :
    Stable s (q.pushProcess .free p) where
  processes := stable.processes.push absent
  threads := stable.threads
  directory := stable.directory
  fits := stable.fits
  image := stable.image
  imageP := stable.imageP
  idle := stable.idle
  readyProcess p' member := by
    rw [Queues.processes_pushProcess, Lanes.mem_push] at member
    rcases member with member | ⟨equal, _⟩
    · exact stable.readyProcess p' member
    · exact absurd equal (by simp)

theorem removeProcess (stable : Stable s q) (p : TaskId) : Stable s (q.removeProcess p) where
  processes := stable.processes.remove
  threads := stable.threads
  directory := stable.directory
  fits := stable.fits
  image := stable.image
  imageP := stable.imageP
  idle := stable.idle
  readyProcess p' member := stable.readyProcess p' (Lanes.mem_of_mem_remove member)

/-- The heads of the mutexes do not matter. -/
theorem setHead (stable : Stable s q) (head : MutexId → MutexHead) : Stable s { q with head } where
  processes := stable.processes
  threads := stable.threads
  directory := stable.directory
  fits := stable.fits
  image := stable.image
  imageP := stable.imageP
  idle := stable.idle
  readyProcess := stable.readyProcess

/-- A ready thread of a process that is in no queue gets the processor. -/
theorem resume (stable : Stable s q) {p : TaskId} {slot : ThreadSlot}
    (member : .slot slot ∈ q.threads (.ready p)) (running : (s.task p).state = .stRun)
    (absent : q.processes.Absent p) (directory : (s.task p).dirPagesBaseAddr = some p)
    {heap : Heap Node} (represents : Represents heap (q.removeThread (.slot slot)))
    (last : ∀ index, q.head index ≠ .unlisted (some slot)) :
    Consistent { s.resume p (.slot slot) with heap } (q.removeThread (.slot slot)) := by
  obtain ⟨process, _, index, saved⟩ := stable.fits member
  have gone : (q.removeThread (.slot slot)).threads.Absent (.slot slot) :=
    stable.threads.absent_remove.mpr (.inr rfl)
  have busy : s.idleTask ≠ some (.slot slot) := fun idle => stable.idle_ne idle process rfl
  have removed : Stable s (q.removeThread (.slot slot)) := by
    refine stable.removeThread fun p' ready _ _ waits => ?_
    obtain rfl : p = p' := by simpa using stable.threads.unique member waits
    exact absent .ready ready
  have changed : Stable (s.setState (.slot slot) .stRun) (q.removeThread (.slot slot)) :=
    removed.setThread gone busy _
  have resumed : Stable { s.resume p (.slot slot) with heap } (q.removeThread (.slot slot)) :=
    changed.of_eq rfl rfl rfl
  exact { resumed with
    represents := represents
    slot := ⟨slot, rfl⟩
    absent := gone
    last := fun {index _} found equal =>
      last index (found.trans (congrArg _ (congrArg some (ThreadPtr.slot.inj equal).symm)))
    running := by simp [Kernel.resume, Kernel.setState]
    process := by simpa [Kernel.resume, Kernel.setState] using process
    processRunning := running
    processAbsent := absent
    ownDirectory := directory
    saved := .inr ⟨index, by simpa [Kernel.resume, Kernel.setState] using saved⟩ }

end Stable

end Zeos
