import Zeos.Transition

/-!
# Consistency is preserved

A transition leads from a consistent state to a consistent state as long as `mutex_unlock` wakes
only threads of the process that calls it.
-/

namespace Zeos

open IntrusiveList GuardedRun

/-- `mutex_unlock` wakes no thread of another process. -/
def Kernel.WakesOwn (s : Kernel) : Action → Prop
  | .mutexUnlock n => ∀ m t, mutexIndex n = some m → 0 ≤ (s.mutexVector m).owner.toInt →
      (s.mutexVector m).locked ≠ 0 → s.listFirst (.mutex m) = .thread t →
      (s.thread t).p = (s.thread s.current).p
  | _ => True

namespace Consistent

variable {s s' : Kernel} {q q' : Queues}

theorem of_eq (consistent : Consistent s q) (current : s'.current = s.current)
    (cr3 : s'.cr3 = s.cr3) (thread : s'.thread = s.thread) (task : s'.task = s.task)
    (idleTask : s'.idleTask = s.idleTask) (heap : s'.heap = s.heap) : Consistent s' q :=
  { consistent.toStable.of_eq thread task idleTask with
    represents := by rw [heap]; exact consistent.represents
    slot := by rw [current]; exact consistent.slot
    absent := by rw [current]; exact consistent.absent
    last := by rw [current]; exact consistent.last
    running := by rw [thread, current]; exact consistent.running
    process := by rw [thread, current, cr3]; exact consistent.process
    processRunning := by rw [task, cr3]; exact consistent.processRunning
    processAbsent := by rw [cr3]; exact consistent.processAbsent
    ownDirectory := by rw [task, cr3]; exact consistent.ownDirectory
    saved := by rw [thread, current]; exact consistent.saved }

theorem enter (consistent : Consistent s q) (layout : Layout) (site : Site) :
    Consistent (s.enter layout site) q :=
  consistent.of_eq rfl rfl rfl rfl rfl rfl

/-- The running thread names the thread it joins. -/
theorem setBlockedBy (consistent : Consistent s q) (tid : Word) :
    Consistent (s.setThread s.current fun c => { c with blockedBy := tid }) q := by
  obtain ⟨slot, current⟩ := consistent.slot
  have busy : s.idleTask ≠ some (.slot slot) := fun idle =>
    consistent.idle_ne idle consistent.process current
  have stable : Stable (s.setThread s.current fun c => { c with blockedBy := tid }) q := by
    rw [current]
    exact consistent.setThread (current ▸ consistent.absent) busy _
  exact { stable with
    represents := consistent.represents
    slot := consistent.slot
    absent := consistent.absent
    last := consistent.last
    running := by simpa using consistent.running
    process := by simpa using consistent.process
    processRunning := consistent.processRunning
    processAbsent := consistent.processAbsent
    ownDirectory := consistent.ownDirectory
    saved := by simpa using consistent.saved }

theorem not_idle (consistent : Consistent s q) : s.idleTask ≠ some s.current := by
  obtain ⟨slot, current⟩ := consistent.slot
  intro idle
  rw [current] at idle
  exact consistent.idle_ne idle consistent.process current

/-- No thread in a queue is the last one of a mutex head that is still zero. -/
theorem not_last (consistent : Consistent s q) {queue : ThreadQueue} {t : ThreadSlot}
    (member : .slot t ∈ q.threads queue) (index : MutexId) :
    q.head index ≠ .unlisted (some t) :=
  fun found => (consistent.represents.unlisted found).2.2 t rfl queue member

/-- The running thread can join one of the queues in which threads wait. -/
theorem park (consistent : Consistent s q) {queue : ThreadQueue} (state : RunState)
    (stopped : state ≠ .stRun)
    (target : queue = .ready s.cr3 ∨ queue = .blocked s.cr3 ∨ ∃ m, queue = .mutex m) :
    Stable (s.suspend state) (q.pushThread queue s.current) := by
  obtain ⟨slot, current⟩ := consistent.slot
  have absent := consistent.absent
  have busy := consistent.not_idle
  have process := consistent.process
  rw [current] at absent busy process ⊢
  have changed : Stable (s.suspend state) q := by
    rw [Kernel.suspend, Kernel.saveEsp, Kernel.setState, Kernel.current_setThread, current]
    exact (consistent.setThread absent busy _).setThread absent busy _
  refine changed.pushThread queue absent busy ?_
  have parked : Parked (.slot slot) ((s.suspend state).thread (.slot slot)) := by
    refine ⟨?_, s.ebp, ?_⟩ <;> simp [Kernel.suspend, Kernel.saveEsp, Kernel.setState, current,
      stopped]
  have same : ((s.suspend state).thread (.slot slot)).p = .slot s.cr3 := by
    simpa [Kernel.suspend, Kernel.saveEsp, Kernel.setState, current] using process
  rcases target with rfl | rfl | ⟨m, rfl⟩
  · exact ⟨same, parked⟩
  · exact ⟨same, parked⟩
  · exact ⟨⟨_, same⟩, parked⟩

end Consistent

namespace Consistent

variable {s s' : Kernel} {q q' : Queues}

/-- The running thread goes on after a change that concerns others. -/
theorem keep (consistent : Consistent s q) (stable : Stable s' q')
    (represents : Represents s'.heap q') (current : s'.current = s.current)
    (cr3 : s'.cr3 = s.cr3) (thread : s'.thread s.current = s.thread s.current)
    (state : (s'.task s.cr3).state = (s.task s.cr3).state)
    (directory : (s'.task s.cr3).dirPagesBaseAddr = (s.task s.cr3).dirPagesBaseAddr)
    (absent : q'.threads.Absent s.current) (processAbsent : q'.processes.Absent s.cr3)
    (head : ∀ {index slot}, q'.head index = .unlisted (some slot) →
      q.head index = .unlisted (some slot)) : Consistent s' q' :=
  { stable with
    represents := represents
    slot := by rw [current]; exact consistent.slot
    absent := by rw [current]; exact absent
    last := by
      intro index slot found
      rw [current]
      exact consistent.last (head found)
    running := by rw [current, thread]; exact consistent.running
    process := by rw [current, thread, cr3]; exact consistent.process
    processRunning := by rw [cr3, state]; exact consistent.processRunning
    processAbsent := by rw [cr3]; exact processAbsent
    ownDirectory := by rw [cr3, directory]; exact consistent.ownDirectory
    saved := by rw [current, thread]; exact consistent.saved }

theorem ne_of_mem (consistent : Consistent s q) {queue : ThreadQueue} {t : ThreadPtr}
    (member : t ∈ q.threads queue) : s.current ≠ t :=
  fun equal => consistent.absent queue (equal ▸ member)

theorem cr3_ne_of_mem (consistent : Consistent s q) {queue : ProcessQueue} {p : TaskId}
    (member : p ∈ q.processes queue) : s.cr3 ≠ p :=
  fun equal => consistent.processAbsent queue (equal ▸ member)

/-- No ready process counts on the threads of the running one. -/
theorem spare (consistent : Consistent s q) :
    ∀ p ∈ q.processes .ready, ThreadQueue.ready s.cr3 ≠ .ready p :=
  fun _ member equal => consistent.cr3_ne_of_mem member (ThreadQueue.ready.inj equal)

/-- A free thread slot can be used for something else. -/
theorem takeThread (consistent : Consistent s q) {u : ThreadSlot}
    (free : .slot u ∈ q.threads .free) (f : ThreadStruct → ThreadStruct) :
    Stable (s.setThread (.slot u) f) (q.removeThread (.slot u)) := by
  have removed : Stable s (q.removeThread (.slot u)) := by
    refine consistent.removeThread fun p _ _ _ waits => ?_
    exact absurd (consistent.threads.unique free waits) (by simp)
  refine removed.setThread (consistent.threads.absent_remove.mpr (.inr rfl)) ?_ f
  exact consistent.busy_of_mem free

end Consistent

namespace Transition

variable {layout : Layout} {s s' : Kernel} {q q' : Queues} {action : Action} {result : Result}

/-- The running thread joins a queue of waiting threads, and a ready thread of its process goes
on. -/
theorem consistent_switch (consistent : Consistent s q) {queue : ThreadQueue} {state : RunState}
    (stopped : state ≠ .stRun)
    (target : queue = .ready s.cr3 ∨ queue = .blocked s.cr3 ∨ ∃ m, queue = .mutex m)
    {t : ThreadSlot} (next : .slot t ∈ q.threads (.ready s.cr3) ∨
      queue = .ready s.cr3 ∧ .slot t = s.current) {heap : Heap Node}
    (represents : Represents heap ((q.pushThread queue s.current).removeThread (.slot t))) :
    Consistent { (s.suspend state).resume s.cr3 (.slot t) with heap }
      ((q.pushThread queue s.current).removeThread (.slot t)) := by
  have member : .slot t ∈ (q.pushThread queue s.current).threads (.ready s.cr3) := by
    rw [Queues.threads_pushThread, Lanes.mem_push]
    exact next.imp id fun self => ⟨self.1.symm, self.2⟩
  refine (consistent.park state stopped target).resume member consistent.processRunning
    consistent.processAbsent consistent.ownDirectory represents ?_
  intro index found
  rcases next with member | ⟨_, equal⟩
  · exact consistent.not_last member index found
  · exact consistent.last found equal.symm

/-- The running process becomes ready, and the first ready process goes on. -/
theorem consistent_tickedProcess (consistent : Consistent s q) {p : TaskId} {t : ThreadSlot}
    (ready : p ∈ q.processes .ready) (member : .slot t ∈ q.threads (.ready p)) {heap : Heap Node}
    (represents : Represents heap ((((q.pushProcess .ready s.cr3).pushThread (.ready s.cr3)
      s.current).removeProcess p).removeThread (.slot t))) :
    Consistent
      { (((s.setTask s.cr3 fun c => { c with state := .stReady }).suspend .stReady).resumeProcess
          p).resume p (.slot t) with heap }
      ((((q.pushProcess .ready s.cr3).pushThread (.ready s.cr3) s.current).removeProcess
        p).removeThread (.slot t)) := by
  have different := consistent.cr3_ne_of_mem ready
  obtain ⟨slot, current⟩ := consistent.slot
  have parked := consistent.park .stReady (by simp) (.inl rfl)
  have stopped : Stable ((s.suspend .stReady).setTask s.cr3 fun c => { c with state := .stReady })
      (q.pushThread (.ready s.cr3) s.current) :=
    parked.setTask (consistent.processAbsent .ready) (.inl rfl)
  have queued := stopped.pushReady consistent.processAbsent (by simp)
    (by simpa using consistent.ownDirectory) slot (by simp [current])
  have started :=
    (queued.removeProcess p).setTask (p := p) (g := fun c => { c with state := .stRun })
    (fun inside => (queued.processes.mem_remove.mp inside).1 rfl) (.inl rfl)
  refine Stable.resume (s := _) ?_ ?_ ?_ ?_ ?_ represents ?_
  · exact started.of_eq rfl rfl rfl
  · exact Lanes.mem_push.mpr (.inl member)
  · simp
  · exact queued.processes.absent_remove.mpr (.inr rfl)
  · have directory := (consistent.readyProcess p ready).2.1
    simpa [Ne.symm different] using directory
  · exact consistent.not_last member

/-- Moving the first blocked thread to the ready ones keeps the queues stable. -/
theorem stable_wakeFirst (stable : Stable s q) (p : TaskId) (wakes : ThreadPtr → Prop)
    [DecidablePred wakes] : Stable s (q.wakeFirst p wakes) := by
  unfold Queues.wakeFirst
  split
  · exact stable
  · rename_i t rest first
    split
    · have member : t ∈ q.threads (.blocked p) := by simp [first]
      cases t with
      | image page =>
          rcases (stable.image member).2 with equal | ⟨p', equal⟩
          · exact absurd equal (by simp)
          · exact absurd equal (by simp)
      | slot slot =>
          have fits : Fits (.blocked p) _ _ := stable.fits member
          exact stable.moveThread (.ready p) member (fun _ _ => by simp) ⟨fits.1, fits.2⟩
    · exact stable

theorem mem_ready_wakeFirst {p : TaskId} {wakes : ThreadPtr → Prop} [DecidablePred wakes]
    {t : ThreadPtr} (member : t ∈ (q.wakeFirst p wakes).threads (.ready p)) :
    t ∈ q.threads (.ready p) ∨ t ∈ q.threads (.blocked p) := by
  unfold Queues.wakeFirst at member
  split at member
  · exact .inl member
  · rename_i first rest blocked
    split at member
    · rw [Queues.threads_moveThread, Lanes.mem_push] at member
      rcases member with member | ⟨_, rfl⟩
      · exact .inl (Lanes.mem_of_mem_remove member)
      · exact .inr (by simp [blocked])
    · exact .inl member

theorem consistent_ended (consistent : Consistent s q) {t : ThreadSlot}
    (member : .slot t ∈
      ((q.pushThread .free s.current).wakeFirst s.cr3 s.Joins).threads (.ready s.cr3))
    (not_last : ∀ index, q.head index ≠ .unlisted (some t)) {heap : Heap Node}
    (represents : Represents heap
      (((q.pushThread .free s.current).wakeFirst s.cr3 s.Joins).removeThread (.slot t))) :
    Consistent
      { ((s.readyJoiners (q.threads (.blocked s.cr3))).saveEsp).resume s.cr3 (.slot t) with heap }
      (((q.pushThread .free s.current).wakeFirst s.cr3 s.Joins).removeThread (.slot t)) := by
  obtain ⟨slot, current⟩ := consistent.slot
  have absent := consistent.absent
  have busy := consistent.not_idle
  have marked : Stable (s.readyJoiners (q.threads (.blocked s.cr3))) q := by
    refine consistent.rethread rfl rfl ?_ ?_ ?_
    · intro t
      simp only [Kernel.readyJoiners]
      split <;> rfl
    · intro t
      simp only [Kernel.readyJoiners]
      split <;> rfl
    · intro t
      simp only [Kernel.readyJoiners]
      split
      · simp
      · exact id
  have freed : Stable ((s.readyJoiners (q.threads (.blocked s.cr3))).saveEsp)
      (q.pushThread .free s.current) := by
    rw [current] at absent busy ⊢
    have saved := marked.setThread absent busy
      fun c => { c with registerEsp := .on (.slot slot) s.ebp }
    have kept : Stable ((s.readyJoiners (q.threads (.blocked s.cr3))).saveEsp) q :=
      saved.of_eq (by simp [Kernel.saveEsp, Kernel.readyJoiners, current]) rfl rfl
    exact kept.pushThread .free absent busy trivial
  have woken := stable_wakeFirst freed s.cr3 s.Joins
  refine woken.resume member consistent.processRunning ?_ consistent.ownDirectory represents ?_
  · unfold Queues.wakeFirst
    split
    · exact consistent.processAbsent
    · split <;> exact consistent.processAbsent
  · intro index found
    refine not_last index ?_
    rw [← found]
    unfold Queues.wakeFirst
    split
    · rfl
    · split <;> rfl

theorem consistent_exited (consistent : Consistent s q) {p : TaskId} {t : ThreadSlot}
    (ready : p ∈ q.processes .ready) (member : .slot t ∈ q.threads (.ready p))
    {heap : Heap Node} {mem : Memory}
    (represents : Represents heap (((((q.pushProcess .free s.cr3).drainThreads
      (.ready s.cr3)).drainThreads (.blocked s.cr3)).removeProcess p).removeThread (.slot t))) :
    Consistent
      { ((((s.setTask s.cr3 fun c => { c with pid := -1 }).clearTids
            (q.threads (.ready s.cr3) ++ q.threads (.blocked s.cr3))).saveEsp).resumeProcess
            p).resume p (.slot t) with
        heap
        mem }
      (((((q.pushProcess .free s.cr3).drainThreads (.ready s.cr3)).drainThreads
        (.blocked s.cr3)).removeProcess p).removeThread (.slot t)) := by
  have different := consistent.cr3_ne_of_mem ready
  obtain ⟨slot, current⟩ := consistent.slot
  have absent := consistent.absent
  have busy := consistent.not_idle
  have ended := consistent.setTask (g := fun c => { c with pid := -1 })
    (consistent.processAbsent .ready) (.inl rfl)
  have cleared : Stable ((s.setTask s.cr3 fun c => { c with pid := -1 }).clearTids
      (q.threads (.ready s.cr3) ++ q.threads (.blocked s.cr3))) q := by
    refine ended.rethread rfl rfl ?_ ?_ ?_
    · intro t
      simp only [Kernel.clearTids]
      split <;> rfl
    · intro t
      simp only [Kernel.clearTids]
      split <;> rfl
    · intro t
      simp only [Kernel.clearTids]
      split <;> exact id
  have saved : Stable ((s.setTask s.cr3 fun c => { c with pid := -1 }).clearTids
      (q.threads (.ready s.cr3) ++ q.threads (.blocked s.cr3))).saveEsp q := by
    rw [current] at absent busy
    refine (cleared.setThread absent busy
      fun c => { c with registerEsp := .on (.slot slot) s.ebp }).of_eq ?_ rfl rfl
    simp [Kernel.saveEsp, Kernel.clearTids, current]
  have freed := saved.pushFree consistent.processAbsent
  have spare : ∀ p ∈ (q.pushProcess .free s.cr3).processes .ready,
      ThreadQueue.ready s.cr3 ≠ .ready p := by
    intro p' ready'
    exact consistent.spare p' (by simpa using ready')
  have drained : Stable _ (((q.pushProcess .free s.cr3).drainThreads (.ready s.cr3)).drainThreads
      (.blocked s.cr3)) :=
    (freed.drainThreads (.ready s.cr3) (by simp) spare).drainThreads
      (.blocked s.cr3) (by simp) (by simp)
  have started := (drained.removeProcess p).setTask (p := p)
    (g := fun c => { c with state := .stRun })
    (fun inside => (drained.processes.mem_remove.mp inside).1 rfl) (.inl rfl)
  have waits : .slot t ∈ ((q.threads.drain (.ready s.cr3) .free).drain (.blocked s.cr3) .free)
      (.ready p) := by
    rw [Lanes.mem_drain (by simp), Lanes.mem_drain (by simp)]
    exact ⟨by simp, .inl ⟨by simpa using Ne.symm different, .inl member⟩⟩
  have started' : Stable ((((s.setTask s.cr3 fun c => { c with pid := -1 }).clearTids
      (q.threads (.ready s.cr3) ++ q.threads (.blocked s.cr3))).saveEsp).resumeProcess p) _ :=
    started.of_eq rfl rfl rfl
  have result := started'.resume waits (by simp)
    (drained.processes.absent_remove.mpr (.inr rfl)) ?_ represents (consistent.not_last member)
  · exact result.of_eq rfl rfl rfl rfl rfl rfl
  · have directory := (consistent.readyProcess p ready).2.1
    simpa [Kernel.saveEsp, Kernel.clearTids, Ne.symm different] using directory

theorem consistent_forked (consistent : Consistent s q) {child : TaskId} {u : ThreadSlot}
    (freeProcess : child ∈ q.processes .free) (freeThread : .slot u ∈ q.threads .free)
    (stable' : s'.thread = Function.update s.thread (.slot u) (s.childThread child (.slot u)))
    (task : s'.task = Function.update s.task child (s.childTask child))
    (idleTask : s'.idleTask = s.idleTask) (current : s'.current = s.current)
    (cr3 : s'.cr3 = s.cr3)
    (represents : Represents s'.heap ((((q.removeProcess child).removeThread (.slot u)).pushProcess
      .ready child).pushThread (.ready child) (.slot u))) :
    Consistent s' ((((q.removeProcess child).removeThread (.slot u)).pushProcess
      .ready child).pushThread (.ready child) (.slot u)) := by
  have different := consistent.cr3_ne_of_mem freeProcess
  have other := consistent.ne_of_mem freeThread
  have gone : (q.processes.remove child).Absent child :=
    consistent.processes.absent_remove.mpr (.inr rfl)
  have loose : (q.threads.remove (.slot u)).Absent (.slot u) :=
    consistent.threads.absent_remove.mpr (.inr rfl)
  have taken := ((consistent.takeThread freeThread fun _ =>
    s.childThread child (.slot u)).removeProcess child).setTask (p := child)
    (g := fun _ => s.childTask child) (gone .ready) (.inr rfl)
  have fits : Fits (.ready child) (.slot u) (s.childThread child (.slot u)) :=
    ⟨rfl, by simp [Kernel.childThread], _, rfl⟩
  have waiting := taken.pushThread (.ready child) loose (consistent.busy_of_mem freeThread)
    (by simpa using fits)
  have queued := waiting.pushReady (p := child) gone (by simp [Kernel.childTask])
    (by simp [Kernel.childTask]) u (by simp)
  have stable : Stable s' ((((q.removeProcess child).removeThread (.slot u)).pushProcess
      .ready child).pushThread (.ready child) (.slot u)) :=
    queued.of_eq stable' task idleTask
  refine consistent.keep stable represents current cr3 ?_ ?_ ?_ ?_ ?_ id
  · rw [stable', Function.update_of_ne other]
  · rw [task, Function.update_of_ne different]
  · rw [task, Function.update_of_ne different]
  · rw [Queues.threads_pushThread, Lanes.absent_push]
    exact ⟨consistent.threads.absent_remove.mpr (.inl consistent.absent), other⟩
  · show (Lanes.push (q.processes.remove child) .ready child).Absent s.cr3
    rw [Lanes.absent_push]
    exact ⟨consistent.processes.absent_remove.mpr (.inl consistent.processAbsent), different⟩

theorem consistent_forkFailed (consistent : Consistent s q) {child : TaskId} {u : ThreadSlot}
    (freeProcess : child ∈ q.processes .free) (freeThread : .slot u ∈ q.threads .free)
    (thread : s'.thread = Function.update s.thread (.slot u) (s.thread s.current))
    (task : s'.task = (s.allocateDIR child).task)
    (idleTask : s'.idleTask = s.idleTask) (current : s'.current = s.current)
    (cr3 : s'.cr3 = s.cr3)
    (represents : Represents s'.heap (((q.removeProcess child).removeThread (.slot u)).pushProcess
      .free child)) :
    Consistent s' (((q.removeProcess child).removeThread (.slot u)).pushProcess .free child) := by
  have different := consistent.cr3_ne_of_mem freeProcess
  have other := consistent.ne_of_mem freeThread
  have gone : (q.processes.remove child).Absent child :=
    consistent.processes.absent_remove.mpr (.inr rfl)
  have taken := ((consistent.takeThread freeThread fun _ =>
    s.thread s.current).removeProcess child).setTask (p := child)
    (g := fun c => { c with dirPagesBaseAddr := some child }) (gone .ready) (.inr rfl)
  have stable : Stable s' (((q.removeProcess child).removeThread (.slot u)).pushProcess
      .free child) := (taken.pushFree gone).of_eq thread task idleTask
  refine consistent.keep stable represents current cr3 ?_ ?_ ?_ ?_ ?_ id
  · rw [thread, Function.update_of_ne other]
  · rw [task, Kernel.allocateDIR, Kernel.task_setTask, Function.update_of_ne different]
  · rw [task, Kernel.allocateDIR, Kernel.task_setTask, Function.update_of_ne different]
  · exact consistent.threads.absent_remove.mpr (.inl consistent.absent)
  · show (Lanes.push (q.processes.remove child) .free child).Absent s.cr3
    rw [Lanes.absent_push]
    exact ⟨consistent.processes.absent_remove.mpr (.inl consistent.processAbsent), different⟩

theorem consistent_created (consistent : Consistent s q) {u : ThreadSlot}
    (freeThread : .slot u ∈ q.threads .free)
    (thread : s'.thread = Function.update s.thread (.slot u) (s.newThread (.slot u)))
    (task : s'.task = (s.setTask s.cr3 fun c => { c with nthread := c.nthread + 1 }).task)
    (idleTask : s'.idleTask = s.idleTask) (current : s'.current = s.current)
    (cr3 : s'.cr3 = s.cr3)
    (represents : Represents s'.heap (q.moveThread (.slot u) (.ready s.cr3))) :
    Consistent s' (q.moveThread (.slot u) (.ready s.cr3)) := by
  have other := consistent.ne_of_mem freeThread
  have loose : (q.threads.remove (.slot u)).Absent (.slot u) :=
    consistent.threads.absent_remove.mpr (.inr rfl)
  have taken := (consistent.takeThread freeThread fun _ => s.newThread (.slot u)).setTask
    (p := s.cr3) (g := fun c => { c with nthread := c.nthread + 1 })
    (consistent.processAbsent .ready) (.inl rfl)
  have fits : Fits (.ready s.cr3) (.slot u) (s.newThread (.slot u)) :=
    ⟨consistent.process, by simp [Kernel.newThread], _, rfl⟩
  have waiting := taken.pushThread (.ready s.cr3) loose (consistent.busy_of_mem freeThread)
    (by simpa using fits)
  refine consistent.keep (waiting.of_eq thread task idleTask) represents current cr3 ?_ ?_ ?_ ?_
    consistent.processAbsent id
  · rw [thread, Function.update_of_ne other]
  · simp [task]
  · simp [task]
  · rw [Queues.moveThread, Queues.threads_pushThread, Lanes.absent_push]
    exact ⟨consistent.threads.absent_remove.mpr (.inl consistent.absent), other⟩

theorem consistent_lost (consistent : Consistent s q) {m : MutexId} {c t : ThreadSlot}
    (current : s.current = .slot c) (member : .slot t ∈ q.threads (.ready s.cr3))
    {heap : Heap Node}
    (represents : Represents heap ({ q with
      head := Function.update q.head m (.unlisted (some c)) }.removeThread (.slot t))) :
    Consistent { (s.suspend .stBlocked).resume s.cr3 (.slot t) with heap }
      ({ q with head := Function.update q.head m (.unlisted (some c)) }.removeThread
        (.slot t)) := by
  have absent := consistent.absent
  have busy := consistent.not_idle
  rw [current] at absent busy
  have stopped : Stable (s.suspend .stBlocked) q := by
    rw [Kernel.suspend, Kernel.saveEsp, Kernel.setState, Kernel.current_setThread, current]
    exact (consistent.setThread absent busy _).setThread absent busy _
  have headed := stopped.setHead (Function.update q.head m (.unlisted (some c)))
  refine headed.resume member consistent.processRunning
    consistent.processAbsent consistent.ownDirectory represents ?_
  intro index found
  by_cases same : index = m
  · subst same
    obtain rfl : c = t := by simpa using found
    exact absent _ member
  · exact consistent.not_last member index (by simpa [same] using found)

/-- The threads that leave a mutex for the ready ones of their processes. -/
theorem stable_moveHome (stable : Stable s q) {m : MutexId} (home : ThreadPtr → TaskId)
    {waiters : List ThreadPtr} (nodup : waiters.Nodup)
    (waiting : ∀ t ∈ waiters, t ∈ q.threads (.mutex m))
    (own : ∀ t ∈ waiters, (s.thread t).p = .slot (home t)) :
    Stable s (q.moveHome home waiters) := by
  induction waiters generalizing q with
  | nil => exact stable
  | cons t rest induction =>
      rw [List.nodup_cons] at nodup
      have member := waiting t (by simp)
      cases t with
      | image page => exact absurd (own _ List.mem_cons_self) (by simp [stable.imageP])
      | slot slot =>
          have fits : Fits (.mutex m) _ _ := stable.fits member
          have moved := stable.moveThread (.ready (home (.slot slot))) member (fun _ _ => by simp)
            ⟨own _ (by simp), fits.2⟩
          refine induction moved nodup.2 ?_ fun t inside => own t (by simp [inside])
          intro t inside
          rw [Queues.threads_moveThread, Lanes.mem_push, stable.threads.mem_remove]
          refine .inl ⟨?_, ?_⟩
          · rintro rfl
            exact nodup.1 inside
          · exact waiting t (by simp [inside])

theorem mem_moveHome {q : Queues} {home : ThreadPtr → TaskId} {waiters : List ThreadPtr}
    (separate : q.threads.Separate) {t : ThreadPtr} {queue : ThreadQueue} :
    t ∈ (q.moveHome home waiters).threads queue ↔
      if t ∈ waiters then queue = .ready (home t) else t ∈ q.threads queue := by
  induction waiters generalizing q with
  | nil => simp [Queues.moveHome]
  | cons first rest induction =>
      have moved : ((q.moveThread first (.ready (home first))).threads).Separate :=
        separate.remove.push (separate.absent_remove.mpr (.inr rfl))
      rw [Queues.moveHome, List.foldl_cons, ← Queues.moveHome, induction moved]
      by_cases inside : t ∈ rest
      · simp [inside]
      · by_cases same : t = first
        · subst same
          simp [inside, Queues.moveThread, separate.mem_remove]
        · simp [inside, same, Queues.moveThread, separate.mem_remove]

theorem consistent_destroyed (consistent : Consistent s q) {m : MutexId}
    (thread : s'.thread = (s.releaseStates (q.threads (.mutex m))).thread)
    (task : s'.task = s.task) (idleTask : s'.idleTask = s.idleTask)
    (current : s'.current = s.current) (cr3 : s'.cr3 = s.cr3)
    (represents : Represents s'.heap (q.moveHome s.home (q.threads (.mutex m)))) :
    Consistent s' (q.moveHome s.home (q.threads (.mutex m))) := by
  have own : ∀ t ∈ q.threads (.mutex m), (s.thread t).p = .slot (s.home t) := by
    intro t member
    cases t with
    | image page =>
        rcases (consistent.image member).2 with equal | ⟨_, equal⟩
        · exact absurd equal (by simp)
        · exact absurd equal (by simp)
    | slot slot =>
        obtain ⟨⟨p, process⟩, _⟩ := consistent.fits member
        simp [Kernel.home, process]
  have released : Stable s' q := by
    refine consistent.rethread task idleTask ?_ ?_ ?_
    · intro t
      rw [thread, Kernel.releaseStates]
      simp only
      split <;> rfl
    · intro t
      rw [thread, Kernel.releaseStates]
      simp only
      split <;> rfl
    · intro t
      rw [thread, Kernel.releaseStates]
      simp only
      split
      · unfold Kernel.releasedState
        split <;> simp
      · exact id
  have moved := stable_moveHome released s.home (consistent.threads.nodup (.mutex m))
    (fun _ => id) (by
      intro t member
      rw [thread, Kernel.releaseStates]
      simp only [if_pos member]
      exact own t member)
  have waits : s.current ∉ q.threads (.mutex m) := consistent.absent _
  refine consistent.keep moved represents current cr3 ?_ (by rw [task]) (by rw [task]) ?_ ?_ ?_
  · rw [thread, Kernel.releaseStates]
    simp only [if_neg waits]
  · intro queue member
    rw [mem_moveHome consistent.threads, if_neg waits] at member
    exact consistent.absent queue member
  · rw [Queues.processes_moveHome]
    exact consistent.processAbsent
  · rw [Queues.head_moveHome]
    exact id

/-- The page of a mutex's list head becomes a ready thread of the process. -/
theorem consistent_unlockedNobody (consistent : Consistent s q) {page : Fin 2}
    (thread : s'.thread = (s.setState (.image page) .stReady).thread)
    (task : s'.task = s.task) (idleTask : s'.idleTask = s.idleTask)
    (current : s'.current = s.current) (cr3 : s'.cr3 = s.cr3)
    (represents : Represents s'.heap (q.moveThread (.image page) (.ready s.cr3))) :
    Consistent s' (q.moveThread (.image page) (.ready s.cr3)) := by
  obtain ⟨slot, running⟩ := consistent.slot
  have marked : Stable s' q := by
    refine consistent.rethread task idleTask ?_ ?_ ?_
    · intro t
      rw [thread, Kernel.thread_setState, Function.update_apply]
      split
      · rename_i same
        rw [same]
      · rfl
    · intro t
      rw [thread, Kernel.thread_setState, Function.update_apply]
      split
      · rename_i same
        rw [same]
      · rfl
    · intro t
      rw [thread, Kernel.thread_setState, Function.update_apply]
      split
      · simp
      · exact id
  have removed := marked.removeThread (t := .image page) (by simp)
  have moved : Stable s' (q.moveThread (.image page) (.ready s.cr3)) := by
    refine removed.pushImage (consistent.threads.absent_remove.mpr (.inr rfl)) ?_ (.inr ⟨_, rfl⟩)
    rw [thread, Kernel.thread_setState, Function.update_self]
    simp
  refine consistent.keep moved represents current cr3 ?_ (by rw [task]) (by rw [task]) ?_
    consistent.processAbsent id
  · rw [thread, Kernel.thread_setState, running, Function.update_of_ne (by simp)]
  · rw [Queues.threads_moveThread, Lanes.absent_push]
    exact ⟨consistent.threads.absent_remove.mpr (.inl consistent.absent), by simp [running]⟩

/-- The first waiter of a mutex becomes a ready thread of its process, which runs. -/
theorem consistent_unlocked (consistent : Consistent s q) {m : MutexId} {t : ThreadSlot}
    (waits : .slot t ∈ q.threads (.mutex m)) (own : (s.thread (.slot t)).p = .slot s.cr3)
    (thread : s'.thread = (s.setState (.slot t) .stReady).thread)
    (task : s'.task = s.task) (idleTask : s'.idleTask = s.idleTask)
    (current : s'.current = s.current) (cr3 : s'.cr3 = s.cr3)
    (represents : Represents s'.heap (q.moveThread (.slot t) (.ready s.cr3))) :
    Consistent s' (q.moveThread (.slot t) (.ready s.cr3)) := by
  have other := consistent.ne_of_mem waits
  have removed : Stable s (q.removeThread (.slot t)) := by
    refine consistent.removeThread fun p _ _ _ ready => ?_
    exact absurd (consistent.threads.unique waits ready) (by simp)
  have loose : (q.threads.remove (.slot t)).Absent (.slot t) :=
    consistent.threads.absent_remove.mpr (.inr rfl)
  have marked := removed.setThread loose (consistent.busy_of_mem waits)
    fun c => { c with state := .stReady }
  obtain ⟨_, _, index, saved⟩ := consistent.fits waits
  have fits : Fits (.ready s.cr3) (.slot t) { s.thread (.slot t) with state := .stReady } :=
    ⟨own, by simp, index, saved⟩
  have moved := marked.pushThread (.ready s.cr3) loose (consistent.busy_of_mem waits)
    (by simpa using fits)
  refine consistent.keep (moved.of_eq thread task idleTask) represents current cr3 ?_
    (by rw [task]) (by rw [task]) ?_ consistent.processAbsent id
  · rw [thread, Kernel.thread_setState, Function.update_of_ne other]
  · rw [Queues.threads_moveThread, Lanes.absent_push]
    exact ⟨consistent.threads.absent_remove.mpr (.inl consistent.absent), other⟩

/-- A transition that wakes only threads of the running process leads to a consistent state. -/
theorem consistent (transition : Transition layout s q action s' q' result)
    (consistent : Consistent s q) (own : s.WakesOwn action) (represents : Represents s'.heap q') :
    Consistent s' q' := by
  cases transition with
  | refused => exact consistent.of_eq rfl rfl rfl rfl rfl rfl
  | stored | others => exact consistent.of_eq rfl rfl rfl rfl rfl rfl
  | ticked => exact consistent.of_eq rfl rfl rfl rfl rfl rfl
  | tickedThread noProcess expired first =>
      refine consistent_switch (s := (s.enter layout .clock).updateSchedDataRr)
        (consistent.of_eq rfl rfl rfl rfl rfl rfl) (by simp) (.inl rfl) (.inl ?_) represents
      simp [first]
  | tickedProcess expired firstProcess first =>
      exact consistent_tickedProcess (s := (s.enter layout .clock).updateSchedDataRr)
        (consistent.of_eq rfl rfl rfl rfl rfl rfl) (by simp [firstProcess]) (by simp [first])
        represents
  | forked freeProcess freeThread =>
      exact consistent_forked consistent (by simp [freeProcess]) (by simp [freeThread]) rfl rfl rfl
        rfl rfl represents
  | forkFailed freeProcess freeThread =>
      exact consistent_forkFailed consistent (by simp [freeProcess]) (by simp [freeThread]) rfl rfl
        rfl rfl rfl represents
  | created freeThread =>
      exact consistent_created consistent (by simp [freeThread]) rfl rfl rfl rfl rfl represents
  | @joined id tid t rest heap several loaded first =>
      have named := (consistent.enter layout .pthreadJoin).setBlockedBy tid
      refine consistent_switch named (by simp) (.inr (.inl rfl)) (.inl ?_) represents
      simp [first]
  | @ended t rest heap first =>
      have member : .slot t ∈ ((q.pushThread .free s.current).wakeFirst s.cr3 s.Joins).threads
          (.ready s.cr3) := by
        rw [first]
        exact List.mem_cons_self
      have before : .slot t ∈ q.threads (.ready s.cr3) ∨ .slot t ∈ q.threads (.blocked s.cr3) := by
        simpa using mem_ready_wakeFirst member
      refine consistent_ended (s := s.enter layout .pthreadExit)
        (consistent.enter layout .pthreadExit) member ?_ represents
      rcases before with ready | blocked
      · exact consistent.not_last ready
      · exact consistent.not_last blocked
  | exited firstProcess first =>
      exact consistent_exited (s := s.enter layout .exit) (consistent.enter layout .exit)
        (by simp [firstProcess]) (by simp [first]) represents
  | @yielded t rest heap first =>
      refine consistent_switch (s := s.enter layout .yield) (consistent.enter layout .yield)
        (by simp) (.inl rfl) ?_ represents
      have member : .slot t ∈ q.threads (.ready s.cr3) ++ [s.current] := by simp [first]
      simpa using member
  | @initialised n m heap accepted unowned =>
      have stable : Stable _ _ := (consistent.clearMutex m).setHead
        (Function.update q.head m .listed)
      refine consistent.keep (stable.of_eq rfl rfl rfl) represents rfl rfl rfl rfl rfl ?_
        consistent.processAbsent ?_
      · intro queue member
        exact consistent.absent queue (Lanes.mem_clear.mp member).2
      · intro index slot found
        by_cases same : index = m
        · subst same
          exact absurd found (by simp)
        · simpa [same] using found
  | locked accepted usable unlocked => exact consistent.of_eq rfl rfl rfl rfl rfl rfl
  | waited accepted usable taken listed first =>
      refine consistent_switch (s := s.enter layout .mutexLock)
        (consistent.enter layout .mutexLock) (by simp) (.inr (.inr ⟨_, rfl⟩)) (.inl ?_) represents
      simp [first]
  | lost accepted usable taken unlisted current first =>
      exact consistent_lost (s := s.enter layout .mutexLock)
        (consistent.enter layout .mutexLock) current (by simp [first]) represents
  | unlockedFree => exact consistent
  | @unlocked n m t rest heap accepted usable taken first =>
      have member : .slot t ∈ q.threads (.mutex m) := by simp [first]
      refine consistent_unlocked consistent member ?_ rfl rfl rfl rfl rfl represents
      have listed := consistent.represents.listed_of_mem member
      rw [← consistent.process]
      refine own _ _ accepted usable taken ?_
      simpa [first] using consistent.represents.first_threads _ listed
  | unlockedNobody accepted usable taken listed nobody =>
      exact consistent_unlockedNobody consistent rfl rfl rfl rfl rfl represents
  | destroyed accepted owned owner listed =>
      exact consistent_destroyed consistent rfl rfl rfl rfl rfl represents

end Transition

end Zeos
