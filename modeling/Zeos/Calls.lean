import Zeos.Moves

/-!
# Calls that do not switch

What the other calls do to the lists of threads in any run, and so any step up to its switch.
-/

namespace Zeos

open IntrusiveList GuardedRun Kernel

variable {layout : Layout} {s s' s₁ : Kernel} {q q' : Queues} {action : Action} {result : Result}
  {t : ThreadPtr} {u : ThreadSlot} {others : List ThreadPtr}

namespace Orderly

/-! ## New threads -/

/-- A thread that is free has been the last one in no mutex. -/
theorem not_last (threads : Threads s.heap s.heap q) {queue : ThreadQueue}
    (member : .slot u ∈ q.threads queue) (m : MutexId) (slot : ThreadSlot)
    (unlisted : q.head m = .unlisted (some slot)) : ThreadPtr.slot u ≠ .slot slot := by
  rintro same
  rw [ThreadPtr.slot.inj same] at member
  exact (threads.unlisted unlisted).2.2 slot rfl queue member

/-- From the allocation of the page directory on. -/
theorem arrives_forkChild (orderly : Orderly s q) {stack : Nat → Word} {child : TaskId}
    {rest heap : Heap Node} {stack' : ThreadPtr → Nat → Word}
    (free : q.threads .free = .slot u :: others)
    (threads : Threads rest heap (q.removeThread (.slot u)))
    (copied : s₁ = { (s.setThread (.slot u)
      fun _ => s.thread s.current).allocateDIR child with heap, stack := stack' }) :
    Ensures (fun next => Arrives layout s q (.fork stack) (.inl next)) (do
      let processPT ← s₁.getPT child
      match s₁.mem.allocDataPages processPT numPagData 0 with
      | (false, mem) =>
          let s ← { s₁ with mem }.listAddTail (.task child) .freequeue
          return (s, .returns (-EAGAIN))
      | (true, mem) =>
          let s ← { s₁ with mem }.forkPages processPT
          let s := (s.forkTask child).forkThread layout child (.slot u)
          let s ← s.listAddTail (.task child) .readyqueue
          let s ← s.listAddTail (.thread (.slot u)) (.ready child)
          return (s, .returns (s.task child).pid.toInt)) := by
  have member : .slot u ∈ q.threads .free := by simp [free]
  have other : s.current ≠ .slot u := (orderly.ne_of_mem member).symm
  refine Ensures.skip fun row => ?_
  have heap_eq : s₁.heap = heap := copied ▸ rfl
  cases allocated : s₁.mem.allocDataPages row numPagData 0 with
  | mk found mem =>
      cases found with
      | false =>
          refine (Threads.addProcess (s := { s₁ with mem }) (heap_eq ▸ threads) child .free).bind ?_
          rintro _ ⟨heap', rfl, threads'⟩
          subst copied
          exact .ok ⟨_, .forkFailed free, threads'⟩
      | true =>
          have process : (s₁.thread s₁.current).p = .slot s₁.cr3 := by
            simpa [copied, allocateDIR, other] using orderly.process
          have directory : (s₁.task s₁.cr3).dirPagesBaseAddr = some s₁.cr3 := by
            have own := orderly.owner orderly.process
            simp only [copied, allocateDIR, setTask, setThread, Function.update_apply]
            split_ifs with same
            · rw [same]
            · exact own
          refine Ensures.bind
            (fun s₂ => Consistent.forkPages_eq (s := { s₁ with mem }) process directory) ?_
          rintro _ ⟨mem', rfl⟩
          have shared : { { s₁ with mem } with mem := mem' } = { (s.setThread (.slot u)
              fun _ => s.thread s.current).allocateDIR child with
                heap, stack := stack', mem := mem' } := by rw [copied]
          obtain ⟨stack₂, made⟩ := Consistent.forkThread_eq layout shared
          rw [made]
          refine (Threads.addProcess (s := { (s.setThread (.slot u) fun _ =>
            s.childThread child (.slot u)).setTask child fun _ => s.childTask child with
              globalPID := s.globalPID + 1, heap, stack := stack₂, mem := mem' }) threads child
              .ready).bind ?_
          rintro _ ⟨heap₁, rfl, threads₁⟩
          refine (Threads.push (s := { (s.setThread (.slot u) fun _ =>
            s.childThread child (.slot u)).setTask child fun _ => s.childTask child with
              globalPID := s.globalPID + 1, heap := heap₁, stack := stack₂, mem := mem' })
            threads₁ (.ready child) trivial (orderly.threads.separate.absent_remove.mpr (.inr rfl))
              fun m slot => not_last orderly.threads member m slot).bind ?_
          rintro _ ⟨heap₂, rfl, threads₂⟩
          exact .ok ⟨_, .forked free (by simp [childTask]) rfl, threads₂.rebase⟩

theorem arrives_fork (orderly : Orderly s q) (stack : Nat → Word) :
    Ensures (fun next => Arrives layout s q (.fork stack) (.inl next))
      (s.perform layout (.fork stack)) := by
  rw [perform, sysFork]
  have threads : Threads s.heap (s.enterWith stack).heap q := orderly.threads
  have empty_eq := threads.empty_threads .free trivial
  have node := threads.first_threads .free trivial
  split
  · rename_i noProcess
    exact .ok ⟨q, .refused (by decide) fun _ _ => .inl noProcess, orderly.threads⟩
  · split
    · rename_i noThread
      exact .ok ⟨q, .refused (by decide) fun _ _ => .inr noThread, orderly.threads⟩
    · rename_i nonempty
      dsimp only
      cases found : listHeadToTaskStruct ((s.enterWith stack).listFirst .freequeue) with
      | error fault => exact Ensures.skip fun _ => Ensures.skip fun _ => .error _
      | ok child =>
          have first : (s.enterWith stack).listFirst .freequeue = .task child :=
            threads.task_of_first .free found
          rw [first]
          cases free : q.threads .free with
          | nil => exact absurd (empty_eq.trans (by rw [free]; rfl)) nonempty
          | cons t others =>
              rw [free] at node
              rw [show (s.enterWith stack).listFirst .freeThreadqueue = .thread t from node]
              refine (threads.removeProcess child).bind ?_
              rintro _ ⟨heap, rfl, removed⟩
              refine (Threads.listDel (s := { s.enterWith stack with heap }) removed
                (show t ∈ q.threads .free by simp [free])).bind ?_
              rintro _ ⟨heap', rfl, taken⟩
              simp only [ok_bind, listHeadToThreadStruct]
              cases t with
              | image page => exact .error _
              | slot u =>
                  have copied := (taken u rfl).copy
                    (orderly.threads.separate.absent_remove.mpr (.inr rfl)) s.current
                  exact orderly.arrives_forkChild free copied rfl

/-- From the first words on the stack of the new thread on. -/
theorem arrives_newThread (orderly : Orderly s q) {stack : Nat → Word} {id startRoutine : Word}
    {rest heap : Heap Node} {stack' : ThreadPtr → Nat → Word}
    (free : q.threads .free = .slot u :: others)
    (threads : Threads rest heap (q.removeThread (.slot u)))
    (copied : s₁ = { s.setThread (.slot u) (fun _ => s.thread s.current) with
      heap, stack := stack' }) :
    Ensures (fun next => Arrives layout s q (.pthreadCreate stack id startRoutine) (.inl next)) (do
      let s := s₁.createContext (.slot u) startRoutine
      let p ← s.currentP
      let processPT ← s.getPT p
      let s ← s.createStack (.slot u) processPT
      let s := s.createThread (.slot u) p
      let mem ← s.mem.storeWord s.cr3 id (s.thread (.slot u)).tid
      let s ← { s with mem }.listAddTail (.thread (.slot u)) (.ready p)
      return (s, .returns 0)) := by
  have member : .slot u ∈ q.threads .free := by simp [free]
  have other : s.current ≠ .slot u := (orderly.ne_of_mem member).symm
  dsimp only
  rw [currentP_eq (p := s.cr3) (by
    simpa [copied, createContext, setStack, other] using orderly.process), ok_bind]
  refine Ensures.skip fun row => ?_
  refine Ensures.bind (fun s₂ => Consistent.createStack_eq) ?_
  rintro s₂ ⟨mem, stack₂, created⟩
  rw [copied] at created
  rw [Consistent.createThread_eq other orderly.process created]
  refine Ensures.skip fun mem' => ?_
  refine (Threads.push (s := { (s.setThread (.slot u) fun _ => s.newThread (.slot u)).setTask s.cr3
    fun c => { c with nthread := c.nthread + 1 } with heap, mem := mem', stack := stack₂ })
      threads (.ready s.cr3) trivial (orderly.threads.separate.absent_remove.mpr (.inr rfl))
        fun m slot => not_last orderly.threads member m slot).bind ?_
  rintro _ ⟨heap', rfl, pushed⟩
  exact .ok ⟨_, .created free, pushed.rebase⟩

theorem arrives_create (orderly : Orderly s q) (stack : Nat → Word) (id startRoutine : Word) :
    Ensures (fun next => Arrives layout s q (.pthreadCreate stack id startRoutine) (.inl next))
      (s.perform layout (.pthreadCreate stack id startRoutine)) := by
  rw [perform, sysPthreadCreate]
  have threads : Threads s.heap (s.enterWith stack).heap q := orderly.threads
  have empty_eq := threads.empty_threads .free trivial
  have node := threads.first_threads .free trivial
  split
  · exact .ok ⟨q, .refused (by decide) (by simp), orderly.threads⟩
  · split
    · exact .ok ⟨q, .refused (by decide) (by simp), orderly.threads⟩
    · rename_i nonempty
      dsimp only
      cases free : q.threads .free with
      | nil => exact absurd (empty_eq.trans (by rw [free]; rfl)) nonempty
      | cons t others =>
          rw [free] at node
          rw [show (s.enterWith stack).listFirst .freeThreadqueue = .thread t from node,
            listHeadToThreadStruct, ok_bind]
          refine (threads.listDel (show t ∈ q.threads .free by simp [free])).bind ?_
          rintro _ ⟨heap, rfl, taken⟩
          cases t with
          | image page => exact .error _
          | slot u =>
              have copied := (taken u rfl).copy
                (orderly.threads.separate.absent_remove.mpr (.inr rfl)) s.current
              exact orderly.arrives_newThread free copied rfl

/-! ## Mutexes -/

theorem arrives_init (orderly : Orderly s q) (n : Int) :
    Ensures (fun next => Arrives layout s q (.mutexInit n) (.inl next))
      (s.perform layout (.mutexInit n)) := by
  rw [perform, sysMutexInit]
  cases accepted : mutexIndex n with
  | none => exact .ok ⟨q, .refused (by decide) (by simp), orderly.threads⟩
  | some m =>
      dsimp only
      split
      · exact .ok ⟨q, .refused (by decide) (by simp), orderly.threads⟩
      · rename_i owned
        refine (Threads.initMutex (s := s.setMutex m fun _ =>
          { locked := 0, owner := (s.thread s.current).tid }) orderly.threads m
            (orderly.noImage m)).bind ?_
        rintro _ ⟨heap, rfl, threads⟩
        exact .ok ⟨_, .initialised accepted (not_not.mp owned), threads.rebase⟩

/-- A mutex head that is still zero leads to no thread. -/
theorem listFirst_unlisted (orderly : Orderly s q) {m : MutexId} {last : Option ThreadSlot}
    (unlisted : q.head m = .unlisted last) : s.listFirst (.mutex m) = .null := by
  rw [Kernel.listFirst, IntrusiveList.listFirst, (orderly.threads.unlisted unlisted).2.1]

/-- `mutex_unlock` without a waiter takes a page of the kernel image for a thread. -/
theorem arrives_unlockNobody (orderly : Orderly s q) {n : Int} {m : MutexId}
    (accepted : mutexIndex n = some m) (usable : 0 ≤ (s.mutexVector m).owner.toInt)
    (taken : (s.mutexVector m).locked ≠ 0) (listed : q.head m = .listed)
    (nobody : q.threads (.mutex m) = []) :
    Ensures (fun next => Arrives layout s q (.mutexUnlock n) (.inl next)) (do
      let s ← s.updateThreadStateRr (.image (layout.imagePage m)) (some (.ready s.cr3))
      if s.listEmpty (.mutex m) then
        return (s.setMutex m fun mutex => { mutex with locked := 0 }, .returns 0)
      else return (s, .returns 0)) := by
  have moved : Ensures (fun s' => ∃ heap,
      s' = { s with heap }.setState (.image (layout.imagePage m)) .stReady ∧
      Threads s.heap heap (q.moveThread (.image (layout.imagePage m)) (.ready s.cr3)))
      (s.updateThreadStateRr (.image (layout.imagePage m)) (some (.ready s.cr3))) := by
    by_cases absent : q.threads.Absent (.image (layout.imagePage m))
    · by_cases running : (s.thread (.image (layout.imagePage m))).state = .stRun
      · have pushes := orderly.threads.updatePush (.ready s.cr3) trivial absent (by simp) running
          orderly.process
        rw [queueState, if_pos rfl] at pushes
        rw [Queues.moveThread, Queues.removeThread, absent.remove_eq]
        exact pushes
      · have links := orderly.threads.image absent
        rw [updateThreadStateRr, if_pos running, Kernel.listDel, IntrusiveList.listDel, links]
        exact .error _
    · simp only [Lanes.Absent, not_forall, not_not] at absent
      obtain ⟨source, member⟩ := absent
      have moves := orderly.threads.updateMove member (.ready s.cr3) trivial
        (orderly.image member).1 orderly.process
      rw [queueState, if_pos rfl] at moves
      exact moves
  refine moved.bind ?_
  rintro _ ⟨heap, rfl, threads⟩
  have empty_eq := Threads.empty_threads (s := { s with heap }.setState
    (.image (layout.imagePage m)) .stReady)
    (q := q.moveThread (.image (layout.imagePage m)) (.ready s.cr3)) threads (.mutex m) listed
  rw [Queues.threads_moveThread, Lanes.push_other (by simp), Lanes.remove, nobody,
    ThreadQueue.node_mutex] at empty_eq
  rw [empty_eq]
  exact .ok ⟨_, .unlockedNobody accepted usable taken listed nobody, threads.rebase⟩

/-- `mutex_unlock` with a waiter. -/
theorem arrives_unlockSome (orderly : Orderly s q) {n : Int} {m : MutexId}
    (accepted : mutexIndex n = some m) (usable : 0 ≤ (s.mutexVector m).owner.toInt)
    (taken : (s.mutexVector m).locked ≠ 0) (waiters : q.threads (.mutex m) = .slot u :: others) :
    Ensures (fun next => Arrives layout s q (.mutexUnlock n) (.inl next)) (do
      let s ← s.updateThreadStateRr (.slot u) (some (.ready s.cr3))
      if s.listEmpty (.mutex m) then
        return (s.setMutex m fun mutex => { mutex with locked := 0 }, .returns 0)
      else return (s, .returns 0)) := by
  have member : .slot u ∈ q.threads (.mutex m) := by simp [waiters]
  have listed : q.Listed (.mutex m) := orderly.threads.listed_of_mem member
  refine (orderly.threads.updateMove member (.ready s.cr3) trivial
    (orderly.stopped (by simp) member) orderly.process).bind ?_
  rintro _ ⟨heap, rfl, threads⟩
  have empty_eq := Threads.empty_threads (s := { s with heap }.setState (.slot u) .stReady)
    (q := q.moveThread (.slot u) (.ready s.cr3)) threads (.mutex m) listed
  rw [Queues.threads_moveThread, Lanes.push_other (by simp), Lanes.remove_first waiters,
    ThreadQueue.node_mutex] at empty_eq
  rw [queueState, if_pos rfl, empty_eq]
  have stay : Stay layout s q (.mutexUnlock n)
      { (s.setState (.slot u) .stReady).setMutex m fun mutex =>
          { mutex with locked := if others = [] then 0 else mutex.locked } with heap }
      (q.moveThread (.slot u) (.ready s.cr3)) (.returns 0) :=
    .unlocked accepted usable taken waiters
  cases others with
  | nil => exact .ok ⟨_, stay, threads.rebase⟩
  | cons next others =>
      have same : (({ s with heap }.setState (.slot u) .stReady).setMutex m fun mutex =>
          { mutex with locked := mutex.locked }) = { s with heap }.setState (.slot u) .stReady := by
        rw [Kernel.setMutex, Function.update_eq_self]
      exact .ok ⟨_, same ▸ stay, threads.rebase⟩

theorem arrives_unlock (orderly : Orderly s q) (n : Int) :
    Ensures (fun next => Arrives layout s q (.mutexUnlock n) (.inl next))
      (s.perform layout (.mutexUnlock n)) := by
  rw [perform, sysMutexUnlock]
  cases accepted : mutexIndex n with
  | none => exact .ok ⟨q, .refused (by decide) (by simp), orderly.threads⟩
  | some m =>
      dsimp only
      split
      · exact .ok ⟨q, .refused (by decide) (by simp), orderly.threads⟩
      · rename_i owned
        have usable : 0 ≤ (s.mutexVector m).owner.toInt := Int.not_lt.mp owned
        split
        · rename_i free
          exact .ok ⟨q, .unlockedFree accepted usable free, orderly.threads⟩
        · rename_i taken
          cases head : q.head m with
          | unlisted last =>
              rw [orderly.listFirst_unlisted head]
              exact .error _
          | listed =>
              have node := orderly.threads.first_threads (.mutex m) head
              cases waiters : q.threads (.mutex m) with
              | nil =>
                  rw [waiters] at node
                  rw [show s.listFirst (.mutex m) = .mutex m from node, listHeadToThreadStruct,
                    ok_bind, currentP_eq orderly.process, ok_bind]
                  exact orderly.arrives_unlockNobody accepted usable taken head waiters
              | cons t others =>
                  rw [waiters] at node
                  rw [show s.listFirst (.mutex m) = .thread t from node, listHeadToThreadStruct,
                    ok_bind, currentP_eq orderly.process, ok_bind]
                  cases t with
                  | image page => exact absurd (by simp [waiters]) (orderly.noImage m page)
                  | slot u => exact orderly.arrives_unlockSome accepted usable taken waiters

theorem arrives_destroy (orderly : Orderly s q) (n : Int) :
    Ensures (fun next => Arrives layout s q (.mutexDestroy n) (.inl next))
      (s.perform layout (.mutexDestroy n)) := by
  rw [perform, sysMutexDestroy]
  cases accepted : mutexIndex n with
  | none => exact .ok ⟨q, .refused (by decide) (by simp), orderly.threads⟩
  | some m =>
      dsimp only
      split
      · exact .ok ⟨q, .refused (by decide) (by simp), orderly.threads⟩
      · rename_i unowned
        have owned : 0 < (s.mutexVector m).owner.toInt := Int.not_le.mp unowned
        split
        · exact .ok ⟨q, .refused (by decide) (by simp), orderly.threads⟩
        · rename_i stranger
          have owner : (s.thread s.current).tid = (s.mutexVector m).owner := not_not.mp stranger
          cases head : q.head m with
          | unlisted last =>
              have node := orderly.listFirst_unlisted head
              have nonempty : s.listEmpty (.mutex m) = false := by
                rw [Kernel.listFirst, IntrusiveList.listFirst] at node
                simp [Kernel.listEmpty, IntrusiveList.listEmpty, node]
              rw [releaseWaiters, if_neg (by simp [nonempty])]
              dsimp only
              rw [node]
              exact .error _
          | listed =>
              refine (orderly.threads.releaseWaiters head orderly.process
                (fun t member => orderly.home member)
                (fun t member => orderly.stopped (by simp) member) (orderly.absent _)).bind ?_
              rintro _ ⟨heap, rfl, threads⟩
              exact .ok ⟨_, .destroyed accepted owned owner head, threads.rebase⟩

/-! ## All steps -/

theorem arrives_store (orderly : Orderly s q) (addr : Word) (value : Byte) :
    Ensures (fun next => Arrives layout s q (.store addr value) (.inl next))
      (s.perform layout (.store addr value)) := by
  rw [perform, userStore]
  dsimp only
  split
  · exact .ok ⟨q, .stored, orderly.threads⟩
  · exact .ok ⟨q, .stored, orderly.threads⟩

theorem arrives (orderly : Orderly s q) (action : Action) :
    Ensures (Arrives layout s q action) (s.upToSwitch layout action) := by
  cases action with
  | tick => exact orderly.arrives_tick
  | pthreadJoin id => exact orderly.arrives_join id
  | pthreadExit => exact orderly.arrives_pthreadExit
  | yield => exact orderly.arrives_yield
  | exit => exact orderly.arrives_exit
  | mutexLock n => exact orderly.arrives_lock n
  | fork stack => exact (orderly.arrives_fork stack).bind fun _ => .ok
  | pthreadCreate stack id start => exact (orderly.arrives_create stack id start).bind fun _ => .ok
  | mutexInit n => exact (orderly.arrives_init n).bind fun _ => .ok
  | mutexUnlock n => exact (orderly.arrives_unlock n).bind fun _ => .ok
  | mutexDestroy n => exact (orderly.arrives_destroy n).bind fun _ => .ok
  | store addr value => exact (orderly.arrives_store addr value).bind fun _ => .ok
  | others bytes => exact .ok ⟨q, .others, orderly.threads⟩

end Orderly

end Zeos
