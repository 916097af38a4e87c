import Zeos.Refinement

/-!
# All steps are transitions

The calls that do not switch threads, and the runs of the system.
-/

namespace Zeos

open IntrusiveList GuardedRun Kernel

variable {layout : Layout} {s s' : Kernel} {q q' : Queues} {action : Action} {p : TaskId}
  {t : ThreadPtr}

namespace Consistent

/-! ## Stores and mutexes -/

theorem outcome_store (consistent : Consistent s q) (addr : Word) (value : Byte) :
    Outcome layout s q (.store addr value) (s.perform layout (.store addr value)) := by
  rw [perform, userStore]
  dsimp only
  split
  · exact ⟨q, .stored, consistent.represents⟩
  · exact ⟨q, .stored, consistent.represents⟩

/-- No page of the kernel image waits in a mutex. -/
theorem noImage (consistent : Consistent s q) (m : MutexId) (page : Fin 2) :
    .image page ∉ q.threads (.mutex m) := by
  intro member
  rcases (consistent.image member).2 with equal | ⟨_, equal⟩
  · exact absurd equal (by simp)
  · exact absurd equal (by simp)

theorem outcome_init (consistent : Consistent s q) (n : Int) :
    Outcome layout s q (.mutexInit n) (s.perform layout (.mutexInit n)) := by
  rw [perform, sysMutexInit]
  cases accepted : mutexIndex n with
  | none => exact ⟨q, .refused (by decide), consistent.represents⟩
  | some m =>
      dsimp only
      split
      · exact ⟨q, .refused (by decide), consistent.represents⟩
      · rename_i owned
        obtain ⟨heap, result, represents⟩ := Represents.initMutex
          (s := s.setMutex m fun _ => { locked := 0, owner := (s.thread s.current).tid })
          consistent.represents m (consistent.noImage m)
        rw [result, ok_bind]
        exact ⟨_, .initialised accepted (not_not.mp owned), represents⟩

/-- A mutex head that is still zero leads to no thread. -/
theorem listFirst_unlisted (consistent : Consistent s q) {m : MutexId} {last : Option ThreadSlot}
    (unlisted : q.head m = .unlisted last) : s.listFirst (.mutex m) = .null := by
  rw [Kernel.listFirst, IntrusiveList.listFirst, (consistent.represents.unlisted unlisted).2.1]

/-- `mutex_unlock` without a waiter. -/
theorem outcome_unlockNobody (consistent : Consistent s q) {n : Int} {m : MutexId}
    (accepted : mutexIndex n = some m) (usable : 0 ≤ (s.mutexVector m).owner.toInt)
    (taken : (s.mutexVector m).locked ≠ 0) (listed : q.head m = .listed)
    (nobody : q.threads (.mutex m) = []) :
    Outcome layout s q (.mutexUnlock n) (do
      let s ← s.updateThreadStateRr (.image (layout.imagePage m)) (some (.ready s.cr3))
      if s.listEmpty (.mutex m) then
        return (s.setMutex m fun mutex => { mutex with locked := 0 }, .returns 0)
      else return (s, .returns 0)) := by
  have finish : ∀ heap, Represents heap
      (q.moveThread (.image (layout.imagePage m)) (.ready s.cr3)) →
      s.updateThreadStateRr (.image (layout.imagePage m)) (some (.ready s.cr3)) =
        .ok ({ s with heap }.setState (.image (layout.imagePage m)) .stReady) →
      Outcome layout s q (.mutexUnlock n) (do
        let s ← s.updateThreadStateRr (.image (layout.imagePage m)) (some (.ready s.cr3))
        if s.listEmpty (.mutex m) then
          return (s.setMutex m fun mutex => { mutex with locked := 0 }, .returns 0)
        else return (s, .returns 0)) := by
    intro heap represents moved
    have empty : ({ s with heap }.setState (.image (layout.imagePage m)) .stReady).listEmpty
        (.mutex m) = true := by
      have empty_eq := Represents.empty_threads
        (s := { s with heap }.setState (.image (layout.imagePage m)) .stReady)
        (q := q.moveThread (.image (layout.imagePage m)) (.ready s.cr3)) represents
        (.mutex m) listed
      rw [Queues.threads_moveThread, Lanes.push_other (by simp), Lanes.remove, nobody] at empty_eq
      exact empty_eq
    rw [moved, ok_bind, if_pos empty]
    exact ⟨_, .unlockedNobody accepted usable taken listed nobody, represents⟩
  by_cases absent : q.threads.Absent (.image (layout.imagePage m))
  · by_cases running : (s.thread (.image (layout.imagePage m))).state = .stRun
    · obtain ⟨heap, pushed, represents⟩ := updateThreadStateRr_push consistent.represents
        (.ready s.cr3) trivial absent (by simp) running consistent.process
      rw [queueState, if_pos rfl] at pushed
      refine finish heap ?_ pushed
      rw [Queues.moveThread, Queues.removeThread, absent.remove_eq]
      exact represents
    · have links := consistent.represents.image _ absent
      have failed : s.updateThreadStateRr (.image (layout.imagePage m)) (some (.ready s.cr3)) =
          .error .foreign := by
        rw [updateThreadStateRr, if_pos running, Kernel.listDel, IntrusiveList.listDel, links]
        rfl
      rw [failed]
      exact outcome_error (.inr rfl)
  · simp only [Lanes.Absent, not_forall, not_not] at absent
    obtain ⟨source, member⟩ := absent
    obtain ⟨heap, moved, represents⟩ := updateThreadStateRr_move consistent.represents member
      (.ready s.cr3) trivial (consistent.image member).1 consistent.process
    rw [queueState, if_pos rfl] at moved
    exact finish heap represents moved

/-- `mutex_unlock` with a waiter. -/
theorem outcome_unlockSome (consistent : Consistent s q) {n : Int} {m : MutexId}
    (accepted : mutexIndex n = some m) (usable : 0 ≤ (s.mutexVector m).owner.toInt)
    (taken : (s.mutexVector m).locked ≠ 0) {slot : ThreadSlot} {rest : List ThreadPtr}
    (waiters : q.threads (.mutex m) = .slot slot :: rest) :
    Outcome layout s q (.mutexUnlock n) (do
      let s ← s.updateThreadStateRr (.slot slot) (some (.ready s.cr3))
      if s.listEmpty (.mutex m) then
        return (s.setMutex m fun mutex => { mutex with locked := 0 }, .returns 0)
      else return (s, .returns 0)) := by
  have member : .slot slot ∈ q.threads (.mutex m) := by simp [waiters]
  have listed : q.Listed (.mutex m) := consistent.represents.listed_of_mem member
  obtain ⟨heap, moved, represents⟩ := updateThreadStateRr_move consistent.represents member
    (.ready s.cr3) trivial (consistent.fits member).2.1 consistent.process
  rw [queueState, if_pos rfl] at moved
  have empty_eq := Represents.empty_threads (s := { s with heap }.setState (.slot slot) .stReady)
    (q := q.moveThread (.slot slot) (.ready s.cr3)) represents (.mutex m) listed
  rw [Queues.threads_moveThread, Lanes.push_other (by simp), Lanes.remove_first waiters,
    ThreadQueue.node_mutex] at empty_eq
  have transition : Transition layout s q (.mutexUnlock n)
      { (s.setState (.slot slot) .stReady).setMutex m fun mutex =>
          { mutex with locked := if rest = [] then 0 else mutex.locked } with
        heap }
      (q.moveThread (.slot slot) (.ready s.cr3)) (.returns 0) :=
    .unlocked accepted usable taken waiters
  rw [show s.updateThreadStateRr (.slot slot) (some (.ready s.cr3)) = _ from moved, ok_bind,
    empty_eq]
  cases rest with
  | nil =>
      exact ⟨_, transition, represents⟩
  | cons next others =>
      refine ⟨_, ?_, represents⟩
      have same : (({ s with heap }.setState (.slot slot) .stReady).setMutex m fun mutex =>
          { mutex with locked := mutex.locked }) =
          { s with heap }.setState (.slot slot) .stReady := by
        rw [Kernel.setMutex, Function.update_eq_self]
      rw [← same]
      exact transition

theorem outcome_unlock (consistent : Consistent s q) (n : Int) :
    Outcome layout s q (.mutexUnlock n) (s.perform layout (.mutexUnlock n)) := by
  rw [perform, sysMutexUnlock]
  cases accepted : mutexIndex n with
  | none => exact ⟨q, .refused (by decide), consistent.represents⟩
  | some m =>
      dsimp only
      split
      · exact ⟨q, .refused (by decide), consistent.represents⟩
      · rename_i owned
        have usable : 0 ≤ (s.mutexVector m).owner.toInt := Int.not_lt.mp owned
        split
        · rename_i free
          exact ⟨q, .unlockedFree accepted usable free, consistent.represents⟩
        · rename_i taken
          cases head : q.head m with
          | unlisted last =>
              rw [consistent.listFirst_unlisted head]
              exact fun p equal => absurd equal (by simp)
          | listed =>
              have node := consistent.represents.first_threads (.mutex m) head
              cases waiters : q.threads (.mutex m) with
              | nil =>
                  rw [waiters] at node
                  rw [show s.listFirst (.mutex m) = .mutex m from node, listHeadToThreadStruct,
                    ok_bind, currentP_eq consistent.process, ok_bind]
                  exact consistent.outcome_unlockNobody accepted usable taken head waiters
              | cons t rest =>
                  rw [waiters] at node
                  rw [show s.listFirst (.mutex m) = .thread t from node, listHeadToThreadStruct,
                    ok_bind, currentP_eq consistent.process, ok_bind]
                  cases t with
                  | image page =>
                      exact absurd (by simp [waiters]) (consistent.noImage m page)
                  | slot slot =>
                      exact consistent.outcome_unlockSome accepted usable taken waiters

theorem outcome_destroy (consistent : Consistent s q) (n : Int) :
    Outcome layout s q (.mutexDestroy n) (s.perform layout (.mutexDestroy n)) := by
  rw [perform, sysMutexDestroy]
  cases accepted : mutexIndex n with
  | none => exact ⟨q, .refused (by decide), consistent.represents⟩
  | some m =>
      dsimp only
      split
      · exact ⟨q, .refused (by decide), consistent.represents⟩
      · rename_i unowned
        have owned : 0 < (s.mutexVector m).owner.toInt := Int.not_le.mp unowned
        split
        · exact ⟨q, .refused (by decide), consistent.represents⟩
        · rename_i stranger
          have owner : (s.thread s.current).tid = (s.mutexVector m).owner := not_not.mp stranger
          cases head : q.head m with
          | unlisted last =>
              have node := consistent.listFirst_unlisted head
              have nonempty : s.listEmpty (.mutex m) = false := by
                rw [Kernel.listFirst, IntrusiveList.listFirst] at node
                simp [Kernel.listEmpty, IntrusiveList.listEmpty, node]
              rw [releaseWaiters, if_neg (by simp [nonempty])]
              dsimp only
              rw [node]
              exact fun p equal => absurd equal (by simp)
          | listed =>
              have fits : ∀ t ∈ q.threads (.mutex m), (s.thread t).p = .slot (s.home t) ∧
                  (s.thread t).state ≠ .stRun := by
                intro t member
                cases t with
                | image page => exact absurd member (consistent.noImage m page)
                | slot slot =>
                    obtain ⟨⟨p, process⟩, stopped, _⟩ := consistent.fits member
                    exact ⟨by rw [home, process], stopped⟩
              rcases releaseWaiters_eq layout consistent.represents head consistent.process rfl
                (fun t member => (fits t member).1) (fun t member => (fits t member).2)
                (consistent.absent _) (length_lt_listFuel (consistent.threads.nodup _)) with
                failed | ⟨heap, released, represents⟩
              · rw [failed]
                exact outcome_error (.inl rfl)
              · rw [released, ok_bind]
                exact ⟨_, .destroyed accepted owned owner head, represents⟩

/-! ## New threads -/

/-- Take the first free thread and copy the running one into it. -/
theorem takeThreadUnion (represents : Represents s.heap q) {u : ThreadSlot}
    (free : .slot u ∈ q.threads .free) :
    ∃ heap stack, (s.listDel (.thread (.slot u)) >>= fun s => s.copyThreadUnion (.slot u)) =
        .ok { s.setThread (.slot u) (fun _ => s.thread s.current) with heap, stack } ∧
      Represents heap (q.removeThread (.slot u)) := by
  obtain ⟨heap, deleted, removed⟩ := represents.removeThread free
  refine ⟨_, _, by rw [deleted]; rfl, removed.update_absent ?_ (heap (.thread s.current))⟩
  exact represents.separate_threads.absent_remove.mpr (.inr rfl)

theorem createStack_raises (s : Kernel) (u : ThreadPtr) (row : TaskId) :
    Raises Fault.Memory (s.createStack u row) :=
  (Memory.findStackEntry_raises _ _ _).bind fun _ _ => .ok _

theorem createStack_eq {u : ThreadPtr} {row : TaskId} (created : s.createStack u row = .ok s') :
    ∃ mem stack, s' = { s with mem, stack } := by
  obtain ⟨entry, _, result⟩ := bind_eq_ok.mp created
  exact ⟨_, _, (Except.ok.inj result).symm⟩

/-- The fields that `pthread_create` sets after the copy. -/
theorem createThread_eq {u : ThreadPtr} (other : s.current ≠ u)
    (process : (s.thread s.current).p = .slot s.cr3) {heap : Heap Node}
    {stack stack' : ThreadPtr → Nat → Word} {mem : Memory} {startRoutine : Word}
    (created : s' = { ({ s.setThread u (fun _ => s.thread s.current) with
      heap, stack }.createContext u startRoutine) with mem, stack := stack' }) :
    s'.createThread u s.cr3 =
      { (s.setThread u fun _ => s.newThread u).setTask s.cr3
          fun c => { c with nthread := c.nthread + 1 } with heap, mem, stack := stack' } := by
  have threads : (s'.createThread u s.cr3).thread =
      (s.setThread u fun _ => s.newThread u).thread := by
    funext x
    by_cases same : x = u
    · subst same
      simp [created, createThread, createContext, setStack, newThread, other, process]
    · simp [created, createThread, createContext, setStack, same]
  rw [created] at threads ⊢
  rw [Kernel.mk.injEq]
  exact ⟨rfl, rfl, rfl, rfl, rfl, threads, rfl, rfl, rfl, rfl, rfl, rfl, rfl⟩

theorem outcome_create (consistent : Consistent s q) (stack : Nat → Word) (id startRoutine : Word) :
    Outcome layout s q (.pthreadCreate stack id startRoutine)
      (s.perform layout (.pthreadCreate stack id startRoutine)) := by
  have entered : Consistent (s.enterWith stack) q := consistent.of_eq rfl rfl rfl rfl rfl rfl
  rw [perform, sysPthreadCreate]
  split
  · exact ⟨q, .refused (by decide), consistent.represents⟩
  · split
    · exact ⟨q, .refused (by decide), consistent.represents⟩
    · rename_i nonempty
      have empty_eq := entered.represents.empty_threads .free trivial
      have node := entered.represents.first_threads .free trivial
      cases free : q.threads .free with
      | nil =>
          rw [free] at empty_eq
          exact absurd empty_eq nonempty
      | cons t threads =>
          have member : t ∈ q.threads .free := by simp [free]
          rw [free] at node
          dsimp only
          rw [show (s.enterWith stack).listFirst .freeThreadqueue = .thread t from node,
            listHeadToThreadStruct, ok_bind]
          cases t with
          | image page =>
              obtain ⟨heap, deleted, _⟩ := entered.represents.listDel_thread member
              rw [deleted, ok_bind]
              exact outcome_error (.inr rfl)
          | slot u =>
              obtain ⟨heap, stack', taken, represents⟩ :=
                takeThreadUnion entered.represents member
              rw [← bind_assoc, taken, ok_bind]
              have other : s.current ≠ .slot u := consistent.ne_of_mem member
              have process : (({ (s.enterWith stack).setThread (.slot u)
                  (fun _ => (s.enterWith stack).thread (s.enterWith stack).current) with
                  heap, stack := stack' }.createContext (.slot u) startRoutine).thread
                    s.current).p = .slot s.cr3 := by
                simpa [createContext, setStack, other, enterWith] using consistent.process
              rw [currentP_eq process, ok_bind]
              refine outcome_bind (getPT_raises _ _) fun row _ => ?_
              refine outcome_bind (createStack_raises _ _ _) fun s₁ created => ?_
              obtain ⟨mem, stack₁, created⟩ := createStack_eq created
              rw [show s₁.createThread (.slot u) s.cr3 = _ from
                createThread_eq (s := s.enterWith stack) other consistent.process created]
              refine outcome_bind (Memory.storeWord_raises _ _ _ _) fun mem' _ => ?_
              obtain ⟨heap', pushed, represents'⟩ := Represents.pushThread
                (s := { ((s.enterWith stack).setThread (.slot u) fun _ =>
                  (s.enterWith stack).newThread (.slot u)).setTask s.cr3
                    fun c => { c with nthread := c.nthread + 1 } with
                  heap, mem := mem', stack := stack₁ }) (q := q.removeThread (.slot u))
                represents (.ready s.cr3) trivial
                (consistent.threads.absent_remove.mpr (.inr rfl)) (fun index slot found same =>
                  consistent.not_last member index (ThreadPtr.slot.inj same ▸ found))
              refine outcome_bind (s := s) (pushed ▸ .ok _) fun s₁ equal => ?_
              obtain rfl := Except.ok.inj (pushed.symm.trans equal)
              exact ⟨_, .created free, represents'⟩

/-! ## New processes -/

/-- The fields that `fork` sets after the copy of the running thread. -/
theorem forkThread_eq (layout : Layout) {child : TaskId} {u : ThreadPtr} {heap : Heap Node}
    {stack : ThreadPtr → Nat → Word} {mem : Memory}
    (copied : s' = { (s.setThread u fun _ => s.thread s.current).allocateDIR child with
      heap, stack, mem }) :
    ∃ stack', (s'.forkTask child).forkThread layout child u =
      { (s.setThread u fun _ => s.childThread child u).setTask child
          fun _ => s.childTask child with
        globalPID := s.globalPID + 1, heap, stack := stack', mem } := by
  refine ⟨((s'.forkTask child).forkThread layout child u).stack, ?_⟩
  have threads : ((s'.forkTask child).forkThread layout child u).thread =
      (s.setThread u fun _ => s.childThread child u).thread := by
    funext x
    by_cases same : x = u
    · subst same
      simp [copied, forkTask, forkThread, setStack, allocateDIR, childThread]
    · simp [copied, forkTask, forkThread, setStack, allocateDIR, same]
  have tasks : ((s'.forkTask child).forkThread layout child u).task =
      (s.setTask child fun _ => s.childTask child).task := by
    funext x
    by_cases same : x = child
    · subst same
      simp [copied, forkTask, forkThread, setStack, allocateDIR, childTask, setTask, setThread]
    · simp [copied, forkTask, forkThread, setStack, allocateDIR, setTask, setThread, same]
  rw [Kernel.mk.injEq]
  refine ⟨?_, ?_, ?_, ?_, tasks, threads, rfl, ?_, ?_, ?_, ?_, ?_, ?_⟩
  all_goals simp only [copied, forkTask, forkThread, setStack, setThread, setTask, allocateDIR]

theorem forkPages_raises (s : Kernel) (row : TaskId) : Raises Fault.Memory (s.forkPages row) :=
  (deref_raises _ _).bind fun _ _ => (getPT_raises _ _).bind fun _ _ =>
    (Memory.copyDataPages_raises _ _ _ _).bind fun _ _ => setCr3_raises _ _

/-- The copying of the pages changes the memory only. -/
theorem forkPages_eq {row : TaskId} (process : (s.thread s.current).p = .slot s.cr3)
    (directory : (s.task s.cr3).dirPagesBaseAddr = some s.cr3)
    (copied : s.forkPages row = .ok s') : ∃ mem, s' = { s with mem } := by
  rw [forkPages, currentP_eq process, ok_bind, getPT, directory, ok_bind] at copied
  obtain ⟨mem, _, result⟩ := bind_eq_ok.mp copied
  refine ⟨mem, ?_⟩
  rw [setCr3, show Kernel.task _ s.cr3 = s.task s.cr3 from rfl, directory] at result
  exact (Except.ok.inj result).symm

/-- From the allocation of the page directory on. -/
theorem outcome_forkChild (consistent : Consistent s q) {stack : Nat → Word} {child : TaskId}
    {processes : List TaskId} {u : ThreadSlot} {threads : List ThreadPtr} {heap : Heap Node}
    {stack' : ThreadPtr → Nat → Word} (freeProcess : q.processes .free = child :: processes)
    (freeThread : q.threads .free = .slot u :: threads)
    (represents : Represents heap ((q.removeProcess child).removeThread (.slot u)))
    {s₁ : Kernel} (copied : s₁ = { (s.setThread (.slot u)
      fun _ => s.thread s.current).allocateDIR child with heap, stack := stack' }) :
    Outcome layout s q (.fork stack) (do
      let processPT ← s₁.getPT child
      match s₁.mem.allocDataPages processPT numPagData 0 with
      | (false, mem) =>
          let s ← { s₁ with mem }.listAddTail (.task child) .freequeue
          return (s, .returns (-EAGAIN))
      | (true, mem) =>
          let s ← { s₁ with mem }.forkPages processPT
          let s := (s.forkTask child).forkThread layout child (.slot u)
          let s ← s.listAddTail (.task child) .readyqueue
          let s ← s.listAddTail (.thread (.slot u)) (.ready child)
          return (s, .returns (s.task child).pid.toInt)) := by
  have freeChild : child ∈ q.processes .free := by simp [freeProcess]
  have free : .slot u ∈ q.threads .free := by simp [freeThread]
  have other : s.current ≠ .slot u := consistent.ne_of_mem free
  have different := consistent.cr3_ne_of_mem freeChild
  have gone : (q.removeProcess child).processes.Absent child :=
    consistent.processes.absent_remove.mpr (.inr rfl)
  refine outcome_bind (getPT_raises _ _) fun row _ => ?_
  have heap_eq : s₁.heap = heap := copied ▸ rfl
  cases allocated : s₁.mem.allocDataPages row numPagData 0 with
  | mk found mem =>
      cases found with
      | false =>
          obtain ⟨heap', pushed, represents'⟩ := Represents.pushProcess
            (s := { s₁ with mem }) (q := (q.removeProcess child).removeThread (.slot u))
            (heap_eq ▸ represents) .free gone
          dsimp only
          refine outcome_bind (s := s) (pushed ▸ .ok _) fun s₂ equal => ?_
          obtain rfl := Except.ok.inj (pushed.symm.trans equal)
          subst copied
          exact ⟨_, .forkFailed freeProcess freeThread, represents'⟩
      | true =>
          refine outcome_bind (forkPages_raises _ _) fun s₂ shared => ?_
          have shared_eq : ∃ mem', s₂ = { (s.setThread (.slot u)
              fun _ => s.thread s.current).allocateDIR child with
                heap, stack := stack', mem := mem' } := by
            obtain ⟨mem', equal⟩ := forkPages_eq (s := { s₁ with mem })
              (by simpa [copied, allocateDIR, other] using consistent.process)
              (by simpa [copied, allocateDIR, different] using consistent.ownDirectory) shared
            exact ⟨mem', by rw [equal, copied]⟩
          obtain ⟨mem', shared_eq⟩ := shared_eq
          obtain ⟨stack₂, made⟩ := forkThread_eq layout shared_eq
          rw [made]
          obtain ⟨heap₁, queued, represents₁⟩ := Represents.pushProcess
            (s := { (s.setThread (.slot u) fun _ => s.childThread child (.slot u)).setTask child
              fun _ => s.childTask child with
              globalPID := s.globalPID + 1, heap, stack := stack₂, mem := mem' })
            (q := (q.removeProcess child).removeThread (.slot u)) represents .ready gone
          refine outcome_bind (s := s) (queued ▸ .ok _) fun s₃ equal => ?_
          obtain rfl := Except.ok.inj (queued.symm.trans equal)
          obtain ⟨heap₂, ready, represents₂⟩ := Represents.pushThread
            (s := { (s.setThread (.slot u) fun _ => s.childThread child (.slot u)).setTask child
              fun _ => s.childTask child with
              globalPID := s.globalPID + 1, heap := heap₁, stack := stack₂, mem := mem' })
            represents₁ (.ready child) trivial
            (consistent.threads.absent_remove.mpr (.inr rfl)) (fun index slot found same =>
              consistent.not_last free index (ThreadPtr.slot.inj same ▸ found))
          refine outcome_bind (s := s) (ready ▸ .ok _) fun s₄ equal' => ?_
          obtain rfl := Except.ok.inj (ready.symm.trans equal')
          have result : (({ (s.setThread (.slot u) fun _ =>
              s.childThread child (.slot u)).setTask child fun _ => s.childTask child with
                globalPID := s.globalPID + 1, heap := heap₂, stack := stack₂,
                mem := mem' } : Kernel).task child).pid = s.globalPID + 1 := by
            simp [childTask]
          rw [result]
          exact ⟨_, .forked freeProcess freeThread, represents₂⟩

theorem outcome_fork (consistent : Consistent s q) (stack : Nat → Word) :
    Outcome layout s q (.fork stack) (s.perform layout (.fork stack)) := by
  have entered : Consistent (s.enterWith stack) q := consistent.of_eq rfl rfl rfl rfl rfl rfl
  have empty_eq := entered.represents.empty_processes .free
  have empty_eq' := entered.represents.empty_threads .free trivial
  have node := entered.represents.first_processes .free
  have node' := entered.represents.first_threads .free trivial
  rw [perform, sysFork]
  split
  · exact ⟨q, .refused (by decide), consistent.represents⟩
  · rename_i nonempty
    split
    · exact ⟨q, .refused (by decide), consistent.represents⟩
    · rename_i nonempty'
      cases freeProcess : q.processes .free with
      | nil => exact absurd (empty_eq.trans (by rw [freeProcess]; rfl)) nonempty
      | cons child processes =>
          cases freeThread : q.threads .free with
          | nil => exact absurd (empty_eq'.trans (by rw [freeThread]; rfl)) nonempty'
          | cons t threads =>
              have freeChild : child ∈ q.processes .free := by simp [freeProcess]
              have member : t ∈ (q.removeProcess child).threads .free := by simp [freeThread]
              obtain ⟨heap, deleted, represents⟩ := entered.represents.removeProcess freeChild
              rw [freeProcess] at node
              rw [freeThread] at node'
              dsimp only
              rw [show (s.enterWith stack).listFirst .freequeue = .task child from node,
                show (s.enterWith stack).listFirst .freeThreadqueue = .thread t from node',
                deleted, ok_bind]
              cases t with
              | image page =>
                  obtain ⟨heap', deleted', _⟩ := Represents.listDel_thread
                    (s := { s.enterWith stack with heap }) represents member
                  rw [deleted', ok_bind, listHeadToTaskStruct, ok_bind, listHeadToThreadStruct,
                    ok_bind]
                  exact outcome_error (.inr rfl)
              | slot u =>
                  obtain ⟨heap', stack', taken, represents'⟩ :=
                    takeThreadUnion (s := { s.enterWith stack with heap }) represents member
                  simp only [listHeadToTaskStruct, listHeadToThreadStruct, ok_bind]
                  rw [← bind_assoc, taken, ok_bind]
                  exact consistent.outcome_forkChild freeProcess freeThread represents' rfl

/-- From a consistent state every step faults or is a transition. -/
theorem perform (consistent : Consistent s q) (layout : Layout) (action : Action) :
    Outcome layout s q action (s.perform layout action) := by
  cases action with
  | tick => exact consistent.scheduled.outcome_tick
  | fork stack => exact consistent.outcome_fork stack
  | pthreadCreate stack id startRoutine => exact consistent.outcome_create stack id startRoutine
  | pthreadJoin id => exact consistent.outcome_join id
  | pthreadExit => exact consistent.outcome_pthreadExit
  | yield => exact consistent.scheduled.outcome_yield
  | exit => exact consistent.outcome_exit
  | mutexInit n => exact consistent.outcome_init n
  | mutexLock n => exact consistent.outcome_lock n
  | mutexUnlock n => exact consistent.outcome_unlock n
  | mutexDestroy n => exact consistent.outcome_destroy n
  | store addr value => exact consistent.outcome_store addr value
  | others bytes => exact ⟨q, .others, consistent.represents⟩

/-- An action that does not fault is a transition. -/
theorem transition_of_perform {result : Result} (consistent : Consistent s q)
    (performed : s.perform layout action = .ok (s', result)) :
    ∃ q', Transition layout s q action s' q' result ∧ Represents s'.heap q' := by
  have outcome := consistent.perform layout action
  rw [performed] at outcome
  exact outcome

/-- A step that does not fault is a transition. -/
theorem transition_of_step (consistent : Consistent s q)
    (stepped : s.step layout action = .ok s') :
    ∃ q' result, s.perform layout action = .ok (s', result) ∧
      Transition layout s q action s' q' result ∧ Represents s'.heap q' := by
  obtain ⟨⟨s₁, result⟩, performed, equal⟩ := bind_eq_ok.mp stepped
  obtain rfl : s₁ = s' := Except.ok.inj equal
  obtain ⟨q', transition, represents⟩ := consistent.transition_of_perform performed
  exact ⟨q', result, performed, transition, represents⟩

end Consistent

end Zeos
