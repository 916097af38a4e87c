import Zeos.Boot

/-!
# What every step leaves alone

Only `mutex_init` and `mutex_destroy` set the owner of a mutex, a page directory, once set, is the
one at the index of its process, and only `fork`, `pthread_create` and `exit` change page tables and
frames.  All this holds of every step, whatever the state of the lists.
-/

namespace Zeos

open IntrusiveList GuardedRun

/-- The calls that have to do with page tables and frames. -/
def Action.Paging : Action → Prop
  | .fork _ | .pthreadCreate _ _ _ | .exit => True
  | _ => False

/-- The calls that set the owner of a mutex. -/
def Action.Owning : Action → Prop
  | .mutexInit _ | .mutexDestroy _ => True
  | _ => False

namespace Kernel

/-! ## Lists -/

section Lists

variable (s : Kernel)

theorem relinks_listAddTail (new head : Node) :
    Ensures (fun s' => ∃ heap, s' = { s with heap }) (s.listAddTail new head) := by
  unfold listAddTail
  exact Ensures.skip fun heap => .ok ⟨heap, rfl⟩

theorem relinks_listDel (entry : Node) :
    Ensures (fun s' => ∃ heap, s' = { s with heap }) (s.listDel entry) := by
  unfold listDel
  exact Ensures.skip fun heap => .ok ⟨heap, rfl⟩

theorem relinks_initListHead (list : Node) :
    Ensures (fun s' => ∃ heap, s' = { s with heap }) (s.initListHead list) := by
  unfold initListHead
  exact Ensures.skip fun heap => .ok ⟨heap, rfl⟩

end Lists

/-! ## Relations that are kept -/

/-- The owners of the mutexes are the same, and the page directories are the same or set to those of
their processes. -/
structure Retained (s s' : Kernel) : Prop where
  owner : ∀ m, (s'.mutexVector m).owner = (s.mutexVector m).owner
  directory : ∀ p, (s'.task p).dirPagesBaseAddr = (s.task p).dirPagesBaseAddr ∨
    (s'.task p).dirPagesBaseAddr = some p

/-- The page tables and the use of the frames are the same, too. -/
structure Framed (s s' : Kernel) : Prop extends Retained s s' where
  pagusrTable : s'.mem.pagusrTable = s.mem.pagusrTable
  physMem : s'.mem.physMem = s.mem.physMem

namespace Retained

variable {s s' s'' : Kernel}

theorem of_eq (mutexVector : s'.mutexVector = s.mutexVector) (task : s'.task = s.task) :
    Retained s s' where
  owner m := by rw [mutexVector]
  directory p := .inl (by rw [task])

theorem trans (retained : Retained s s') (retained' : Retained s' s'') : Retained s s'' where
  owner m := (retained'.owner m).trans (retained.owner m)
  directory p := by
    rcases retained'.directory p with kept | own
    · rw [kept]
      exact retained.directory p
    · exact .inr own

/-- Other variables can change before. -/
theorem after (retained : Retained s' s'') (mutexVector : s'.mutexVector = s.mutexVector)
    (task : s'.task = s.task) : Retained s s'' :=
  (of_eq mutexVector task).trans retained

theorem setTask (s : Kernel) (p : TaskId) (g : TaskStruct → TaskStruct)
    (directory : (g (s.task p)).dirPagesBaseAddr = (s.task p).dirPagesBaseAddr ∨
      (g (s.task p)).dirPagesBaseAddr = some p) : Retained s (s.setTask p g) where
  owner _ := rfl
  directory other := by
    by_cases same : other = p
    · subst same
      simpa [Kernel.setTask] using directory
    · exact .inl (by simp [Kernel.setTask, same])

end Retained

namespace Framed

variable {s s' s'' : Kernel}

theorem of_eq (mutexVector : s'.mutexVector = s.mutexVector) (task : s'.task = s.task)
    (mem : s'.mem = s.mem) : Framed s s' :=
  { Retained.of_eq mutexVector task with
    pagusrTable := by rw [mem]
    physMem := by rw [mem] }

theorem trans (framed : Framed s s') (framed' : Framed s' s'') : Framed s s'' :=
  { framed.toRetained.trans framed'.toRetained with
    pagusrTable := framed'.pagusrTable.trans framed.pagusrTable
    physMem := framed'.physMem.trans framed.physMem }

theorem setTask (s : Kernel) (p : TaskId) (g : TaskStruct → TaskStruct)
    (directory : (g (s.task p)).dirPagesBaseAddr = (s.task p).dirPagesBaseAddr) :
    Framed s (s.setTask p g) :=
  { Retained.setTask s p g (.inl directory) with
    pagusrTable := rfl
    physMem := rfl }

theorem setMutex (s : Kernel) (m : MutexId) (k : Mutex → Mutex)
    (owner : (k (s.mutexVector m)).owner = (s.mutexVector m).owner) :
    Framed s (s.setMutex m k) where
  owner other := by
    by_cases same : other = m
    · subst same
      simpa [Kernel.setMutex] using owner
    · simp [Kernel.setMutex, same]
  directory _ := .inl rfl
  pagusrTable := rfl
  physMem := rfl

end Framed

/-- A relation that the lists, the other fields of threads, the registers and the counters do not
concern: it holds of two states with the same mutexes, processes, kernel stacks, page tables and
frames, and allows other fields of processes and mutexes to change. -/
structure Quiet (R : Kernel → Kernel → Prop) : Prop where
  of_eq {s s' : Kernel} (mutexVector : s'.mutexVector = s.mutexVector) (task : s'.task = s.task)
    (stack : s'.stack = s.stack) (pagusrTable : s'.mem.pagusrTable = s.mem.pagusrTable)
    (physMem : s'.mem.physMem = s.mem.physMem) : R s s'
  trans {s s' s'' : Kernel} (kept : R s s') (kept' : R s' s'') : R s s''
  setTask (s : Kernel) (p : TaskId) (g : TaskStruct → TaskStruct)
    (directory : (g (s.task p)).dirPagesBaseAddr = (s.task p).dirPagesBaseAddr) :
    R s (s.setTask p g)
  setMutex (s : Kernel) (m : MutexId) (k : Mutex → Mutex)
    (owner : (k (s.mutexVector m)).owner = (s.mutexVector m).owner) : R s (s.setMutex m k)

namespace Quiet

variable {R : Kernel → Kernel → Prop} (quiet : Quiet R) (layout : Layout) (s : Kernel)

include quiet

theorem refl : R s s := quiet.of_eq rfl rfl rfl rfl rfl

/-- Other variables can change before. -/
theorem after {s s' s'' : Kernel} (kept : R s' s'') (mutexVector : s'.mutexVector = s.mutexVector)
    (task : s'.task = s.task) (stack : s'.stack = s.stack)
    (pagusrTable : s'.mem.pagusrTable = s.mem.pagusrTable)
    (physMem : s'.mem.physMem = s.mem.physMem) : R s s'' :=
  quiet.trans (quiet.of_eq mutexVector task stack pagusrTable physMem) kept

/-! ## Lists and switches -/

theorem of_relinks {result : Except Fault Kernel}
    (relinks : Ensures (fun s' => ∃ heap, s' = { s with heap }) result) : Ensures (R s) result :=
  relinks.mono fun _ ⟨_, same⟩ => same ▸ quiet.of_eq rfl rfl rfl rfl rfl

theorem listAddTail (new head : Node) : Ensures (R s) (s.listAddTail new head) :=
  quiet.of_relinks s (s.relinks_listAddTail new head)

theorem listDel (entry : Node) : Ensures (R s) (s.listDel entry) :=
  quiet.of_relinks s (s.relinks_listDel entry)

theorem initListHead (list : Node) : Ensures (R s) (s.initListHead list) :=
  quiet.of_relinks s (s.relinks_initListHead list)

theorem setCr3 (p : TaskId) : Ensures (R s) (s.setCr3 p) := by
  unfold Kernel.setCr3
  split
  · exact .ok (quiet.of_eq rfl rfl rfl rfl rfl)
  · exact .error _

theorem switchStack (new : ThreadPtr) : Ensures (R s) (s.switchStack new) := by
  unfold Kernel.switchStack
  dsimp only
  split
  · exact .ok (quiet.of_eq rfl rfl rfl rfl rfl)
  · exact .error _
  · exact .error _

theorem taskSwitch (new : ThreadPtr) : Ensures (R s) (s.taskSwitch new) := by
  unfold Kernel.taskSwitch
  refine Ensures.skip fun p => ?_
  refine (quiet.setCr3 s p).bind fun s₁ kept => ?_
  exact (quiet.switchStack s₁ new).mono fun _ => quiet.trans kept

theorem updateProcessStateRr (p : TaskId) (dstQueue : Option Node) :
    Ensures (R s) (s.updateProcessStateRr p dstQueue) := by
  unfold Kernel.updateProcessStateRr
  extract_lets relink
  have linked : ∀ s₁, R s s₁ → Ensures (R s) (relink s₁) := by
    intro s₁ kept
    cases dstQueue with
    | none =>
        have stopped : R s₁ (s₁.setTask p fun c => { c with state := .stRun }) :=
          quiet.setTask _ _ _ rfl
        exact .ok (quiet.trans kept stopped)
    | some queue =>
        refine (quiet.listAddTail s₁ _ _).bind fun s₂ kept' => ?_
        have moved : R s₂ (s₂.setTask p fun c =>
            { c with state := if queue ≠ .readyqueue then .stBlocked else .stReady }) :=
          quiet.setTask _ _ _ rfl
        exact .ok (quiet.trans kept (quiet.trans kept' moved))
  split
  · exact (quiet.listDel s _).bind linked
  · exact linked s (quiet.refl s)

theorem updateThreadStateRr (t : ThreadPtr) (dstQueue : Option Node) :
    Ensures (R s) (s.updateThreadStateRr t dstQueue) := by
  unfold Kernel.updateThreadStateRr
  extract_lets relink
  have linked : ∀ s₁, R s s₁ → Ensures (R s) (relink s₁) := by
    intro s₁ kept
    cases dstQueue with
    | none => exact .ok (quiet.trans kept (quiet.of_eq rfl rfl rfl rfl rfl))
    | some queue =>
        refine (quiet.listAddTail s₁ _ _).bind fun s₂ kept' => ?_
        refine Ensures.skip fun p => ?_
        exact .ok (quiet.trans kept (quiet.trans kept' (quiet.of_eq rfl rfl rfl rfl rfl)))
  split
  · exact (quiet.listDel s _).bind linked
  · exact linked s (quiet.refl s)

theorem schedNextProcessRr : Ensures (R s) (s.schedNextProcessRr layout) := by
  unfold Kernel.schedNextProcessRr
  split
  · refine (quiet.listDel s _).bind fun s₁ kept => ?_
    refine Ensures.skip fun p => ?_
    refine Ensures.skip fun t => ?_
    refine (quiet.listDel s₁ _).bind fun s₂ kept' => ?_
    have started : ∀ s₃, R s₂ s₃ → Ensures (R s) (s₃.taskSwitch t) :=
      fun s₃ kept'' => (quiet.taskSwitch s₃ t).mono fun _ switched =>
        quiet.trans kept (quiet.trans kept' (quiet.trans kept'' switched))
    have running : R s₂ (s₂.setTask p fun c => { c with state := .stRun }) :=
      quiet.setTask s₂ p _ rfl
    refine started _ ?_
    exact quiet.trans running (quiet.of_eq rfl rfl rfl rfl rfl)
  · have started : ∀ s₁ t, R s s₁ → Ensures (R s) (s₁.taskSwitch t) :=
      fun s₁ t kept => (quiet.taskSwitch s₁ t).mono fun _ => quiet.trans kept
    split
    · exact started _ _ (quiet.of_eq rfl rfl rfl rfl rfl)
    · exact .error _

theorem schedNextThreadRr : Ensures (R s) (s.schedNextThreadRr layout) := by
  unfold Kernel.schedNextThreadRr
  refine Ensures.skip fun p => ?_
  refine Ensures.skip fun t => ?_
  refine (quiet.updateThreadStateRr s t none).bind fun s₁ kept => ?_
  have started : ∀ s₂, R s₁ s₂ → Ensures (R s) (s₂.taskSwitch t) :=
    fun s₂ kept' => (quiet.taskSwitch s₂ t).mono fun _ switched =>
      quiet.trans kept (quiet.trans kept' switched)
  exact started _ (quiet.of_eq rfl rfl rfl rfl rfl)

theorem schedule : Ensures (R s) (s.schedule layout) := by
  have decided : Ensures (fun next => R s next.2) s.updateSchedDataRr.needsSchedRr := by
    unfold Kernel.needsSchedRr
    split
    · exact .ok (quiet.of_eq rfl rfl rfl rfl rfl)
    · refine Ensures.skip fun p => ?_
      split
      · exact .ok (quiet.of_eq rfl rfl rfl rfl rfl)
      · exact .ok (quiet.of_eq rfl rfl rfl rfl rfl)
  unfold Kernel.schedule
  refine decided.bind ?_
  rintro ⟨scheduler, s₁⟩ kept
  dsimp only
  split
  · refine Ensures.skip fun p => ?_
    refine (quiet.updateProcessStateRr _ p _).bind fun s₂ kept' => ?_
    refine (quiet.updateThreadStateRr _ _ _).bind fun s₃ kept'' => ?_
    exact (quiet.schedNextProcessRr layout s₃).mono fun s₄ switched =>
      quiet.trans kept (quiet.trans kept' (quiet.trans kept'' switched))
  · split
    · refine Ensures.skip fun p => ?_
      refine (quiet.updateThreadStateRr _ _ _).bind fun s₂ kept' => ?_
      exact (quiet.schedNextThreadRr layout s₂).mono fun s₃ switched =>
        quiet.trans kept (quiet.trans kept' switched)
    · exact .ok kept

/-! ## Process and thread calls -/

theorem freeThreadsOf (head : Node) (fuel : Nat) :
    Ensures (R s) (Kernel.freeThreadsOf layout head fuel s) := by
  induction fuel generalizing s with
  | zero => exact .error _
  | succ fuel induction =>
      unfold Kernel.freeThreadsOf
      split
      · exact .ok (quiet.refl s)
      · refine Ensures.skip fun t => ?_
        refine (quiet.listDel s _).bind fun s₁ kept => ?_
        refine (quiet.listAddTail s₁ _ _).bind fun s₂ kept' => ?_
        exact (induction _).mono fun s₃ rest =>
          quiet.trans kept (quiet.trans kept' (quiet.after rest rfl rfl rfl rfl rfl))

theorem sysYield : Ensures (fun next => R s next.1) (s.sysYield layout) := by
  have forced : Ensures (R s) (s.forceThreadSwitch layout) := by
    unfold Kernel.forceThreadSwitch
    refine Ensures.skip fun p => ?_
    refine (quiet.updateThreadStateRr _ _ _).bind fun s₁ kept => ?_
    exact (quiet.schedNextThreadRr layout s₁).mono fun _ => quiet.trans kept
  exact forced.bind fun s₁ kept => .ok kept

theorem sysPthreadJoin (id : Word) :
    Ensures (fun next => R s next.1) (s.sysPthreadJoin layout id) := by
  unfold Kernel.sysPthreadJoin
  refine Ensures.skip fun p => ?_
  split
  · exact .ok (quiet.refl s)
  · refine Ensures.skip fun tid => ?_
    refine (quiet.updateThreadStateRr _ _ _).bind fun s₁ kept => ?_
    refine (quiet.schedNextThreadRr layout s₁).bind fun s₂ switched => ?_
    exact .ok (quiet.after (quiet.trans kept switched) rfl rfl rfl rfl rfl)

theorem wakeJoiner (p : TaskId) (t : ThreadPtr) :
    Ensures (R s) (s.wakeJoiner p t) := by
  unfold Kernel.wakeJoiner
  split
  · exact quiet.updateThreadStateRr s t _
  · exact .ok (quiet.refl s)

theorem wakeLoop (p : TaskId) (i : Node) (fuel : Nat) :
    Ensures (R s) (Kernel.wakeLoop layout p i fuel s) := by
  induction fuel generalizing s with
  | zero => exact .error _
  | succ fuel induction =>
      unfold Kernel.wakeLoop
      dsimp only
      split
      · exact .ok (quiet.refl s)
      · refine Ensures.skip fun t => ?_
        refine (quiet.wakeJoiner s p t).bind fun s₁ kept => ?_
        refine (quiet.listDel s₁ _).bind fun s₂ kept' => ?_
        refine (quiet.listAddTail s₂ _ _).bind fun s₃ kept'' => ?_
        exact (induction s₃).mono fun s₄ rest =>
          quiet.trans kept (quiet.trans kept' (quiet.trans kept'' rest))

theorem wakeJoiners (p : TaskId) : Ensures (R s) (s.wakeJoiners layout p) := by
  unfold Kernel.wakeJoiners
  split
  · exact .ok (quiet.refl s)
  · refine (quiet.listDel s _).bind fun s₁ kept => ?_
    refine (quiet.listAddTail s₁ _ _).bind fun s₂ kept' => ?_
    refine (quiet.wakeLoop layout s₂ p _ _).bind fun s₃ kept'' => ?_
    refine Ensures.skip fun t => ?_
    exact (quiet.wakeJoiner s₃ p t).mono fun s₄ woken =>
      quiet.trans kept (quiet.trans kept' (quiet.trans kept'' woken))

theorem sysPthreadExit :
    Ensures (fun next => R s next.1) (s.sysPthreadExit layout) := by
  unfold Kernel.sysPthreadExit
  refine (quiet.listAddTail s _ _).bind fun s₁ kept => ?_
  refine Ensures.skip fun p => ?_
  refine (quiet.wakeJoiners layout s₁ p).bind fun s₂ kept' => ?_
  refine (quiet.schedNextThreadRr layout s₂).bind fun s₃ switched => ?_
  exact .ok (quiet.trans kept (quiet.trans kept' switched))

/-! ## Mutexes -/

theorem sysMutexLock (n : Int) :
    Ensures (fun next => R s next.1) (s.sysMutexLock layout n) := by
  unfold Kernel.sysMutexLock
  split
  · exact .ok (quiet.refl s)
  · split
    · exact .ok (quiet.refl s)
    · split
      · refine (quiet.listAddTail _ _ _).bind fun s₁ kept => ?_
        refine (quiet.schedNextThreadRr layout s₁).bind fun s₂ switched => ?_
        exact .ok (quiet.after (quiet.trans kept switched) rfl rfl rfl rfl rfl)
      · rename_i m _ _ _
        have taken : R s (s.setMutex m fun mutex => { mutex with locked := 1 }) :=
          quiet.setMutex _ _ _ rfl
        exact .ok taken

theorem sysMutexUnlock (n : Int) :
    Ensures (fun next => R s next.1) (s.sysMutexUnlock layout n) := by
  unfold Kernel.sysMutexUnlock
  split
  · exact .ok (quiet.refl s)
  · rename_i m _
    split
    · exact .ok (quiet.refl s)
    · split
      · exact .ok (quiet.refl s)
      · refine Ensures.skip fun t => ?_
        refine Ensures.skip fun p => ?_
        refine (quiet.updateThreadStateRr s t _).bind fun s₁ kept => ?_
        have freed : R s₁ (s₁.setMutex m fun mutex => { mutex with locked := 0 }) :=
          quiet.setMutex _ _ _ rfl
        split
        · exact .ok (quiet.trans kept freed)
        · exact .ok kept

theorem releaseWaiters (m : MutexId) (fuel : Nat) :
    Ensures (R s) (Kernel.releaseWaiters layout m fuel s) := by
  induction fuel generalizing s with
  | zero => exact .error _
  | succ fuel induction =>
      unfold Kernel.releaseWaiters
      split
      · exact .ok (quiet.refl s)
      · refine Ensures.skip fun t => ?_
        refine (quiet.listDel s _).bind fun s₁ kept => ?_
        refine Ensures.skip fun p => ?_
        refine (quiet.updateThreadStateRr s₁ t _).bind fun s₂ kept' => ?_
        exact (induction s₂).mono fun s₃ rest => quiet.trans kept (quiet.trans kept' rest)

/-! ## Steps -/

/-- Every step but those that set owners, page tables or frames. -/
theorem perform (action : Action) (notOwning : ¬action.Owning) (notPaging : ¬action.Paging) :
    Ensures (fun next => R s next.1) (s.perform layout action) := by
  have entered : ∀ (s₁ : Kernel) {result : Except Fault (Kernel × Result)},
      s₁.mutexVector = s.mutexVector → s₁.task = s.task → s₁.stack = s.stack → s₁.mem = s.mem →
      Ensures (fun next => R s₁ next.1) result → Ensures (fun next => R s next.1) result :=
    fun _ _ mutexVector task stack mem ensures => ensures.mono fun _ kept =>
      quiet.after kept mutexVector task stack (by rw [mem]) (by rw [mem])
  cases action with
  | tick =>
      have switched := quiet.schedule layout (s.enter layout .clock)
      exact switched.bind fun _ kept => .ok (quiet.after kept rfl rfl rfl rfl rfl)
  | fork stack => exact absurd trivial notPaging
  | pthreadCreate stack id startRoutine => exact absurd trivial notPaging
  | pthreadJoin id =>
      exact entered (s.enter layout .pthreadJoin) rfl rfl rfl rfl (quiet.sysPthreadJoin layout _ id)
  | pthreadExit =>
      exact entered (s.enter layout .pthreadExit) rfl rfl rfl rfl (quiet.sysPthreadExit layout _)
  | yield => exact entered (s.enter layout .yield) rfl rfl rfl rfl (quiet.sysYield layout _)
  | exit => exact absurd trivial notPaging
  | mutexInit n => exact absurd trivial notOwning
  | mutexLock n =>
      exact entered (s.enter layout .mutexLock) rfl rfl rfl rfl (quiet.sysMutexLock layout _ n)
  | mutexUnlock n => exact quiet.sysMutexUnlock layout s n
  | mutexDestroy n => exact absurd trivial notOwning
  | store addr value =>
      refine .ok ?_
      unfold userStore
      dsimp only
      split
      · exact quiet.of_eq rfl rfl rfl rfl rfl
      · exact quiet.refl s
  | others bytes => exact .ok (quiet.of_eq rfl rfl rfl rfl rfl)

end Quiet

variable (layout : Layout) (s : Kernel)

theorem Framed.quiet : Quiet Framed where
  of_eq mutexVector task _ pagusrTable physMem :=
    { Retained.of_eq mutexVector task with
      pagusrTable := pagusrTable
      physMem := physMem }
  trans := Framed.trans
  setTask := Framed.setTask
  setMutex := Framed.setMutex

/-! ## Calls that make or free threads -/

theorem framed_copyThreadUnion (dest : ThreadPtr) :
    Ensures (Framed s) (s.copyThreadUnion dest) := by
  unfold copyThreadUnion
  split
  · exact .ok (.of_eq rfl rfl rfl)
  · exact .error _

theorem retained_forkPages (processPT : TaskId) :
    Ensures (Retained s) (s.forkPages processPT) := by
  unfold forkPages
  refine Ensures.skip fun p => ?_
  refine Ensures.skip fun parentPT => ?_
  refine Ensures.skip fun mem => ?_
  exact (Framed.quiet.setCr3 _ p).mono fun s₁ switched => switched.toRetained.after rfl rfl

theorem retained_forkChild (uchild : TaskId) (uthread : ThreadPtr) :
    Retained s ((s.forkTask uchild).forkThread layout uchild uthread) := by
  have made : Retained s (s.forkTask uchild) := by
    refine ⟨fun _ => rfl, fun other => .inl ?_⟩
    by_cases same : other = uchild
    · simp [forkTask, setTask, same]
    · simp [forkTask, setTask, same]
  have counted : ∀ s₁ : Kernel, Retained s₁ (s₁.forkThread layout uchild uthread) := fun s₁ =>
    .trans (.setTask s₁ uchild (fun c => { c with nthread := c.nthread + 1 }) (.inl rfl))
      (.of_eq rfl rfl)
  exact made.trans (counted _)

theorem retained_sysFork : Ensures (fun next => Retained s next.1) (s.sysFork layout) := by
  unfold sysFork
  split
  · exact .ok (.of_eq rfl rfl)
  · split
    · exact .ok (.of_eq rfl rfl)
    · refine (Framed.quiet.listDel s _).bind fun s₁ framed => ?_
      refine (Framed.quiet.listDel s₁ _).bind fun s₂ framed' => ?_
      refine Ensures.skip fun uchild => ?_
      refine Ensures.skip fun uthread => ?_
      refine (s₂.framed_copyThreadUnion uthread).bind fun s₃ framed'' => ?_
      have copied := framed.trans (framed'.trans framed'')
      have taken : Retained s (s₃.allocateDIR uchild) :=
        copied.toRetained.trans (.setTask _ _ _ (.inr rfl))
      refine Ensures.skip fun processPT => ?_
      split
      · refine (Framed.quiet.listAddTail _ _ _).bind fun s₄ returned => ?_
        exact .ok (taken.trans (returned.toRetained.after rfl rfl))
      · refine (retained_forkPages _ processPT).bind fun s₄ paged => ?_
        refine (Framed.quiet.listAddTail _ _ _).bind fun s₅ ready => ?_
        refine (Framed.quiet.listAddTail _ _ _).bind fun s₆ ready' => ?_
        have made := retained_forkChild layout s₄ uchild uthread
        have linked := paged.trans (made.trans (ready.trans ready').toRetained)
        exact .ok (taken.trans (linked.after rfl rfl))

theorem retained_createStack (uthread : ThreadPtr) (processPT : TaskId) :
    Ensures (Retained s) (s.createStack uthread processPT) := by
  unfold createStack
  refine Ensures.skip fun entry => ?_
  exact .ok (.of_eq rfl rfl)

theorem retained_sysPthreadCreate (id startRoutine : Word) :
    Ensures (fun next => Retained s next.1) (s.sysPthreadCreate layout id startRoutine) := by
  unfold sysPthreadCreate
  split
  · exact .ok (.of_eq rfl rfl)
  · split
    · exact .ok (.of_eq rfl rfl)
    · refine Ensures.skip fun uthread => ?_
      refine (Framed.quiet.listDel s _).bind fun s₁ framed => ?_
      refine (s₁.framed_copyThreadUnion uthread).bind fun s₂ framed' => ?_
      refine Ensures.skip fun p => ?_
      refine Ensures.skip fun processPT => ?_
      refine (retained_createStack _ uthread processPT).bind fun s₃ stacked => ?_
      have counted : Retained s₃ (s₃.createThread uthread p) :=
        .trans (.setTask s₃ p (fun c => { c with nthread := c.nthread + 1 }) (.inl rfl))
          (.of_eq rfl rfl)
      refine Ensures.skip fun mem => ?_
      refine (Framed.quiet.listAddTail _ _ _).bind fun s₄ ready => ?_
      have linked := stacked.trans (counted.trans (ready.toRetained.after rfl rfl))
      exact .ok ((framed.trans framed').toRetained.trans (linked.after rfl rfl))

theorem retained_sysExit : Ensures (fun next => Retained s next.1) (s.sysExit layout) := by
  unfold sysExit
  refine Ensures.skip fun p => ?_
  refine Ensures.skip fun processPT => ?_
  refine (Framed.quiet.listAddTail _ _ _).bind fun s₁ framed => ?_
  refine (Framed.quiet.freeThreadsOf layout _ _ _).bind fun s₂ framed' => ?_
  refine (Framed.quiet.freeThreadsOf layout _ _ _).bind fun s₃ framed'' => ?_
  refine (Framed.quiet.schedNextProcessRr layout s₃).bind fun s₄ switched => ?_
  have ended : Framed s₁ (s₁.setTask p fun c => { c with pid := -1 }) := .setTask _ _ _ rfl
  have ended' := framed.trans (ended.trans (framed'.trans (framed''.trans switched)))
  exact .ok (ended'.toRetained.after rfl rfl)

/-! ## Steps -/

/-- `mutex_init` returns 0 after it has set the owner, and otherwise changes nothing. -/
theorem sysMutexInit_cases (n : Int) :
    Ensures (fun next => next.1.mem = s.mem ∧ ((next.2 ≠ .returns 0 ∧ next.1 = s) ∨
      next.2 = .returns 0 ∧ ∃ m, mutexIndex n = some m ∧ next.1.task = s.task ∧
        ∀ other, other ≠ m → next.1.mutexVector other = s.mutexVector other))
      (s.sysMutexInit n) := by
  unfold sysMutexInit
  split
  · exact .ok ⟨rfl, .inl ⟨by simp [EINVAL], rfl⟩⟩
  · rename_i m accepted
    split
    · exact .ok ⟨rfl, .inl ⟨by simp [EBUSY], rfl⟩⟩
    · unfold initListHead
      rw [bind_assoc]
      refine Ensures.skip fun heap => .ok ⟨rfl, .inr ⟨rfl, m, accepted, rfl, ?_⟩⟩
      exact fun other different => by simp [setMutex, different]

/-- `mutex_destroy` returns 0 after it has cleared the owner, and otherwise changes nothing. -/
theorem sysMutexDestroy_cases (n : Int) :
    Ensures (fun next => (next.2 ≠ .returns 0 ∧ next.1 = s) ∨
      next.2 = .returns 0 ∧ ∃ m, mutexIndex n = some m ∧ (next.1.mutexVector m).owner = 0 ∧
        ∃ released, Framed s released ∧ next.1.task = released.task ∧
          next.1.mem = released.mem ∧
          ∀ other, other ≠ m → next.1.mutexVector other = released.mutexVector other)
      (s.sysMutexDestroy layout n) := by
  unfold sysMutexDestroy
  split
  · exact .ok (.inl ⟨by simp [EINVAL], rfl⟩)
  · rename_i m accepted
    split
    · exact .ok (.inl ⟨by simp [EINVAL], rfl⟩)
    · split
      · exact .ok (.inl ⟨by simp [EPERM], rfl⟩)
      · refine (Framed.quiet.releaseWaiters layout s m _).bind fun released framed => ?_
        refine .ok (.inr ⟨rfl, m, accepted, by simp [setMutex], released, framed, rfl, rfl, ?_⟩)
        exact fun other different => by simp [setMutex, different]

/-- Every step but `mutex_init` and `mutex_destroy` keeps the owners of all mutexes. -/
theorem retained_perform (action : Action) (notOwning : ¬action.Owning) :
    Ensures (fun next => Retained s next.1) (s.perform layout action) := by
  have entered : ∀ (s₁ : Kernel) {result : Except Fault (Kernel × Result)},
      s₁.mutexVector = s.mutexVector → s₁.task = s.task →
      Ensures (fun next => Retained s₁ next.1) result →
      Ensures (fun next => Retained s next.1) result :=
    fun _ _ mutexVector task ensures => ensures.mono fun _ kept => kept.after mutexVector task
  cases action with
  | fork stack => exact entered (s.enterWith stack) rfl rfl (retained_sysFork layout _)
  | pthreadCreate stack id startRoutine =>
      exact entered (s.enterWith stack) rfl rfl (retained_sysPthreadCreate layout _ id startRoutine)
  | exit => exact entered (s.enter layout .exit) rfl rfl (retained_sysExit layout _)
  | _ => exact (Framed.quiet.perform layout s _ notOwning id).mono fun _ framed => framed.toRetained

/-- Every step keeps the page directories or sets them to those of their processes. -/
theorem directory_perform (action : Action) :
    Ensures (fun next => ∀ p, (next.1.task p).dirPagesBaseAddr = (s.task p).dirPagesBaseAddr ∨
      (next.1.task p).dirPagesBaseAddr = some p) (s.perform layout action) := by
  cases action with
  | mutexInit n =>
      refine (s.sysMutexInit_cases n).mono fun next outcome p => ?_
      rcases outcome.2 with ⟨_, kept⟩ | ⟨_, m, _, task, _⟩
      · exact .inl (by rw [kept])
      · exact .inl (by rw [task])
  | mutexDestroy n =>
      refine (sysMutexDestroy_cases layout s n).mono fun next outcome p => ?_
      rcases outcome with ⟨_, kept⟩ | ⟨_, m, _, _, released, framed, task, _⟩
      · exact .inl (by rw [kept])
      · rw [task]
        exact framed.directory p
  | _ => exact (retained_perform layout s _ id).mono fun _ kept => kept.directory

/-- Every step but `fork`, `pthread_create` and `exit` keeps page tables and frames. -/
theorem tables_perform (action : Action) (notPaging : ¬action.Paging) :
    Ensures (fun next => next.1.mem.pagusrTable = s.mem.pagusrTable ∧
      next.1.mem.physMem = s.mem.physMem) (s.perform layout action) := by
  cases action with
  | mutexInit n =>
      refine (s.sysMutexInit_cases n).mono fun next outcome => ?_
      rw [outcome.1]
      exact ⟨rfl, rfl⟩
  | mutexDestroy n =>
      refine (sysMutexDestroy_cases layout s n).mono fun next outcome => ?_
      rcases outcome with ⟨_, kept⟩ | ⟨_, m, _, _, released, framed, _, mem, _⟩
      · rw [kept]
        exact ⟨rfl, rfl⟩
      · rw [mem]
        exact ⟨framed.pagusrTable, framed.physMem⟩
  | _ =>
      exact (Framed.quiet.perform layout s _ id notPaging).mono fun _ framed =>
        ⟨framed.pagusrTable, framed.physMem⟩

end Kernel

end Zeos
