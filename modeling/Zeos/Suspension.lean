import Zeos.Resumption

/-!
# Kernel stacks of threads that do not run

`fork` and `pthread_create` write the kernel stack of the thread they take.  From then on nothing
writes this stack and the stack pointer to it until the thread runs or is free again.
-/

namespace Zeos

open IntrusiveList GuardedRun Kernel

/-- The kernel stack of a child: that of its parent with the frame of `sys_fork` moved down one word
and the address of `ret_from_fork` where the frame was. -/
def Layout.childStack (layout : Layout) (stack : Nat → Word) : Nat → Word :=
  Function.update (Function.update stack syscallFrame layout.retFromFork) (syscallFrame - 1)
    (stack syscallFrame)

/-- The kernel stack of a new thread: that of its creator with no saved frame pointer, and with the
instruction and the stack pointer that the thread starts with. -/
def startStack (stack : Nat → Word) (startRoutine logAdress : Word) : Nat → Word :=
  Function.update (Function.update (Function.update stack syscallFrame 0) (kernelStackSize - 5)
    startRoutine) (kernelStackSize - 2) logAdress

/-- The address that `pthread_create` leaves as stack pointer: the end of the stack page. -/
def StackPage.logAdress (page : StackPage) : Word := BitVec.ofNat 32 ((page.page + 1) * pageSize)

namespace Kernel

/-! ## Steps that write no kernel stack -/

theorem Quiet.stacks : Quiet fun s s' => s'.stack = s.stack where
  of_eq _ _ stack _ _ := stack
  trans kept kept' := kept'.trans kept
  setTask _ _ _ _ := rfl
  setMutex _ _ _ _ := rfl

variable (layout : Layout) (s : Kernel)

theorem stack_sysExit :
    Ensures (fun next => next.1.stack = s.stack) (s.sysExit layout) := by
  unfold sysExit
  refine Ensures.skip fun p => ?_
  refine Ensures.skip fun processPT => ?_
  refine (Quiet.stacks.listAddTail _ _ _).bind fun s₁ listed => ?_
  refine (Quiet.stacks.freeThreadsOf layout _ _ _).bind fun s₂ freed => ?_
  refine (Quiet.stacks.freeThreadsOf layout _ _ _).bind fun s₃ freed' => ?_
  refine (Quiet.stacks.schedNextProcessRr layout s₃).bind fun s₄ switched => ?_
  exact .ok (switched.trans (freed'.trans (freed.trans listed)))

theorem stack_sysMutexInit (n : Int) :
    Ensures (fun next => next.1.stack = s.stack) (s.sysMutexInit n) := by
  unfold sysMutexInit
  split
  · exact .ok rfl
  · split
    · exact .ok rfl
    · exact (Quiet.stacks.initListHead _ _).bind fun s₁ kept => .ok kept

theorem stack_sysMutexDestroy (n : Int) :
    Ensures (fun next => next.1.stack = s.stack) (s.sysMutexDestroy layout n) := by
  unfold sysMutexDestroy
  split
  · exact .ok rfl
  · split
    · exact .ok rfl
    · split
      · exact .ok rfl
      · exact (Quiet.stacks.releaseWaiters layout s _ _).bind fun s₁ kept => .ok kept

/-! ## New threads -/

theorem copies_copyThreadUnion (dest : ThreadPtr) :
    Ensures (fun s' => ∃ u heap, dest = .slot u ∧ s' = { s with
      thread := Function.update s.thread dest (s.thread s.current)
      stack := Function.update s.stack dest (s.stack s.current)
      heap }) (s.copyThreadUnion dest) := by
  unfold copyThreadUnion
  split
  · exact .ok ⟨_, _, rfl, rfl⟩
  · exact .error _

theorem maps_forkPages (processPT : TaskId) :
    Ensures (fun s' => ∃ mem cr3, s' = { s with mem, cr3 }) (s.forkPages processPT) := by
  unfold forkPages
  refine Ensures.skip fun p => ?_
  refine Ensures.skip fun parentPT => ?_
  refine Ensures.skip fun mem => ?_
  unfold setCr3
  dsimp only
  split
  · exact .ok ⟨_, _, rfl⟩
  · exact .error _

theorem stack_forkThread (child : TaskId) (u : ThreadPtr) :
    ((s.forkTask child).forkThread layout child u).stack =
      Function.update s.stack u (layout.childStack (s.stack u)) := by
  show Function.update (Function.update s.stack u _) u (Function.update (Function.update s.stack u
    (Function.update (s.stack u) syscallFrame layout.retFromFork) u) _ (s.stack u _)) = _
  rw [Function.update_self, Function.update_idem]
  rfl

theorem child_forkThread (child : TaskId) (u : ThreadPtr) :
    (((s.forkTask child).forkThread layout child u).task child).pid = s.globalPID + 1 ∧
      (((s.forkTask child).forkThread layout child u).thread u).p = .slot child ∧
      (((s.forkTask child).forkThread layout child u).thread u).registerEsp =
        .on u (syscallFrame - 1) := by
  simp [forkTask, forkThread, setStack]

/-- `fork` writes the stack of the thread it takes. -/
theorem stack_sysFork :
    Ensures (fun next => (∀ x, s.firstFree layout ≠ some x → next.1.stack x = s.stack x) ∧
      (next.1.globalPID = s.globalPID + 1 → ∃ u child, s.firstFree layout = some (.slot u) ∧
        next.2 = .returns (s.globalPID + 1).toInt ∧ (next.1.thread (.slot u)).p = .slot child ∧
        (next.1.task child).pid = s.globalPID + 1 ∧
        (next.1.thread (.slot u)).registerEsp = .on (.slot u) (syscallFrame - 1) ∧
        next.1.stack (.slot u) = layout.childStack (s.stack s.current)))
      (s.sysFork layout) := by
  have uncounted : s.globalPID ≠ s.globalPID + 1 := by simp
  unfold sysFork
  split
  · exact .ok ⟨fun _ _ => rfl, fun counted => absurd counted uncounted⟩
  · split
    · exact .ok ⟨fun _ _ => rfl, fun counted => absurd counted uncounted⟩
    · refine (relinks_listDel _ _).bind ?_
      rintro _ ⟨heap, rfl⟩
      refine (relinks_listDel _ _).bind ?_
      rintro _ ⟨heap', rfl⟩
      refine Ensures.skip fun child => ?_
      cases taken : listHeadToThreadStruct layout (s.listFirst .freeThreadqueue) with
      | error fault => exact .error _
      | ok uthread =>
          rw [ok_bind]
          refine (copies_copyThreadUnion _ _).bind ?_
          rintro _ ⟨u, heap'', rfl, rfl⟩
          have first : s.firstFree layout = some (.slot u) := by rw [firstFree, taken]; rfl
          have others : ∀ {x}, s.firstFree layout ≠ some x → x ≠ .slot u :=
            fun fresh same => fresh (same ▸ first)
          refine Ensures.skip fun processPT => ?_
          generalize Memory.allocDataPages processPT numPagData 0 _ = allocated
          obtain ⟨done, mem⟩ := allocated
          cases done with
          | false =>
              refine (relinks_listAddTail _ _ _).bind ?_
              rintro _ ⟨heap₁, rfl⟩
              refine .ok ⟨fun x fresh => ?_, fun counted => absurd counted uncounted⟩
              exact Function.update_of_ne (others fresh) ..
          | true =>
              refine (maps_forkPages _ _).bind ?_
              rintro _ ⟨mem', cr3, rfl⟩
              refine (relinks_listAddTail _ _ _).bind ?_
              rintro _ ⟨heap₁, rfl⟩
              refine (relinks_listAddTail _ _ _).bind ?_
              rintro _ ⟨heap₂, rfl⟩
              have pid := fun k : Kernel => (child_forkThread layout k child (.slot u)).1
              refine .ok ⟨fun x fresh => ?_, fun _ => ⟨u, child, first,
                congrArg (fun pid : Word => Result.returns pid.toInt) (pid _),
                (child_forkThread layout _ child _).2.1, pid _,
                (child_forkThread layout _ child _).2.2, ?_⟩⟩
              · dsimp only
                rw [stack_forkThread, Function.update_of_ne (others fresh)]
                exact Function.update_of_ne (others fresh) ..
              · dsimp only
                rw [stack_forkThread, Function.update_self]
                exact congrArg layout.childStack (Function.update_self ..)

/-- A thread has been made a copy of the running one, with the words of `createContext`. -/
structure Prepared (s s' : Kernel) (u : ThreadSlot) (startRoutine : Word) : Prop where
  stack : s'.stack = Function.update s.stack (.slot u) (Function.update (Function.update
    (s.stack s.current) syscallFrame 0) (kernelStackSize - 5) startRoutine)
  registerEsp : (s'.thread (.slot u)).registerEsp = .on (.slot u) syscallFrame
  process : (s'.thread s'.current).p = (s.thread s.current).p
  task : s'.task = s.task
  mem : s'.mem = s.mem

theorem prepared_copyThreadUnion (dest : ThreadPtr) (startRoutine : Word) :
    Ensures (fun s' => ∃ u, dest = .slot u ∧
      Prepared s (s'.createContext dest startRoutine) u startRoutine) (s.copyThreadUnion dest) := by
  refine (s.copies_copyThreadUnion dest).mono ?_
  rintro _ ⟨u, heap, rfl, rfl⟩
  refine ⟨u, rfl, ?_, ?_, ?_, rfl, rfl⟩
  · simp [createContext, setStack, setThread]
  · simp [createContext, setStack]
  · by_cases own : s.current = .slot u
    · simp [createContext, setStack, own]
    · simp [createContext, setStack, own]

/-- `pthread_create` writes the stack of the thread it takes. -/
theorem stack_sysPthreadCreate (directories : s.OwnDirectories) (id startRoutine : Word) :
    Ensures (fun next => (∀ x, s.firstFree layout ≠ some x → next.1.stack x = s.stack x) ∧
      (next.2 = .returns 0 → ∃ u page, s.firstFree layout = some (.slot u) ∧
        s.newStack = some page ∧
        (next.1.thread (.slot u)).registerEsp = .on (.slot u) syscallFrame ∧
        next.1.stack (.slot u) = startStack (s.stack s.current) startRoutine page.logAdress))
      (s.sysPthreadCreate layout id startRoutine) := by
  unfold sysPthreadCreate
  split
  · exact .ok ⟨fun _ _ => rfl, by simp [EFAULT]⟩
  · split
    · exact .ok ⟨fun _ _ => rfl, by simp [ENOMEM]⟩
    · cases taken : listHeadToThreadStruct layout (s.listFirst .freeThreadqueue) with
      | error fault =>
          dsimp only
          rw [taken]
          exact .error _
      | ok uthread =>
          dsimp only
          rw [taken, ok_bind]
          refine (relinks_listDel _ _).bind ?_
          rintro _ ⟨heap, rfl⟩
          refine (prepared_copyThreadUnion _ uthread startRoutine).bind ?_
          rintro s₁ ⟨u, rfl, prepared⟩
          have first : s.firstFree layout = some (.slot u) := by rw [firstFree, taken]; rfl
          have others : ∀ {x}, s.firstFree layout ≠ some x → x ≠ .slot u :=
            fun fresh same => fresh (same ▸ first)
          generalize s₁.createContext (.slot u) startRoutine = s₂ at *
          rintro next created
          obtain ⟨p, current, created⟩ := bind_eq_ok.mp created
          obtain ⟨row, table, created⟩ := bind_eq_ok.mp created
          obtain ⟨s₃, stacked, created⟩ := bind_eq_ok.mp created
          obtain ⟨entry, found, mapped⟩ := bind_eq_ok.mp stacked
          obtain ⟨mem', stored, created⟩ := bind_eq_ok.mp created
          obtain ⟨s₄, linked, result⟩ := bind_eq_ok.mp created
          obtain ⟨heap', rfl⟩ := relinks_listAddTail _ _ _ _ linked
          have process : s.currentP = .ok p := currentP_eq_ok.mpr
            (prepared.process.symm.trans (currentP_eq_ok.mp current))
          have directory : (s.task p).dirPagesBaseAddr = some row :=
            prepared.task ▸ getPT_eq_ok.mp table
          obtain rfl : p = row := by
            rcases directories p with none | own
            · exact absurd (none.symm.trans directory) (by simp)
            · exact Option.some.inj (own.symm.trans directory)
          have search : s.newStack = some
              { process := p, page := entry - entryIndex p 0, frame := s.mem.allocFrame.1 } := by
            have found : s.mem.findStackEntry _ _ = .ok entry := prepared.mem ▸ found
            rw [newStack, process]
            simp only [Except.toOption, Option.bind_eq_bind, Option.bind_some, found]
            rfl
          have stack : next.1.stack = Function.update s₂.stack (.slot u) (Function.update
              (s₂.stack (.slot u)) (kernelStackSize - 2)
              (BitVec.ofNat 32 ((entry - entryIndex p 0 + 1) * pageSize))) := by
            rw [← Except.ok.inj result, ← Except.ok.inj mapped]
            rfl
          refine ⟨fun x fresh => ?_, fun _ => ⟨u, _, first, search, ?_, ?_⟩⟩
          · rw [stack, Function.update_of_ne (others fresh), prepared.stack]
            exact Function.update_of_ne (others fresh) ..
          · rw [← prepared.registerEsp, ← Except.ok.inj result, ← Except.ok.inj mapped]
            simp [createThread, setStack]
          · rw [stack, Function.update_self, prepared.stack, Function.update_self]
            rfl

/-- A step writes at most the stacks of the running thread and of the first free one. -/
theorem stack_perform (directories : s.OwnDirectories) (action : Action) :
    Ensures (fun next => ∀ x, x ≠ s.current → s.firstFree layout ≠ some x →
      next.1.stack x = s.stack x) (s.perform layout action) := by
  have others : ∀ {next : Kernel × Result}, next.1.stack = s.stack →
      ∀ x, x ≠ s.current → s.firstFree layout ≠ some x → next.1.stack x = s.stack x :=
    fun kept x _ _ => congrFun kept x
  have entered : ∀ {stack : Nat → Word} {x : ThreadPtr}, x ≠ s.current →
      (s.enterWith stack).stack x = s.stack x := fun other => Function.update_of_ne other ..
  cases action with
  | fork stack =>
      refine (stack_sysFork layout (s.enterWith stack)).mono fun next kept x other fresh => ?_
      exact (kept.1 x fresh).trans (entered other)
  | pthreadCreate stack id startRoutine =>
      refine (stack_sysPthreadCreate layout (s.enterWith stack) directories id startRoutine).mono
        fun next kept x other fresh => ?_
      exact (kept.1 x fresh).trans (entered other)
  | exit => exact (stack_sysExit layout (s.enter layout .exit)).mono fun _ => others
  | mutexInit n => exact (stack_sysMutexInit s n).mono fun _ => others
  | mutexDestroy n => exact (stack_sysMutexDestroy layout s n).mono fun _ => others
  | _ => exact (Quiet.stacks.perform layout s _ id id).mono fun _ => others

end Kernel

variable {layout : Layout} {s s' s₀ s₁ : Kernel} {q q' : Queues} {action : Action} {result : Result}
  {t : ThreadPtr} {u : ThreadSlot}

/-! ## Saved stack pointers -/

/-- Without a switch at most the first free thread gets a stack pointer. -/
theorem Stay.registerEsp (stay : Stay layout s q action s' q' result) (orderly : Orderly s q)
    (fresh : s.firstFree layout ≠ some t) :
    (s'.thread t).registerEsp = (s.thread t).registerEsp := by
  have other : ∀ {u others}, q.threads .free = .slot u :: others → t ≠ .slot u :=
    fun free same => fresh (same ▸ orderly.firstFree_eq free)
  cases stay with
  | refused | stored | others | ticked | unlockedFree | locked | initialised => rfl
  | forked free | forkFailed free | created free => simp [other free]
  | unlocked | unlockedNobody | destroyed =>
      simp only [thread_setMutex, thread_setState, releaseStates, Function.update_apply]
      split_ifs <;> simp_all

/-- A step sets at most the stack pointers of the running thread and of the first free one. -/
theorem Move.registerEsp (move : Move layout s q action s' q' result) (orderly : Orderly s q)
    (other : t ≠ s.current) (fresh : s.firstFree layout ≠ some t) :
    (s'.thread t).registerEsp = (s.thread t).registerEsp := by
  cases move with
  | stayed reached stay => exact stay.registerEsp orderly fresh
  | switched reached picked => exact (picked.saveEsp_registerEsp t).trans (if_neg other)

/-! ## Until the first switch -/

namespace Kernel

/-- A thread neither runs nor is free. -/
def Suspended (s : Kernel) (u : ThreadSlot) : Prop :=
  s.current ≠ .slot u ∧ .thread (.slot u) ∉ s.linked .freeThreadqueue

instance (s : Kernel) (u : ThreadSlot) : Decidable (s.Suspended u) :=
  inferInstanceAs (Decidable (_ ∧ _))

/-- The first switch to a thread after the state `s` calls `switch_stack` in the state `s₀`. -/
def FirstSwitch (layout : Layout) (u : ThreadSlot) (s s₀ : Kernel) : Prop :=
  ∃ before action after result, Reaches (step layout) (fun state _ => state.Suspended u) s before ∧
    before.Suspended u ∧ before.upToSwitch layout action = .ok (.inr (s₀, .slot u)) ∧
    before.perform layout action = .ok (after, result)

end Kernel

/-- A suspended thread is not taken. -/
theorem Orderly.firstFree_ne (orderly : Orderly s q) (suspended : s.Suspended u) :
    s.firstFree layout ≠ some (.slot u) := by
  intro first
  have node := orderly.threads.first_threads .free trivial
  rw [ThreadQueue.node_free] at node
  rw [firstFree, node] at first
  cases free : q.threads .free with
  | nil =>
      rw [free] at first
      exact absurd first (by simp [listHeadToThreadStruct, Except.toOption])
  | cons t others =>
      rw [free] at first
      obtain rfl : t = .slot u := Option.some.inj first
      exact suspended.2 ((orderly.threads.linked_iff .free _).mpr (by simp [free]))

/-- What leads to the context of a suspended thread stays as it is. -/
theorem Kernel.Reachable.kept (reachable : Reachable layout anyStep s) (suspended : s.Suspended u)
    (performed : s.perform layout action = .ok (s', result)) :
    s'.stack (.slot u) = s.stack (.slot u) ∧
      (s'.thread (.slot u)).registerEsp = (s.thread (.slot u)).registerEsp := by
  obtain ⟨q, orderly⟩ := reachable.orderly
  obtain ⟨q', move, _⟩ := orderly.step performed
  have fresh : s.firstFree layout ≠ some (.slot u) := orderly.firstFree_ne suspended
  exact ⟨stack_perform layout s reachable.ownDirectories action _ performed _ suspended.1.symm
    fresh, move.registerEsp orderly suspended.1.symm fresh⟩

theorem Kernel.Reachable.step (reachable : Reachable layout anyStep s)
    (stepped : s.step layout action = .ok s') : Reachable layout anyStep s' := by
  obtain ⟨start, booting, reaches⟩ := reachable
  exact ⟨start, booting, reaches.tail ⟨action, trivial, stepped⟩⟩

/-- The first switch to a thread finds the stack and the stack pointer it was made with. -/
theorem Kernel.FirstSwitch.kept (switches : FirstSwitch layout u s s₀)
    (reachable : Reachable layout anyStep s) :
    s₀.stack (.slot u) = s.stack (.slot u) ∧
      (s₀.thread (.slot u)).registerEsp = (s.thread (.slot u)).registerEsp ∧
      s₀.current ≠ .slot u := by
  obtain ⟨before, action, after, result, reaches, suspended, reached, performed⟩ := switches
  obtain ⟨reachable', stack, registerEsp⟩ := reaches.invariant (fun s₁ =>
    Reachable layout anyStep s₁ ∧ s₁.stack (.slot u) = s.stack (.slot u) ∧
      (s₁.thread (.slot u)).registerEsp = (s.thread (.slot u)).registerEsp)
    (by
      rintro s₁ s₂ action ⟨reachable, stack, registerEsp⟩ suspended stepped
      obtain ⟨⟨next, result⟩, performed, equal⟩ := bind_eq_ok.mp stepped
      obtain rfl : next = s₂ := Except.ok.inj equal
      obtain ⟨stack', registerEsp'⟩ := reachable.kept suspended performed
      exact ⟨reachable.step stepped, stack'.trans stack, registerEsp'.trans registerEsp⟩)
    ⟨reachable, rfl, rfl⟩
  obtain ⟨q, orderly⟩ := reachable'.orderly
  obtain ⟨q', move, _⟩ := orderly.step performed
  cases move with
  | stayed reached' => exact absurd (reached.symm.trans reached') (by simp)
  | @switched s₁ t cr3 site threads₀ q₀ reached' picked =>
      obtain ⟨rfl, rfl⟩ : s₀ = s₁ ∧ u = t := by
        simpa using reached.symm.trans reached'
      refine ⟨?_, ?_, ?_⟩
      · rw [← stack]
        exact (reachable'.kept suspended performed).1
      · rw [(picked.process _).2, registerEsp]
      · rw [picked.current]
        exact suspended.1

end Zeos
