import Zeos.AnyRun
import Zeos.KernelImage
import Zeos.Stacks

/-!
# Saved stack pointers

A history of the stack pointers with which threads were suspended last, or made.
`inner_task_switch` reads the one of the thread it switches to before `switch_stack` saves that of
the running thread.
-/

namespace Zeos

open IntrusiveList GuardedRun Kernel

/-- The stack pointers of the latest suspensions. -/
abbrev Suspensions := ThreadPtr → StackPtr

/-- The calls that make a thread. -/
def Action.Makes : Action → Prop
  | .fork _ | .pthreadCreate _ _ _ => True
  | _ => False

instance : DecidablePred Action.Makes
  | .fork _ | .pthreadCreate _ _ _ => isTrue trivial
  | .tick | .pthreadJoin _ | .pthreadExit | .yield | .exit | .mutexInit _ | .mutexLock _
  | .mutexUnlock _ | .mutexDestroy _ | .store _ _ | .others _ => isFalse id

/-- A switch suspends the running thread with the frame pointer of `inner_task_switch`.  `fork` and
`pthread_create` leave a first stack pointer in the thread they take. -/
def recordEsp (layout : Layout) (latest : Suspensions) (s : Kernel) (action : Action) (s' : Kernel)
    (_ : Result) : Suspensions :=
  match s.upToSwitch layout action with
  | .ok (.inr (s₁, _)) => Function.update latest s.current (.on s.current s₁.ebp)
  | _ => fun t =>
      if action.Makes ∧ s.firstFree layout = some t then (s'.thread t).registerEsp else latest t

namespace Kernel

/-- A call of `task_switch` with a thread of a process loads the stack pointer of the latest
suspension of this thread, the one in progress included. -/
def ResumesLatest (layout : Layout) (s : Kernel) (latest : Suspensions) (action : Action) : Prop :=
  ∀ s₁ t p, s.upToSwitch layout action = .ok (.inr (s₁, t)) → (s₁.thread t).p = .slot p →
    (s₁.thread t).registerEsp = Function.update latest s.current (.on s.current s₁.ebp) t

/-- The running thread has been suspended last in the frame of a call site. -/
def SuspendedAt (layout : Layout) (s : Kernel) (site : Site) : Prop :=
  (s.thread s.current).registerEsp = .on s.current (layout.frame site)

instance (layout : Layout) (s : Kernel) (site : Site) : Decidable (s.SuspendedAt layout site) :=
  inferInstanceAs (Decidable (_ = _))

/-- A running thread that is switched to itself, because its process has no other ready thread, has
been suspended last in the same frame: in `yield`, and in a clock tick that finds the running
process first among the ready ones once it has joined them. -/
def SwitchesInFrame (layout : Layout) (s : Kernel) : Action → Prop
  | .yield => s.listEmpty (.ready s.cr3) = true → s.SuspendedAt layout .yield
  | .tick => s.Due → s.listEmpty (.ready s.cr3) = true → ∀ queued,
      (s.enter layout .clock).updateSchedDataRr.updateProcessStateRr s.cr3 (some .readyqueue) =
        .ok queued → queued.listFirst .readyqueue = .task s.cr3 → s.SuspendedAt layout .clock
  | _ => True

end Kernel

variable {layout : Layout} {s s' s₁ : Kernel} {q q' q₀ : Queues} {action : Action} {result : Result}
  {latest : Suspensions} {t : ThreadPtr} {site : Site} {threads₀ : ThreadPtr → ThreadStruct}
  {u : ThreadSlot} {others : List ThreadPtr}

/-- The threads that run or wait have the stack pointers of their latest suspensions. -/
structure Recorded (s : Kernel) (q : Queues) (latest : Suspensions) : Prop where
  waits : ∀ {queue slot}, queue ≠ .free → .slot slot ∈ q.threads queue →
    (s.thread (.slot slot)).registerEsp = latest (.slot slot)
  running : (s.thread s.current).registerEsp = latest s.current

/-- The first free thread. -/
theorem Orderly.firstFree_eq (orderly : Orderly s q) (free : q.threads .free = .slot u :: others) :
    s.firstFree layout = some (.slot u) := by
  have node := orderly.threads.first_threads .free trivial
  rw [free] at node
  rw [firstFree, show s.listFirst .freeThreadqueue = .thread (.slot u) from node]
  rfl

/-- The running thread is the first ready one after it has been parked only in `yield` and in a
clock tick, if its process has no other ready thread. -/
theorem Parks.alone (parks : Parks s q action site threads₀ q₀) (orderly : Orderly s q) {p : TaskId}
    (first : q₀.threads (.ready p) = s.current :: others) : p = s.cr3 ∧
      q.threads (.ready s.cr3) = [] ∧ (action = .tick ∧ site = .clock ∨
        action = .yield ∧ site = .yield) := by
  have outside : ∀ queue, s.current ∉ q.threads queue := orderly.absent
  have member : s.current ∈ q₀.threads (.ready p) := by simp [first]
  have pushed : (q.pushThread (.ready s.cr3) s.current).threads (.ready p) =
      s.current :: others → p = s.cr3 ∧ q.threads (.ready s.cr3) = [] := by
    intro first
    by_cases same : p = s.cr3
    · subst same
      rw [Queues.threads_pushThread, Lanes.push_same] at first
      cases ready : q.threads (.ready s.cr3) with
      | nil => exact ⟨rfl, rfl⟩
      | cons t rest =>
          rw [ready, List.cons_append, List.cons.injEq] at first
          exact absurd (by simp [ready, first.1]) (outside (.ready s.cr3))
    · rw [Queues.threads_pushThread, Lanes.push_other (by simpa using same)] at first
      exact absurd (by simp [first]) (outside (.ready p))
  cases parks with
  | tick => exact ⟨(pushed first).1, (pushed first).2, .inl ⟨rfl, rfl⟩⟩
  | yield => exact ⟨(pushed first).1, (pushed first).2, .inr ⟨rfl, rfl⟩⟩
  | join | lock =>
      rw [Queues.threads_pushThread, Lanes.push_other (by simp)] at member
      exact absurd member (outside _)
  | lost => exact absurd member (outside _)
  | exitThread =>
      by_cases same : p = s.cr3
      · subst same
        rcases Transition.mem_ready_wakeFirst member with ready | blocked
        · exact absurd (by simpa using ready) (outside (.ready s.cr3))
        · exact absurd (by simpa using blocked) (outside (.blocked s.cr3))
      · have kept := Coherent.wakeFirst_subset (by simpa using same) member
        rw [Queues.threads_pushThread, Lanes.push_other (by simp)] at kept
        exact absurd kept (outside _)
  | exit =>
      rw [Queues.threads_drainThreads, Lanes.mem_drain (by simp)] at member
      have kept := member.2.resolve_right fun drained => by simp at drained
      rw [Queues.threads_drainThreads, Lanes.mem_drain (by simp)] at kept
      exact absurd (kept.2.resolve_right fun drained => by simp at drained) (outside _)

/-- A thread that is switched to itself has been suspended in the same frame before. -/
theorem Picked.itself (picked : Picked layout s q action s₁ s.current site threads₀ q₀)
    (orderly : Orderly s q) (busy : s.idleTask ≠ some s.current)
    (switches : s.SwitchesInFrame layout action) : s.SuspendedAt layout site := by
  have empty_eq := orderly.threads.empty_threads (.ready s.cr3) trivial
  rw [ThreadQueue.node_ready] at empty_eq
  cases picked.chosen with
  | idle empty idle => exact absurd idle busy
  | thread first expired =>
      obtain ⟨_, alone, ⟨tick, _⟩ | ⟨rfl, rfl⟩⟩ := picked.parks.alone orderly first
      · exact absurd alone (expired tick).2
      · exact switches (by rw [empty_eq, alone]; rfl)
  | @processTick p _ others queued due requeued firstProcess first =>
      obtain ⟨rfl, alone, ⟨_, rfl⟩ | ⟨wrong, _⟩⟩ := picked.parks.alone orderly first
      · exact switches due (by rw [empty_eq, alone]; rfl) queued requeued firstProcess
      · exact absurd wrong (by simp)
  | processExit first =>
      obtain ⟨_, _, ⟨wrong, _⟩ | ⟨wrong, _⟩⟩ := picked.parks.alone orderly first
      · exact absurd wrong (by simp)
      · exact absurd wrong (by simp)

/-- Every switch loads the stack pointer of the latest suspension unless it switches a thread to
itself in another frame than before. -/
theorem Recorded.resumesLatest (recorded : Recorded s q latest) (orderly : Orderly s q)
    (switches : s.SwitchesInFrame layout action) : s.ResumesLatest layout latest action := by
  intro s₁ t p reached process
  obtain ⟨site, threads₀, q₀, picked⟩ := orderly.arrives action _ reached
  have own : (s.thread t).p = .slot p := (picked.process t).1.symm.trans process
  have busy : s.idleTask ≠ some t := by
    intro idle
    obtain ⟨slot, found, null, _⟩ := orderly.idle
    obtain rfl : ThreadPtr.slot slot = t := Option.some.inj (found.symm.trans idle)
    exact absurd (null.symm.trans own) (by simp)
  rw [(picked.process t).2]
  by_cases same : t = s.current
  · subst same
    rw [Function.update_self, picked.ebp]
    exact picked.itself orderly busy switches
  · rw [Function.update_of_ne same]
    obtain ⟨queue, waits, member⟩ := (picked.source busy).resolve_right same
    cases t with
    | slot slot => exact recorded.waits waits member
    | image page => exact absurd ((orderly.imageP page).symm.trans own) (by simp)

/-! ## What a step keeps -/

/-- Without a switch the running thread goes on, and no stack pointer changes. -/
theorem Stay.running (stay : Stay layout s q action s' q' result) (orderly : Orderly s q) :
    s'.current = s.current ∧
      (s'.thread s.current).registerEsp = (s.thread s.current).registerEsp := by
  have other : ∀ {u others}, q.threads .free = .slot u :: others → s.current ≠ .slot u :=
    fun free => (orderly.ne_of_mem (show _ ∈ q.threads .free by rw [free]; simp)).symm
  cases stay with
  | refused | stored | others | ticked | unlockedFree | locked | initialised => exact ⟨rfl, rfl⟩
  | forked free | forkFailed free | created free => exact ⟨rfl, by simp [other free]⟩
  | unlocked | unlockedNobody | destroyed =>
      refine ⟨rfl, ?_⟩
      simp only [thread_setMutex, thread_setState, releaseStates, Function.update_apply]
      split_ifs <;> simp_all

/-- A thread that waits after a step without a switch has waited before with the same stack pointer,
or is the one that the call has made. -/
theorem Stay.waits (stay : Stay layout s q action s' q' result) (orderly : Orderly s q)
    {queue : ThreadQueue} (busy : queue ≠ .free) (member : .slot u ∈ q'.threads queue) :
    (∃ before, before ≠ .free ∧ .slot u ∈ q.threads before) ∧
        (s'.thread (.slot u)).registerEsp = (s.thread (.slot u)).registerEsp ∨
      action.Makes ∧ s.firstFree layout = some (.slot u) := by
  have separate := orderly.threads.separate
  cases stay with
  | refused | stored | others | ticked | unlockedFree | locked =>
      exact .inl ⟨⟨queue, busy, member⟩, rfl⟩
  | initialised => exact .inl ⟨⟨queue, busy, (Lanes.mem_clear.mp member).2⟩, rfl⟩
  | forked free =>
      rcases Lanes.mem_push.mp member with kept | ⟨_, own⟩
      · obtain ⟨other, before⟩ := separate.mem_remove.mp kept
        exact .inl ⟨⟨queue, busy, before⟩, by simp [other]⟩
      · exact .inr ⟨trivial, own ▸ orderly.firstFree_eq free⟩
  | created free =>
      rcases Lanes.mem_push.mp member with kept | ⟨_, own⟩
      · obtain ⟨other, before⟩ := separate.mem_remove.mp kept
        exact .inl ⟨⟨queue, busy, before⟩, by simp [other]⟩
      · exact .inr ⟨trivial, own ▸ orderly.firstFree_eq free⟩
  | forkFailed free =>
      obtain ⟨other, before⟩ := separate.mem_remove.mp member
      exact .inl ⟨⟨queue, busy, before⟩, by simp [other]⟩
  | @unlocked n m t others heap accepted usable taken first =>
      left
      constructor
      · rcases Lanes.mem_push.mp member with kept | ⟨_, own⟩
        · exact ⟨queue, busy, Lanes.mem_of_mem_remove kept⟩
        · exact ⟨.mutex m, by simp, by simp [first, own]⟩
      · simp only [thread_setMutex, thread_setState, Function.update_apply]
        split_ifs <;> simp_all
  | unlockedNobody =>
      left
      constructor
      · rcases Lanes.mem_push.mp member with kept | ⟨_, own⟩
        · exact ⟨queue, busy, Lanes.mem_of_mem_remove kept⟩
        · exact absurd own (by simp)
      · simp
  | @destroyed n m =>
      left
      constructor
      · rw [Transition.mem_moveHome separate] at member
        split_ifs at member with waits
        · exact ⟨.mutex m, by simp, waits⟩
        · exact ⟨queue, busy, member⟩
      · simp only [thread_setMutex, releaseStates]
        split_ifs <;> rfl

/-- Without a switch the history changes at most for the first free thread. -/
theorem recordEsp_stayed (reached : s.upToSwitch layout action = .ok (.inl (s', result)))
    (t : ThreadPtr) : recordEsp layout latest s action s' result t =
      if action.Makes ∧ s.firstFree layout = some t then (s'.thread t).registerEsp
      else latest t := by
  rw [recordEsp, reached]

theorem recordEsp_switched (reached : s.upToSwitch layout action = .ok (.inr (s₁, t))) :
    recordEsp layout latest s action s' result =
      Function.update latest s.current (.on s.current s₁.ebp) := by
  rw [recordEsp, reached]

/-- The history records the stack pointers of the latest suspensions. -/
theorem Recorded.step (recorded : Recorded s q latest) (orderly : Orderly s q)
    (move : Move layout s q action s' q' result) :
    Recorded s' q' (recordEsp layout latest s action s' result) := by
  cases move with
  | stayed reached stay =>
      constructor
      · intro queue slot busy member
        rw [recordEsp_stayed reached]
        rcases stay.waits orderly busy member with ⟨⟨before, waits, member⟩, kept⟩ | made
        · split_ifs
          · rfl
          · exact kept.trans (recorded.waits waits member)
        · rw [if_pos made]
      · obtain ⟨current, kept⟩ := stay.running orderly
        rw [recordEsp_stayed reached, current]
        split_ifs
        · rfl
        · exact kept.trans recorded.running
  | @switched s₁ t cr3 site threads₀ q₀ reached picked busy process =>
      have saved : ∀ x, (s.thread x).registerEsp = latest x ∨ x = s.current →
          (s₁.saveEsp.thread x).registerEsp =
            recordEsp layout latest s action { s₁.saveEsp with current := .slot t, cr3 }
              .switches x := by
        intro x before
        rw [recordEsp_switched reached, picked.saveEsp_registerEsp, picked.ebp,
          Function.update_apply]
        split_ifs with own
        · rfl
        · exact before.resolve_right own
      constructor
      · intro queue slot waits member
        refine saved (.slot slot) ?_
        rcases picked.parks.mem (Lanes.mem_of_mem_remove member) with
          ⟨before, waiting, member⟩ | own
        · exact .inl (recorded.waits (waiting waits) member)
        · exact .inr own
      · refine saved (.slot t) ?_
        rcases picked.source busy with ⟨queue, waits, member⟩ | own
        · exact .inl (recorded.waits waits member)
        · exact .inr own

/-- In every run that spares the frames of the kernel each switch to a thread of a process loads the
stack pointer of the latest suspension of this thread, unless it switches a thread to itself in
another frame than before. -/
theorem resumesLatest_of_switchesInFrame (image : Image) (s : Kernel) (latest : Suspensions)
    (reachable : image.ReachableWith (recordEsp image.layout) (fun _ => .null)
      (SparingWith fun _ _ => True) (s, latest)) (action : Action)
    (switches : s.SwitchesInFrame image.layout action) :
    s.ResumesLatest image.layout latest action := by
  obtain ⟨q, orderly, recorded⟩ := reachable.spared.moves Recorded
    (fun heap _ => ⟨fun busy member => absurd (mem_bootQueues member).1 busy, rfl⟩)
    fun orderly recorded _ _ _ move => recorded.step orderly move
  exact recorded.resumesLatest orderly switches

/-- The first process creates a thread and yields to it. -/
theorem resumesLatest_of_switchesInFrame_yield :
    ∃ s latest s₁, plainImage.ReachableWith (recordEsp plainLayout) (fun _ => .null)
        (SparingWith fun _ _ => True) (s, latest) ∧ s.SwitchesInFrame plainLayout .yield ∧
      s.upToSwitch plainLayout .yield = .ok (.inr (s₁, .slot 2)) ∧
      s.ResumesLatest plainLayout latest .yield := by
  obtain ⟨⟨s, latest⟩, reachable, goal⟩ := sparedWith_of_checkBoot (recordEsp plainLayout)
    (fun _ => .null) (fun _ _ => True) (fun _ _ => true)
    (fun state => decide (state.1.listEmpty (.ready state.1.cr3) = false) &&
      state.1.dispatches plainLayout .yield fun _ t => decide (t = .slot 2))
    [.pthreadCreate (fun _ => 0) 0x108000 0x100000] (fun _ _ _ => trivial) (by decide +kernel)
  obtain ⟨siblings, switches⟩ := Bool.and_eq_true_iff.mp goal
  have siblings : s.listEmpty (.ready s.cr3) = false := of_decide_eq_true siblings
  have inFrame : s.SwitchesInFrame plainLayout .yield := fun alone =>
    absurd (siblings.symm.trans alone) (by simp)
  obtain ⟨s₁, t, reached, second⟩ := exists_of_dispatches switches
  obtain rfl : t = .slot 2 := of_decide_eq_true second
  exact ⟨s, latest, s₁, reachable, inFrame, reached,
    resumesLatest_of_switchesInFrame plainImage s latest reachable .yield inFrame⟩

/-- The first thread yields and has no sibling: its stack pointer has not been saved before. -/
theorem not_resumesLatest_yield :
    ¬∀ layout s latest, ReachableWith layout (recordEsp layout) (fun _ => .null)
      (fun _ _ => True) (s, latest) → ∀ action, s.ResumesLatest layout latest action := by
  intro resumes
  obtain ⟨⟨s, latest⟩, reachable, goal⟩ := reachableWith_of_checkBoot (recordEsp plainLayout)
    (fun _ => .null) (fun _ _ => True) (fun _ _ => true)
    (fun state => state.1.dispatches plainLayout .yield fun s₁ t =>
      decide ((s₁.thread t).p = .slot 1 ∧ (s₁.thread t).registerEsp ≠
        Function.update state.2 state.1.current (.on state.1.current s₁.ebp) t))
    [] (fun _ _ _ => trivial) (by decide +kernel)
  obtain ⟨s₁, t, reached, differs⟩ := exists_of_dispatches goal
  obtain ⟨process, other⟩ := of_decide_eq_true differs
  exact other (resumes plainLayout s latest reachable .yield s₁ t 1 reached process)

end Zeos
