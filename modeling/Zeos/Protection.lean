import Zeos.Accounting
import Zeos.KernelImage

/-!
# Protection of the kernel and of the code

`init_table_pages` and `set_user_pages` keep the user out of the kernel's pages and from writing to
the code.  `sys_fork` maps the same pages into the child with all access, so the protection lasts
until the first `fork` that goes through.
-/

namespace Zeos

open IntrusiveList GuardedRun Kernel

namespace Memory

/-- The kernel pages of a page table are not accessible to the user, page 0 and the pages around the
task array are absent, and the code pages are not writable. -/
structure Protected (layout : Layout) (m : Memory) (row : TaskId) : Prop where
  system : ∀ page < numPagKernel, (m.entry row page).user = false
  absent : ∀ page < numPagKernel, page = 0 ∨ page = layout.protectedTasks ∨
    page = layout.protectedTasks + 11 → (m.entry row page).present = false
  code : ∀ k < numPagCode, (m.entry row (pagLogInitCode + k)).rw = false

variable {layout : Layout} {m m' : Memory} {row : TaskId}

/-- The data and stack pages do not matter. -/
theorem Protected.of_entries (guarded : m.Protected layout row)
    (entries : ∀ page < pagLogInitData, m'.entry row page = m.entry row page) :
    m'.Protected layout row where
  system page system := by
    rw [entries page (system.trans (by decide))]
    exact guarded.system page system
  absent page system special := by
    rw [entries page (system.trans (by decide))]
    exact guarded.absent page system special
  code k code := by
    rw [entries _ (Nat.add_lt_add_left code _)]
    exact guarded.code k code

theorem protected_bootMemory (layout : Layout) (row : TaskId) :
    (bootMemory layout).Protected layout row := by
  have sizes := pageConstants
  obtain ⟨_, entries⟩ := bootMemory_eq layout
  have system : ∀ page < numPagKernel, (bootMemory layout).entry row page =
      if 1 ≤ page ∧ page < numPagKernel then kernelEntry layout page else .zero := by
    intro page system
    rw [entries row page (by omega), if_neg (by omega), if_neg (by omega)]
  constructor
  · intro page below
    rw [system page below]
    split <;> rfl
  · intro page below special
    rw [system page below]
    split
    · rw [kernelEntry, decide_eq_false_iff_not]
      omega
    · rfl
  · intro k code
    rw [entries row _ (by omega), if_neg (by omega)]
    split
    · rfl
    · rw [if_neg (by omega)]
      rfl

end Memory

namespace Kernel

/-- The page tables of all live processes are protected. -/
def KernelProtected (layout : Layout) (s : Kernel) : Prop :=
  ∀ p row, s.Live p → (s.task p).dirPagesBaseAddr = some row → s.mem.Protected layout row

/-- No `fork` finds all that it needs. -/
def CopiesNothing (s : Kernel) : Action → Prop
  | .fork _ => ¬s.Copies
  | _ => True

instance (s : Kernel) : DecidablePred s.CopiesNothing
  | .fork _ => inferInstanceAs (Decidable ¬s.Copies)
  | .tick | .pthreadCreate _ _ _ | .pthreadJoin _ | .pthreadExit | .yield | .exit | .mutexInit _
  | .mutexLock _ | .mutexUnlock _ | .mutexDestroy _ | .store _ _ | .others _ => isTrue trivial

end Kernel

variable {layout : Layout} {s s' : Kernel} {q q' : Queues} {action : Action} {result : Result}

/-- Only a successful `fork` uses up a PID. -/
theorem Transition.numbered (transition : Transition layout s q action s' q' result)
    (numbered : s'.globalPID = s.globalPID + 1) : ∃ stack, action = .fork stack := by
  have counts : s.globalPID ≠ s.globalPID + 1 := by simp
  cases transition with
  | forked => exact ⟨_, rfl⟩
  | _ => exact absurd numbered counts

/-- Only a successful `fork` makes a process ready while none is. -/
theorem Transition.noneReady (transition : Transition layout s q action s' q' result)
    (none : q.processes .ready = []) :
    q'.processes .ready = [] ∨ s'.globalPID = s.globalPID + 1 := by
  cases transition with
  | forked => exact .inr rfl
  | tickedProcess expired firstProcess => exact absurd (none.symm.trans firstProcess) (by simp)
  | exited firstProcess => exact absurd (none.symm.trans firstProcess) (by simp)
  | forkFailed => exact .inl (by simp [Lanes.remove, none])
  | _ => exact .inl (by simp [none])

/-- The idle process and the first one are the only ones in use. -/
structure Unforked (layout : Layout) (s : Kernel) (q : Queues) : Prop where
  ready : q.processes .ready = []
  free : ∀ p, p ∈ q.processes .free ↔ p ≠ idleProcess ∧ p ≠ 1
  owner : ∀ {t p}, (s.thread t).p = .slot p → p = 1
  guarded : ∀ p, p = idleProcess ∨ p = 1 → s.mem.Protected layout p

namespace Unforked

theorem booted (layout : Layout) (heap : Heap Node) :
    Unforked layout (Kernel.booted layout heap) bootQueues where
  ready := rfl
  free := Coherent.mem_free_bootQueues
  owner {t p} own := by
    have nobody : ((zeroed layout).thread t).p ≠ .slot p := by cases t <;> simp [zeroed]
    simp only [Kernel.booted] at own
    split at own
    · exact absurd own (by simp)
    · split at own
      · exact (TaskPtr.slot.inj own).symm
      · split at own <;> exact absurd own nobody
  guarded p _ := by
    rw [mem_booted]
    exact Memory.protected_bootMemory layout p

/-- A waiter of a mutex belongs to the only process there is. -/
theorem wakesOwn (unforked : Unforked layout s q) (consistent : Consistent s q) :
    s.WakesOwn action := by
  cases action with
  | mutexUnlock n =>
      intro m t accepted usable taken first
      have own := unforked.owner consistent.process
      cases head : q.head m with
      | unlisted last =>
          rw [consistent.listFirst_unlisted head] at first
          exact absurd first (by simp)
      | listed =>
          have node := consistent.represents.first_threads (.mutex m) head
          rw [ThreadQueue.node_mutex, first] at node
          cases waiting : q.threads (.mutex m) with
          | nil =>
              rw [waiting] at node
              exact absurd node (by simp)
          | cons u rest =>
              rw [waiting] at node
              obtain rfl : t = u := by simpa using node
              have member : t ∈ q.threads (.mutex m) := waiting ▸ List.mem_cons_self
              cases t with
              | image page => exact absurd member (consistent.noImage m page)
              | slot slot =>
                  obtain ⟨⟨p, process⟩, _⟩ := consistent.fits member
                  rw [process, consistent.process, unforked.owner process, own]
  | _ => trivial

/-- A step that copies nothing uses up no PID. -/
theorem unnumbered (copies : s.CopiesNothing action)
    (transition : Transition layout s q action s' q' result)
    (paging : PageStep s s' action result) : s'.globalPID ≠ s.globalPID + 1 := by
  intro numbered
  have counts : s.globalPID ≠ s.globalPID + 1 := by simp
  obtain ⟨stack, rfl⟩ := transition.numbered numbered
  cases paging with
  | kept tables frames alone => exact counts ((alone stack rfl).1.symm.trans numbered)
  | forked _ someProcess someThread _ _ enough => exact copies ⟨someProcess, someThread, enough⟩
  | forkFailed same => exact counts (same.symm.trans numbered)

/-- A step that copies nothing leaves the system and code pages of both processes alone. -/
theorem guarded_step (unforked : Unforked layout s q) (consistent : Consistent s q)
    (copies : s.CopiesNothing action) (paging : PageStep s s' action result) (p : TaskId)
    (used : p = idleProcess ∨ p = 1) : s'.mem.Protected layout p := by
  have sizes := pageConstants
  refine (unforked.guarded p used).of_entries fun page low => ?_
  cases paging with
  | kept tables frames =>
      rw [Memory.entry, tables]
      rfl
  | forked _ someProcess someThread _ _ enough =>
      exact absurd ⟨someProcess, someThread, enough⟩ copies
  | @forkFailed _ child _ taken _ _ entries =>
      have free := (unforked.free child).mp (Accounted.taken_free consistent taken)
      rw [entries p page (by omega), if_neg]
      rintro ⟨rfl, _⟩
      exact used.elim free.1 free.2
  | @created _ _ _ row index _ _ process found tables =>
      obtain rfl := unforked.owner process
      have start := (Memory.findStackEntry_spec s.mem _ _ _ found).1
      rw [Memory.entry, tables, Function.update_of_ne]
      · rfl
      · rintro rfl
        rcases used with rfl | rfl
        · simp only [entryIndex, idleProcess, Fin.val_zero, Fin.val_one] at start
          omega
        · simp only [entryIndex] at start
          omega
  | exited process tables =>
      rw [Memory.entry, tables]
      exact (Memory.entry_releaseDataPages (by decide) (by omega)).trans (if_neg (by omega))

/-- A step that copies nothing makes no further process. -/
theorem step (unforked : Unforked layout s q) (consistent : Consistent s q)
    (copies : s.CopiesNothing action) (consistent' : Consistent s' q')
    (performed : s.perform layout action = .ok (s', result))
    (transition : Transition layout s q action s' q' result) : Unforked layout s' q' := by
  have paging := pageStep_perform layout consistent.directory action _ performed
  have unnumbered := unnumbered copies transition paging
  have owner : ∀ {t p}, (s'.thread t).p = .slot p → p = 1 := by
    intro t p own
    rcases transition.thread_p t with kept | current | numbered
    · exact unforked.owner (kept.symm.trans own)
    · exact unforked.owner (current.symm.trans own)
    · exact absurd numbered unnumbered
  refine ⟨(transition.noneReady unforked.ready).resolve_right unnumbered, fun p => ?_, owner,
    unforked.guarded_step consistent copies paging⟩
  constructor
  · intro free
    have other : p ≠ 1 := by
      rintro rfl
      have first : s'.cr3 = 1 := owner consistent'.process
      exact consistent'.processAbsent .free (first.symm ▸ free)
    refine ⟨fun idle => ?_, other⟩
    rcases transition.free_process free with free | ⟨_, own⟩
    · exact ((unforked.free p).mp free).1 idle
    · exact other (own.trans (unforked.owner consistent.process))
  · intro other
    exact (transition.free_stays consistent ((unforked.free p).mpr other)).resolve_right
      fun taken => unnumbered taken.1

theorem kernelProtected (unforked : Unforked layout s q) (consistent : Consistent s q) :
    s.KernelProtected layout := by
  intro p row live directory
  have used : p = idleProcess ∨ p = 1 := by
    have out := (consistent.live_iff p).mp live
    rw [unforked.free] at out
    tauto
  rcases consistent.directory p with none | own
  · exact absurd (none.symm.trans directory) (by simp)
  · obtain rfl : p = row := Option.some.inj (own.symm.trans directory)
    exact unforked.guarded p used

/-- A child has the system pages with user access. -/
theorem not_kernelProtected (consistent : Consistent s q) (consistent' : Consistent s' q')
    (performed : s.perform layout action = .ok (s', result))
    (transition : Transition layout s q action s' q' result) (copies : ¬s.CopiesNothing action) :
    ¬s'.KernelProtected layout := by
  intro guarded
  cases action with
  | fork stack =>
      obtain ⟨someProcess, someThread, enough⟩ := not_not.mp copies
      cases pageStep_perform layout consistent.directory _ _ performed with
      | kept tables frames alone =>
          rcases (alone stack rfl).2 with none | none
          · exact absurd (none.symm.trans someProcess) (by decide)
          · exact absurd (none.symm.trans someThread) (by decide)
      | forkFailed _ _ few => exact absurd enough (Nat.not_le_of_lt few)
      | @forked _ _ row child numbered _ _ _ taken _ _ entries =>
          have live := transition.child_not_free consistent numbered taken
          have stays := transition.free_stays consistent (Accounted.taken_free consistent taken)
          have directory := (stays.resolve_left live).2
          have system :=
            (guarded child child ((consistent'.live_iff child).mpr live) directory).system
            0 (by decide)
          rw [entries child 0 (by decide), if_neg (by simp), if_pos ⟨rfl, by decide⟩] at system
          exact absurd system (by simp [mapped])
  | _ => exact copies trivial

end Unforked

/-- In every run in which no `fork` copies pages and the frames of the kernel are spared, the kernel
and the code are protected, and they are so after a further step that spares these frames exactly if
that step is no such `fork` either. -/
theorem kernelProtected_of_copiesNothing (image : Image) (s : Kernel)
    (reachable : image.Reachable (Sparing CopiesNothing) s) : s.KernelProtected image.layout ∧
      ∀ action s', s.SparesKernel action → image.step s action = .ok s' →
        (s'.KernelProtected image.layout ↔ s.CopiesNothing action) := by
  obtain ⟨q, consistent, unforked⟩ := reachable.spared.induct (Unforked image.layout)
    (fun heap _ => Unforked.booted image.layout heap) (fun consistent unforked _ =>
      unforked.wakesOwn consistent)
    fun consistent unforked copies consistent' performed transition =>
      unforked.step consistent copies consistent' performed transition
  refine ⟨unforked.kernelProtected consistent, fun action s' spares stepped => ?_⟩
  rw [image.step_eq spares] at stepped
  obtain ⟨q', result, performed, transition, represents'⟩ := consistent.transition_of_step stepped
  have consistent' :=
    transition.consistent consistent (unforked.wakesOwn consistent) represents'
  constructor
  · intro guarded
    by_contra copies
    exact Unforked.not_kernelProtected consistent consistent' performed transition copies guarded
  · intro copies
    exact (unforked.step consistent copies consistent' performed transition).kernelProtected
      consistent'

/-- The first process creates a thread. -/
theorem kernelProtected_of_copiesNothing_create :
    ∃ s, plainImage.Reachable (Sparing CopiesNothing) s ∧ (s.mem.entry 1 284).present = true ∧
      s.KernelProtected plainLayout := by
  obtain ⟨s, reachable, goal⟩ := spared_of_checkBoot CopiesNothing
    (fun s action => decide (s.CopiesNothing action))
    (fun s => (s.mem.entry 1 284).present)
    [.pthreadCreate (fun _ => 0) 0x108000 0x100000] (fun _ _ => of_decide_eq_true)
    (by decide +kernel)
  exact ⟨s, reachable, goal, (kernelProtected_of_copiesNothing plainImage s reachable).1⟩

/-- The first process forks: the child can write to the page that holds the task array. -/
theorem not_kernelProtected_fork :
    ¬∀ layout s, Reachable layout anyStep s → s.KernelProtected layout := by
  intro guarded
  obtain ⟨s, reachable, goal⟩ := reachable_of_checkBoot anyStep (fun _ _ => true)
    (fun s => decide (s.Live 2 ∧ (s.task 2).dirPagesBaseAddr = some 2 ∧
      (s.mem.entry 2 0x21).user = true))
    [.fork fun _ => 0] (fun _ _ _ => trivial) (by decide +kernel)
  obtain ⟨live, directory, open_⟩ := of_decide_eq_true goal
  have system := (guarded plainLayout s reachable 2 2 live directory).system 0x21 (by decide)
  exact absurd (system.symm.trans open_) (by decide)

end Zeos
