import Zeos.KernelImage
import Zeos.Observation
import Zeos.Rounds

/-!
# Frames and pages for new threads

`pthread_create` does not look whether `alloc_frame` had a frame to give, and searches for a stack
page without regard to the end of its caller's page table.
-/

namespace Zeos

open IntrusiveList GuardedRun Kernel

namespace Kernel

/-- What `pthread_create` uses is as it was. -/
structure CreateUndone (s s' : Kernel) : Prop where
  freeThreadqueue : s'.linked .freeThreadqueue = s.linked .freeThreadqueue
  ready : ∀ p, s'.linked (.ready p) = s.linked (.ready p)
  nthread : ∀ p, (s'.task p).nthread = (s.task p).nthread
  pagusrTable : s'.mem.pagusrTable = s.mem.pagusrTable
  ram : s'.mem.ram = s.mem.ram

/-- `pthread_create` returns an error and changes nothing. -/
def RefusesCreate (layout : Layout) (s : Kernel) (stack : Nat → Word) (id startRoutine : Word) :
    Prop :=
  ∃ s' value, s.perform layout (.pthreadCreate stack id startRoutine) = .ok (s', .returns value) ∧
    value < 0 ∧ s.CreateUndone s'

/-- If `pthread_create` asks for a frame, there is one. -/
def FindsFrame (s : Kernel) : Action → Prop
  | .pthreadCreate _ _ startRoutine => accessOk .read startRoutine 4 = true →
      s.listEmpty .freeThreadqueue = false → s.mem.allocFrame.1 ≠ -1
  | _ => True

instance (s : Kernel) : DecidablePred s.FindsFrame
  | .pthreadCreate _ _ _ => inferInstanceAs (Decidable (_ = _ → _ = _ → _ ≠ _))
  | .tick | .fork _ | .pthreadJoin _ | .pthreadExit | .yield | .exit | .mutexInit _ | .mutexLock _
  | .mutexUnlock _ | .mutexDestroy _ | .store _ _ | .others _ => isTrue trivial

/-- Pages that are present in the page table of a live process have frames of the physical memory.
-/
def FramesPhysical (s : Kernel) : Prop :=
  ∀ p row page, s.Live p → (s.task p).dirPagesBaseAddr = some row → page < totalPages →
    (s.mem.entry row page).present = true → s.mem.getFrame row page < totalPages

/-- `pthread_create` ends its search before the end of its caller's page table, or returns an error
and changes no page table. -/
def SearchesInside (layout : Layout) (s : Kernel) (stack : Nat → Word) (id startRoutine : Word) :
    Prop :=
  (∃ row entry, s.callerTable = .ok row ∧
    s.mem.findStackEntry (nrTasks * totalPages)
      (entryIndex row (pagLogInitData + numPagData)) = .ok entry ∧
    entry < entryIndex row totalPages) ∨
  ∃ s' value, s.perform layout (.pthreadCreate stack id startRoutine) = .ok (s', .returns value) ∧
    value < 0 ∧ s'.mem.pagusrTable = s.mem.pagusrTable

end Kernel

variable {layout : Layout} {s s' : Kernel} {stack : Nat → Word} {id startRoutine : Word}

/-! ## Refused calls -/

/-- A call that is refused changes nothing. -/
theorem refused_pthreadCreate (layout : Layout) (stack : Nat → Word) (id : Word)
    (refused : accessOk .read startRoutine 4 = false ∨ s.listEmpty .freeThreadqueue = true) :
    ∃ value < 0, s.perform layout (.pthreadCreate stack id startRoutine) =
      .ok (s.enterWith stack, .returns value) := by
  rw [perform, sysPthreadCreate]
  split
  · exact ⟨-EFAULT, by decide, rfl⟩
  · rename_i accepted
    rcases refused with rejected | full
    · rw [rejected] at accepted
      exact absurd rfl accepted
    · exact ⟨-ENOMEM, by decide, if_pos full⟩

/-- Only calls that are refused return an error. -/
theorem refused_of_negative (directories : s.OwnDirectories) {value : Int} (negative : value < 0)
    (performed : s.perform layout (.pthreadCreate stack id startRoutine) =
      .ok (s', .returns value)) :
    accessOk .read startRoutine 4 = false ∨ s.listEmpty .freeThreadqueue = true := by
  have entered : (s.enterWith stack).OwnDirectories := directories
  rcases mem_sysPthreadCreate layout entered id startRoutine _ performed with
    ⟨_, refused⟩ | ⟨returned, _⟩
  · exact refused
  · exact absurd (Result.returns.inj returned) negative.ne

theorem refusesCreate_iff (directories : s.OwnDirectories) :
    s.RefusesCreate layout stack id startRoutine ↔
      accessOk .read startRoutine 4 = false ∨ s.listEmpty .freeThreadqueue = true := by
  constructor
  · rintro ⟨s', value, performed, negative, _⟩
    exact refused_of_negative directories negative performed
  · intro refused
    obtain ⟨value, negative, performed⟩ := refused_pthreadCreate layout stack id refused
    exact ⟨_, value, performed, negative, rfl, fun _ => rfl, fun _ => rfl, rfl, rfl⟩

/-! ## Frames -/

/-- All page tables hold numbers of frames of the physical memory. -/
def Memory.Physical (m : Memory) : Prop :=
  ∀ row page, page < totalPages → (m.entry row page).pbaseAddr.toNat < totalPages

theorem Memory.toNat_freeFrame {m : Memory} (k : Nat) :
    (mapped ((freeFrames m.physMem).getD k 0)).pbaseAddr.toNat < totalPages := by
  have small : (freeFrames m.physMem).getD k 0 < totalPages := by
    rw [List.getD_eq_getElem?_getD]
    cases found : (freeFrames m.physMem)[k]? with
    | none => decide
    | some f => exact (mem_freeFrames.mp (List.mem_of_getElem? found)).1.2.1
  rw [toNat_mapped small]
  exact small

theorem Memory.toNat_stackEntry {m : Memory} (found : m.allocFrame.1 ≠ -1) :
    (stackEntry m.allocFrame.1).pbaseAddr.toNat < totalPages := by
  cases first : freeFrames m.physMem with
  | nil =>
      rw [allocFrame_nil first] at found
      exact absurd rfl found
  | cons f rest =>
      have below := (mem_freeFrames.mp (first ▸ List.mem_cons_self)).1.2.1
      rw [allocFrame_cons first, stackEntry, BitVec.ofInt_natCast]
      have value := toNat_mapped below
      rw [mapped] at value
      exact value.trans_lt below

theorem PageStep.physical {action : Action} {result : Result} (step : PageStep s s' action result)
    (finds : s.FindsFrame action) (physical : s.mem.Physical) : s'.mem.Physical := by
  intro row page inside
  have before := physical row page inside
  cases step with
  | kept tables =>
      rw [Memory.entry, tables]
      exact before
  | @forked _ _ parent child _ _ _ _ _ _ _ entries =>
      rw [entries row page inside]
      split_ifs
      · decide
      · rw [Memory.pbaseAddr_mapped]
        exact physical parent page inside
      · exact Memory.toNat_freeFrame _
      · exact before
  | forkFailed _ _ _ _ entries =>
      rw [entries row page inside]
      split_ifs
      · decide
      · exact before
  | created accepted someThread _ _ tables =>
      rw [Memory.entry, tables, Function.update_apply]
      split_ifs
      · exact Memory.toNat_stackEntry (finds accepted someThread)
      · exact before
  | exited _ tables =>
      rw [Memory.entry, tables]
      show ((s.mem.releaseDataPages _ numPagData).entry row page).pbaseAddr.toNat < totalPages
      rw [Memory.entry_releaseDataPages (by decide) inside]
      split_ifs
      · decide
      · exact before

theorem physical_bootMemory (layout : Layout) : (bootMemory layout).Physical := by
  have sizes := pageConstants
  intro row page inside
  have code : page < pagLogInitData + numPagData →
      Memory.bootFrame (page - pagLogInitCode) < totalPages := by
    intro below
    simp only [Memory.bootFrame]
    omega
  rw [(bootMemory_eq layout).2 row page inside]
  split_ifs with data text kernel
  · rw [Memory.toNat_mapped (code data.2.2)]
    exact code data.2.2
  · show (mapped _).pbaseAddr.toNat < totalPages
    rw [Memory.toNat_mapped (code (by omega))]
    exact code (by omega)
  · rw [Memory.toNat_kernelEntry layout inside]
    exact inside
  · decide

/-- As long as every `pthread_create` that asks for a frame gets one and the frames of the kernel
are spared, all pages that are present have frames of the physical memory; and when there is none
left, `pthread_create` returns an error and changes nothing exactly if it does not ask. -/
theorem framesPhysical_of_findsFrame (image : Image) (s : Kernel)
    (reachable : image.Reachable (Sparing FindsFrame) s) :
    s.FramesPhysical ∧ ∀ stack id startRoutine, s.mem.allocFrame.1 = -1 →
      (s.FindsFrame (.pthreadCreate stack id startRoutine) ↔
        s.RefusesCreate image.layout stack id startRoutine) := by
  have reachable := reachable.spared
  refine ⟨?_, fun stack id startRoutine exhausted => ?_⟩
  · have physical := reachable.paged Memory.Physical (physical_bootMemory image.layout)
      fun physical finds step => step.physical finds physical
    exact fun p row page _ _ inside _ => physical row page inside
  · rw [refusesCreate_iff reachable.ownDirectories]
    constructor
    · intro finds
      by_contra asks
      obtain ⟨accepted, someThread⟩ := not_or.mp asks
      exact finds (by simpa using accepted) (by simpa using someThread) exhausted
    · rintro (rejected | full) accepted someThread
      · exact absurd (rejected.symm.trans accepted) (by simp)
      · exact absurd (full.symm.trans someThread) (by simp)

/-- The first process creates a thread. -/
theorem framesPhysical_of_findsFrame_create :
    ∃ s, plainImage.Reachable (Sparing FindsFrame) s ∧ (s.mem.entry 1 284).present = true ∧
      s.FramesPhysical := by
  obtain ⟨s, reachable, present⟩ := spared_of_checkBoot FindsFrame
    (fun s action => decide (s.FindsFrame action)) (fun s => (s.mem.entry 1 284).present)
    [.pthreadCreate (fun _ => 0) userData userData] (fun _ _ => of_decide_eq_true)
    (by decide +kernel)
  exact ⟨s, reachable, present, (framesPhysical_of_findsFrame plainImage s reachable).1⟩

/-- After 356 threads have come and gone there is no frame left, and one more can be made. -/
theorem not_refusesCreate :
    ¬∀ layout s, Reachable layout anyStep s →
      s.FramesPhysical ∧ ∀ stack id startRoutine, s.mem.allocFrame.1 = -1 →
        s.RefusesCreate layout stack id startRoutine := by
  intro refuses
  obtain ⟨s, q, reachable, round⟩ := reachable_round plainLayout 356 (by decide)
  have empty : Memory.freeFrames s.mem.physMem = [] := by
    rw [← List.length_eq_zero_iff, round.frames]
    rfl
  have exhausted : s.mem.allocFrame.1 = -1 := by rw [Memory.allocFrame_nil empty]
  obtain ⟨s', created⟩ := round.creates plainLayout (by decide)
  obtain ⟨s'', value, performed, negative, _⟩ :=
    (refuses plainLayout s reachable).2 (fun _ => 0) userData userData exhausted
  rw [created, Except.ok.injEq, Prod.mk.injEq] at performed
  exact absurd (Result.returns.inj performed.2) negative.ne'

/-! ## The search for a stack page -/

/-- A search that can end at some page of the page table ends in this page table. -/
theorem Memory.findStackEntry_inside {m : Memory} {row : TaskId} {first page : Nat}
    (above : first ≤ page) (inside : page < totalPages)
    (empty : (m.entry row page).pbaseAddr = 0) :
    ∃ entry, m.findStackEntry (nrTasks * totalPages) (entryIndex row first) = .ok entry ∧
      entry < entryIndex row totalPages := by
  obtain ⟨k, rfl⟩ := Nat.exists_eq_add_of_le above
  have index : entryIndex row (first + k) = entryIndex row first + k := by
    rw [entryIndex, ← Nat.add_assoc]
    rfl
  rw [entry, index] at empty
  obtain ⟨count, found, taken, least⟩ : ∃ count,
      (m.pagusrTable (entryIndex row first + count)).pbaseAddr = 0 ∧
      (∀ k < count, (m.pagusrTable (entryIndex row first + k)).pbaseAddr ≠ 0) ∧ count ≤ k := by
    have some_count : ∃ k, (m.pagusrTable (entryIndex row first + k)).pbaseAddr = 0 := ⟨k, empty⟩
    exact ⟨Nat.find some_count, Nat.find_spec some_count, fun _ => Nat.find_min some_count,
      Nat.find_min' some_count empty⟩
  have rows := row.isLt
  have own : entryIndex row first + count < entryIndex row totalPages := by
    simp only [entryIndex]
    omega
  have limit : entryIndex row totalPages ≤ nrTasks * totalPages := by
    simp only [entryIndex, nrTasks, totalPages] at rows ⊢
    omega
  exact ⟨_, findStackEntry_ok taken found (own.trans_le limit)
    ((Nat.le_add_left _ _).trans_lt (own.trans_le limit)), own⟩

/-- In every reachable state the search of `pthread_create` stays in its caller's page table
exactly if the call is refused before the search, or some entry after the data pages has no frame.
-/
theorem searchesInside_iff (layout : Layout) (s : Kernel) (stack : Nat → Word)
    (id startRoutine : Word) (reachable : Reachable layout anyStep s) :
    s.SearchesInside layout stack id startRoutine ↔
      accessOk .read startRoutine 4 = false ∨ s.listEmpty .freeThreadqueue = true ∨
        ∃ row page, s.callerTable = .ok row ∧ pagLogInitData + numPagData ≤ page ∧
          page < totalPages ∧ (s.mem.entry row page).pbaseAddr = 0 := by
  have directories := reachable.ownDirectories
  constructor
  · rintro (⟨row, entry, table, found, own⟩ | ⟨s', value, performed, negative, _⟩)
    · obtain ⟨start, empty⟩ := Memory.findStackEntry_spec _ _ _ _ found
      simp only [entryIndex] at start own
      have index : entry = entryIndex row (entry - totalPages * row) := by
        simp only [entryIndex]
        omega
      rw [index] at empty
      exact .inr (.inr ⟨row, entry - totalPages * row, table, by omega, by omega, empty⟩)
    · exact (refused_of_negative directories negative performed).imp_right .inl
  · intro stops
    rcases or_assoc.mpr stops with refused | ⟨row, page, table, above, inside, empty⟩
    · obtain ⟨value, negative, performed⟩ := refused_pthreadCreate layout stack id refused
      exact .inr ⟨_, value, performed, negative, rfl⟩
    · obtain ⟨entry, found, own⟩ := Memory.findStackEntry_inside above inside empty
      exact .inl ⟨row, entry, table, found, own⟩

/-- The first process has not created a thread yet. -/
theorem searchesInside_iff_boot :
    ∃ s, Reachable plainLayout anyStep s ∧ s.current = .slot 1 ∧
      s.SearchesInside plainLayout (fun _ => 0) userData userData := by
  obtain ⟨s, reachable, goal⟩ := reachable_of_checkBoot anyStep (fun _ _ => true)
    (fun s => decide (s.current = .slot 1 ∧ s.callerTable = .ok 1 ∧
      (s.mem.entry 1 284).pbaseAddr = 0))
    [] (fun _ _ _ => trivial) (by decide +kernel)
  obtain ⟨current, table, empty⟩ := of_decide_eq_true goal
  exact ⟨s, reachable, current, (searchesInside_iff plainLayout s _ _ _ reachable).mpr
    (.inr (.inr ⟨1, 284, table, by decide, by decide, empty⟩))⟩

/-- After 740 threads have come and gone the search ends in the page table of another process. -/
theorem not_searchesInside :
    ¬∀ layout s stack id startRoutine, Reachable layout anyStep s →
      s.SearchesInside layout stack id startRoutine := by
  intro inside
  obtain ⟨s, q, reachable, round⟩ := reachable_round plainLayout 740 (by decide)
  have process := round.consistent.process
  rw [round.cr3] at process
  have found := round.found (by decide)
  rw [round.cr3] at found
  obtain ⟨s', created⟩ := round.creates plainLayout (by decide)
  rcases inside plainLayout s (fun _ => 0) userData userData reachable with
    ⟨row, entry, table, found', own⟩ | ⟨s'', value, performed, negative, _⟩
  · obtain ⟨process', _⟩ := (callerTable_eq_ok reachable.ownDirectories).mp table
    obtain rfl := TaskPtr.slot.inj (process.symm.trans process')
    rw [found, Except.ok.injEq] at found'
    rw [← found'] at own
    exact absurd own (by decide)
  · rw [created, Except.ok.injEq, Prod.mk.injEq] at performed
    exact absurd (Result.returns.inj performed.2) negative.ne'

end Zeos
