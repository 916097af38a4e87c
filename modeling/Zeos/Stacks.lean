import Zeos.Isolation
import Zeos.KernelImage

/-!
# Stack pages of threads

A history of the stack pages that `pthread_create` hands out.  A page stays where it is until its
thread or process ends, unless the process forks while the page is in the range that `sys_fork`
uses for aliases.
-/

namespace Zeos

open IntrusiveList GuardedRun Kernel

/-- The process in which a thread was created, its logical stack page and the frame for it, or
-1. -/
structure StackPage where
  process : TaskId
  page : Nat
  frame : Int
  deriving DecidableEq

/-- The stack pages of the threads made by `pthread_create` that have not ended. -/
abbrev Stacks := ThreadPtr → Option StackPage

namespace Kernel

/-- The stack page that `pthread_create` chooses. -/
def newStack (s : Kernel) : Option StackPage := do
  let p ← s.currentP.toOption
  let entry ← (s.mem.findStackEntry (nrTasks * totalPages)
    (entryIndex p (pagLogInitData + numPagData))).toOption
  return { process := p, page := entry - entryIndex p 0, frame := s.mem.allocFrame.1 }

/-- The thread that `fork` and `pthread_create` take. -/
def firstFree (layout : Layout) (s : Kernel) : Option ThreadPtr :=
  (listHeadToThreadStruct layout (s.listFirst .freeThreadqueue)).toOption

end Kernel

/-- Record the stack page of a new thread, and forget it when the thread or its process ends. -/
def recordStacks (layout : Layout) (pages : Stacks) (s : Kernel) (action : Action) (_ : Kernel)
    (result : Result) : Stacks :=
  match action with
  | .pthreadCreate _ _ _ =>
      if result = .returns 0 then
        fun t => if s.firstFree layout = some t then s.newStack else pages t
      else pages
  | .pthreadExit => fun t => if t = s.current then none else pages t
  | .exit => fun t => (pages t).filter fun stack => s.currentP ≠ .ok stack.process
  | _ => pages

namespace Kernel

/-- Different threads of a process have different stack pages, and each of them is present, is
accessible to the user and has the frame it was given. -/
def KeepsStacks (s : Kernel) (pages : Stacks) : Prop :=
  ∀ t, ∀ stack ∈ pages t,
    (stack.page < totalPages ∧ (s.mem.entry stack.process stack.page).present = true ∧
      (s.mem.entry stack.process stack.page).user = true ∧
      (s.mem.getFrame stack.process stack.page : Int) = stack.frame) ∧
    ∀ t', ∀ stack' ∈ pages t', t' ≠ t → stack'.process = stack.process →
      stack'.page ≠ stack.page

instance (s : Kernel) (pages : Stacks) : Decidable (s.KeepsStacks pages) :=
  inferInstanceAs (Decidable (∀ t, ∀ stack ∈ pages t,
    (_ < _ ∧ _ = _ ∧ _ = _ ∧ _ = _) ∧ ∀ t', ∀ stack' ∈ pages t', t' ≠ t → _ = _ → _ ≠ _))

/-- `fork` finds a free process, a free thread and enough frames. -/
def Copies (s : Kernel) : Prop :=
  s.listEmpty .freequeue = false ∧ s.listEmpty .freeThreadqueue = false ∧
    numPagData ≤ (Memory.freeFrames s.mem.physMem).length

instance (s : Kernel) : Decidable s.Copies := inferInstanceAs (Decidable (_ = _ ∧ _ = _ ∧ _ ≤ _))

/-- A `fork` that copies its caller's pages finds no stack of a thread of its process in the range
for aliases, and a `pthread_create` that comes so far finds a stack page in its caller's page table
and a frame for it. -/
def SparesStacks (state : Kernel × Stacks) : Action → Prop
  | .fork _ => state.1.Copies → ∀ t, ∀ stack ∈ state.2 t, state.1.currentP = .ok stack.process →
      pagLogInitData + 2 * numPagData ≤ stack.page
  | .pthreadCreate stack id startRoutine =>
      state.1.SearchesOwnTable (.pthreadCreate stack id startRoutine) ∧
        (accessOk .read startRoutine 4 = true → state.1.listEmpty .freeThreadqueue = false →
          Memory.freeFrames state.1.mem.physMem ≠ [])
  | _ => True

instance (state : Kernel × Stacks) : DecidablePred (SparesStacks state)
  | .fork _ => inferInstanceAs (Decidable (_ → ∀ t, ∀ stack ∈ state.2 t, _ = _ → _ ≤ _))
  | .pthreadCreate stack id startRoutine => inferInstanceAs (Decidable
      (state.1.SearchesOwnTable (.pthreadCreate stack id startRoutine) ∧ (_ = _ → _ = _ → _ ≠ _)))
  | .tick | .pthreadJoin _ | .pthreadExit | .yield | .exit | .mutexInit _ | .mutexLock _
  | .mutexUnlock _ | .mutexDestroy _ | .store _ _ | .others _ => isTrue trivial

end Kernel

/-- The history records a stack that it had recorded before or the one of the new thread. -/
theorem mem_recordStacks {layout : Layout} {s s' : Kernel} {pages : Stacks} {action : Action}
    {result : Result} {t : ThreadPtr} {stack : StackPage}
    (member : stack ∈ recordStacks layout pages s action s' result t) : stack ∈ pages t ∨
      (∃ kernelStack id start, action = .pthreadCreate kernelStack id start) ∧
        result = .returns 0 ∧ s.firstFree layout = some t ∧ s.newStack = some stack := by
  cases action with
  | pthreadCreate kernelStack id start =>
      simp only [recordStacks] at member
      split at member
      · rename_i created
        dsimp only at member
        split at member
        · rename_i first
          exact .inr ⟨⟨_, _, _, rfl⟩, created, first, member⟩
        · exact .inl member
      · exact .inl member
  | pthreadExit =>
      simp only [recordStacks] at member
      split at member
      · exact absurd member (by simp)
      · exact .inl member
  | exit => exact .inl (Option.mem_filter_iff.mp member).1
  | _ => exact .inl member

/-- The stack pages of different threads are different and have the frames they were given. -/
structure StacksHeld (m : Memory) (pages : Stacks) : Prop where
  place : ∀ {t stack}, stack ∈ pages t →
    pagLogInitData + numPagData ≤ stack.page ∧ stack.page < totalPages
  held : ∀ {t stack}, stack ∈ pages t → ∃ f : Nat, f ≠ 0 ∧ f < totalPages ∧ stack.frame = f ∧
    m.entry stack.process stack.page = mapped f
  distinct : ∀ {t t' stack stack'}, stack ∈ pages t → stack' ∈ pages t' →
    stack'.process = stack.process → stack'.page = stack.page → t' = t

/-- The stack page of a new thread if it is in the page table of its process and there is a frame
for it. -/
theorem newStack_eq {s s' : Kernel} {row : TaskId} {index f : Nat} {rest : List Nat}
    (process : (s.thread s.current).p = .slot row)
    (found : s.mem.findStackEntry (nrTasks * totalPages)
      (entryIndex row (pagLogInitData + numPagData)) = .ok index)
    (own : index < entryIndex row totalPages)
    (free : Memory.freeFrames s.mem.physMem = f :: rest)
    (tables : s'.mem.pagusrTable =
      Function.update s.mem.pagusrTable index (stackEntry s.mem.allocFrame.1)) :
    ∃ page, (pagLogInitData + numPagData ≤ page ∧ page < totalPages) ∧
      s.newStack = some { process := row, page := page, frame := f } ∧
      (s.mem.entry row page).pbaseAddr = 0 ∧ ∀ row' page', page' < totalPages →
        s'.mem.entry row' page' =
          if row' = row ∧ page' = page then mapped f else s.mem.entry row' page' := by
  obtain ⟨page, rfl, above, inside, empty, entries⟩ := Memory.stackPage_eq found own tables
  rw [Memory.allocFrame_cons free] at entries
  refine ⟨page, ⟨above, inside⟩, ?_, empty, entries⟩
  rw [newStack, currentP_eq_ok.mpr process]
  show (s.mem.findStackEntry _ _).toOption.bind _ = _
  rw [found, Memory.allocFrame_cons free]
  simp only [entryIndex, Except.toOption, Option.bind_some]
  congr 2
  omega

namespace StacksHeld

variable {layout : Layout} {s s' : Kernel} {m m' : Memory} {pages pages' : Stacks}
  {action : Action} {result : Result}

/-- Threads can end, and pages without a stack can change. -/
theorem mono (holds : StacksHeld m pages)
    (fewer : ∀ {t stack}, stack ∈ pages' t → stack ∈ pages t)
    (kept : ∀ {t stack}, stack ∈ pages' t →
      m'.entry stack.process stack.page = m.entry stack.process stack.page) :
    StacksHeld m' pages' where
  place member := holds.place (fewer member)
  held {t stack} member := by
    rw [kept member]
    exact holds.held (fewer member)
  distinct member member' := holds.distinct (fewer member) (fewer member')

/-- Only a successful `pthread_create` adds a stack. -/
theorem mem_of_recordStacks {t : ThreadPtr} {stack : StackPage}
    (refused : ∀ stack id start, action = .pthreadCreate stack id start → result ≠ .returns 0)
    (member : stack ∈ recordStacks layout pages s action s' result t) : stack ∈ pages t :=
  (mem_recordStacks member).resolve_right fun ⟨⟨_, _, _, created⟩, returned, _⟩ =>
    refused _ _ _ created returned

/-- A page without a frame is no stack. -/
theorem apart (holds : StacksHeld m pages) {row : TaskId} {page : Nat}
    (empty : (m.entry row page).pbaseAddr = 0) {t : ThreadPtr} {stack : StackPage}
    (member : stack ∈ pages t) : ¬(stack.process = row ∧ stack.page = page) := by
  rintro ⟨rfl, rfl⟩
  obtain ⟨f, positive, physical, _, entry_eq⟩ := holds.held member
  rw [entry_eq] at empty
  have zero := Memory.toNat_mapped physical
  rw [empty] at zero
  exact positive zero.symm

/-- A new thread gets a page without a frame. -/
theorem add (holds : StacksHeld m pages) {u : ThreadPtr} {stack : StackPage} {f : Nat}
    (place : pagLogInitData + numPagData ≤ stack.page ∧ stack.page < totalPages)
    (frame : stack.frame = f ∧ f ≠ 0 ∧ f < totalPages)
    (empty : (m.entry stack.process stack.page).pbaseAddr = 0)
    (entries : ∀ row' page', page' < totalPages → m'.entry row' page' =
      if row' = stack.process ∧ page' = stack.page then mapped f else m.entry row' page') :
    StacksHeld m' fun t => if u = t then some stack else pages t := by
  have cases : ∀ {t old}, old ∈ (if u = t then some stack else pages t) →
      (t = u ∧ old = stack) ∨ old ∈ pages t := by
    intro t old member
    split at member
    · rename_i same
      exact .inl ⟨same.symm, (Option.some.inj member).symm⟩
    · exact .inr member
  constructor
  · intro t old member
    rcases cases member with ⟨_, rfl⟩ | member
    · exact place
    · exact holds.place member
  · intro t old member
    rcases cases member with ⟨_, rfl⟩ | member
    · refine ⟨f, frame.2.1, frame.2.2, frame.1, ?_⟩
      rw [entries _ _ place.2, if_pos ⟨rfl, rfl⟩]
    · rw [entries _ _ (holds.place member).2, if_neg (holds.apart empty member)]
      exact holds.held member
  · intro t t' old old' member member' process page
    rcases cases member with ⟨rfl, rfl⟩ | before
    · rcases cases member' with ⟨rfl, rfl⟩ | before'
      · rfl
      · exact absurd ⟨process, page⟩ (holds.apart empty before')
    · rcases cases member' with ⟨rfl, rfl⟩ | before'
      · exact absurd ⟨process.symm, page.symm⟩ (holds.apart empty before)
      · exact holds.distinct before before' process page

/-- A step that spares the stacks keeps them. -/
theorem step (holds : StacksHeld s.mem pages) (spares : SparesStacks (s, pages) action)
    (step : PageStep s s' action result) :
    StacksHeld s'.mem (recordStacks layout pages s action s' result) := by
  have sizes := pageConstants
  cases step with
  | kept tables frames alone stays refused =>
      refine holds.mono (mem_of_recordStacks refused) fun member => ?_
      rw [Memory.entry, tables]
      rfl
  | forked numbered someProcess someThread process taken enough frames entries =>
      refine holds.mono (mem_of_recordStacks (by simp)) fun {t stack} member => ?_
      have member := mem_of_recordStacks (by simp) member
      obtain ⟨above, inside⟩ := holds.place member
      rw [entries _ _ inside, if_neg, if_neg (by omega), if_neg (by omega)]
      rintro ⟨own, _, below⟩
      have spared := spares ⟨someProcess, someThread, enough⟩ t stack member
        (currentP_eq_ok.mpr (own ▸ process))
      omega
  | forkFailed unnumbered taken few frames entries =>
      refine holds.mono (mem_of_recordStacks (by simp)) fun {t stack} member => ?_
      have member := mem_of_recordStacks (by simp) member
      obtain ⟨above, inside⟩ := holds.place member
      rw [entries _ _ inside, if_neg (by omega)]
  | exited process tables frames =>
      refine holds.mono (mem_of_recordStacks (by simp)) fun {t stack} member => ?_
      have member := mem_of_recordStacks (by simp) member
      obtain ⟨above, inside⟩ := holds.place member
      rw [Memory.entry, tables]
      exact (Memory.entry_releaseDataPages (by decide) inside).trans (if_neg (by omega))
  | @created kernelStack id start row index accepted someThread process found tables frames =>
      have inside := spares.1 accepted someThread _ process index (by rw [found]; rfl)
      obtain ⟨f, rest, free⟩ := List.exists_cons_of_ne_nil (spares.2 accepted someThread)
      have bounds := (Memory.mem_freeFrames.mp (free ▸ List.mem_cons_self)).1
      obtain ⟨page, place, stack_eq, empty, entries⟩ :=
        newStack_eq process found inside free tables
      simp only [recordStacks, if_true, stack_eq]
      cases taken : s.firstFree layout with
      | none =>
          refine holds.mono (by simp) fun {t stack} member => ?_
          have member : stack ∈ pages t := by simpa using member
          rw [entries _ _ (holds.place member).2, if_neg (holds.apart empty member)]
      | some u =>
          simp only [Option.some.injEq]
          exact holds.add (f := f) place ⟨rfl, by omega, by omega⟩ empty entries

end StacksHeld

/-- In every run that spares the stacks and the frames of the kernel, the stacks of the threads that
have not ended are kept. -/
theorem keepsStacks_of_sparesStacks (image : Image) (s : Kernel) (pages : Stacks)
    (reachable : image.ReachableWith (recordStacks image.layout) (fun _ => none)
      (SparingWith SparesStacks) (s, pages)) : s.KeepsStacks pages := by
  have holds := reachable.spared.paged StacksHeld
    { place := by simp, held := by simp, distinct := by simp } fun holds spares step =>
      holds.step spares step
  intro t stack member
  obtain ⟨_, inside⟩ := holds.place member
  obtain ⟨f, _, physical, frame, entry_eq⟩ := holds.held member
  refine ⟨⟨inside, ?_, ?_, ?_⟩, fun t' stack' member' other process page => ?_⟩
  · rw [entry_eq]
    rfl
  · rw [entry_eq]
    rfl
  · rw [Memory.getFrame_eq, entry_eq, Memory.toNat_mapped physical, frame]
  · exact other (holds.distinct member member' process page)

/-- The first process forks and then creates two threads. -/
theorem keepsStacks_of_sparesStacks_two :
    ∃ s pages, plainImage.ReachableWith (recordStacks plainLayout) (fun _ => none)
        (SparingWith SparesStacks) (s, pages) ∧
      pages (.slot 3) = some ⟨1, 284, 352⟩ ∧ pages (.slot 4) = some ⟨1, 285, 354⟩ ∧
      s.KeepsStacks pages := by
  obtain ⟨⟨s, pages⟩, reachable, goal⟩ := sparedWith_of_checkBoot (recordStacks plainLayout)
    (fun _ => none) SparesStacks (fun state action => decide (SparesStacks state action))
    (fun state => decide (state.2 (.slot 3) = some ⟨1, 284, 352⟩ ∧
      state.2 (.slot 4) = some ⟨1, 285, 354⟩))
    [.fork fun _ => 0, .pthreadCreate (fun _ => 0) 0x108000 0x100000,
      .pthreadCreate (fun _ => 0) 0x108000 0x100000]
    (fun _ _ => of_decide_eq_true) (by decide +kernel)
  obtain ⟨first, second⟩ := of_decide_eq_true goal
  exact ⟨s, pages, reachable, first, second,
    keepsStacks_of_sparesStacks plainImage s pages reachable⟩

/-- The first process creates a thread and then forks: the thread's stack page is gone. -/
theorem not_keepsStacks_fork :
    ¬∀ layout s pages, ReachableWith layout (recordStacks layout) (fun _ => none)
      (fun _ _ => True) (s, pages) → s.KeepsStacks pages := by
  intro keeps
  obtain ⟨⟨s, pages⟩, reachable, goal⟩ := reachableWith_of_checkBoot (recordStacks plainLayout)
    (fun _ => none) (fun _ _ => True) (fun _ _ => true)
    (fun state => decide (¬state.1.KeepsStacks state.2))
    [.pthreadCreate (fun _ => 0) 0x108000 0x100000, .fork fun _ => 0]
    (fun _ _ _ => trivial) (by decide +kernel)
  exact of_decide_eq_true goal (keeps plainLayout s pages reachable)

end Zeos
