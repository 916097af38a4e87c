import Zeos.KernelImage
import Zeos.Slots
import Zeos.Stacks

/-!
# Used frames and their pages

The frames marked as used are those of the code pages and those behind data pages of live processes
and stacks of their threads, until a thread with a stack ends, or `fork` or `pthread_create` meets
the stacks where it does not expect them.
-/

namespace Zeos

open IntrusiveList GuardedRun Kernel

/-- A frame that `set_user_pages` gave to a code page at boot. -/
def BootCode (layout : Layout) (frame : Nat) : Prop :=
  ∃ page, pagLogInitCode ≤ page ∧ page < pagLogInitData ∧
    (bootMemory layout).getFrame 1 page = frame

namespace Kernel

/-- Every used frame above the kernel is one of a code page at boot, or the one of a data page of a
live process or of the stack of one of its threads. -/
def Accounts (layout : Layout) (s : Kernel) (pages : Stacks) : Prop :=
  ∀ frame, numPagKernel ≤ frame → frame < totalPages → s.mem.physMem frame = 1 →
    BootCode layout frame ∨ ∃ p page, s.Maps p page frame ∧
      (pagLogInitData ≤ page ∧ page < pagLogInitData + numPagData ∨
        ∃ t, ∃ stack ∈ pages t, stack.process = p ∧ stack.page = page)

/-- Threads that end have no stack with a frame, a `fork` that copies its caller's pages finds no
stack with a frame in the range for aliases, and `pthread_create` finds a stack page in its caller's
page table as long as there is a frame for it.  (And `mutex_unlock` wakes no thread of another
process.) -/
def KeepsFrames (state : Kernel × Stacks) : Action → Prop
  | .fork _ => state.1.Copies → ∀ t, ∀ stack ∈ state.2 t, state.1.currentP = .ok stack.process →
      stack.frame = -1 ∨ pagLogInitData + 2 * numPagData ≤ stack.page
  | .pthreadCreate stack id startRoutine => Memory.freeFrames state.1.mem.physMem = [] ∨
      state.1.SearchesOwnTable (.pthreadCreate stack id startRoutine)
  | .pthreadExit => ∀ stack ∈ state.2 state.1.current, stack.frame = -1
  | .exit => ∀ t, ∀ stack ∈ state.2 t, state.1.currentP = .ok stack.process → stack.frame = -1
  | .mutexUnlock n => state.1.WakesOwn (.mutexUnlock n)
  | _ => True

theorem KeepsFrames.wakesOwn {state : Kernel × Stacks} {action : Action}
    (keeps : KeepsFrames state action) : state.1.WakesOwn action := by
  cases action with
  | mutexUnlock n => exact keeps
  | _ => trivial

end Kernel

/-- A page of a process has a frame and is a data page or the stack of a thread. -/
structure Backs (m : Memory) (pages : Stacks) (p : TaskId) (page f : Nat) : Prop where
  inside : page < totalPages
  present : (m.entry p page).present = true
  frame : m.getFrame p page = f
  use : pagLogInitData ≤ page ∧ page < pagLogInitData + numPagData ∨
    pagLogInitData + numPagData ≤ page ∧
      ∃ t, ∃ stack ∈ pages t, stack.process = p ∧ stack.page = page ∧ stack.frame = f

/-- The used frames have pages of live processes, and the recorded stacks are those of threads in
use. -/
structure Accounted (layout : Layout) (s : Kernel) (q : Queues) (pages : Stacks) : Prop where
  backed : ∀ {frame}, numPagKernel ≤ frame → frame < totalPages → s.mem.physMem frame = 1 →
    BootCode layout frame ∨ ∃ p page, p ∉ q.processes .free ∧ Backs s.mem pages p page frame
  /-- The first frame above the kernel is used. -/
  first : s.mem.physMem numPagKernel = 1
  directory : ∀ {p}, p ∉ q.processes .free → (s.task p).dirPagesBaseAddr = some p
  free : ∀ {t}, t ∈ q.threads .free → pages t = none
  owner : ∀ {t stack}, stack ∈ pages t → (s.thread t).p = .slot stack.process

theorem bootCode_bootFrame (layout : Layout) {k : Nat} (bound : k < numPagCode) :
    BootCode layout (Memory.bootFrame k) := by
  have sizes := pageConstants
  obtain ⟨_, entries⟩ := bootMemory_eq layout
  refine ⟨pagLogInitCode + k, by omega, by omega, ?_⟩
  rw [Memory.getFrame_eq, entries 1 _ (by omega), if_neg (by omega),
    if_pos ⟨rfl, by omega, by omega⟩, Nat.add_sub_cancel_left]
  exact Memory.toNat_mapped (by simp only [Memory.bootFrame]; omega)

namespace Accounted

variable {layout : Layout} {s s' : Kernel} {q q' : Queues} {pages : Stacks} {action : Action}
  {result : Result}

theorem booted (layout : Layout) (heap : Heap Node) :
    Accounted layout (Kernel.booted layout heap) bootQueues fun _ => none := by
  have sizes := pageConstants
  obtain ⟨frames, entries⟩ := bootMemory_eq layout
  constructor
  · intro f above physical used
    rw [mem_booted, frames f above physical] at used
    obtain ⟨k, bound, frame⟩ := used
    rw [frame] at physical ⊢
    by_cases code : k < numPagCode
    · exact .inl (bootCode_bootFrame layout code)
    · refine .inr ⟨1, pagLogInitCode + k, ?_, by omega, ?_, ?_, .inl (by omega)⟩
      · rw [Coherent.mem_free_bootQueues]
        simp
      · rw [mem_booted, entries 1 _ (by omega), if_pos ⟨rfl, by omega, by omega⟩]
        rfl
      · rw [Memory.getFrame_eq, mem_booted, entries 1 _ (by omega),
          if_pos ⟨rfl, by omega, by omega⟩, Nat.add_sub_cancel_left, Memory.toNat_mapped physical]
  · rw [mem_booted, frames numPagKernel le_rfl (by decide)]
    exact ⟨0, by omega, rfl⟩
  · intro p live
    rw [Coherent.mem_free_bootQueues, not_and_or, not_not, not_not] at live
    rcases live with rfl | rfl
    · rfl
    · rfl
  · exact fun _ => rfl
  · exact fun member => absurd member (by simp)

/-- The thread that `pthread_create` takes is the first free one. -/
theorem firstFree_eq (consistent : Consistent s q) :
    s.firstFree layout = (q.threads .free).head? := by
  have node : s.listFirst .freeThreadqueue = _ := consistent.represents.first_threads .free trivial
  rw [firstFree, node]
  cases q.threads .free with
  | nil => rfl
  | cons u rest => rfl

theorem currentP_of_newStack {stack : StackPage} (new : s.newStack = some stack) :
    s.currentP = .ok stack.process := by
  unfold newStack at new
  obtain ⟨p, current, new⟩ := Option.bind_eq_some_iff.mp new
  obtain ⟨entry, _, new⟩ := Option.bind_eq_some_iff.mp new
  rw [← Option.some.inj new]
  cases own : s.currentP with
  | error fault =>
      rw [own] at current
      exact absurd current (by simp [Except.toOption])
  | ok p' =>
      rw [own] at current
      exact congrArg _ (Option.some.inj current)

/-- Recorded stacks belong to threads in use. -/
theorem threads_step (accounted : Accounted layout s q pages) (consistent : Consistent s q)
    (transition : Transition layout s q action s' q' result) :
    (∀ {t}, t ∈ q'.threads .free → recordStacks layout pages s action s' result t = none) ∧
      ∀ {t stack}, stack ∈ recordStacks layout pages s action s' result t →
        (s'.thread t).p = .slot stack.process := by
  have own : s.currentP = .ok s.cr3 := currentP_eq_ok.mpr consistent.process
  constructor
  · intro t free
    by_contra recorded
    obtain ⟨stack, member⟩ := Option.ne_none_iff_exists'.mp recorded
    rcases mem_recordStacks member with before | ⟨⟨_, _, _, rfl⟩, rfl, first, _⟩
    · rcases transition.free_thread consistent free with free | ⟨rfl, rfl⟩ | ⟨rfl, listed⟩
      · rw [accounted.free free] at before
        exact absurd before (by simp)
      · exact absurd member (by simp [recordStacks])
      · have process : (s.thread t).p = .slot s.cr3 := by
          cases t with
          | slot slot =>
              rcases listed with ready | blocked
              · exact (consistent.fits ready).1
              · exact (consistent.fits blocked).1
          | image page =>
              have wild := accounted.owner before
              rw [consistent.imageP] at wild
              exact absurd wild (by simp)
        have same : stack.process = s.cr3 := by
          simpa [process] using (accounted.owner before).symm
        have kept := (Option.mem_filter_iff.mp member).2
        simp [own, same] at kept
    · cases transition with
      | refused negative => exact absurd negative (by decide)
      | @created _ _ _ u threads _ _ _ freeThread =>
          rw [firstFree_eq consistent, freeThread] at first
          obtain rfl : .slot u = t := Option.some.inj first
          rw [Queues.threads_moveThread, Lanes.push_other (by simp)] at free
          exact (consistent.threads.mem_remove.mp free).1 rfl
  · intro t stack member
    rcases mem_recordStacks member with before | ⟨⟨_, _, _, rfl⟩, rfl, first, new⟩
    · rcases transition.thread_kept consistent t with ⟨kept, _⟩ | ⟨⟨rest, free⟩, _⟩
      · rw [kept]
        exact accounted.owner before
      · have none := accounted.free (free ▸ List.mem_cons_self : t ∈ q.threads .free)
        rw [none] at before
        exact absurd before (by simp)
    · cases transition with
      | refused negative => exact absurd negative (by decide)
      | @created _ _ _ u threads _ _ _ freeThread =>
          rw [firstFree_eq consistent, freeThread] at first
          obtain rfl : .slot u = t := Option.some.inj first
          have current := currentP_eq_ok.mp (currentP_of_newStack new)
          simpa [newThread] using current

/-- A stack with a frame stays recorded. -/
theorem stack_kept (accounted : Accounted layout s q pages) (consistent : Consistent s q)
    (keeps : KeepsFrames (s, pages) action) {t : ThreadPtr} {stack : StackPage}
    (member : stack ∈ pages t) (framed : stack.frame ≠ -1) :
    stack ∈ recordStacks layout pages s action s' result t := by
  cases action with
  | pthreadCreate kernelStack id start =>
      simp only [recordStacks]
      split
      · dsimp only
        split
        · rename_i first
          rw [firstFree_eq consistent] at first
          have none := accounted.free (List.mem_of_mem_head? first)
          rw [none] at member
          exact absurd member (by simp)
        · exact member
      · exact member
  | pthreadExit =>
      simp only [recordStacks]
      split
      · rename_i same
        exact absurd (keeps stack (same ▸ member)) framed
      · exact member
  | exit =>
      refine Option.mem_filter_iff.mpr ⟨member, ?_⟩
      simpa using fun own => framed (keeps t stack member own)
  | _ => exact member

/-- A page that is not touched stays a page of a live process. -/
theorem persists (accounted : Accounted layout s q pages) (consistent : Consistent s q)
    (keeps : KeepsFrames (s, pages) action) (transition : Transition layout s q action s' q' result)
    {p : TaskId} {page f : Nat} (live : p ∉ q.processes .free) (stays : action ≠ .exit ∨ p ≠ s.cr3)
    (backs : Backs s.mem pages p page f) (same : s'.mem.entry p page = s.mem.entry p page) :
    ∃ p page, p ∉ q'.processes .free ∧
      Backs s'.mem (recordStacks layout pages s action s' result) p page f := by
  refine ⟨p, page, fun free => ?_, backs.inside, by rw [same]; exact backs.present, ?_, ?_⟩
  · rcases transition.free_process free with free | ⟨exit, own⟩
    · exact live free
    · exact stays.elim (fun other => other exit) fun other => other own
  · rw [Memory.getFrame_eq, same]
    exact backs.frame
  · refine backs.use.imp id fun ⟨above, t, stack, member, process, page_eq, frame⟩ =>
      ⟨above, t, stack, ?_, process, page_eq, frame⟩
    exact accounted.stack_kept consistent keeps member (by rw [frame]; omega)

/-- The process that `fork` takes is free. -/
theorem taken_free (consistent : Consistent s q) {child : TaskId}
    (taken : listHeadToTaskStruct (s.listFirst .freequeue) = .ok child) :
    child ∈ q.processes .free := by
  have node : s.listFirst .freequeue = _ := consistent.represents.first_processes .free
  rw [node] at taken
  cases free : q.processes .free with
  | nil =>
      rw [free] at taken
      exact absurd taken (by simp [listHeadToTaskStruct])
  | cons p rest =>
      rw [free] at taken
      obtain rfl : p = child := Except.ok.inj taken
      exact List.mem_cons_self

/-- After a step that keeps the frames every used frame has a page. -/
theorem backed_step (accounted : Accounted layout s q pages) (consistent : Consistent s q)
    (keeps : KeepsFrames (s, pages) action) (transition : Transition layout s q action s' q' result)
    (paging : PageStep s s' action result) {f : Nat} (above : numPagKernel ≤ f)
    (physical : f < totalPages) (used : s'.mem.physMem f = 1) : BootCode layout f ∨
      ∃ p page, p ∉ q'.processes .free ∧
        Backs s'.mem (recordStacks layout pages s action s' result) p page f := by
  have sizes := pageConstants
  cases paging with
  | kept tables frames alone stays refused =>
      rw [frames] at used
      refine (accounted.backed above physical used).imp id fun ⟨p, page, live, backs⟩ => ?_
      refine accounted.persists consistent keeps transition live (.inl stays) backs ?_
      rw [Memory.entry, tables]
      rfl
  | @forked _ _ row child numbered someProcess someThread process taken enough frames entries =>
      have free := taken_free consistent taken
      rw [frames] at used
      split at used
      · rename_i given
        obtain ⟨k, bound, frame⟩ := List.mem_take_iff_getElem.mp given
        have entry_eq : s'.mem.entry child (pagLogInitData + k) = mapped f := by
          rw [entries _ _ (by omega), if_neg (by omega), if_neg (by omega),
            if_pos ⟨rfl, by omega⟩, Nat.add_sub_cancel_left,
            Memory.getD_freeFrames (by omega)]
          exact congrArg mapped frame
        refine .inr ⟨child, pagLogInitData + k,
          transition.child_not_free consistent numbered taken, by omega, ?_, ?_, .inl (by omega)⟩
        · rw [entry_eq]
          rfl
        · rw [Memory.getFrame_eq, entry_eq, Memory.toNat_mapped physical]
      · refine (accounted.backed above physical used).imp id fun ⟨p, page, live, backs⟩ => ?_
        refine accounted.persists consistent keeps transition live (.inl (by simp)) backs ?_
        have other : p ≠ child := fun same => live (same ▸ free)
        rw [entries _ _ backs.inside, if_neg, if_neg (by simp [other]), if_neg (by simp [other])]
        rintro ⟨own, low, high⟩
        rcases backs.use with data | ⟨_, t, stack, member, rfl, page_eq, frame⟩
        · omega
        · rcases keeps ⟨someProcess, someThread, enough⟩ t stack member
            (currentP_eq_ok.mpr (own ▸ process)) with unframed | outside
          · omega
          · omega
  | @forkFailed _ child unnumbered taken few frames entries =>
      have free := taken_free consistent taken
      rw [frames f (by rintro rfl; rw [accounted.first]; decide)] at used
      refine (accounted.backed above physical used).imp id fun ⟨p, page, live, backs⟩ => ?_
      refine accounted.persists consistent keeps transition live (.inl (by simp)) backs ?_
      rw [entries _ _ backs.inside, if_neg]
      exact fun reached => live (reached.1 ▸ free)
  | @created _ _ _ row index accepted someThread process found tables frames =>
      have elsewhere : ∀ {p page}, Backs s.mem pages p page f →
          s'.mem.entry p page = s.mem.entry p page := by
        intro p page backs
        have empty := (Memory.findStackEntry_spec s.mem _ _ _ found).2
        rw [Memory.entry, tables, Function.update_of_ne]
        · rfl
        · rintro rfl
          have zero := backs.frame
          rw [Memory.getFrame_eq, Memory.entry, empty] at zero
          have none : f = 0 := zero.symm
          omega
      have old : s.mem.physMem f = 1 → BootCode layout f ∨ ∃ p page, p ∉ q'.processes .free ∧
          Backs s'.mem (recordStacks layout pages s _ s' (.returns 0)) p page f := fun used =>
        (accounted.backed above physical used).imp id fun ⟨p, page, live, backs⟩ =>
          accounted.persists consistent keeps transition live (.inl (by simp)) backs
            (elsewhere backs)
      cases free : Memory.freeFrames s.mem.physMem with
      | nil =>
          rw [frames, Memory.allocFrame_nil free] at used
          exact old used
      | cons g rest =>
          rw [frames, Memory.allocFrame_cons free] at used
          by_cases given : f = g
          · have searches := keeps.resolve_left (by simp [free])
            have inside := searches accepted someThread _ process index (by rw [found]; rfl)
            obtain ⟨page, place, stack_eq, _, entries⟩ :=
              newStack_eq process found inside free tables
            have entry_eq : s'.mem.entry row page = mapped f := by
              rw [entries _ _ place.2, if_pos ⟨rfl, rfl⟩, given]
            obtain rfl : row = s.cr3 := TaskPtr.slot.inj (process.symm.trans consistent.process)
            cases transition with
            | refused negative => exact absurd negative (by decide)
            | @created _ _ _ u threads _ _ _ freeThread =>
                have live : s.cr3 ∉ q.processes .free := consistent.processAbsent .free
                refine .inr ⟨s.cr3, page, live, place.2, ?_, ?_, .inr ⟨place.1, .slot u,
                  ⟨s.cr3, page, g⟩, ?_, rfl, rfl, congrArg Int.ofNat given.symm⟩⟩
                · rw [entry_eq]
                  rfl
                · rw [Memory.getFrame_eq, entry_eq, Memory.toNat_mapped physical]
                · simp only [recordStacks]
                  rw [if_pos trivial, stack_eq, if_pos]
                  · rfl
                  · rw [firstFree_eq consistent, freeThread]
                    rfl
          · exact old ((Function.update_of_ne given _ _).symm.trans used)
  | @exited row process tables frames =>
      obtain rfl : row = s.cr3 := TaskPtr.slot.inj (process.symm.trans consistent.process)
      rw [frames, Memory.physMem_releaseDataPages (by decide)] at used
      split at used
      · exact absurd used (by decide)
      · rename_i kept
        rcases accounted.backed above physical used with code | ⟨p, page, live, backs⟩
        · exact .inl code
        · by_cases own : p = s.cr3
          · subst own
            rcases backs.use with data | ⟨_, t, stack, member, owner, page_eq, frame⟩
            · by_cases first : f = numPagKernel
              · exact .inl (first ▸ bootCode_bootFrame layout (k := 0) (by decide))
              · refine absurd ⟨by omega, page - pagLogInitData, by omega, ?_⟩ kept
                rw [show pagLogInitData + (page - pagLogInitData) = page by omega]
                exact backs.frame
            · have unframed := keeps t stack member (owner ▸ currentP_eq_ok.mpr process)
              omega
          · refine .inr (accounted.persists consistent keeps transition live (.inr own) backs ?_)
            rw [Memory.entry, tables]
            exact (Memory.entry_releaseDataPages (by decide) backs.inside).trans
              (if_neg fun reached => own reached.1)

/-- `free_frame` never frees the first frame above the kernel. -/
theorem first_step (accounted : Accounted layout s q pages)
    (paging : PageStep s s' action result) : s'.mem.physMem numPagKernel = 1 := by
  cases paging with
  | kept tables frames => rw [frames, accounted.first]
  | forked _ _ _ _ _ _ frames => rw [frames, accounted.first, ite_self]
  | forkFailed _ _ _ frames =>
      rw [frames _ (fun _ => by rw [accounted.first]; decide), accounted.first]
  | created _ _ _ _ _ frames =>
      rw [frames]
      exact Memory.physMem_allocFrame accounted.first
  | exited _ _ frames =>
      rw [frames, Memory.physMem_releaseDataPages (by decide), if_neg (by simp), accounted.first]

/-- A step that keeps the frames keeps the account. -/
theorem step (accounted : Accounted layout s q pages) (consistent : Consistent s q)
    (keeps : KeepsFrames (s, pages) action) (performed : s.perform layout action = .ok (s', result))
    (transition : Transition layout s q action s' q' result) :
    Accounted layout s' q' (recordStacks layout pages s action s' result) where
  backed above physical used := accounted.backed_step consistent keeps transition
    (pageStep_perform layout consistent.directory action _ performed) above physical used
  first := accounted.first_step (pageStep_perform layout consistent.directory action _ performed)
  directory {p} live := by
    by_cases before : p ∈ q.processes .free
    · exact ((transition.free_stays consistent before).resolve_left live).2
    · rcases directory_perform layout s action _ performed p with kept | own
      · rw [kept]
        exact accounted.directory before
      · exact own
  free := (accounted.threads_step consistent transition).1
  owner := (accounted.threads_step consistent transition).2

end Accounted

/-- In every run that keeps the frames and spares those of the kernel, every used frame has its
page. -/
theorem accounts_of_keepsFrames (image : Image) (s : Kernel) (pages : Stacks)
    (reachable : image.ReachableWith (recordStacks image.layout) (fun _ => none)
      (SparingWith KeepsFrames) (s, pages)) : s.Accounts image.layout pages := by
  obtain ⟨q, consistent, accounted⟩ := reachable.spared.induct (Accounted image.layout)
    (fun heap _ => Accounted.booted image.layout heap) (fun _ _ keeps => keeps.wakesOwn)
    fun consistent accounted keeps _ performed transition =>
      accounted.step consistent keeps performed transition
  intro frame above physical used
  refine (accounted.backed above physical used).imp id fun ⟨p, page, live, backs⟩ => ?_
  refine ⟨p, page, ⟨(consistent.live_iff p).mpr live, backs.inside, p, accounted.directory live,
    backs.present, backs.frame⟩, backs.use.imp id ?_⟩
  exact fun ⟨_, t, stack, member, process, page_eq, _⟩ => ⟨t, stack, member, process, page_eq⟩

/-- A `fork` while no stack is recorded, or a `pthread_create` that searches its caller's table. -/
def checkFrames (state : Kernel × Stacks) : Action → Bool
  | .fork _ => decide (∀ t, state.2 t = none)
  | .pthreadCreate stack id startRoutine =>
      decide (state.1.SearchesOwnTable (.pthreadCreate stack id startRoutine))
  | _ => false

theorem keepsFrames_of_checkFrames (state : Kernel × Stacks) (action : Action)
    (allowed : checkFrames state action = true) : KeepsFrames state action := by
  cases action with
  | fork stack =>
      intro _ t stack member
      rw [of_decide_eq_true allowed t] at member
      exact absurd member (by simp)
  | pthreadCreate stack id startRoutine => exact .inr (of_decide_eq_true allowed)
  | _ => exact absurd allowed (by simp [checkFrames])

/-- The first process forks and then creates a thread. -/
theorem accounts_of_keepsFrames_create :
    ∃ s pages, plainImage.ReachableWith (recordStacks plainLayout) (fun _ => none)
        (SparingWith KeepsFrames) (s, pages) ∧
      pages (.slot 3) = some ⟨1, 284, 352⟩ ∧ s.Accounts plainLayout pages := by
  obtain ⟨⟨s, pages⟩, reachable, recorded⟩ := sparedWith_of_checkBoot (recordStacks plainLayout)
    (fun _ => none) KeepsFrames checkFrames
    (fun state => decide (state.2 (.slot 3) = some ⟨1, 284, 352⟩))
    [.fork fun _ => 0, .pthreadCreate (fun _ => 0) 0x108000 0x100000]
    keepsFrames_of_checkFrames (by decide +kernel)
  exact ⟨s, pages, reachable, of_decide_eq_true recorded,
    accounts_of_keepsFrames plainImage s pages reachable⟩

/-- The first process creates a thread, which ends: the frame of its stack stays in use. -/
theorem not_accounts_pthreadExit :
    ¬∀ layout s pages, ReachableWith layout (recordStacks layout) (fun _ => none)
      (fun _ _ => True) (s, pages) → s.Accounts layout pages := by
  intro accounts
  have sizes := pageConstants
  obtain ⟨⟨s, pages⟩, reachable, goal⟩ := reachableWith_of_checkBoot (recordStacks plainLayout)
    (fun _ => none) (fun _ _ => True) (fun _ _ => true)
    (fun state => decide (state.1.mem.physMem 312 = 1 ∧ (∀ t, state.2 t = none) ∧
      ∀ row : TaskId, ∀ k < numPagData, state.1.mem.getFrame row (pagLogInitData + k) ≠ 312))
    [.pthreadCreate (fun _ => 0) 0x108000 0x100000, .yield, .pthreadExit]
    (fun _ _ _ => trivial) (by decide +kernel)
  obtain ⟨used, ended, nowhere⟩ := of_decide_eq_true goal
  rcases accounts plainLayout s pages reachable 312 (by decide) (by decide) used with
    ⟨page, low, high, frame⟩ | ⟨p, page, ⟨_, _, row, _, _, frame⟩, data | ⟨t, stack, member, _⟩⟩
  · rw [Memory.getFrame_eq, (bootMemory_eq plainLayout).2 1 page (by omega), if_neg (by omega),
      if_pos ⟨rfl, low, high⟩] at frame
    have code := Memory.toNat_mapped (show Memory.bootFrame (page - pagLogInitCode) < totalPages by
      simp only [Memory.bootFrame]; omega)
    have same : Memory.bootFrame (page - pagLogInitCode) = 312 := code.symm.trans frame
    simp only [Memory.bootFrame] at same
    omega
  · have index : page = pagLogInitData + (page - pagLogInitData) := by omega
    rw [index] at frame
    exact nowhere row _ (by omega) frame
  · exact absurd ((ended t).symm.trans member) (by simp)

end Zeos
