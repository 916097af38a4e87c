import Zeos.AnyRun
import Zeos.Observation
import Zeos.Rounds

/-!
# A fork that fails

`sys_fork` takes a process and a thread out of the free ones before it asks for frames.  Without
enough frames it gives the frames and the process back, and not the thread.
-/

namespace Zeos

open GuardedRun Kernel

namespace Kernel

/-- The slot that `sys_fork` takes for a child. -/
def TakesTask (s : Kernel) (child : TaskId) : Prop :=
  s.listEmpty .freequeue = false ∧ s.listEmpty .freeThreadqueue = false ∧
    s.listFirst .freequeue = .task child

/-- Everything that `sys_fork` uses is as it was, and the slot it took has no data pages. -/
structure ForkUndone (s s' : Kernel) : Prop where
  freequeue : ∀ p, .task p ∈ s'.linked .freequeue ↔ .task p ∈ s.linked .freequeue
  freeThreadqueue : ∀ t, .thread t ∈ s'.linked .freeThreadqueue ↔
    .thread t ∈ s.linked .freeThreadqueue
  physMem : s'.mem.physMem = s.mem.physMem
  callerTable : ∀ row, s.callerTable = .ok row →
    ∀ page < totalPages, s'.mem.entry row page = s.mem.entry row page
  readyqueue : s'.linked .readyqueue = s.linked .readyqueue
  ready : ∀ p, s'.linked (.ready p) = s.linked (.ready p)
  blocked : ∀ p, s'.linked (.blocked p) = s.linked (.blocked p)
  waiters : ∀ m, s'.waiters m = s.waiters m
  abandoned : ∀ child, s.TakesTask child → ∀ k < numPagData,
    (s'.mem.entry child (pagLogInitData + k)).present = false
  globalPID : s'.globalPID = s.globalPID

/-- The frames are as they were, and data pages of the slot that `sys_fork` took are at most gone.
-/
structure FramesRestored (s s' : Kernel) : Prop where
  physMem : s'.mem.physMem = s.mem.physMem
  entries : ∀ row page, page < totalPages → s'.mem.entry row page = s.mem.entry row page ∨
    s.TakesTask row ∧ pagLogInitData ≤ page ∧ page < pagLogInitData + numPagData ∧
      s'.mem.entry row page = .zero
  threads : ∀ p m, s'.linked (.ready p) = s.linked (.ready p) ∧
    s'.linked (.blocked p) = s.linked (.blocked p) ∧ s'.waiters m = s.waiters m

end Kernel

variable {layout : Layout} {s s' : Kernel} {q q' : Queues} {stack : Nat → Word} {value : Int}

/-- A `fork` that finds a process and a thread keeps the thread, whether it fails or not. -/
theorem Move.thread_taken (move : Move layout s q (.fork stack) s' q' (.returns value))
    (someProcess : s.listEmpty .freequeue = false)
    (someThread : s.listEmpty .freeThreadqueue = false) (separate : q.threads.Separate) :
    ∃ u, u ∈ q.threads .free ∧ u ∉ q'.threads .free := by
  cases move with
  | stayed reached stay =>
      cases stay with
      | refused negative empty =>
          rcases empty stack rfl with none_left | none_left
          · exact absurd (none_left.symm.trans someProcess) (by simp)
          · exact absurd (none_left.symm.trans someThread) (by simp)
      | forked freeThread own =>
          refine ⟨_, freeThread ▸ List.mem_cons_self, ?_⟩
          rw [Queues.threads_moveThread, Lanes.push_other (by simp), separate.mem_remove]
          simp
      | forkFailed freeThread =>
          refine ⟨_, freeThread ▸ List.mem_cons_self, ?_⟩
          rw [Queues.threads_removeThread, separate.mem_remove]
          simp

/-- A `fork` that makes no process changes no list of threads that are not free. -/
theorem Move.fork_failed (move : Move layout s q (.fork stack) s' q' (.returns value))
    (unnumbered : s'.globalPID = s.globalPID) (separate : q.threads.Separate)
    {queue : ThreadQueue} (busy : queue ≠ .free) : q'.threads queue = q.threads queue := by
  cases move with
  | stayed reached stay =>
      cases stay with
      | refused => rfl
      | forked freeThread own numbered =>
          have different : s.globalPID + 1 = s.globalPID := numbered.symm.trans unnumbered
          simp at different
      | @forkFailed _ u others _ _ _ _ freeThread =>
          rw [Queues.threads_removeThread]
          have member : .slot u ∈ q.threads .free := by simp [freeThread]
          exact separate.remove_other member busy

/-- Whatever value `fork` returns in a reachable state, everything is as it was exactly if there
was no free process or no free thread; and if no process has been made, the frames are as they
were, the first one of them being in use. -/
theorem forkUndone_iff (layout : Layout) (s s' : Kernel) (stack : Nat → Word) (value : Int)
    (reachable : Reachable layout anyStep s)
    (performed : s.perform layout (.fork stack) = .ok (s', .returns value)) :
    (s.ForkUndone s' ↔
      s.listEmpty .freequeue = true ∨ s.listEmpty .freeThreadqueue = true) ∧
    (s.mem.physMem numPagKernel = 1 → s'.globalPID = s.globalPID → s.FramesRestored s') := by
  obtain ⟨q, orderly⟩ := reachable.orderly
  obtain ⟨q', move, orderly'⟩ := orderly.step performed
  have entered : (s.enterWith stack).OwnDirectories := reachable.ownDirectories
  have outcome := mem_sysFork layout entered _ performed
  refine ⟨⟨fun undone => ?_, fun empty => ?_⟩, fun used unnumbered => ?_⟩
  · by_contra taken
    obtain ⟨someProcess, someThread⟩ := not_or.mp taken
    obtain ⟨u, before, after⟩ := move.thread_taken (Bool.eq_false_iff.mpr someProcess)
      (Bool.eq_false_iff.mpr someThread) orderly.threads.separate
    have linked := (undone.freeThreadqueue u).mpr ((orderly.threads.linked_iff .free u).mpr before)
    exact after ((orderly'.threads.linked_iff .free u).mp linked)
  · rcases outcome with ⟨refused, _⟩ | ⟨someProcess, someThread, _⟩
    · obtain ⟨rfl, _⟩ := Prod.mk.inj refused
      exact {
        freequeue := fun _ => Iff.rfl
        freeThreadqueue := fun _ => Iff.rfl
        physMem := rfl
        callerTable := fun _ _ _ _ => rfl
        readyqueue := rfl
        ready := fun _ => rfl
        blocked := fun _ => rfl
        waiters := fun _ => rfl
        abandoned := fun child taken => by
          rcases empty with none_left | none_left
          · exact absurd (none_left.symm.trans taken.1) (by simp)
          · exact absurd (none_left.symm.trans taken.2.1) (by simp)
        globalPID := rfl }
    · rcases empty with none_left | none_left
      · exact absurd (none_left.symm.trans someProcess) (by simp)
      · exact absurd (none_left.symm.trans someThread) (by simp)
  · have threads : ∀ queue : ThreadQueue, queue ≠ .free →
        s'.linked queue.node = s.linked queue.node := by
      intro queue busy
      rw [orderly'.threads.linked, orderly.threads.linked,
        move.fork_failed unnumbered orderly.threads.separate busy]
    have lists : ∀ p m, s'.linked (.ready p) = s.linked (.ready p) ∧
        s'.linked (.blocked p) = s.linked (.blocked p) ∧ s'.waiters m = s.waiters m :=
      fun p m => ⟨threads (.ready p) (by simp), threads (.blocked p) (by simp),
        threads (.mutex m) (by simp)⟩
    rcases outcome with ⟨refused, _⟩ | ⟨someProcess, someThread, child, taken, failed | forked⟩
    · obtain ⟨rfl, _⟩ := Prod.mk.inj refused
      exact ⟨rfl, fun _ _ _ => .inl rfl, lists⟩
    · obtain ⟨mem, allocated, equal, _⟩ := failed
      obtain ⟨few, frames, entries⟩ := Memory.forkFailed_eq (m := s.mem) allocated
      obtain rfl : s'.mem = mem := equal
      have node : s.listFirst .freequeue = .task child := orderly.threads.task_of_first .free taken
      refine ⟨funext fun f => frames f ?_, fun row page inside => ?_, lists⟩
      · rintro rfl
        simp [used]
      · rw [entries row page inside]
        split_ifs with reached
        · obtain ⟨rfl, above, below⟩ := reached
          exact .inr ⟨⟨someProcess, someThread, node⟩, above, by omega, rfl⟩
        · exact .inl rfl
    · have different : s.globalPID + 1 = s.globalPID := forked.1.symm.trans unnumbered
      simp at different

/-- Eight threads are created; then `fork` finds no free one. -/
theorem forkUndone_iff_full :
    ∃ s s', Reachable plainLayout anyStep s ∧
      s.perform plainLayout (.fork fun _ => 0) = .ok (s', .returns (-ENOMEM)) ∧
      s.listEmpty .freeThreadqueue = true ∧ s.ForkUndone s' := by
  obtain ⟨s, s', result, reachable, performed, goal⟩ := performed_of_checkBoot anyStep
    (fun _ _ => true) (.fork fun _ => 0)
    (fun s _ result => decide (result = .returns (-ENOMEM)) && s.listEmpty .freeThreadqueue)
    (List.replicate 8 (.pthreadCreate (fun _ => 0) 0x108000 0x108000)) (fun _ _ _ => trivial)
    (by decide +kernel)
  obtain ⟨returned, full⟩ := Bool.and_eq_true_iff.mp goal
  obtain rfl := of_decide_eq_true returned
  exact ⟨s, s', reachable, performed, full,
    (forkUndone_iff plainLayout s s' _ _ reachable performed).1.mpr (.inr full)⟩

/-- After 340 threads have come and gone there are 16 frames left: `fork` fails and keeps a thread.
-/
theorem not_forkUndone :
    ¬∀ layout s s' stack value, Reachable layout anyStep s →
      s.perform layout (.fork stack) = .ok (s', .returns value) → value < 0 → s.ForkUndone s' := by
  intro undone
  obtain ⟨s, q, reachable, round⟩ := reachable_round plainLayout 340 (by decide)
  obtain ⟨u, others, freeThread⟩ := round.freeThread
  obtain ⟨child, processes, freeProcess⟩ := List.exists_cons_of_ne_nil round.someProcess
  obtain ⟨s', failed⟩ := round.consistent.forkFailed_ok plainLayout (fun _ => 0)
    freeProcess freeThread (by rw [round.frames]; decide)
  have someProcess : s.listEmpty .freequeue = false := by
    simpa [freeProcess] using round.consistent.represents.empty_processes .free
  have someThread : s.listEmpty .freeThreadqueue = false := by
    simpa [freeThread] using round.consistent.represents.empty_threads .free trivial
  obtain ⟨p, orderly⟩ := reachable.orderly
  obtain ⟨p', move, orderly'⟩ := orderly.step failed
  obtain ⟨t, before, after⟩ := move.thread_taken someProcess someThread orderly.threads.separate
  have kept := (undone plainLayout s s' _ _ reachable failed (by decide)).freeThreadqueue t
  have linked := kept.mpr ((orderly.threads.linked_iff .free t).mpr before)
  exact after ((orderly'.threads.linked_iff .free t).mp linked)

end Zeos
