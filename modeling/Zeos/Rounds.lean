import Zeos.Progress
import Zeos.Start

/-!
# Threads that come and go

The first process makes a thread, switches to it and lets it end, over and over.  The frame and the
page of the thread's stack are never given back.
-/

namespace Zeos

open IntrusiveList GuardedRun Kernel

/-- The entries from the first stack page of the first process on. -/
def stackIndex (k : Nat) : Nat := entryIndex 1 (pagLogInitData + numPagData) + k

/-- A place in the user data for the number of a new thread, and a start routine. -/
abbrev userData : Word := 0x108000

/-- The number of frames that boot leaves free. -/
abbrev spareFrames : Nat := (totalPages - numPagKernel) / 2 - (numPagCode + numPagData)

/-- After `n` threads have come and gone the first process runs alone again; the first `n` entries
for stacks are taken and as many frames are used, as long as there were any. -/
structure Round (n : Nat) (s : Kernel) (q : Queues) : Prop where
  consistent : Consistent s q
  current : s.current = .slot 1
  cr3 : s.cr3 = 1
  ready : q.threads (.ready 1) = []
  blocked : q.threads (.blocked 1) = []
  slots : ∀ t ∈ q.threads .free, ∃ u, t = .slot u
  someThread : q.threads .free ≠ []
  someProcess : q.processes .free ≠ []
  taken : ∀ k < n, (s.mem.pagusrTable (stackIndex k)).pbaseAddr ≠ 0
  untaken : ∀ k, n ≤ k → stackIndex k ≤ entryIndex 2 0 →
    (s.mem.pagusrTable (stackIndex k)).pbaseAddr = 0
  writable : s.mem.Writable 1 userData
  frames : (Memory.freeFrames s.mem.physMem).length = spareFrames - n

namespace Memory

variable {m : Memory}

/-- The entry for a stack is never without a frame number. -/
theorem stackEntry_ne_zero (m : Memory) : (stackEntry m.allocFrame.1).pbaseAddr ≠ 0 := by
  have sizes := pageConstants
  cases first : freeFrames m.physMem with
  | nil =>
      rw [allocFrame_nil first]
      show (stackEntry (-1)).pbaseAddr ≠ 0
      decide
  | cons f rest =>
      have member : f ∈ freeFrames m.physMem := first ▸ List.mem_cons_self
      obtain ⟨⟨above, below, _⟩, _⟩ := mem_freeFrames.mp member
      rw [allocFrame_cons first, stackEntry, BitVec.ofInt_natCast]
      intro zero
      have value := toNat_mapped below
      rw [mapped, zero] at value
      exact absurd value.symm (by
        have positive : f ≠ (0#20).toNat := by simp; omega
        exact positive)

/-- A frame is taken as long as there is one. -/
theorem length_freeFrames_allocFrame (m : Memory) :
    (freeFrames m.allocFrame.2.physMem).length = (freeFrames m.physMem).length - 1 := by
  cases first : freeFrames m.physMem with
  | nil =>
      rw [allocFrame_nil first, first]
      rfl
  | cons f rest =>
      rw [allocFrame_cons first]
      show (freeFrames (Function.update m.physMem f 1)).length = _
      rw [freeFrames_update first]
      rfl

theorem length_freeFrames_bootMemory (layout : Layout) :
    (freeFrames (bootMemory layout).physMem).length = spareFrames := by
  have free := freeFrames_initFrames ((zeroed layout).mem.initTablePages layout)
  obtain ⟨rest, _⟩ := setCodePages_eq 1
    (m := ((zeroed layout).mem.initTablePages layout).initFrames)
    (by rw [free, List.length_range']; decide)
  have enough : numPagData ≤ (freeFrames (((zeroed layout).mem.initTablePages
      layout).initFrames.setCodePages 1).physMem).length := by
    rw [rest, free, List.length_drop, List.length_range']
    decide
  obtain ⟨rest', _⟩ := setUserPages_eq 1 enough
  rw [bootMemory, rest', rest, free, List.length_drop, List.length_drop, List.length_range']
  exact Nat.sub_sub _ _ _

theorem tables_stackMemory (m : Memory) (entry : Nat) : (m.stackMemory entry).pagusrTable =
    Function.update m.pagusrTable entry (stackEntry m.allocFrame.1) := by
  rw [← pagusrTable_allocFrame m]
  rfl

/-- The number of a new thread can still be stored after a page has been mapped for its stack. -/
theorem Writable.stackMemory (writable : m.Writable 1 userData) (k : Nat) :
    (m.stackMemory (stackIndex k)).Writable 1 userData := by
  intro offset bound
  obtain ⟨frame, found, above⟩ := writable offset bound
  refine ⟨frame, ?_, above⟩
  have page : (userData.toNat + offset) / pageSize = pagLogInitData := by
    have place : userData.toNat = 264 * 4096 := by decide
    show (userData.toNat + offset) / 4096 = 264
    omega
  have other : entryIndex 1 pagLogInitData ≠ stackIndex k := by
    have base : entryIndex 1 (pagLogInitData + numPagData) = 1308 := by decide
    have data : entryIndex 1 pagLogInitData = 1288 := by decide
    rw [stackIndex, base, data]
    omega
  have entry_eq : (m.stackMemory (stackIndex k)).pagusrTable (entryIndex 1 pagLogInitData) =
      m.pagusrTable (entryIndex 1 pagLogInitData) := by
    rw [tables_stackMemory, Function.update_of_ne other]
  rw [page] at found ⊢
  rw [frameOf, entry_eq]
  exact found

end Memory

variable {layout : Layout} {s s' : Kernel} {q q' : Queues} {u : ThreadSlot}
  {others : List ThreadPtr} {n : Nat}

/-! ## What the three calls of a round do to the threads -/

namespace Consistent

/-- The new thread is the last ready one. -/
theorem creates (consistent : Consistent s q) {stack : Nat → Word} {id startRoutine : Word}
    (freeThread : q.threads .free = .slot u :: others)
    (performed : s.perform layout (.pthreadCreate stack id startRoutine) = .ok (s', .returns 0)) :
    ∃ q', Consistent s' q' ∧ s'.current = s.current ∧ s'.cr3 = s.cr3 ∧
      q'.processes = q.processes ∧ q'.threads .free = others ∧
      q'.threads (.ready s.cr3) = q.threads (.ready s.cr3) ++ [.slot u] ∧
      q'.threads (.blocked s.cr3) = q.threads (.blocked s.cr3) := by
  obtain ⟨q', transition, represents⟩ := consistent.transition_of_perform performed
  have consistent' := transition.consistent consistent trivial represents
  have member : .slot u ∈ q.threads .free := by simp [freeThread]
  cases transition with
  | refused negative => exact absurd negative (by decide)
  | created freeThread' =>
      obtain ⟨equal, _⟩ := List.cons_eq_cons.mp (freeThread.symm.trans freeThread')
      obtain rfl := ThreadPtr.slot.inj equal
      refine ⟨_, consistent', rfl, rfl, rfl, ?_, ?_, ?_⟩
      · rw [Queues.threads_moveThread, Lanes.push_other (by simp), Lanes.remove_first freeThread]
      · rw [Queues.threads_moveThread, Lanes.push_same,
          consistent.threads.remove_other member (by simp)]
      · rw [Queues.threads_moveThread, Lanes.push_other (by simp),
          consistent.threads.remove_other member (by simp)]

/-- The first ready thread runs, and the running one becomes the last ready one. -/
theorem yields (consistent : Consistent s q)
    (first : q.threads (.ready s.cr3) = .slot u :: others)
    (performed : s.perform layout .yield = .ok (s', .switches)) :
    ∃ q', Consistent s' q' ∧ s'.current = .slot u ∧ s'.cr3 = s.cr3 ∧
      q'.processes = q.processes ∧ q'.threads .free = q.threads .free ∧
      q'.threads (.ready s.cr3) = others ++ [s.current] ∧
      q'.threads (.blocked s.cr3) = q.threads (.blocked s.cr3) := by
  obtain ⟨q', transition, represents⟩ := consistent.transition_of_perform performed
  have consistent' := transition.consistent consistent trivial represents
  have separate : (q.threads.push (.ready s.cr3) s.current).Separate :=
    consistent.threads.push consistent.absent
  cases transition with
  | yielded first' =>
      rw [first, List.cons_append] at first'
      obtain ⟨equal, _⟩ := List.cons_eq_cons.mp first'
      obtain rfl := ThreadPtr.slot.inj equal
      have queued : (q.threads.push (.ready s.cr3) s.current) (.ready s.cr3) =
          .slot u :: (others ++ [s.current]) := by
        rw [Lanes.push_same, first, List.cons_append]
      have member : .slot u ∈ (q.threads.push (.ready s.cr3) s.current) (.ready s.cr3) :=
        queued ▸ List.mem_cons_self
      refine ⟨_, consistent', rfl, rfl, rfl, ?_, ?_, ?_⟩
      · rw [Queues.threads_removeThread, Queues.threads_pushThread,
          separate.remove_other member (by simp), Lanes.push_other (by simp)]
      · rw [Queues.threads_removeThread, Queues.threads_pushThread, Lanes.remove_first queued]
      · rw [Queues.threads_removeThread, Queues.threads_pushThread,
          separate.remove_other member (by simp), Lanes.push_other (by simp)]

/-- The first ready thread runs, and the running one becomes the last free one. -/
theorem ends (consistent : Consistent s q)
    (first : q.threads (.ready s.cr3) = .slot u :: others)
    (nobody : q.threads (.blocked s.cr3) = [])
    (performed : s.perform layout .pthreadExit = .ok (s', .switches)) :
    ∃ q', Consistent s' q' ∧ s'.current = .slot u ∧ s'.cr3 = s.cr3 ∧
      q'.processes = q.processes ∧ q'.threads .free = q.threads .free ++ [s.current] ∧
      q'.threads (.ready s.cr3) = others ∧ q'.threads (.blocked s.cr3) = [] := by
  obtain ⟨q', transition, represents⟩ := consistent.transition_of_perform performed
  have consistent' := transition.consistent consistent trivial represents
  have separate : (q.threads.push .free s.current).Separate :=
    consistent.threads.push consistent.absent
  have woken : (q.pushThread .free s.current).wakeFirst s.cr3 s.Joins =
      q.pushThread .free s.current := by
    rw [Queues.wakeFirst]
    simp [nobody]
  cases transition with
  | ended first' =>
      rw [woken] at first' consistent'
      have queued : (q.threads.push .free s.current) (.ready s.cr3) = .slot u :: others := by
        rw [Lanes.push_other (by simp), first]
      obtain ⟨equal, _⟩ := List.cons_eq_cons.mp (queued.symm.trans first')
      obtain rfl := ThreadPtr.slot.inj equal
      have member : .slot u ∈ (q.threads.push .free s.current) (.ready s.cr3) :=
        queued ▸ List.mem_cons_self
      refine ⟨_, consistent', rfl, rfl, rfl, ?_, ?_, ?_⟩
      · rw [Queues.threads_removeThread, Queues.threads_pushThread,
          separate.remove_other member (by simp), Lanes.push_same]
      · rw [Queues.threads_removeThread, Queues.threads_pushThread, Lanes.remove_first queued]
      · rw [Queues.threads_removeThread, Queues.threads_pushThread,
          separate.remove_other member (by simp), Lanes.push_other (by simp), nobody]

/-- The memory after a successful `pthread_create`. -/
theorem mem_creates (consistent : Consistent s q) {stack : Nat → Word}
    {id startRoutine : Word} {entry : Nat}
    (found : s.mem.findStackEntry (nrTasks * totalPages)
      (entryIndex s.cr3 (pagLogInitData + numPagData)) = .ok entry)
    (performed : s.perform layout (.pthreadCreate stack id startRoutine) = .ok (s', .returns 0)) :
    s'.mem.pagusrTable = (s.mem.stackMemory entry).pagusrTable ∧
      s'.mem.physMem = s.mem.allocFrame.2.physMem := by
  have step := pageStep_perform layout consistent.directory _ _ performed
  cases step with
  | kept _ _ _ _ refused => exact absurd rfl (refused stack id startRoutine rfl)
  | created _ _ process found' tables frames =>
      obtain rfl := TaskPtr.slot.inj (consistent.process.symm.trans process)
      obtain rfl := Except.ok.inj (found.symm.trans found')
      exact ⟨tables.trans (s.mem.tables_stackMemory entry).symm, frames⟩

end Consistent

/-! ## Rounds -/

/-- The next free thread. -/
theorem Round.freeThread (round : Round n s q) :
    ∃ u others, q.threads .free = .slot u :: others := by
  cases free : q.threads .free with
  | nil => exact absurd free round.someThread
  | cons t others =>
      obtain ⟨u, rfl⟩ := round.slots t (by simp [free])
      exact ⟨u, others, rfl⟩

/-- The search for a stack page goes past the `n` entries that are taken. -/
theorem Round.found (round : Round n s q) (bound : stackIndex n ≤ entryIndex 2 0) :
    s.mem.findStackEntry (nrTasks * totalPages)
      (entryIndex s.cr3 (pagLogInitData + numPagData)) = .ok (stackIndex n) := by
  have limit : stackIndex n < nrTasks * totalPages := bound.trans_lt (by decide)
  rw [round.cr3]
  exact Memory.findStackEntry_ok round.taken (round.untaken n le_rfl bound) limit
    ((Nat.le_add_left n _).trans_lt limit)

/-- Another thread can be made. -/
theorem Round.creates (round : Round n s q) (layout : Layout)
    (bound : stackIndex n ≤ entryIndex 2 0) :
    ∃ s', s.perform layout (.pthreadCreate (fun _ => 0) userData userData) =
      .ok (s', .returns 0) := by
  obtain ⟨u, others, freeThread⟩ := round.freeThread
  refine round.consistent.create_ok layout _ freeThread (by decide) (round.found bound) ?_
  rw [round.cr3]
  exact round.writable.stackMemory n

/-- A thread comes and goes. -/
theorem Round.next (round : Round n s q) (layout : Layout)
    (bound : stackIndex n ≤ entryIndex 2 0) :
    ∃ s' q', Reaches (step layout) anyStep s s' ∧ Round (n + 1) s' q' := by
  obtain ⟨u, others, freeThread⟩ := round.freeThread
  obtain ⟨s₁, created⟩ := round.creates layout bound
  obtain ⟨q₁, consistent₁, current₁, cr3₁, processes₁, free₁, ready₁, blocked₁⟩ :=
    round.consistent.creates freeThread created
  rw [round.cr3] at cr3₁ ready₁ blocked₁
  rw [round.ready, List.nil_append, ← cr3₁] at ready₁
  obtain ⟨s₂, yielded⟩ := consistent₁.yield_ok layout ready₁
  obtain ⟨q₂, consistent₂, current₂, cr3₂, processes₂, free₂, ready₂, blocked₂⟩ :=
    consistent₁.yields ready₁ yielded
  rw [current₁, round.current, List.nil_append, ← cr3₂] at ready₂
  rw [cr3₁, blocked₁, round.blocked, ← cr3₁, ← cr3₂] at blocked₂
  obtain ⟨s₃, ended⟩ := consistent₂.pthreadExit_ok layout ready₂ blocked₂
  obtain ⟨q₃, consistent₃, current₃, cr3₃, processes₃, free₃, ready₃, blocked₃⟩ :=
    consistent₂.ends ready₂ blocked₂ ended
  rw [free₂, free₁, current₂] at free₃
  rw [cr3₂, cr3₁] at ready₃ blocked₃ cr3₃
  obtain ⟨tables₁, frames₁⟩ := round.consistent.mem_creates (round.found bound) created
  obtain ⟨tables₂, frames₂⟩ := tables_perform layout s₁ .yield id _ yielded
  obtain ⟨tables₃, frames₃⟩ := tables_perform layout s₂ .pthreadExit id _ ended
  have tables : s₃.mem.pagusrTable = Function.update s.mem.pagusrTable (stackIndex n)
      (stackEntry s.mem.allocFrame.1) := by
    rw [tables₃, tables₂, tables₁, Memory.tables_stackMemory]
  have run : Reaches (step layout) anyStep s s₃ := by
    have one : ∀ {a b : Kernel} {action : Action} {result : Result},
        a.perform layout action = .ok (b, result) → Step (step layout) anyStep a b :=
      fun performed => ⟨_, trivial, bind_eq_ok.mpr ⟨_, performed, rfl⟩⟩
    exact ((Relation.ReflTransGen.single (one created)).tail (one yielded)).tail (one ended)
  refine ⟨s₃, q₃, run, {
    consistent := consistent₃
    current := current₃
    cr3 := cr3₃
    ready := ready₃
    blocked := blocked₃
    slots := fun t inside => ?_
    someThread := by simp [free₃]
    someProcess := by
      rw [processes₃, processes₂, processes₁]
      exact round.someProcess
    taken := fun k below => ?_
    untaken := fun k above inside => ?_
    writable := (round.writable.stackMemory n).congr (by rw [tables₃, tables₂, tables₁])
    frames := ?_ }⟩
  · rw [free₃] at inside
    rcases List.mem_append.mp inside with old | new
    · exact round.slots t (freeThread ▸ List.mem_cons_of_mem _ old)
    · exact ⟨u, List.mem_singleton.mp new⟩
  · rw [tables]
    by_cases last : k = n
    · rw [last, Function.update_self]
      exact s.mem.stackEntry_ne_zero
    · rw [Function.update_of_ne (by simp only [stackIndex]; omega)]
      exact round.taken k (by omega)
  · rw [tables, Function.update_of_ne (by simp only [stackIndex]; omega)]
    exact round.untaken k (by omega) inside
  · rw [frames₃, frames₂, frames₁, Memory.length_freeFrames_allocFrame, round.frames]
    omega

theorem Round.boot (layout : Layout) {heap : Heap Node} (represents : Represents heap bootQueues) :
    Round 0 (booted layout heap) bootQueues where
  consistent := booted_consistent layout represents
  current := rfl
  cr3 := rfl
  ready := rfl
  blocked := rfl
  slots t member := by
    obtain ⟨_, u, same, _⟩ := mem_bootQueues member
    exact ⟨u, same⟩
  someThread := by decide
  someProcess := by decide
  taken k below := absurd below (Nat.not_lt_zero k)
  untaken k _ inside := by
    have sizes := pageConstants
    have base : stackIndex k = 1308 + k := rfl
    have limit : entryIndex 2 0 = 2048 := by decide
    have entries := (bootMemory_eq layout).2
    rw [mem_booted]
    by_cases own : k < 740
    · have index : stackIndex k = entryIndex 1 (284 + k) := by
        rw [base]
        show 1308 + k = 1024 + (284 + k)
        omega
      have entry_eq := entries 1 (284 + k) (by omega)
      rw [if_neg (by omega), if_neg (by omega), if_neg (by omega)] at entry_eq
      rw [Memory.entry] at entry_eq
      rw [index, entry_eq]
      rfl
    · have index : stackIndex k = entryIndex 2 0 := by omega
      have entry_eq := entries 2 0 (by decide)
      rw [if_neg (by decide), if_neg (by decide), if_neg (by decide)] at entry_eq
      rw [Memory.entry] at entry_eq
      rw [index, entry_eq]
      rfl
  writable offset bound := by
    have page : (userData.toNat + offset) / pageSize = pagLogInitData := by
      have place : userData.toNat = 264 * 4096 := by decide
      show (userData.toNat + offset) / 4096 = 264
      omega
    have entry_eq := (bootMemory_eq layout).2 1 pagLogInitData (by decide)
    rw [if_pos (by decide)] at entry_eq
    refine ⟨Memory.bootFrame 8, ?_, by decide⟩
    rw [page, mem_booted, Memory.frameOf]
    rw [show (bootMemory layout).pagusrTable (entryIndex 1 pagLogInitData) = _ from entry_eq]
    rfl
  frames := by
    rw [mem_booted, Memory.length_freeFrames_bootMemory]
    rfl

/-- Any number of threads can come and go before the page table of the first process is full. -/
theorem reachable_round (layout : Layout) (n : Nat) (bound : stackIndex n ≤ entryIndex 2 0 + 1) :
    ∃ s q, Reachable layout anyStep s ∧ Round n s q := by
  induction n with
  | zero =>
      obtain ⟨heap, boots, represents⟩ := boot_eq layout
      exact ⟨_, _, ⟨_, boots, .refl⟩, Round.boot layout represents⟩
  | succ n induction =>
      have inside : stackIndex n ≤ entryIndex 2 0 := Nat.le_of_succ_le_succ bound
      obtain ⟨s, q, ⟨start, boots, reaches⟩, round⟩ := induction (inside.trans (Nat.le_succ _))
      obtain ⟨s', q', run, round'⟩ := round.next layout inside
      exact ⟨s', q', ⟨start, boots, reaches.trans run⟩, round'⟩

end Zeos
