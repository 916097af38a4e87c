import Zeos.Steps
import Zeos.Paging

/-!
# Calls that succeed

When the calls that make, switch and end threads get to their end without a fault.
-/

namespace Zeos

open IntrusiveList GuardedRun Kernel

/-! ## Stores -/

namespace Memory

variable {m : Memory} {cr3 : TaskId} {addr value : Word}

/-- The four bytes of a word are mapped to frames above the kernel's. -/
def Writable (m : Memory) (cr3 : TaskId) (addr : Word) : Prop :=
  ∀ offset < 4, ∃ frame, m.frameOf cr3 ((addr.toNat + offset) / pageSize) = .ok frame ∧
    numPagKernel ≤ frame

theorem frameOf_congr {m' : Memory} (tables : m'.pagusrTable = m.pagusrTable) (page : Nat) :
    m'.frameOf cr3 page = m.frameOf cr3 page := by
  rw [frameOf, frameOf, tables]

theorem Writable.congr {m' : Memory} (writable : m.Writable cr3 addr)
    (tables : m'.pagusrTable = m.pagusrTable) : m'.Writable cr3 addr := by
  intro offset bound
  rw [frameOf_congr tables]
  exact writable offset bound

theorem storeByte_ok (writable : m.Writable cr3 addr) {offset : Nat} (bound : offset < 4)
    (byte : Byte) :
    ∃ m', m.storeByte cr3 (addr.toNat + offset) byte = .ok m' ∧ m'.Writable cr3 addr := by
  have sizes := pageConstants
  obtain ⟨frame, found, above⟩ := writable offset bound
  rw [storeByte, translate, found]
  simp only [ok_bind, pure_eq_ok]
  rw [if_neg (by
    have covered : numPagKernel * pageSize ≤ frame * pageSize := Nat.mul_le_mul_right _ above
    omega)]
  exact ⟨_, rfl, writable.congr rfl⟩

/-- A word whose bytes are mapped can be stored. -/
theorem storeWord_ok (writable : m.Writable cr3 addr) (value : Word) :
    ∃ m', m.storeWord cr3 addr value = .ok m' := by
  have rounds : ∀ offsets : List Nat, (∀ offset ∈ offsets, offset < 4) → ∀ m : Memory,
      m.Writable cr3 addr → ∃ m', offsets.foldlM (fun m offset =>
        m.storeByte cr3 (addr.toNat + offset) (value.extractLsb' (8 * offset) 8)) m = .ok m' := by
    intro offsets
    induction offsets with
    | nil => exact fun _ m _ => ⟨m, rfl⟩
    | cons offset rest induction =>
        intro bounds m writable
        obtain ⟨m₁, stored, writable₁⟩ := storeByte_ok writable
          (bounds offset List.mem_cons_self) (value.extractLsb' (8 * offset) 8)
        rw [List.foldlM_cons, stored, ok_bind]
        exact induction (fun other member => bounds other (List.mem_cons_of_mem _ member)) m₁
          writable₁
  exact rounds _ (fun offset member => List.mem_range.mp member) m writable

/-- The search of `pthread_create` ends at the first entry without a frame. -/
theorem findStackEntry_ok {fuel index count : Nat}
    (taken : ∀ k < count, (m.pagusrTable (index + k)).pbaseAddr ≠ 0)
    (free : (m.pagusrTable (index + count)).pbaseAddr = 0)
    (inside : index + count < nrTasks * totalPages) (enough : count < fuel) :
    m.findStackEntry fuel index = .ok (index + count) := by
  induction count generalizing fuel index with
  | zero =>
      obtain ⟨fuel, rfl⟩ := Nat.exists_eq_succ_of_ne_zero (Nat.ne_of_gt enough)
      rw [Nat.add_zero] at free inside ⊢
      rw [findStackEntry, if_pos inside, if_pos free]
  | succ count induction =>
      obtain ⟨fuel, rfl⟩ := Nat.exists_eq_succ_of_ne_zero (Nat.ne_of_gt (Nat.zero_lt_of_lt enough))
      have first : (m.pagusrTable index).pbaseAddr ≠ 0 := taken 0 (by omega)
      have shifted : index + (count + 1) = index + 1 + count := by omega
      rw [shifted] at free inside ⊢
      rw [findStackEntry, if_pos (by omega), if_neg first]
      refine induction (fun k bound => ?_) free inside (Nat.lt_of_succ_lt_succ enough)
      have later := taken (k + 1) (Nat.succ_lt_succ bound)
      rwa [show index + (k + 1) = index + 1 + k by omega] at later

/-- The memory after `pthread_create` has given the new thread its stack page. -/
def stackMemory (m : Memory) (entry : Nat) : Memory :=
  m.allocFrame.2.setEntry entry (stackEntry m.allocFrame.1)

end Memory

variable {layout : Layout} {s s' : Kernel} {q q' : Queues} {action : Action} {p : TaskId}
  {t : ThreadPtr}

/-! ## Switches -/

namespace Kernel

theorem taskSwitch_ok (process : (s.thread t).p = .slot p)
    (directory : (s.task p).dirPagesBaseAddr = some p)
    (saved : ∃ index, (s.thread t).registerEsp = .on t index) :
    ∃ s', s.taskSwitch t = .ok s' := by
  obtain ⟨index, on⟩ := saved
  rw [taskSwitch, process]
  simp only [deref_slot, ok_bind, setCr3, directory, switchStack, on]
  exact ⟨_, rfl⟩

/-- The first ready thread can run if it has been switched out before. -/
theorem schedNextThreadRr_ok (layout : Layout) (represents : Represents s.heap q)
    (process : (s.thread s.current).p = .slot p)
    (directory : (s.task p).dirPagesBaseAddr = some p) {rest : List ThreadPtr}
    (first : q.threads (.ready p) = t :: rest) (own : (s.thread t).p = .slot p)
    (parked : Parked t (s.thread t)) : ∃ s', s.schedNextThreadRr layout = .ok s' := by
  have member : t ∈ q.threads (.ready p) := by simp [first]
  have node : s.listFirst (.ready p) = .thread t := by
    simpa [first] using represents.first_threads (.ready p) trivial
  obtain ⟨heap, updated, _⟩ := updateThreadStateRr_remove represents member parked.1
  rw [schedNextThreadRr, currentP_eq process]
  simp only [ok_bind, node, listHeadToThreadStruct, updated]
  exact taskSwitch_ok (by simpa using own) directory (by simpa using parked.2)

end Kernel

/-! ## Calls -/

namespace Consistent

/-- `yield` with another ready thread. -/
theorem yield_ok (consistent : Consistent s q) (layout : Layout) {u : ThreadSlot}
    {rest : List ThreadPtr}
    (first : q.threads (.ready s.cr3) = .slot u :: rest) :
    ∃ s', s.perform layout .yield = .ok (s', .switches) := by
  have entered := consistent.enter layout .yield
  have member : .slot u ∈ q.threads (.ready s.cr3) := by simp [first]
  have other : .slot u ≠ s.current := (consistent.ne_of_mem member).symm
  obtain ⟨own, parked⟩ := consistent.fits member
  obtain ⟨heap, pushed, represents⟩ := entered.scheduled.push_current (.ready s.cr3) trivial
    (show queueState s.cr3 (.ready s.cr3) = .stReady from if_pos rfl)
  have queued : (q.pushThread (.ready s.cr3) s.current).threads (.ready s.cr3) =
      .slot u :: (rest ++ [s.current]) := by simp [first, Lanes.push]
  obtain ⟨s', switched⟩ := schedNextThreadRr_ok (t := .slot u) (p := s.cr3)
    (s := { s.enter layout .yield with heap }.setState s.current .stReady) layout represents
    (by simpa using consistent.process) consistent.ownDirectory queued
    (by simpa [other] using own) (by simpa [other] using parked)
  simp only [ThreadQueue.node_ready, current_enter] at pushed
  rw [Kernel.perform, sysYield, forceThreadSwitch, currentP_eq entered.process, ok_bind, bind_assoc,
    cr3_enter, current_enter, pushed, ok_bind]
  exact ⟨s', switched ▸ rfl⟩

/-- `pthread_exit` with another ready thread and nobody blocked. -/
theorem pthreadExit_ok (consistent : Consistent s q) (layout : Layout) {u : ThreadSlot}
    {rest : List ThreadPtr}
    (first : q.threads (.ready s.cr3) = .slot u :: rest)
    (nobody : q.threads (.blocked s.cr3) = []) :
    ∃ s', s.perform layout .pthreadExit = .ok (s', .switches) := by
  have entered := consistent.enter layout .pthreadExit
  obtain ⟨heap, pushed, represents⟩ := entered.represents.pushThread .free trivial entered.absent
    fun _ _ => entered.last
  have member : .slot u ∈ q.threads (.ready s.cr3) := by simp [first]
  obtain ⟨own, parked⟩ := consistent.fits member
  have empty : Kernel.listEmpty { s.enter layout .pthreadExit with heap } (.blocked s.cr3) =
    true := by
    simpa [nobody] using Represents.empty_threads
      (s := { s.enter layout .pthreadExit with heap }) represents (.blocked s.cr3) trivial
  obtain ⟨s', switched⟩ := schedNextThreadRr_ok (t := .slot u) (p := s.cr3)
    (s := { s.enter layout .pthreadExit with heap }) layout represents consistent.process
    consistent.ownDirectory (show _ = .slot u :: rest by simpa using first) own parked
  simp only [ThreadQueue.node_free] at pushed
  rw [Kernel.perform, sysPthreadExit, pushed, ok_bind]
  rw [show Kernel.currentP { s.enter layout .pthreadExit with heap } = .ok s.cr3 from
    currentP_eq consistent.process, ok_bind, wakeJoiners, if_pos empty, ok_bind, switched]
  exact ⟨s', rfl⟩

/-- `pthread_create` with a free thread, an entry for its stack and a place for its number. -/
theorem create_ok (consistent : Consistent s q) (layout : Layout) (stack : Nat → Word)
    {id startRoutine : Word} {u : ThreadSlot} {others : List ThreadPtr} {entry : Nat}
    (freeThread : q.threads .free = .slot u :: others)
    (accepted : accessOk .read startRoutine 4 = true)
    (found : s.mem.findStackEntry (nrTasks * totalPages)
      (entryIndex s.cr3 (pagLogInitData + numPagData)) = .ok entry)
    (writable : (s.mem.stackMemory entry).Writable s.cr3 id) :
    ∃ s', s.perform layout (.pthreadCreate stack id startRoutine) = .ok (s', .returns 0) := by
  have entered : Consistent (s.enterWith stack) q := consistent.of_eq rfl rfl rfl rfl rfl rfl
  have member : .slot u ∈ q.threads .free := by simp [freeThread]
  have other : s.current ≠ .slot u := consistent.ne_of_mem member
  have nonempty : (s.enterWith stack).listEmpty .freeThreadqueue = false := by
    simpa [freeThread] using entered.represents.empty_threads .free trivial
  have node : (s.enterWith stack).listFirst .freeThreadqueue = .thread (.slot u) := by
    simpa [freeThread] using entered.represents.first_threads .free trivial
  obtain ⟨heap, stack', taken, represents⟩ := takeThreadUnion entered.represents member
  rw [Kernel.perform, sysPthreadCreate, if_neg (by rw [accepted]; simp),
    if_neg (by simp [nonempty])]
  dsimp only
  rw [node, listHeadToThreadStruct, ok_bind, ← bind_assoc, taken, ok_bind]
  have process : (({ (s.enterWith stack).setThread (.slot u)
      (fun _ => (s.enterWith stack).thread (s.enterWith stack).current) with
      heap, stack := stack' }.createContext (.slot u) startRoutine).thread
        s.current).p = .slot s.cr3 := by
    simpa [createContext, setStack, other, enterWith] using consistent.process
  have table : ({ (s.enterWith stack).setThread (.slot u)
      (fun _ => (s.enterWith stack).thread (s.enterWith stack).current) with
      heap, stack := stack' }.createContext (.slot u) startRoutine).getPT s.cr3 = .ok s.cr3 := by
    have directory := consistent.ownDirectory
    rw [getPT]
    simp only [createContext, setStack, setThread, enterWith, directory]
  rw [currentP_eq process, ok_bind, table, ok_bind]
  obtain ⟨s₁, created, mem_eq, cr3_eq, heap_eq⟩ : ∃ s₁, ({ (s.enterWith stack).setThread (.slot u)
      (fun _ => (s.enterWith stack).thread (s.enterWith stack).current) with
      heap, stack := stack' }.createContext (.slot u) startRoutine).createStack (.slot u) s.cr3 =
        .ok s₁ ∧ s₁.mem = s.mem.stackMemory entry ∧ s₁.cr3 = s.cr3 ∧ s₁.heap = heap := by
    rw [createStack]
    simp only [createContext, setStack, setThread, enterWith, found, ok_bind]
    exact ⟨_, rfl, rfl, rfl, rfl⟩
  rw [created, ok_bind]
  have writable₁ : (s₁.createThread (.slot u) s.cr3).mem.Writable
      (s₁.createThread (.slot u) s.cr3).cr3 id := by
    show s₁.mem.Writable s₁.cr3 id
    rw [mem_eq, cr3_eq]
    exact writable
  obtain ⟨mem, stored⟩ := Memory.storeWord_ok writable₁
    ((s₁.createThread (.slot u) s.cr3).thread (.slot u)).tid
  have represents₁ : Represents s₁.heap (q.removeThread (.slot u)) := heap_eq ▸ represents
  obtain ⟨heap', pushed, _⟩ := Represents.pushThread
    (s := { s₁.createThread (.slot u) s.cr3 with mem }) (q := q.removeThread (.slot u)) represents₁
    (.ready s.cr3) trivial (consistent.threads.absent_remove.mpr (.inr rfl))
    fun index slot unlisted same =>
      consistent.not_last member index (ThreadPtr.slot.inj same ▸ unlisted)
  simp only [ThreadQueue.node_ready] at pushed
  rw [stored, ok_bind, pushed]
  exact ⟨_, rfl⟩

/-- `fork` without enough frames for a child. -/
theorem forkFailed_ok (consistent : Consistent s q) (layout : Layout) (stack : Nat → Word)
    {child : TaskId}
    {processes : List TaskId} {u : ThreadSlot} {others : List ThreadPtr}
    (freeProcess : q.processes .free = child :: processes)
    (freeThread : q.threads .free = .slot u :: others)
    (few : (Memory.freeFrames s.mem.physMem).length < numPagData) :
    ∃ s', s.perform layout (.fork stack) = .ok (s', .returns (-EAGAIN)) := by
  have entered : Consistent (s.enterWith stack) q := consistent.of_eq rfl rfl rfl rfl rfl rfl
  have member : .slot u ∈ q.threads .free := by simp [freeThread]
  have processMember : child ∈ q.processes .free := by simp [freeProcess]
  have someProcess : (s.enterWith stack).listEmpty .freequeue = false := by
    simpa [freeProcess] using entered.represents.empty_processes .free
  have someThread : (s.enterWith stack).listEmpty .freeThreadqueue = false := by
    simpa [freeThread] using entered.represents.empty_threads .free trivial
  have firstProcess : (s.enterWith stack).listFirst .freequeue = .task child := by
    simpa [freeProcess] using entered.represents.first_processes .free
  have firstThread : (s.enterWith stack).listFirst .freeThreadqueue = .thread (.slot u) := by
    simpa [freeThread] using entered.represents.first_threads .free trivial
  rw [Kernel.perform, sysFork, if_neg (by simp [someProcess]), if_neg (by simp [someThread])]
  dsimp only
  obtain ⟨heap, deleted, represents⟩ := entered.represents.removeProcess processMember
  obtain ⟨s₁, taken, mem_eq, represents'⟩ : ∃ s₁, ({ s.enterWith stack with heap }.listDel
      (.thread (.slot u)) >>= fun s => s.copyThreadUnion (.slot u)) = .ok s₁ ∧ s₁.mem = s.mem ∧
        Represents s₁.heap ((q.removeProcess child).removeThread (.slot u)) := by
    obtain ⟨heap', stack', taken, represents'⟩ :=
      takeThreadUnion (s := { s.enterWith stack with heap }) represents member
    exact ⟨_, taken, rfl, represents'⟩
  rw [firstProcess, firstThread, deleted, ok_bind]
  simp only [listHeadToTaskStruct, listHeadToThreadStruct, ok_bind]
  rw [← bind_assoc, taken, ok_bind]
  obtain ⟨mem, failed, _⟩ :=
    Memory.allocDataPages_short (m := s.mem) child numPagData 0 (by decide) few
  have table : (s₁.allocateDIR child).getPT child = .ok child := by
    simp [getPT, allocateDIR, setTask]
  have failed₁ : (s₁.allocateDIR child).mem.allocDataPages child numPagData 0 = (false, mem) := by
    rw [← mem_eq] at failed
    exact failed
  obtain ⟨heap', pushed, _⟩ := Represents.pushProcess
    (s := { s₁.allocateDIR child with mem }) (q := (q.removeProcess child).removeThread (.slot u))
    represents' .free (consistent.processes.absent_remove.mpr (.inr rfl))
  simp only [ProcessQueue.node_free] at pushed
  rw [table, ok_bind, failed₁]
  dsimp only
  rw [pushed]
  exact ⟨_, rfl⟩

end Consistent

end Zeos
