import Zeos.Frame
import Zeos.Pages
import Zeos.Start

/-!
# Paging steps

What the steps of the system do to page tables and frames, whatever the state of the lists.
-/

namespace Zeos

open IntrusiveList GuardedRun Kernel

namespace Kernel

/-- The page table of the calling process, `get_PT(current_p())`. -/
def callerTable (s : Kernel) : Except Fault TaskId := do s.getPT (← s.currentP)

/-- No process has the page directory of another one. -/
def OwnDirectories (s : Kernel) : Prop :=
  ∀ p, (s.task p).dirPagesBaseAddr = none ∨ (s.task p).dirPagesBaseAddr = some p

theorem OwnDirectories.perform {layout : Layout} {s s' : Kernel} {action : Action} {result : Result}
    (directories : s.OwnDirectories) (performed : s.perform layout action = .ok (s', result)) :
    s'.OwnDirectories := by
  intro p
  rcases directory_perform layout s action _ performed p with kept | own
  · exact kept ▸ directories p
  · exact .inr own

/-- In every run a process has no page directory or its own one. -/
theorem Reachable.ownDirectories {layout : Layout} {guard : Kernel → Action → Prop} {s : Kernel}
    (reachable : Reachable layout guard s) : s.OwnDirectories := by
  obtain ⟨start, booting, reaches⟩ := reachable
  obtain ⟨heap, boots, represents⟩ := boot_eq layout
  obtain rfl : booted layout heap = start := Except.ok.inj (boots.symm.trans booting)
  refine reaches.invariant OwnDirectories ?_ (booted_consistent layout represents).directory
  intro s s' action directories _ stepped
  obtain ⟨⟨next, result⟩, performed, equal⟩ := bind_eq_ok.mp stepped
  obtain rfl : next = s' := Except.ok.inj equal
  exact directories.perform performed

section Caller

variable {s : Kernel} {p row : TaskId}

theorem currentP_eq_ok : s.currentP = .ok p ↔ (s.thread s.current).p = .slot p := by
  unfold currentP deref
  split
  · rename_i own
    rw [own, Except.ok.injEq, TaskPtr.slot.injEq]
  · rename_i own
    simp [own]
  · rename_i own
    simp [own]

theorem getPT_eq_ok : s.getPT p = .ok row ↔ (s.task p).dirPagesBaseAddr = some row := by
  unfold getPT
  split
  · rename_i own
    rw [own, Except.ok.injEq, Option.some.injEq]
  · rename_i none
    simp [none]

/-- The caller's page table is the one of its process. -/
theorem callerTable_eq_ok (directories : s.OwnDirectories) : s.callerTable = .ok row ↔
    (s.thread s.current).p = .slot row ∧ (s.task row).dirPagesBaseAddr = some row := by
  unfold callerTable
  rw [bind_eq_ok]
  constructor
  · rintro ⟨p, current, table⟩
    rw [getPT_eq_ok] at table
    rw [currentP_eq_ok] at current
    rcases directories p with without | own
    · rw [without] at table
      exact absurd table (by simp)
    · obtain rfl : p = row := Option.some.inj (own.symm.trans table)
      exact ⟨current, own⟩
  · rintro ⟨current, own⟩
    exact ⟨row, currentP_eq_ok.mpr current, getPT_eq_ok.mpr own⟩

end Caller

/-! ## Memory in `fork` -/

/-- The variables on which the memory after `fork` depends are the same. -/
structure Alike (s s' : Kernel) : Prop where
  mem : s'.mem = s.mem
  cr3 : s'.cr3 = s.cr3
  task : s'.task = s.task
  globalPID : s'.globalPID = s.globalPID
  process : (s'.thread s'.current).p = (s.thread s.current).p

theorem alike_listDel (s : Kernel) (entry : Node) : Ensures (Alike s) (s.listDel entry) :=
  (s.relinks_listDel entry).mono fun _ ⟨_, same⟩ => same ▸ ⟨rfl, rfl, rfl, rfl, rfl⟩

theorem Alike.trans {s s' s'' : Kernel} (alike : Alike s s') (alike' : Alike s' s'') :
    Alike s s'' where
  mem := alike'.mem.trans alike.mem
  cr3 := alike'.cr3.trans alike.cr3
  task := alike'.task.trans alike.task
  globalPID := alike'.globalPID.trans alike.globalPID
  process := alike'.process.trans alike.process

theorem alike_copyThreadUnion (s : Kernel) (dest : ThreadPtr) :
    Ensures (Alike s) (s.copyThreadUnion dest) := by
  unfold copyThreadUnion
  split
  · rename_i slot
    refine .ok ⟨rfl, rfl, rfl, rfl, ?_⟩
    by_cases own : s.current = .slot slot
    · simp [own]
    · simp [own]
  · exact .error _

variable {s s' : Kernel} {p : TaskId} {result : Result}

/-- `sys_fork` maps and copies the pages of the process of its caller. -/
theorem mem_forkPages {child : TaskId} (directories : s.OwnDirectories) :
    Ensures (fun s' => s'.globalPID = s.globalPID ∧ ∃ p, (s.thread s.current).p = .slot p ∧
      (s.mem.shareSystemAndCode p child).copyDataPages s.cr3 p child = .ok s'.mem)
      (s.forkPages child) := by
  intro s' forked
  obtain ⟨p, current, forked⟩ := bind_eq_ok.mp forked
  obtain ⟨row, table, forked⟩ := bind_eq_ok.mp forked
  have caller : s.callerTable = .ok row := bind_eq_ok.mpr ⟨p, current, table⟩
  obtain ⟨process, own⟩ := (callerTable_eq_ok directories).mp caller
  obtain ⟨mem, copied, switched⟩ := bind_eq_ok.mp forked
  have kept : s'.mem = mem ∧ s'.globalPID = s.globalPID := by
    unfold setCr3 at switched
    dsimp only at switched
    split at switched
    · exact Except.ok.inj switched ▸ ⟨rfl, rfl⟩
    · exact absurd switched (by simp)
  exact ⟨kept.2, row, process, kept.1 ▸ copied⟩

theorem mem_listAddTail (s : Kernel) (new head : Node) :
    Ensures (fun s' => s'.mem = s.mem ∧ s'.globalPID = s.globalPID) (s.listAddTail new head) :=
  (s.relinks_listAddTail new head).mono fun _ ⟨_, same⟩ => same ▸ ⟨rfl, rfl⟩

/-- `sys_fork` changes no memory, or what the loops over the pages of the child change. -/
theorem mem_sysFork (layout : Layout) (directories : s.OwnDirectories) :
    Ensures (fun next =>
      (next = (s, .returns (-ENOMEM)) ∧
          (s.listEmpty .freequeue = true ∨ s.listEmpty .freeThreadqueue = true)) ∨
        s.listEmpty .freequeue = false ∧ s.listEmpty .freeThreadqueue = false ∧
          ∃ child, listHeadToTaskStruct (s.listFirst .freequeue) = .ok child ∧
            ((∃ mem, s.mem.allocDataPages child numPagData 0 = (false, mem) ∧
                next.1.mem = mem ∧ next.1.globalPID = s.globalPID ∧
                next.2 = .returns (-EAGAIN)) ∨
              next.1.globalPID = s.globalPID + 1 ∧ ∃ p, (s.thread s.current).p = .slot p ∧
                ∃ mem, s.mem.allocDataPages child numPagData 0 = (true, mem) ∧
                  (mem.shareSystemAndCode p child).copyDataPages s.cr3 p child =
                    .ok next.1.mem))
      (s.sysFork layout) := by
  unfold sysFork
  split
  · rename_i empty
    exact .ok (.inl ⟨rfl, .inl empty⟩)
  · rename_i someProcess
    split
    · rename_i empty
      exact .ok (.inl ⟨rfl, .inr empty⟩)
    · rename_i someThread
      refine (s.alike_listDel _).bind fun s₁ alike => ?_
      refine (s₁.alike_listDel _).bind fun s₂ alike' => ?_
      cases found : listHeadToTaskStruct (s.listFirst .freequeue) with
      | error fault => exact .error _
      | ok child =>
          rw [ok_bind]
          refine Ensures.skip fun uthread => ?_
          refine (s₂.alike_copyThreadUnion uthread).bind fun s₃ alike'' => ?_
          have same := alike.trans (alike'.trans alike'')
          have directory : ((s₃.allocateDIR child).task child).dirPagesBaseAddr = some child := by
            simp [allocateDIR, setTask]
          have directories' : (s₃.allocateDIR child).OwnDirectories := by
            intro p
            by_cases taken : p = child
            · exact .inr (taken ▸ directory)
            · simpa [allocateDIR, setTask, taken, same.task] using directories p
          have table : (s₃.allocateDIR child).getPT child = .ok child := by
            rw [getPT, directory]
          have mem : (s₃.allocateDIR child).mem = s.mem := same.mem
          have cr3 : (s₃.allocateDIR child).cr3 = s.cr3 := same.cr3
          have pid : (s₃.allocateDIR child).globalPID = s.globalPID := same.globalPID
          have process : ((s₃.allocateDIR child).thread (s₃.allocateDIR child).current).p =
              (s.thread s.current).p := same.process
          generalize s₃.allocateDIR child = s₄ at *
          dsimp only
          rw [table, ok_bind, mem]
          have notEmpty : s.listEmpty .freequeue = false := by simpa using someProcess
          have notEmpty' : s.listEmpty .freeThreadqueue = false := by simpa using someThread
          cases allocated : s.mem.allocDataPages child numPagData 0 with
          | mk done mem' =>
              cases done with
              | false =>
                  refine (mem_listAddTail _ _ _).bind fun s₅ returned => ?_
                  exact .ok (.inr ⟨notEmpty, notEmpty', child, rfl,
                    .inl ⟨mem', allocated, returned.1, returned.2.trans pid, rfl⟩⟩)
              | true =>
                  refine (mem_forkPages (s := { s₄ with mem := mem' }) directories').bind
                    fun s₅ copied => ?_
                  refine (mem_listAddTail _ _ _).bind fun s₆ ready => ?_
                  refine (mem_listAddTail _ _ _).bind fun s₇ ready' => ?_
                  obtain ⟨kept, p, own, copied⟩ := copied
                  have mem_eq : s₇.mem = s₅.mem := ready'.1.trans ready.1
                  have pid_eq : s₇.globalPID = s.globalPID + 1 :=
                    ready'.2.trans (ready.2.trans (congrArg (· + 1) (kept.trans pid)))
                  refine .ok (.inr ⟨notEmpty, notEmpty', child, rfl,
                    .inr ⟨pid_eq, p, process.symm.trans own, mem', allocated, ?_⟩⟩)
                  rw [mem_eq, ← cr3]
                  exact copied

/-! ## Memory in `pthread_create` and `exit` -/

/-- The entry that `pthread_create` makes for the user stack, also when there is no frame for it. -/
def stackEntry (frame : Int) : PageTableEntry where
  present := true
  rw := true
  user := true
  pbaseAddr := BitVec.ofInt 20 frame

theorem tables_storeWord (m : Memory) (cr3 : TaskId) (addr value : Word) :
    Ensures (fun m' => m'.pagusrTable = m.pagusrTable ∧ m'.physMem = m.physMem)
      (m.storeWord cr3 addr value) := by
  have stored : ∀ (offsets : List Nat) (m' : Memory),
      m'.pagusrTable = m.pagusrTable ∧ m'.physMem = m.physMem →
      Ensures (fun m'' => m''.pagusrTable = m.pagusrTable ∧ m''.physMem = m.physMem)
        (offsets.foldlM (fun m offset => m.storeByte cr3 (addr.toNat + offset)
          (value.extractLsb' (8 * offset) 8)) m') := by
    intro offsets
    induction offsets with
    | nil => exact fun m' kept => .ok kept
    | cons offset offsets induction =>
        intro m' kept
        rw [List.foldlM_cons]
        have byte : Ensures
            (fun m'' => m''.pagusrTable = m.pagusrTable ∧ m''.physMem = m.physMem)
            (m'.storeByte cr3 (addr.toNat + offset) (value.extractLsb' (8 * offset) 8)) := by
          unfold Memory.storeByte
          refine Ensures.skip fun physical => ?_
          split
          · exact .error _
          · exact .ok kept
        exact byte.bind induction
  exact stored _ m ⟨rfl, rfl⟩

/-- `pthread_create` returns an error and changes nothing, or maps a stack in the page table of its
caller's process or behind it. -/
theorem mem_sysPthreadCreate (layout : Layout) (directories : s.OwnDirectories)
    (id startRoutine : Word) :
    Ensures (fun next => ((∃ value < 0, next = (s, .returns value)) ∧
        (accessOk .read startRoutine 4 = false ∨ s.listEmpty .freeThreadqueue = true)) ∨
      next.2 = .returns 0 ∧ accessOk .read startRoutine 4 = true ∧
        s.listEmpty .freeThreadqueue = false ∧
        ∃ row entry, (s.thread s.current).p = .slot row ∧
        s.mem.findStackEntry (nrTasks * totalPages)
          (entryIndex row (pagLogInitData + numPagData)) = .ok entry ∧
        next.1.mem.pagusrTable =
          Function.update s.mem.pagusrTable entry (stackEntry s.mem.allocFrame.1) ∧
        next.1.mem.physMem = s.mem.allocFrame.2.physMem)
      (s.sysPthreadCreate layout id startRoutine) := by
  unfold sysPthreadCreate
  split
  · rename_i rejected
    exact .ok (.inl ⟨⟨_, by decide, rfl⟩, .inl (by simpa using rejected)⟩)
  · rename_i accepted
    split
    · rename_i full
      exact .ok (.inl ⟨⟨_, by decide, rfl⟩, .inr full⟩)
    · rename_i someThread
      refine Ensures.skip fun uthread => ?_
      refine (s.alike_listDel _).bind fun s₁ alike => ?_
      refine (s₁.alike_copyThreadUnion uthread).bind fun s₂ alike' => ?_
      have same := alike.trans alike'
      have mem : (s₂.createContext uthread startRoutine).mem = s.mem := same.mem
      have process : ((s₂.createContext uthread startRoutine).thread
          (s₂.createContext uthread startRoutine).current).p = (s.thread s.current).p := by
        rw [← same.process]
        by_cases own : s₂.current = uthread
        · simp [createContext, setThread, setStack, own]
        · simp [createContext, setThread, setStack, own]
      have directories' : (s₂.createContext uthread startRoutine).OwnDirectories := by
        intro p
        have task : (s₂.createContext uthread startRoutine).task = s.task := same.task
        rw [task]
        exact directories p
      generalize s₂.createContext uthread startRoutine = s₃ at *
      intro next created
      obtain ⟨p, current, created⟩ := bind_eq_ok.mp created
      obtain ⟨row, table, created⟩ := bind_eq_ok.mp created
      have caller : s₃.callerTable = .ok row := bind_eq_ok.mpr ⟨p, current, table⟩
      obtain ⟨own, _⟩ := (callerTable_eq_ok directories').mp caller
      obtain ⟨s₄, stacked, created⟩ := bind_eq_ok.mp created
      obtain ⟨entry, found, stacked⟩ := bind_eq_ok.mp stacked
      obtain ⟨mem', stored, created⟩ := bind_eq_ok.mp created
      obtain ⟨s₅, linked, created⟩ := bind_eq_ok.mp created
      have kept := (mem_listAddTail _ _ _ s₅ linked).1
      obtain ⟨tables, frames⟩ := tables_storeWord _ _ _ _ mem' stored
      rw [← Except.ok.inj created, kept, ← process, ← mem]
      refine .inr ⟨rfl, by simpa using accepted, by simpa using someThread, row, entry, own, found,
        ?_, ?_⟩
      · rw [tables, ← Except.ok.inj stacked]
        show Function.update s₃.mem.allocFrame.2.pagusrTable entry
          (stackEntry s₃.mem.allocFrame.1) = _
        rw [Memory.pagusrTable_allocFrame]
      · rw [frames, ← Except.ok.inj stacked]
        rfl

/-- `exit` releases the data pages of its caller's process. -/
theorem mem_sysExit (layout : Layout) (directories : s.OwnDirectories) :
    Ensures (fun next => next.2 = .switches ∧ ∃ row, (s.thread s.current).p = .slot row ∧
      next.1.mem.pagusrTable = (s.mem.releaseDataPages row numPagData).pagusrTable ∧
      next.1.mem.physMem = (s.mem.releaseDataPages row numPagData).physMem)
      (s.sysExit layout) := by
  intro next exited
  obtain ⟨p, current, exited⟩ := bind_eq_ok.mp exited
  obtain ⟨row, table, exited⟩ := bind_eq_ok.mp exited
  have caller : s.callerTable = .ok row := bind_eq_ok.mpr ⟨p, current, table⟩
  obtain ⟨process, _⟩ := (callerTable_eq_ok directories).mp caller
  obtain ⟨s₁, linked, exited⟩ := bind_eq_ok.mp exited
  obtain ⟨s₂, freed, exited⟩ := bind_eq_ok.mp exited
  obtain ⟨s₃, freed', exited⟩ := bind_eq_ok.mp exited
  obtain ⟨s₄, switched, exited⟩ := bind_eq_ok.mp exited
  have framed := Framed.quiet.listAddTail _ _ _ s₁ linked
  have ended : Framed s₁ (s₁.setTask p fun c => { c with pid := -1 }) := .setTask _ _ _ rfl
  have drained := (Framed.quiet.freeThreadsOf layout _ _ _ s₂ freed).trans
    (Framed.quiet.freeThreadsOf layout _ _ _ s₃ freed')
  have all := framed.trans (ended.trans (drained.trans
    (Framed.quiet.schedNextProcessRr layout s₃ s₄ switched)))
  rw [← Except.ok.inj exited]
  exact ⟨rfl, row, process, all.pagusrTable, all.physMem⟩

end Kernel

namespace Memory

variable {m m' mem : Memory} {cr3 row child row' : TaskId} {page : Nat}

/-- The page tables and frames after `sys_fork` has mapped and copied a child's pages. -/
theorem forked_eq (allocated : m.allocDataPages child numPagData 0 = (true, mem))
    (copied : (mem.shareSystemAndCode row child).copyDataPages cr3 row child = .ok m') :
    numPagData ≤ (freeFrames m.physMem).length ∧
      (∀ f, m'.physMem f =
        if f ∈ (freeFrames m.physMem).take numPagData then 1 else m.physMem f) ∧
      ∀ row' page, page < totalPages → m'.entry row' page =
        if row' = row ∧ pagLogInitData + numPagData ≤ page ∧
            page < pagLogInitData + 2 * numPagData then .zero
        else if row' = child ∧ page < pagLogInitData then
          mapped (m.entry row page).pbaseAddr.toNat
        else if row' = child ∧ page < pagLogInitData + numPagData then
          mapped ((freeFrames m.physMem).getD (page - pagLogInitData) 0)
        else m.entry row' page := by
  have sizes := pageConstants
  have enough : numPagData ≤ (freeFrames m.physMem).length := by
    by_contra few
    obtain ⟨mem', failed, _⟩ :=
      allocDataPages_short (m := m) child numPagData 0 (by decide) (Nat.lt_of_not_le few)
    rw [failed, Prod.mk.injEq] at allocated
    exact absurd allocated.1 (by simp)
  obtain ⟨mem', succeeded, frames, entries⟩ :=
    allocDataPages_enough (m := m) child numPagData 0 (by decide) enough
  rw [succeeded, Prod.mk.injEq] at allocated
  obtain ⟨_, rfl⟩ := allocated
  refine ⟨enough, fun f => ?_, fun row' page inside => ?_⟩
  · rw [physMem_copyDataPages copied, physMem_shareSystemAndCode, frames]
  · rw [entry_copyDataPages inside copied, entry_shareSystemAndCode inside,
      entries row' page inside, entries row page inside, Nat.add_zero]
    refine if_congr Iff.rfl rfl ?_
    by_cases same : row' = child
    · simp only [same, true_and]
      by_cases low : page < pagLogInitData
      · rw [if_pos low, if_pos low, if_neg (by omega)]
      · rw [if_neg low, if_neg low]
        exact if_congr (by omega) rfl rfl
    · simp only [same, false_and, if_false]

/-- The page tables and frames after `sys_fork` has run out of frames. -/
theorem forkFailed_eq (allocated : m.allocDataPages child numPagData 0 = (false, mem)) :
    (freeFrames m.physMem).length < numPagData ∧
      (∀ f, (f = numPagKernel → m.physMem f ≠ 0) → mem.physMem f = m.physMem f) ∧
      ∀ row' page, page < totalPages → mem.entry row' page =
        if row' = child ∧ pagLogInitData ≤ page ∧
            page < pagLogInitData + (freeFrames m.physMem).length then .zero
        else m.entry row' page := by
  have few : (freeFrames m.physMem).length < numPagData := by
    by_contra enough
    obtain ⟨mem', succeeded, _⟩ :=
      allocDataPages_enough (m := m) child numPagData 0 (by decide) (Nat.le_of_not_lt enough)
    rw [succeeded, Prod.mk.injEq] at allocated
    exact absurd allocated.1 (by simp)
  obtain ⟨mem', failed, frames, entries⟩ :=
    allocDataPages_short (m := m) child numPagData 0 (by decide) few
  rw [failed, Prod.mk.injEq] at allocated
  obtain ⟨_, rfl⟩ := allocated
  refine ⟨few, fun f other => ?_, entries⟩
  rw [frames f other]
  simp

end Memory

/-! ## Steps -/

/-- What a step does to the page tables and to the use of the frames. -/
inductive PageStep (s s' : Kernel) : Action → Result → Prop
  | kept {action : Action} {result : Result} (tables : s'.mem.pagusrTable = s.mem.pagusrTable)
      (frames : s'.mem.physMem = s.mem.physMem)
      (alone : ∀ stack, action = .fork stack → s'.globalPID = s.globalPID ∧
        (s.listEmpty .freequeue = true ∨ s.listEmpty .freeThreadqueue = true))
      (stays : action ≠ .exit)
      (refused : ∀ stack id start, action = .pthreadCreate stack id start → result ≠ .returns 0) :
      PageStep s s' action result
  | forked {stack : Nat → Word} {result : Result} {row child : TaskId}
      (numbered : s'.globalPID = s.globalPID + 1)
      (someProcess : s.listEmpty .freequeue = false)
      (someThread : s.listEmpty .freeThreadqueue = false)
      (process : (s.thread s.current).p = .slot row)
      (taken : listHeadToTaskStruct (s.listFirst .freequeue) = .ok child)
      (enough : numPagData ≤ (Memory.freeFrames s.mem.physMem).length)
      (frames : ∀ f, s'.mem.physMem f =
        if f ∈ (Memory.freeFrames s.mem.physMem).take numPagData then 1 else s.mem.physMem f)
      (entries : ∀ row' page, page < totalPages → s'.mem.entry row' page =
        if row' = row ∧ pagLogInitData + numPagData ≤ page ∧
            page < pagLogInitData + 2 * numPagData then .zero
        else if row' = child ∧ page < pagLogInitData then
          mapped (s.mem.entry row page).pbaseAddr.toNat
        else if row' = child ∧ page < pagLogInitData + numPagData then
          mapped ((Memory.freeFrames s.mem.physMem).getD (page - pagLogInitData) 0)
        else s.mem.entry row' page) :
      PageStep s s' (.fork stack) result
  | forkFailed {stack : Nat → Word} {child : TaskId}
      (unnumbered : s'.globalPID = s.globalPID)
      (taken : listHeadToTaskStruct (s.listFirst .freequeue) = .ok child)
      (few : (Memory.freeFrames s.mem.physMem).length < numPagData)
      (frames : ∀ f, (f = numPagKernel → s.mem.physMem f ≠ 0) → s'.mem.physMem f = s.mem.physMem f)
      (entries : ∀ row' page, page < totalPages → s'.mem.entry row' page =
        if row' = child ∧ pagLogInitData ≤ page ∧
            page < pagLogInitData + (Memory.freeFrames s.mem.physMem).length then .zero
        else s.mem.entry row' page) :
      PageStep s s' (.fork stack) (.returns (-EAGAIN))
  | created {stack : Nat → Word} {id startRoutine : Word} {row : TaskId} {entry : Nat}
      (accepted : accessOk .read startRoutine 4 = true)
      (someThread : s.listEmpty .freeThreadqueue = false)
      (process : (s.thread s.current).p = .slot row)
      (found : s.mem.findStackEntry (nrTasks * totalPages)
        (entryIndex row (pagLogInitData + numPagData)) = .ok entry)
      (tables : s'.mem.pagusrTable =
        Function.update s.mem.pagusrTable entry (stackEntry s.mem.allocFrame.1))
      (frames : s'.mem.physMem = s.mem.allocFrame.2.physMem) :
      PageStep s s' (.pthreadCreate stack id startRoutine) (.returns 0)
  | exited {row : TaskId} (process : (s.thread s.current).p = .slot row)
      (tables : s'.mem.pagusrTable = (s.mem.releaseDataPages row numPagData).pagusrTable)
      (frames : s'.mem.physMem = (s.mem.releaseDataPages row numPagData).physMem) :
      PageStep s s' .exit .switches

/-- Every step is a paging step. -/
theorem pageStep_perform (layout : Layout) {s : Kernel} (directories : s.OwnDirectories)
    (action : Action) :
    Ensures (fun next => PageStep s next.1 action next.2) (s.perform layout action) := by
  cases action with
  | fork stack =>
      have entered : (s.enterWith stack).OwnDirectories := directories
      refine (mem_sysFork layout entered).mono fun next outcome => ?_
      rcases outcome with
        ⟨refused, empty⟩ | ⟨someProcess, someThread, child, taken, failed | forked⟩
      · rw [refused]
        exact .kept rfl rfl (fun _ _ => ⟨rfl, empty⟩) (by simp) (by simp)
      · obtain ⟨mem, allocated, rfl, unnumbered, result⟩ := failed
        obtain ⟨few, frames, entries⟩ := Memory.forkFailed_eq allocated
        rw [result]
        exact .forkFailed unnumbered taken few frames entries
      · obtain ⟨numbered, row, process, mem, allocated, copied⟩ := forked
        obtain ⟨enough, frames, entries⟩ := Memory.forked_eq allocated copied
        exact .forked numbered someProcess someThread process taken enough frames entries
  | pthreadCreate stack id startRoutine =>
      have entered : (s.enterWith stack).OwnDirectories := directories
      refine (mem_sysPthreadCreate layout entered id startRoutine).mono fun next outcome => ?_
      rcases outcome with ⟨⟨value, negative, rfl⟩, _⟩ |
        ⟨result, accepted, someThread, row, entry, process, found, tables, frames⟩
      · exact .kept rfl rfl (by simp) (by simp) fun _ _ _ _ returned =>
          negative.ne (Result.returns.inj returned)
      · rw [result]
        exact .created accepted someThread process found tables frames
  | exit =>
      have entered : (s.enter layout .exit).OwnDirectories := directories
      refine (mem_sysExit layout entered).mono fun next outcome => ?_
      obtain ⟨result, row, process, tables, frames⟩ := outcome
      rw [result]
      exact .exited process tables frames
  | _ =>
      exact (tables_perform layout s _ id).mono fun next same =>
        .kept same.1 same.2 (by simp) (by simp) (by simp)

/-! ## Runs -/

/-- The page tables and frames after boot. -/
def bootMemory (layout : Layout) : Memory :=
  ((zeroed layout).mem.initTablePages layout).initFrames.setUserPages 1

theorem bootMemory_eq (layout : Layout) :
    (∀ f, numPagKernel ≤ f → f < totalPages → ((bootMemory layout).physMem f = 1 ↔
        ∃ k < numPagCode + numPagData, f = Memory.bootFrame k)) ∧
      ∀ row page, page < totalPages → (bootMemory layout).entry row page =
        if row = 1 ∧ pagLogInitData ≤ page ∧ page < pagLogInitData + numPagData then
          mapped (Memory.bootFrame (page - pagLogInitCode))
        else if row = 1 ∧ pagLogInitCode ≤ page ∧ page < pagLogInitData then
          { mapped (Memory.bootFrame (page - pagLogInitCode)) with rw := false }
        else if 1 ≤ page ∧ page < numPagKernel then Memory.kernelEntry layout page
        else .zero := by
  unfold bootMemory
  exact Memory.boot_eq layout (zeroed layout).mem _

theorem mem_booted (layout : Layout) (heap : Heap Node) :
    (Kernel.booted layout heap).mem = bootMemory layout := by
  simp only [Kernel.booted, bootMemory]

/-- What holds of page tables and frames after boot, with what a history records, and is kept by
every paging step of a run holds at its end. -/
theorem Kernel.ReachableWith.paged {γ : Type} {layout : Layout}
    {record : γ → Kernel → Action → Kernel → Result → γ} {initial : γ}
    {guard : Kernel × γ → Action → Prop} {state : Kernel × γ}
    (reachable : ReachableWith layout record initial guard state) (holds : Memory → γ → Prop)
    (booted : holds (bootMemory layout) initial)
    (preserved : ∀ {s s' history action result}, holds s.mem history → guard (s, history) action →
      PageStep s s' action result →
      holds s'.mem (record history s action s' result)) : holds state.1.mem state.2 := by
  obtain ⟨start, booting, reaches⟩ := reachable
  obtain ⟨heap, boots, represents⟩ := boot_eq layout
  obtain rfl : Kernel.booted layout heap = start := Except.ok.inj (boots.symm.trans booting)
  refine (reaches.invariant (fun state => state.1.OwnDirectories ∧ holds state.1.mem state.2) ?_
    ⟨(booted_consistent layout represents).directory, (mem_booted layout heap).symm ▸ booted⟩).2
  intro before after action held admitted taken
  obtain ⟨s', result, performed, rfl⟩ := recordStep_eq_ok.mp taken
  refine ⟨held.1.perform performed, ?_⟩
  exact preserved held.2 admitted (pageStep_perform layout held.1 action _ performed)

theorem Kernel.Reachable.paged {layout : Layout} {guard : Kernel → Action → Prop} {s : Kernel}
    (reachable : Reachable layout guard s) (holds : Memory → Prop)
    (booted : holds (bootMemory layout))
    (preserved : ∀ {s s' action result}, holds s.mem → guard s action →
      PageStep s s' action result → holds s'.mem) : holds s.mem := by
  obtain ⟨start, booting, reaches⟩ := reachable
  obtain ⟨heap, boots, represents⟩ := boot_eq layout
  obtain rfl : Kernel.booted layout heap = start := Except.ok.inj (boots.symm.trans booting)
  refine (reaches.invariant (fun s => s.OwnDirectories ∧ holds s.mem) ?_
    ⟨(booted_consistent layout represents).directory, (mem_booted layout heap).symm ▸ booted⟩).2
  intro s s' action held admitted stepped
  obtain ⟨⟨next, result⟩, performed, equal⟩ := bind_eq_ok.mp stepped
  obtain rfl : next = s' := Except.ok.inj equal
  refine ⟨held.1.perform performed, ?_⟩
  exact preserved held.2 admitted (pageStep_perform layout held.1 action _ performed)

end Zeos
