import Zeos.Paging
import Zeos.Observation

/-!
# The caller's pages in `fork`

`sys_fork` copies the data pages through aliases in the caller's page table, at the twenty pages
above the data pages.  These are also the first pages that `pthread_create` hands out for stacks.
-/

namespace Zeos

open IntrusiveList GuardedRun Kernel

namespace Kernel

/-- What `sys_fork` finds so that the caller's page table stays as it is: no free process or thread;
or an empty alias window, if there are frames for a child.  The caller's own slot can also be the
first free one, and then its pages must be what `sys_fork` makes of them. -/
def SparesCaller (s : Kernel) (row : TaskId) : Prop :=
  s.listEmpty .freequeue = true ∨ s.listEmpty .freeThreadqueue = true ∨
    ∃ child, listHeadToTaskStruct (s.listFirst .freequeue) = .ok child ∧
      if numPagData ≤ (Memory.freeFrames s.mem.physMem).length then
        (∀ k < numPagData, s.mem.entry row (pagLogInitData + numPagData + k) = .zero) ∧
          (child = row →
            (∀ page < pagLogInitData, (s.mem.entry row page).present = true ∧
              (s.mem.entry row page).rw = true ∧ (s.mem.entry row page).user = true) ∧
            ∀ k < numPagData, s.mem.entry row (pagLogInitData + k) =
              mapped ((Memory.freeFrames s.mem.physMem).getD k 0))
      else child = row → ∀ k < (Memory.freeFrames s.mem.physMem).length,
        s.mem.entry row (pagLogInitData + k) = .zero

end Kernel

/-- An entry is what `set_ss_pag` makes of it exactly if the user has all access. -/
theorem mapped_eq_iff (e : PageTableEntry) :
    mapped e.pbaseAddr.toNat = e ↔ e.present = true ∧ e.rw = true ∧ e.user = true := by
  constructor
  · intro equal
    rw [← equal]
    exact ⟨rfl, rfl, rfl⟩
  · rintro ⟨present, rw_eq, user⟩
    ext : 1
    · exact present.symm
    · exact rw_eq.symm
    · exact user.symm
    · simp

namespace Kernel

variable {s : Kernel} {row child : TaskId} {m' : Memory}

/-- With a free process and a free thread, the first free slot and the frames decide. -/
theorem sparesCaller_iff (someProcess : s.listEmpty .freequeue = false)
    (someThread : s.listEmpty .freeThreadqueue = false)
    (taken : listHeadToTaskStruct (s.listFirst .freequeue) = .ok child) :
    s.SparesCaller row ↔
      if numPagData ≤ (Memory.freeFrames s.mem.physMem).length then
        (∀ k < numPagData, s.mem.entry row (pagLogInitData + numPagData + k) = .zero) ∧
          (child = row →
            (∀ page < pagLogInitData, (s.mem.entry row page).present = true ∧
              (s.mem.entry row page).rw = true ∧ (s.mem.entry row page).user = true) ∧
            ∀ k < numPagData, s.mem.entry row (pagLogInitData + k) =
              mapped ((Memory.freeFrames s.mem.physMem).getD k 0))
      else child = row → ∀ k < (Memory.freeFrames s.mem.physMem).length,
        s.mem.entry row (pagLogInitData + k) = .zero := by
  unfold SparesCaller
  rw [someProcess, someThread, taken]
  simp

/-- The caller's pages after a successful `fork` are what they were if the alias window was empty
and, for a caller in the first free slot, the other pages were the child's. -/
theorem forked_iff
    (entries : ∀ row' page, page < totalPages → m'.entry row' page =
      if row' = row ∧ pagLogInitData + numPagData ≤ page ∧
          page < pagLogInitData + 2 * numPagData then .zero
      else if row' = child ∧ page < pagLogInitData then
        mapped (s.mem.entry row page).pbaseAddr.toNat
      else if row' = child ∧ page < pagLogInitData + numPagData then
        mapped ((Memory.freeFrames s.mem.physMem).getD (page - pagLogInitData) 0)
      else s.mem.entry row' page) :
    (∀ page < totalPages, m'.entry row page = s.mem.entry row page) ↔
      (∀ k < numPagData, s.mem.entry row (pagLogInitData + numPagData + k) = .zero) ∧
        (child = row →
          (∀ page < pagLogInitData, (s.mem.entry row page).present = true ∧
            (s.mem.entry row page).rw = true ∧ (s.mem.entry row page).user = true) ∧
          ∀ k < numPagData, s.mem.entry row (pagLogInitData + k) =
            mapped ((Memory.freeFrames s.mem.physMem).getD k 0)) := by
  have sizes := pageConstants
  constructor
  · intro kept
    refine ⟨fun k bound => ?_, fun own => ⟨fun page low => ?_, fun k bound => ?_⟩⟩
    · rw [← kept _ (by omega), entries row _ (by omega), if_pos ⟨rfl, by omega, by omega⟩]
    · rw [← mapped_eq_iff]
      have entry_eq := entries row page (by omega)
      rw [if_neg (by omega), if_pos ⟨own.symm, low⟩, kept page (by omega)] at entry_eq
      exact entry_eq.symm
    · rw [← kept _ (by omega), entries row _ (by omega), if_neg (by omega), if_neg (by omega),
        if_pos ⟨own.symm, by omega⟩, Nat.add_sub_cancel_left]
  · rintro ⟨window, same⟩ page inside
    rw [entries row page inside]
    split_ifs with alias_page low data
    · obtain ⟨_, above, below⟩ := alias_page
      have index : page =
          pagLogInitData + numPagData + (page - (pagLogInitData + numPagData)) := by omega
      rw [index]
      exact (window _ (by omega)).symm
    · exact (mapped_eq_iff _).mpr ((same low.1.symm).1 page low.2)
    · obtain ⟨own, below⟩ := data
      have above : pagLogInitData ≤ page := by
        by_contra low'
        exact low ⟨own, Nat.lt_of_not_le low'⟩
      have index : page = pagLogInitData + (page - pagLogInitData) := by omega
      have entry_eq := (same own.symm).2 (page - pagLogInitData) (by omega)
      rw [← index] at entry_eq
      exact entry_eq.symm
    · rfl

/-- The caller's pages after a `fork` without enough frames are what they were unless the caller is
in the first free slot and had pages there. -/
theorem forkFailed_iff (few : (Memory.freeFrames s.mem.physMem).length < numPagData)
    (entries : ∀ row' page, page < totalPages → m'.entry row' page =
      if row' = child ∧ pagLogInitData ≤ page ∧
          page < pagLogInitData + (Memory.freeFrames s.mem.physMem).length then .zero
      else s.mem.entry row' page) :
    (∀ page < totalPages, m'.entry row page = s.mem.entry row page) ↔
      (child = row → ∀ k < (Memory.freeFrames s.mem.physMem).length,
        s.mem.entry row (pagLogInitData + k) = .zero) := by
  have sizes := pageConstants
  constructor
  · intro kept own k bound
    rw [← kept _ (by omega), entries row _ (by omega), if_pos ⟨own.symm, by omega, by omega⟩]
  · intro empty page inside
    rw [entries row page inside]
    split_ifs with reached
    · obtain ⟨own, above, below⟩ := reached
      have index : page = pagLogInitData + (page - pagLogInitData) := by omega
      have entry_eq := empty own.symm (page - pagLogInitData) (by omega)
      rw [← index] at entry_eq
      exact entry_eq.symm
    · rfl

end Kernel

/-- In every reachable state `fork` leaves its caller's page table as it is exactly if
`SparesCaller` holds. -/
theorem callerKept_iff_sparesCaller (layout : Layout) (s s' : Kernel) (stack : Nat → Word)
    (result : Result) (row : TaskId) (reachable : Reachable layout anyStep s)
    (table : s.callerTable = .ok row)
    (performed : s.perform layout (.fork stack) = .ok (s', result)) :
    (∀ page < totalPages, s'.mem.entry row page = s.mem.entry row page) ↔ s.SparesCaller row := by
  have directories := reachable.ownDirectories
  obtain ⟨process, _⟩ := (callerTable_eq_ok directories).mp table
  have entered : (s.enterWith stack).OwnDirectories := directories
  rcases mem_sysFork layout entered _ performed with
    ⟨refused, empty⟩ | ⟨someProcess, someThread, child, taken, failed | forked⟩
  · rw [Prod.mk.injEq] at refused
    rw [refused.1]
    exact iff_of_true (fun _ _ => rfl) (empty.imp id .inl)
  · obtain ⟨mem, allocated, equal, _, _⟩ := failed
    obtain rfl : s'.mem = mem := equal
    obtain ⟨few, _, entries⟩ := Memory.forkFailed_eq (m := s.mem) allocated
    have condition : s.SparesCaller row ↔ _ := sparesCaller_iff someProcess someThread taken
    rw [condition, if_neg (Nat.not_le_of_lt few)]
    exact forkFailed_iff few entries
  · obtain ⟨_, parent, own, mem, allocated, copied⟩ := forked
    obtain rfl : row = parent := TaskPtr.slot.inj (process.symm.trans own)
    obtain ⟨enough, _, entries⟩ := Memory.forked_eq (m := s.mem) allocated copied
    have condition : s.SparesCaller row ↔ _ := sparesCaller_iff someProcess someThread taken
    rw [condition, if_pos enough]
    exact forked_iff entries

/-- The first process forks before it has created a thread. -/
theorem callerKept_iff_sparesCaller_boot :
    ∃ s s' result, Reachable plainLayout anyStep s ∧ s.callerTable = .ok 1 ∧
      s.perform plainLayout (.fork fun _ => 0) = .ok (s', result) ∧ s.SparesCaller 1 ∧
      ∀ page < totalPages, s'.mem.entry 1 page = s.mem.entry 1 page := by
  obtain ⟨s, s', result, reachable, performed, goal⟩ := performed_of_checkBoot anyStep
    (fun _ _ => true) (.fork fun _ => 0)
    (fun s _ _ => decide (s.callerTable = .ok 1 ∧ ∃ child,
      listHeadToTaskStruct (s.listFirst .freequeue) = .ok child ∧ child ≠ 1 ∧
      ∀ k < numPagData, s.mem.entry 1 (pagLogInitData + numPagData + k) = .zero))
    [] (fun _ _ _ => trivial) (by decide +kernel)
  obtain ⟨table, child, taken, other, window⟩ := of_decide_eq_true goal
  have spares : s.SparesCaller 1 := by
    refine .inr (.inr ⟨child, taken, ?_⟩)
    split
    · exact ⟨window, fun own => absurd own other⟩
    · exact fun own => absurd own other
  exact ⟨s, s', result, reachable, table, performed, spares,
    (callerKept_iff_sparesCaller plainLayout s s' _ result 1 reachable table performed).mpr spares⟩

/-- The first process creates a thread and then forks: the thread's stack page is gone. -/
theorem not_callerKept_stack :
    ¬∀ layout s s' stack result row, Reachable layout anyStep s → s.callerTable = .ok row →
      s.perform layout (.fork stack) = .ok (s', result) →
      ∀ page < totalPages, s'.mem.entry row page = s.mem.entry row page := by
  intro kept
  obtain ⟨s, s', result, reachable, performed, goal⟩ := performed_of_checkBoot anyStep
    (fun _ _ => true) (.fork fun _ => 0)
    (fun s s' _ => decide (s.callerTable = .ok 1 ∧ s'.mem.entry 1 284 ≠ s.mem.entry 1 284))
    [.pthreadCreate (fun _ => 0) 0x108000 0x100000] (fun _ _ _ => trivial) (by decide +kernel)
  obtain ⟨table, changed⟩ := of_decide_eq_true goal
  exact changed (kept plainLayout s s' _ result 1 reachable table performed 284 (by decide))

end Zeos
