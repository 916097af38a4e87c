import Zeos.Paging
import Zeos.Observation

/-!
# The child's address space

`sys_fork` rewrites the kernel, code and data pages in the page table of the slot it takes.  Above
them the page table keeps what an earlier process has left there.
-/

namespace Zeos

open IntrusiveList GuardedRun Kernel

namespace Kernel

/-- The caller's code and data pages are present, and above them the page table of the slot that
`fork` takes already has the same pages present as the caller's.  A caller in the slot that `fork`
takes has no page in the alias window. -/
def MirrorsCaller (s : Kernel) (row child : TaskId) : Prop :=
  (∀ page, pagLogInitCode ≤ page → page < pagLogInitData + numPagData →
    (s.mem.entry row page).present = true) ∧
  ∀ page, pagLogInitData + numPagData ≤ page → page < totalPages →
    if child = row then page < pagLogInitData + 2 * numPagData →
      (s.mem.entry row page).present = false
    else (s.mem.entry child page).present = (s.mem.entry row page).present

variable {s : Kernel} {row child : TaskId} {m' : Memory}

/-- What the loops of `sys_fork` write makes the child's pages those of the caller exactly if the
other pages were so before. -/
theorem mirrorsCaller_iff
    (entries : ∀ row' page, page < totalPages → m'.entry row' page =
      if row' = row ∧ pagLogInitData + numPagData ≤ page ∧
          page < pagLogInitData + 2 * numPagData then .zero
      else if row' = child ∧ page < pagLogInitData then
        mapped (s.mem.entry row page).pbaseAddr.toNat
      else if row' = child ∧ page < pagLogInitData + numPagData then
        mapped ((Memory.freeFrames s.mem.physMem).getD (page - pagLogInitData) 0)
      else s.mem.entry row' page) :
    (∀ page, pagLogInitCode ≤ page → page < totalPages →
      ((m'.entry child page).present = true ↔ (s.mem.entry row page).present = true)) ↔
      s.MirrorsCaller row child := by
  have sizes := pageConstants
  have fixed : ∀ page, page < pagLogInitData + numPagData →
      (m'.entry child page).present = true := by
    intro page below
    rw [entries child page (by omega), if_neg (by omega)]
    by_cases low : page < pagLogInitData
    · rw [if_pos ⟨rfl, low⟩]
      rfl
    · rw [if_neg (fun holds => low holds.2), if_pos ⟨rfl, below⟩]
      rfl
  have above : ∀ page, pagLogInitData + numPagData ≤ page → page < totalPages →
      m'.entry child page = if child = row ∧ page < pagLogInitData + 2 * numPagData then .zero
        else s.mem.entry child page := by
    intro page bound inside
    rw [entries child page inside, if_neg (fun holds : child = child ∧ _ => by omega)]
    rw [if_neg (fun holds : child = child ∧ _ => by omega)]
    exact if_congr (and_congr_right fun _ => by omega) rfl rfl
  constructor
  · intro same
    refine ⟨fun page bound below => ?_, fun page bound inside => ?_⟩
    · exact (same page bound (by omega)).mp (fixed page below)
    · have iff := same page (by omega) inside
      rw [above page bound inside] at iff
      split_ifs with own
      · intro window
        rw [if_pos ⟨own, window⟩] at iff
        exact Bool.eq_false_iff.mpr fun present => absurd (iff.mpr present) (by decide)
      · rw [if_neg (fun holds => own holds.1)] at iff
        exact Bool.eq_iff_iff.mpr iff
  · rintro ⟨low, high⟩ page bound inside
    by_cases below : page < pagLogInitData + numPagData
    · exact iff_of_true (fixed page below) (low page bound below)
    · have kept := high page (by omega) inside
      rw [above page (by omega) inside]
      by_cases own : child = row
      · rw [if_pos own] at kept
        by_cases window : page < pagLogInitData + 2 * numPagData
        · rw [if_pos ⟨own, window⟩, kept window]
          exact Iff.rfl
        · rw [if_neg (fun holds => window holds.2), own]
      · rw [if_neg own] at kept
        rw [if_neg (fun holds => own holds.1), kept]

end Kernel

/-- After a `fork` that does not return an error the child has the caller's pages from the code on
present exactly if `MirrorsCaller` holds. -/
theorem duplicates_iff_mirrorsCaller (layout : Layout) (s s' : Kernel) (stack : Nat → Word)
    (result : Result) (row child : TaskId) (reachable : Reachable layout anyStep s)
    (table : s.callerTable = .ok row)
    (performed : s.perform layout (.fork stack) = .ok (s', result))
    (noMemory : result ≠ .returns (-ENOMEM)) (noFrames : result ≠ .returns (-EAGAIN))
    (taken : listHeadToTaskStruct (s.listFirst .freequeue) = .ok child) :
    (∀ page, pagLogInitCode ≤ page → page < totalPages →
      ((s'.mem.entry child page).present = true ↔ (s.mem.entry row page).present = true)) ↔
      s.MirrorsCaller row child := by
  have directories := reachable.ownDirectories
  obtain ⟨process, _⟩ := (callerTable_eq_ok directories).mp table
  have entered : (s.enterWith stack).OwnDirectories := directories
  rcases mem_sysFork layout entered _ performed with
    ⟨refused, _⟩ | ⟨_, _, child', taken', failed | forked⟩
  · rw [Prod.mk.injEq] at refused
    exact absurd refused.2 noMemory
  · obtain ⟨_, _, _, _, failed⟩ := failed
    exact absurd failed noFrames
  · obtain ⟨_, parent, own, mem, allocated, copied⟩ := forked
    obtain rfl : row = parent := TaskPtr.slot.inj (process.symm.trans own)
    obtain rfl : child = child' := Except.ok.inj (taken.symm.trans taken')
    obtain ⟨_, _, entries⟩ := Memory.forked_eq (m := s.mem) allocated copied
    exact mirrorsCaller_iff entries

/-- The first process forks before it has created a thread. -/
theorem duplicates_iff_mirrorsCaller_boot :
    ∃ s s' result, Reachable plainLayout anyStep s ∧
      s.perform plainLayout (.fork fun _ => 0) = .ok (s', result) ∧ result = .returns 1001 ∧
      ((∀ page, pagLogInitCode ≤ page → page < totalPages →
        ((s'.mem.entry 2 page).present = true ↔ (s.mem.entry 1 page).present = true)) ↔
        s.MirrorsCaller 1 2) := by
  obtain ⟨s, s', result, reachable, performed, goal⟩ := performed_of_checkBoot anyStep
    (fun _ _ => true) (.fork fun _ => 0)
    (fun s _ result => decide (s.callerTable = .ok 1 ∧ result = .returns 1001 ∧
      listHeadToTaskStruct (s.listFirst .freequeue) = .ok 2))
    [] (fun _ _ _ => trivial) (by decide +kernel)
  obtain ⟨table, returned, taken⟩ := of_decide_eq_true goal
  exact ⟨s, s', result, reachable, performed, returned,
    duplicates_iff_mirrorsCaller plainLayout s s' _ result 1 2 reachable table performed
      (by rw [returned]; decide) (by rw [returned]; decide) taken⟩

/-- The first process creates a thread and then forks: the child has no page for that thread's
stack. -/
theorem not_duplicates_stack :
    ¬∀ layout s s' stack result row child, Reachable layout anyStep s → s.callerTable = .ok row →
      s.perform layout (.fork stack) = .ok (s', result) → result ≠ .returns (-ENOMEM) →
      result ≠ .returns (-EAGAIN) → listHeadToTaskStruct (s.listFirst .freequeue) = .ok child →
      ∀ page, pagLogInitCode ≤ page → page < totalPages →
        ((s'.mem.entry child page).present = true ↔ (s.mem.entry row page).present = true) := by
  intro duplicates
  obtain ⟨s, s', result, reachable, performed, goal⟩ := performed_of_checkBoot anyStep
    (fun _ _ => true) (.fork fun _ => 0)
    (fun s s' result => decide ((s.callerTable = .ok 1 ∧ result = .returns 1001 ∧
      listHeadToTaskStruct (s.listFirst .freequeue) = .ok 2) ∧
      (s'.mem.entry 2 284).present = false ∧ (s.mem.entry 1 284).present = true))
    [.pthreadCreate (fun _ => 0) 0x108000 0x100000] (fun _ _ _ => trivial) (by decide +kernel)
  obtain ⟨⟨table, returned, taken⟩, absent, present⟩ := of_decide_eq_true goal
  have same := duplicates plainLayout s s' _ result 1 2 reachable table performed
    (by rw [returned]; decide) (by rw [returned]; decide) taken 284 (by decide) (by decide)
  rw [absent, present] at same
  exact absurd (same.mpr rfl) (by decide)

end Zeos
