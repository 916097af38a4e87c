import Zeos.KernelImage
import Zeos.Observation
import Zeos.Paging

/-!
# Frames of the processes

A frame behind a data page or a stack page is in use and belongs to this page only, as long as
`pthread_create` finds its stack page in the page table of its caller.
-/

namespace Zeos

open IntrusiveList GuardedRun Kernel

namespace Kernel

/-- A live process has a page with a frame. -/
def Maps (s : Kernel) (p : TaskId) (page frame : Nat) : Prop :=
  s.Live p ∧ page < totalPages ∧ ∃ row, (s.task p).dirPagesBaseAddr = some row ∧
    (s.mem.entry row page).present = true ∧ s.mem.getFrame row page = frame

/-- Frames of data and stack pages of live processes are used, are no frames of the kernel and have
no other page, and `alloc_frame` does not give them out. -/
def Isolated (s : Kernel) : Prop :=
  ∀ p page frame, s.Maps p page frame → pagLogInitData ≤ page → frame < totalPages →
    s.mem.physMem frame = 1 ∧ numPagKernel ≤ frame ∧
      (∀ p' page', s.Maps p' page' frame → p' = p ∧ page' = page) ∧
      s.mem.allocFrame.1 ≠ frame

/-- If `pthread_create` looks for a stack page, it finds one in its caller's page table. -/
def SearchesOwnTable (s : Kernel) : Action → Prop
  | .pthreadCreate _ _ startRoutine => accessOk .read startRoutine 4 = true →
      s.listEmpty .freeThreadqueue = false → ∀ row, (s.thread s.current).p = .slot row →
      ∀ entry ∈ (s.mem.findStackEntry (nrTasks * totalPages)
        (entryIndex row (pagLogInitData + numPagData))).toOption, entry < entryIndex row totalPages
  | _ => True

instance (s : Kernel) : DecidablePred s.SearchesOwnTable
  | .pthreadCreate _ _ _ => inferInstanceAs (Decidable (_ = _ → _ = _ → ∀ _, _ = _ → ∀ _ ∈ _, _))
  | .tick | .fork _ | .pthreadJoin _ | .pthreadExit | .yield | .exit | .mutexInit _ | .mutexLock _
  | .mutexUnlock _ | .mutexDestroy _ | .store _ _ | .others _ => isTrue trivial

end Kernel

namespace Memory

variable {m m' : Memory} {row row' : TaskId} {page page' f : Nat}

/-- A page above the code pages has a frame. -/
structure Owns (m : Memory) (row : TaskId) (page f : Nat) : Prop where
  above : pagLogInitData ≤ page
  inside : page < totalPages
  frame : m.getFrame row page = f
  positive : f ≠ 0
  physical : f < totalPages

/-- Frames of pages above the code pages are used, and each has one page only. -/
structure Separated (m : Memory) : Prop where
  /-- The system and code pages have frames of the kernel and the frames of the code pages at
  boot. -/
  shared : ∀ {row page}, page < pagLogInitData → m.getFrame row page < bootFrame numPagCode
  /-- The kernel knows pages without a frame from their frame number 0. -/
  unmapped : ∀ {row page}, pagLogInitData ≤ page → page < totalPages → m.getFrame row page = 0 →
    (m.entry row page).present = false
  used : ∀ {row page f}, m.Owns row page f → bootFrame numPagCode ≤ f ∧ m.physMem f = 1
  unique : ∀ {row row' page page' f}, m.Owns row page f → m.Owns row' page' f →
    row = row' ∧ page = page'
  /-- The frames of the code pages are never freed. -/
  reserved : ∀ k < numPagCode, m.physMem (bootFrame k) = 1

namespace Separated

/-- A frame that `alloc_frame` gives out is none of the code pages at boot. -/
theorem free_ge (separated : m.Separated) (free : f ∈ freeFrames m.physMem) :
    bootFrame numPagCode ≤ f := by
  have sizes := pageConstants
  obtain ⟨⟨above, _, even⟩, zero⟩ := mem_freeFrames.mp free
  by_contra low
  have reserved := separated.reserved ((f - numPagKernel) / 2)
    (by simp only [bootFrame] at low; omega)
  have same : bootFrame ((f - numPagKernel) / 2) = f := by
    simp only [bootFrame]
    omega
  rw [same, zero] at reserved
  exact absurd reserved (by decide)

theorem not_free (separated : m.Separated) (owned : m.Owns row page f) :
    f ∉ freeFrames m.physMem := by
  intro free
  have used := (separated.used owned).2
  rw [(mem_freeFrames.mp free).2] at used
  exact absurd used (by decide)

/-- After a step whose pages keep their frames or have frames that were free before. -/
theorem of_owns (separated : m.Separated)
    (shared : ∀ {row page}, page < pagLogInitData → m'.getFrame row page < bootFrame numPagCode)
    (unmapped : ∀ {row page}, pagLogInitData ≤ page → page < totalPages →
      m'.getFrame row page = 0 → (m'.entry row page).present = false)
    (owns : ∀ {row page f}, m'.Owns row page f → m'.physMem f = 1 ∧
      (m.Owns row page f ∨ f ∈ freeFrames m.physMem))
    (fresh : ∀ {row row' page page' f}, f ∈ freeFrames m.physMem → m'.Owns row page f →
      m'.Owns row' page' f → row = row' ∧ page = page')
    (reserved : ∀ k < numPagCode, m'.physMem (bootFrame k) = 1) : m'.Separated where
  shared := shared
  unmapped := unmapped
  used {row page f} owned := by
    obtain ⟨used, old | free⟩ := owns owned
    · exact ⟨(separated.used old).1, used⟩
    · exact ⟨separated.free_ge free, used⟩
  unique {row row' page page' f} owned owned' := by
    by_cases free : f ∈ freeFrames m.physMem
    · exact fresh free owned owned'
    · exact separated.unique ((owns owned).2.resolve_right free)
        ((owns owned').2.resolve_right free)
  reserved := reserved

/-- Without new frames it is enough to look at the pages that have one. -/
theorem of_old (separated : m.Separated)
    (entries : ∀ row page, page < totalPages → m'.entry row page = m.entry row page ∨
      pagLogInitData ≤ page ∧ m'.entry row page = .zero)
    (used : ∀ {row page f}, m.Owns row page f → m'.Owns row page f → m'.physMem f = m.physMem f)
    (reserved : ∀ k < numPagCode, m'.physMem (bootFrame k) = m.physMem (bootFrame k)) :
    m'.Separated := by
  have sizes := pageConstants
  have old : ∀ {row page f}, m'.Owns row page f → m.Owns row page f := by
    intro row page f owned
    rcases entries row page owned.inside with same | ⟨_, zero⟩
    · refine ⟨owned.above, owned.inside, ?_, owned.positive, owned.physical⟩
      rw [getFrame_eq, ← same]
      exact owned.frame
    · refine absurd owned.frame.symm ?_
      rw [getFrame_eq, zero]
      exact owned.positive
  refine separated.of_owns ?_ ?_ ?_ ?_ ?_
  · intro row page low
    rcases entries row page (by omega) with same | ⟨above, _⟩
    · rw [getFrame_eq, same]
      exact separated.shared low
    · omega
  · intro row page above inside zero
    rcases entries row page inside with same | ⟨_, same⟩
    · rw [getFrame_eq, same] at zero
      rw [same]
      exact separated.unmapped above inside zero
    · rw [same]
      rfl
  · intro row page f owned
    rw [used (old owned) owned]
    exact ⟨(separated.used (old owned)).2, .inl (old owned)⟩
  · intro row row' page page' f free owned _
    exact absurd free (separated.not_free (old owned))
  · intro k bound
    rw [reserved k bound, separated.reserved k bound]

/-- A child gets free frames. -/
theorem of_forked (separated : m.Separated) {child : TaskId}
    (enough : numPagData ≤ (freeFrames m.physMem).length)
    (frames : ∀ f, m'.physMem f =
      if f ∈ (freeFrames m.physMem).take numPagData then 1 else m.physMem f)
    (entries : ∀ row' page, page < totalPages → m'.entry row' page =
      if row' = row ∧ pagLogInitData + numPagData ≤ page ∧
          page < pagLogInitData + 2 * numPagData then .zero
      else if row' = child ∧ page < pagLogInitData then
        mapped (m.entry row page).pbaseAddr.toNat
      else if row' = child ∧ page < pagLogInitData + numPagData then
        mapped ((freeFrames m.physMem).getD (page - pagLogInitData) 0)
      else m.entry row' page) : m'.Separated := by
  have sizes := pageConstants
  have given : ∀ k (bound : k < numPagData),
      (freeFrames m.physMem).getD k 0 = (freeFrames m.physMem)[k] :=
    fun k bound => getD_freeFrames (by omega)
  -- the three kinds of pages in which the new page tables differ from the old ones
  have cases : ∀ {row' page f}, m'.Owns row' page f → m.Owns row' page f ∨
      row' = child ∧ ∃ k, ∃ bound : k < numPagData, page = pagLogInitData + k ∧
        f = (freeFrames m.physMem)[k] := by
    intro row' page f owned
    have entry_eq := entries row' page owned.inside
    have frame := owned.frame
    have above := owned.above
    split_ifs at entry_eq with alias_page low data
    · rw [getFrame_eq, entry_eq] at frame
      exact absurd frame.symm owned.positive
    · omega
    · right
      have index := given (page - pagLogInitData) (by omega)
      have valid := (mem_freeFrames.mp (List.getElem_mem (l := freeFrames m.physMem)
        (n := page - pagLogInitData) (by omega))).1
      rw [getFrame_eq, entry_eq, index, toNat_mapped valid.2.1] at frame
      exact ⟨data.1, page - pagLogInitData, by omega, by omega, frame.symm⟩
    · left
      exact ⟨owned.above, owned.inside, by rw [getFrame_eq, ← entry_eq]; exact frame,
        owned.positive, owned.physical⟩
  have nodup := nodup_freeFrames m.physMem
  refine separated.of_owns ?_ ?_ ?_ ?_ ?_
  · intro row' page low
    rw [getFrame_eq, entries row' page (by omega), if_neg (by omega)]
    by_cases same : row' = child
    · rw [if_pos ⟨same, low⟩, pbaseAddr_mapped]
      exact separated.shared low
    · rw [if_neg (fun reached => same reached.1), if_neg (fun reached => same reached.1)]
      exact separated.shared low
  · intro row' page above inside zero
    have entry_eq := entries row' page inside
    rw [getFrame_eq] at zero
    split_ifs at entry_eq with alias_page low data
    · rw [entry_eq]
      rfl
    · omega
    · have index := given (page - pagLogInitData) (by omega)
      have valid := (mem_freeFrames.mp (List.getElem_mem (l := freeFrames m.physMem)
        (n := page - pagLogInitData) (by omega))).1
      rw [entry_eq, index, toNat_mapped valid.2.1] at zero
      omega
    · rw [entry_eq] at zero ⊢
      exact separated.unmapped above inside zero
  · intro row' page f owned
    rw [frames f]
    rcases cases owned with old | ⟨_, k, bound, _, rfl⟩
    · rw [(separated.used old).2, ite_self]
      exact ⟨rfl, .inl old⟩
    · rw [if_pos (List.mem_take_iff_getElem.mpr ⟨k, by omega, rfl⟩)]
      exact ⟨rfl, .inr (List.getElem_mem _)⟩
  · intro row₁ row₂ page₁ page₂ f free owned₁ owned₂
    rcases cases owned₁ with old | ⟨rfl, k₁, bound₁, rfl, frame₁⟩
    · exact absurd free (separated.not_free old)
    · rcases cases owned₂ with old | ⟨rfl, k₂, bound₂, rfl, frame₂⟩
      · exact absurd free (separated.not_free old)
      · have same := (nodup.getElem_inj_iff).mp (frame₁.symm.trans frame₂)
        exact ⟨rfl, by rw [same]⟩
  · intro k bound
    rw [frames, separated.reserved k bound, ite_self]

/-- A page gets a free frame, or one that is no frame of the machine. -/
theorem of_given (separated : m.Separated) {content : PageTableEntry}
    (above : pagLogInitData ≤ page) (inside : page < totalPages)
    (entries : ∀ row' page', page' < totalPages → m'.entry row' page' =
      if row' = row ∧ page' = page then content else m.entry row' page')
    (given : totalPages ≤ content.pbaseAddr.toNat ∨
      content.pbaseAddr.toNat ∈ freeFrames m.physMem ∧ m'.physMem content.pbaseAddr.toNat = 1)
    (frames : ∀ f, m.physMem f = 1 → m'.physMem f = 1) : m'.Separated := by
  have sizes := pageConstants
  have cases : ∀ {row' page' f}, m'.Owns row' page' f → m.Owns row' page' f ∨
      (row' = row ∧ page' = page) ∧ content.pbaseAddr.toNat = f := by
    intro row' page' f owned
    have entry_eq := entries row' page' owned.inside
    have frame := owned.frame
    split_ifs at entry_eq with new
    · exact .inr ⟨new, by rw [← frame, getFrame_eq, entry_eq]⟩
    · exact .inl ⟨owned.above, owned.inside, by rw [getFrame_eq, ← entry_eq]; exact frame,
        owned.positive, owned.physical⟩
  refine separated.of_owns ?_ ?_ ?_ ?_ ?_
  · intro row' page' low
    rw [getFrame_eq, entries row' page' (by omega), if_neg (by omega)]
    exact separated.shared low
  · intro row' page' above' inside' zero
    have entry_eq := entries row' page' inside'
    rw [getFrame_eq] at zero
    split_ifs at entry_eq with new
    · rw [entry_eq] at zero
      rcases given with large | ⟨free, _⟩
      · omega
      · have bounds := (mem_freeFrames.mp free).1
        omega
    · rw [entry_eq] at zero ⊢
      exact separated.unmapped above' inside' zero
  · intro row' page' f owned
    rcases cases owned with old | ⟨_, rfl⟩
    · exact ⟨frames f (separated.used old).2, .inl old⟩
    · obtain ⟨free, used⟩ := given.resolve_left (Nat.not_le_of_lt owned.physical)
      exact ⟨used, .inr free⟩
  · intro row₁ row₂ page₁ page₂ f free owned₁ owned₂
    obtain ⟨⟨rfl, rfl⟩, _⟩ := (cases owned₁).resolve_left fun old => separated.not_free old free
    obtain ⟨⟨rfl, rfl⟩, _⟩ := (cases owned₂).resolve_left fun old => separated.not_free old free
    exact ⟨rfl, rfl⟩
  · exact fun k bound => frames _ (separated.reserved k bound)

/-- A thread gets a stack page in the page table of its process. -/
theorem of_created (separated : m.Separated) {index : Nat}
    (found : m.findStackEntry (nrTasks * totalPages)
      (entryIndex row (pagLogInitData + numPagData)) = .ok index)
    (own : index < entryIndex row totalPages)
    (tables : m'.pagusrTable =
      Function.update m.pagusrTable index (stackEntry m.allocFrame.1))
    (frames : m'.physMem = m.allocFrame.2.physMem) : m'.Separated := by
  have sizes := pageConstants
  obtain ⟨page, _, above, inside, _, entries⟩ := stackPage_eq found own tables
  refine separated.of_given (by omega) inside entries ?_ ?_
  · cases first : freeFrames m.physMem with
    | nil =>
        left
        have large : totalPages ≤ (stackEntry (-1)).pbaseAddr.toNat := by decide
        rw [allocFrame_nil first]
        exact large
    | cons f rest =>
        right
        have free : f ∈ freeFrames m.physMem := first ▸ List.mem_cons_self
        have physical := (mem_freeFrames.mp free).1.2.1
        have frame_eq : (stackEntry (f : Int)).pbaseAddr.toNat = f := by
          rw [stackEntry, BitVec.ofInt_natCast]
          exact toNat_mapped physical
        rw [frames, allocFrame_cons first, frame_eq]
        exact ⟨List.mem_cons_self, Function.update_self _ _ _⟩
  · intro f used
    rw [frames]
    exact physMem_allocFrame used

/-- A process ends and its data pages are released. -/
theorem of_exited (separated : m.Separated)
    (tables : m'.pagusrTable = (m.releaseDataPages row numPagData).pagusrTable)
    (frames : m'.physMem = (m.releaseDataPages row numPagData).physMem) : m'.Separated := by
  have sizes := pageConstants
  have entries : ∀ {row' page}, page < totalPages → m'.entry row' page =
      if row' = row ∧ pagLogInitData ≤ page ∧ page < pagLogInitData + numPagData then .zero
      else m.entry row' page := by
    intro row' page inside
    rw [entry, tables]
    exact entry_releaseDataPages (by decide) inside
  -- a frame that is released belongs to a data page
  have released : ∀ {f}, numPagKernel < f → f < totalPages →
      (∃ k < numPagData, (m.entry row (pagLogInitData + k)).pbaseAddr.toNat = f) →
      ∃ k < numPagData, m.Owns row (pagLogInitData + k) f := by
    rintro f above physical ⟨k, bound, frame⟩
    exact ⟨k, bound, by omega, by omega, frame, by omega, physical⟩
  refine separated.of_old ?_ ?_ ?_
  · intro row' page inside
    rw [entries inside]
    split_ifs with data
    · exact .inr ⟨data.2.1, rfl⟩
    · exact .inl rfl
  · intro row' page f owned owned'
    rw [frames, physMem_releaseDataPages (by decide)]
    refine if_neg fun freed => ?_
    obtain ⟨k, bound, owner⟩ := released freed.1.1 freed.1.2 freed.2
    obtain ⟨rfl, rfl⟩ := separated.unique owned owner
    have zero := owned'.frame
    rw [getFrame_eq, entries owned.inside, if_pos ⟨rfl, by omega, by omega⟩] at zero
    exact owned'.positive zero.symm
  · intro k bound
    rw [frames, physMem_releaseDataPages (by decide)]
    refine if_neg fun freed => ?_
    obtain ⟨_, _, owner⟩ := released freed.1.1 freed.1.2 freed.2
    have high := (separated.used owner).1
    simp only [bootFrame] at high
    omega

end Separated

end Memory

/-- A paging step keeps the frames apart. -/
theorem PageStep.separated {s s' : Kernel} {action : Action} {result : Result}
    (step : PageStep s s' action result) (separated : s.mem.Separated)
    (own : s.SearchesOwnTable action) : s'.mem.Separated := by
  cases step with
  | kept tables frames =>
      refine separated.of_old (fun _ _ inside => .inl ?_) (fun _ _ => by rw [frames]) fun _ _ => by
        rw [frames]
      rw [Memory.entry, tables]
      rfl
  | forked _ _ _ _ _ enough frames entries => exact separated.of_forked enough frames entries
  | forkFailed _ _ _ frames entries =>
      have other : ∀ f, f = numPagKernel → s.mem.physMem f ≠ 0 := by
        rintro f rfl
        have reserved : s.mem.physMem numPagKernel = 1 := separated.reserved 0 (by decide)
        rw [reserved]
        decide
      refine separated.of_old (fun _ _ inside => ?_) (fun _ _ => frames _ (other _)) fun _ _ =>
        frames _ (other _)
      rw [entries _ _ inside]
      split_ifs with reached
      · exact .inr ⟨reached.2.1, rfl⟩
      · exact .inl rfl
  | created accepted someThread process found tables frames =>
      have inside := own accepted someThread _ process _ (by rw [found]; rfl)
      exact separated.of_created found inside tables frames
  | exited process tables frames => exact separated.of_exited tables frames

namespace Memory

/-- The data pages of the first process have frames of their own. -/
theorem separated_bootMemory (layout : Layout) : (bootMemory layout).Separated := by
  have sizes := pageConstants
  obtain ⟨frames, entries⟩ := bootMemory_eq layout
  have used : ∀ k < numPagCode + numPagData, (bootMemory layout).physMem (bootFrame k) = 1 := by
    intro k bound
    rw [frames (bootFrame k) (by simp only [bootFrame]; omega)
      (by simp only [bootFrame]; omega)]
    exact ⟨k, bound, rfl⟩
  have data : ∀ row page, pagLogInitData ≤ page → page < totalPages →
      (bootMemory layout).entry row page =
        if row = 1 ∧ page < pagLogInitData + numPagData then
          mapped (bootFrame (page - pagLogInitCode))
        else .zero := by
    intro row page above inside
    rw [entries row page inside,
      if_neg (show ¬(row = 1 ∧ pagLogInitCode ≤ page ∧ page < pagLogInitData) by omega),
      if_neg (show ¬(1 ≤ page ∧ page < numPagKernel) by omega)]
    exact if_congr (and_congr_right fun _ => by omega) rfl rfl
  have owner : ∀ {row page f}, (bootMemory layout).Owns row page f →
      row = 1 ∧ page < pagLogInitData + numPagData ∧ f = bootFrame (page - pagLogInitCode) := by
    intro row page f owned
    have frame := owned.frame
    have entry_eq := data row page owned.above owned.inside
    split_ifs at entry_eq with own
    · refine ⟨own.1, own.2, ?_⟩
      rw [← frame, getFrame_eq, entry_eq, toNat_mapped]
      simp only [bootFrame]
      omega
    · rw [getFrame_eq, entry_eq] at frame
      exact absurd frame.symm owned.positive
  constructor
  · intro row page low
    rw [getFrame_eq, entries row page (by omega), if_neg (by omega)]
    split_ifs with code kernel
    · refine (toNat_mapped ?_).trans_lt ?_
      · simp only [bootFrame]
        omega
      · simp only [bootFrame]
        omega
    · rw [toNat_kernelEntry layout (by omega)]
      simp only [bootFrame]
      omega
    · exact (show 0 < bootFrame numPagCode by decide)
  · intro row page above inside zero
    rw [getFrame_eq, data _ _ above inside] at zero
    rw [data _ _ above inside]
    split_ifs at zero ⊢ with own
    · rw [toNat_mapped (by simp only [bootFrame]; omega)] at zero
      simp only [bootFrame] at zero
      omega
    · rfl
  · intro row page f owned
    have above := owned.above
    obtain ⟨_, low, frame⟩ := owner owned
    rw [frame]
    refine ⟨?_, used (page - pagLogInitCode) (by omega)⟩
    simp only [bootFrame]
    omega
  · intro row row' page page' f owned owned'
    have above := owned.above
    have above' := owned'.above
    obtain ⟨rfl, _, frame⟩ := owner owned
    obtain ⟨rfl, _, frame'⟩ := owner owned'
    rw [frame] at frame'
    simp only [bootFrame] at frame'
    exact ⟨rfl, by omega⟩
  · exact fun k bound => used k (by omega)

end Memory

/-- In every run in which `pthread_create` finds its stack pages in the page table of its caller and
the frames of the kernel are spared, the frames of live processes are isolated. -/
theorem isolated_of_searchesOwnTable (image : Image) (s : Kernel)
    (reachable : image.Reachable (Sparing SearchesOwnTable) s) : s.Isolated := by
  have reachable := reachable.spared
  have directories := reachable.ownDirectories
  have separated := reachable.paged Memory.Separated (Memory.separated_bootMemory image.layout)
    fun separated own step => step.separated separated own
  have table : ∀ {p row}, (s.task p).dirPagesBaseAddr = some row → row = p := by
    intro p row directory
    rcases directories p with none | own
    · rw [none] at directory
      exact absurd directory (by simp)
    · exact Option.some.inj (directory.symm.trans own)
  rintro p page frame ⟨live, inside, row, directory, present, frame_eq⟩ above physical
  obtain rfl := table directory
  have positive : frame ≠ 0 := by
    rintro rfl
    rw [separated.unmapped above inside frame_eq] at present
    exact absurd present (by simp)
  have owned : s.mem.Owns row page frame := ⟨above, inside, frame_eq, positive, physical⟩
  obtain ⟨high, used⟩ := separated.used owned
  refine ⟨used, le_trans (by decide) high, ?_, ?_⟩
  · rintro p' page' ⟨_, inside', row', directory', _, frame_eq'⟩
    obtain rfl := table directory'
    by_cases above' : pagLogInitData ≤ page'
    · exact separated.unique ⟨above', inside', frame_eq', positive, physical⟩ owned
    · have low : s.mem.getFrame row' page' < _ := separated.shared (Nat.lt_of_not_le above')
      rw [frame_eq'] at low
      exact absurd high (Nat.not_le_of_lt low)
  · intro given
    cases first : Memory.freeFrames s.mem.physMem with
    | nil =>
        rw [Memory.allocFrame_nil first] at given
        exact absurd given (by simp)
    | cons f rest =>
        rw [Memory.allocFrame_cons first] at given
        have same : f = frame := Int.ofNat.inj given
        refine separated.not_free owned ?_
        rw [← same, first]
        exact List.mem_cons_self

/-- The first process forks and then creates a thread. -/
theorem isolated_of_searchesOwnTable_fork :
    ∃ s, plainImage.Reachable (Sparing SearchesOwnTable) s ∧ s.Maps 1 284 352 ∧ s.Isolated := by
  obtain ⟨s, reachable, goal⟩ := spared_of_checkBoot SearchesOwnTable
    (fun s action => decide (s.SearchesOwnTable action))
    (fun s => decide (s.Live 1 ∧ (s.task 1).dirPagesBaseAddr = some 1 ∧
      (s.mem.entry 1 284).present = true ∧ s.mem.getFrame 1 284 = 352))
    [.fork fun _ => 0, .pthreadCreate (fun _ => 0) 0x108000 0x100000]
    (fun _ _ => of_decide_eq_true) (by decide +kernel)
  obtain ⟨live, directory, present, frame⟩ := of_decide_eq_true goal
  exact ⟨s, reachable, ⟨live, by decide, 1, directory, present, frame⟩,
    isolated_of_searchesOwnTable plainImage s reachable⟩

/-- The first process creates a thread and has its number, two, stored to the bytes of `phys_mem`
for the frame 272 and the three after it: the frame 274 of a data page is free then. -/
theorem not_isolated_id :
    ¬∀ (image : Image) s, image.Reachable SearchesOwnTable s → s.Isolated := by
  intro isolated
  obtain ⟨s, reachable, goal⟩ := reachable_of_checkImage SearchesOwnTable
    (fun s action => decide (s.SearchesOwnTable action))
    (fun s => decide (s.Live 1 ∧ (s.task 1).dirPagesBaseAddr = some 1 ∧
      (s.mem.entry 1 265).present = true ∧ s.mem.getFrame 1 265 = 274 ∧ s.mem.physMem 274 = 0))
    [.pthreadCreate (fun _ => 0) 0x18110 0x100000] (fun _ _ => of_decide_eq_true)
    (by decide +kernel)
  obtain ⟨live, directory, present, frame, free⟩ := of_decide_eq_true goal
  have used := (isolated plainImage s reachable 1 265 274
    ⟨live, by decide, 1, directory, present, frame⟩ (by decide) (by decide)).1
  exact absurd (free.symm.trans used) (by decide)

end Zeos
