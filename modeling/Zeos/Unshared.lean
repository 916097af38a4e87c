import Zeos.Paging

/-!
# Frames that are not shared

In every run the free frames are frames of no page, and the frame of a data page is the frame of no
other page.  Stack pages and pages that `sys_fork` shares can have any place in the page tables.
-/

namespace Zeos

open GuardedRun Kernel

namespace Memory

variable {m m' : Memory} {row row' child : TaskId} {page page' : Nat}

/-- The place of a data page. -/
def DataPage (page : Nat) : Prop := pagLogInitData ≤ page ∧ page < pagLogInitData + numPagData

instance (page : Nat) : Decidable (DataPage page) := inferInstanceAs (Decidable (_ ∧ _))

/-- No page has a free frame, and a data page has its frame for itself, if it is one that
`free_frame` makes free. -/
structure Unshared (m : Memory) : Prop where
  used : ∀ {row page}, page < totalPages → m.getFrame row page ∉ freeFrames m.physMem
  alone : ∀ {row page row' page'}, DataPage page → page' < totalPages →
    numPagKernel < m.getFrame row page → m.getFrame row page < totalPages →
    m.getFrame row' page' = m.getFrame row page → row' = row ∧ page' = page

/-- Where a page has its frame from after a step. -/
inductive Origin (m m' : Memory) (row : TaskId) (page : Nat) : Prop
  | kept (same : m'.getFrame row page = m.getFrame row page)
  | outside (frame : m'.getFrame row page < numPagKernel ∨ totalPages ≤ m'.getFrame row page)
  | copied {row' : TaskId} {page' : Nat} (inside : page' < totalPages) (other : ¬DataPage page)
      (other' : ¬DataPage page') (same : m'.getFrame row page = m.getFrame row' page')
  | fresh (free : m'.getFrame row page ∈ freeFrames m.physMem)
      (used : m'.getFrame row page ∉ freeFrames m'.physMem)
      (only : ∀ {row' page'}, page' < totalPages →
        m'.getFrame row' page' = m'.getFrame row page → row' = row ∧ page' = page)

theorem not_free_outside {physMem : Nat → Byte} {f : Nat}
    (outside : f < numPagKernel ∨ totalPages ≤ f) : f ∉ freeFrames physMem := by
  intro free
  have bounds := (mem_freeFrames.mp free).1
  omega

namespace Unshared

/-- A data page has its frame for itself after a step that copies other pages only. -/
theorem alone_of_origin (unshared : m.Unshared)
    (origin : ∀ row page, page < totalPages → Origin m m' row page) (data : DataPage page)
    (inside : page' < totalPages) (above : numPagKernel < m'.getFrame row page)
    (physical : m'.getFrame row page < totalPages)
    (same : m'.getFrame row' page' = m'.getFrame row page) : row' = row ∧ page' = page := by
  have sizes := pageConstants
  have inside₀ : page < totalPages := by
    unfold DataPage at data
    omega
  cases origin row page inside₀ with
  | kept old =>
      rw [old] at above physical same
      have alone := fun {row'} {page'} (inside' : page' < totalPages) =>
        @Unshared.alone _ unshared row page row' page' data inside' above physical
      cases origin row' page' inside with
      | kept old' => exact alone inside (old'.symm.trans same)
      | outside frame =>
          rw [same] at frame
          omega
      | copied inside' _ other' same' =>
          obtain ⟨_, rfl⟩ := alone inside' (same'.symm.trans same)
          exact absurd data other'
      | fresh free =>
          rw [same] at free
          exact absurd free (unshared.used inside₀)
  | outside frame => omega
  | copied _ other => exact absurd data other
  | fresh _ _ only => exact only inside same

/-- After a step that makes no frame free. -/
theorem of_origin (unshared : m.Unshared)
    (origin : ∀ row page, page < totalPages → Origin m m' row page)
    (fewer : ∀ {f}, f ∈ freeFrames m'.physMem → f ∈ freeFrames m.physMem) : m'.Unshared where
  used {row page} inside free := by
    cases origin row page inside with
    | kept same => exact unshared.used inside (fewer (same ▸ free))
    | outside frame => exact not_free_outside frame free
    | copied inside' _ _ same => exact unshared.used inside' (fewer (same ▸ free))
    | fresh _ used => exact used free
  alone := unshared.alone_of_origin origin

/-- A child gets free frames. -/
theorem of_forked (unshared : m.Unshared)
    (enough : numPagData ≤ (freeFrames m.physMem).length)
    (frames : ∀ f, m'.physMem f =
      if f ∈ (freeFrames m.physMem).take numPagData then 1 else m.physMem f)
    (entries : ∀ row' page, page < totalPages → m'.entry row' page =
      if row' = row ∧ pagLogInitData + numPagData ≤ page ∧
          page < pagLogInitData + 2 * numPagData then .zero
      else if row' = child ∧ page < pagLogInitData then
        mapped (m.entry row page).pbaseAddr.toNat
      else if row' = child ∧ page < pagLogInitData + numPagData then
        mapped ((freeFrames m.physMem).getD (page - pagLogInitData) 0)
      else m.entry row' page) : m'.Unshared := by
  have sizes := pageConstants
  have nodup := nodup_freeFrames m.physMem
  have fewer : ∀ {f}, f ∈ freeFrames m'.physMem → f ∈ freeFrames m.physMem ∧
      f ∉ (freeFrames m.physMem).take numPagData := by
    intro f free
    obtain ⟨bounds, zero⟩ := mem_freeFrames.mp free
    rw [frames f] at zero
    split_ifs at zero with taken
    · exact absurd zero (by decide)
    · exact ⟨mem_freeFrames.mpr ⟨bounds, zero⟩, taken⟩
  -- the page tables differ in the alias window, the shared pages and the new data pages
  have cases : ∀ row' page, page < totalPages → m'.getFrame row' page = 0 ∨
      (page < pagLogInitData ∧ m'.getFrame row' page = m.getFrame row page) ∨
      (row' = child ∧ ∃ k, ∃ bound : k < numPagData, page = pagLogInitData + k ∧
        m'.getFrame row' page = (freeFrames m.physMem)[k]) ∨
      m'.getFrame row' page = m.getFrame row' page := by
    intro row' page inside
    rw [getFrame_eq, entries row' page inside]
    split_ifs with window low data
    · exact .inl rfl
    · exact .inr (.inl ⟨low.2, congrArg BitVec.toNat (pbaseAddr_mapped _)⟩)
    · have above : pagLogInitData ≤ page := Nat.le_of_not_lt fun below => low ⟨data.1, below⟩
      have bound : page - pagLogInitData < (freeFrames m.physMem).length := by omega
      have valid := (mem_freeFrames.mp (List.getElem_mem bound)).1
      refine .inr (.inr (.inl ⟨data.1, page - pagLogInitData, by omega, by omega, ?_⟩))
      rw [getD_freeFrames bound]
      exact toNat_mapped valid.2.1
    · exact .inr (.inr (.inr rfl))
  refine unshared.of_origin (fun row' page inside => ?_) fun free => (fewer free).1
  rcases cases row' page inside with zero | ⟨low, same⟩ | ⟨rfl, k, bound, rfl, frame⟩ | same
  · exact .outside (.inl (by omega))
  · have other : ¬DataPage page := by
      unfold DataPage
      omega
    exact .copied inside other other same
  · have free : (freeFrames m.physMem)[k] ∈ freeFrames m.physMem := List.getElem_mem _
    refine .fresh (frame ▸ free) (fun still => (fewer still).2 ?_)
      fun {row₁ page₁} inside₁ same => ?_
    · rw [frame]
      exact List.mem_take_iff_getElem.mpr ⟨k, by omega, rfl⟩
    · rw [frame] at same
      have bounds := (mem_freeFrames.mp free).1
      rcases cases row₁ page₁ inside₁ with zero | ⟨_, old⟩ | ⟨rfl, i, bound₁, rfl, frame₁⟩ | old
      · omega
      · exact absurd ((old.symm.trans same) ▸ free) (unshared.used inside₁)
      · have index := nodup.getElem_inj_iff.mp (frame₁.symm.trans same)
        exact ⟨rfl, by rw [index]⟩
      · exact absurd ((old.symm.trans same) ▸ free) (unshared.used inside₁)
  · exact .kept same

/-- A page anywhere in the page tables gets a free frame, or one that is no frame of the machine. -/
theorem of_created (unshared : m.Unshared) {index : Nat}
    (tables : m'.pagusrTable = Function.update m.pagusrTable index (stackEntry m.allocFrame.1))
    (frames : m'.physMem = m.allocFrame.2.physMem) : m'.Unshared := by
  have sizes := pageConstants
  have entries : ∀ row page, m'.getFrame row page = if entryIndex row page = index then
      (stackEntry m.allocFrame.1).pbaseAddr.toNat else m.getFrame row page := by
    intro row page
    rw [getFrame_eq, entry, tables, Function.update_apply]
    split_ifs
    · rfl
    · rfl
  cases first : freeFrames m.physMem with
  | nil =>
      rw [allocFrame_nil first] at entries frames
      have large : totalPages ≤ (stackEntry (-1)).pbaseAddr.toNat := by decide
      refine unshared.of_origin (fun row page inside => ?_) fun free => frames ▸ free
      by_cases new : entryIndex row page = index
      · exact .outside (.inr (by rw [entries, if_pos new]; exact large))
      · exact .kept (by rw [entries, if_neg new])
  | cons f rest =>
      have free : f ∈ freeFrames m.physMem := first ▸ List.mem_cons_self
      have nodup : (f :: rest).Nodup := first ▸ nodup_freeFrames m.physMem
      have frame : (stackEntry (f : Int)).pbaseAddr.toNat = f := by
        rw [stackEntry, BitVec.ofInt_natCast]
        exact toNat_mapped (mem_freeFrames.mp free).1.2.1
      have left : freeFrames m'.physMem = rest := by
        rw [frames, allocFrame_cons first]
        exact freeFrames_update first
      rw [allocFrame_cons first] at entries
      simp only [frame] at entries
      refine unshared.of_origin (fun row page inside => ?_) fun {g} other => ?_
      · by_cases new : entryIndex row page = index
        · have given : m'.getFrame row page = f := by rw [entries, if_pos new]
          refine .fresh (given ▸ free) ?_ fun {row' page'} inside' same => ?_
          · rw [given, left]
            exact (List.nodup_cons.mp nodup).1
          · rw [given, entries] at same
            split_ifs at same with again
            · exact (entryIndex_inj inside' inside).mp (again.trans new.symm)
            · exact absurd (same ▸ free) (unshared.used inside')
        · exact .kept (by rw [entries, if_neg new])
      · rw [left] at other
        rw [first]
        exact List.mem_cons_of_mem f other

/-- The frames of the data pages of a process that ends have no other page. -/
theorem of_exited (unshared : m.Unshared)
    (tables : m'.pagusrTable = (m.releaseDataPages row numPagData).pagusrTable)
    (frames : m'.physMem = (m.releaseDataPages row numPagData).physMem) : m'.Unshared := by
  have sizes := pageConstants
  have entries : ∀ row' page, page < totalPages → m'.getFrame row' page =
      if row' = row ∧ DataPage page then 0 else m.getFrame row' page := by
    intro row' page inside
    rw [getFrame_eq, entry, tables]
    rw [show (m.releaseDataPages row numPagData).pagusrTable (entryIndex row' page) = _ from
      entry_releaseDataPages (by decide) inside]
    split_ifs with gone still still
    · rfl
    · exact absurd gone still
    · exact absurd still gone
    · rfl
  have origin : ∀ row' page, page < totalPages → Origin m m' row' page := by
    intro row' page inside
    by_cases gone : row' = row ∧ DataPage page
    · exact .outside (.inl (by rw [entries _ _ inside, if_pos gone]; omega))
    · exact .kept (by rw [entries _ _ inside, if_neg gone])
  refine ⟨fun {row' page} inside free => ?_, unshared.alone_of_origin origin⟩
  obtain ⟨bounds, zero⟩ := mem_freeFrames.mp free
  rw [frames, physMem_releaseDataPages (by decide)] at zero
  split_ifs at zero with released
  · obtain ⟨⟨above, physical⟩, k, bound, frame⟩ := released
    rw [← getFrame_eq] at frame
    have data : DataPage (pagLogInitData + k) := by
      unfold DataPage
      omega
    rw [entries _ _ inside] at frame above physical bounds
    split_ifs at frame above physical bounds with gone
    · omega
    · obtain ⟨rfl, rfl⟩ := @Unshared.alone _ unshared row _ _ _ data inside
        (frame ▸ above) (frame ▸ physical) frame.symm
      exact gone ⟨rfl, data⟩
  · have before := mem_freeFrames.mpr ⟨bounds, zero⟩
    rw [entries _ _ inside] at before
    split_ifs at before
    · exact not_free_outside (.inl (by omega)) before
    · exact unshared.used inside before

end Unshared

end Memory

/-- A paging step keeps the frames of data pages and the free frames apart. -/
theorem PageStep.unshared {s s' : Kernel} {action : Action} {result : Result}
    (step : PageStep s s' action result) (unshared : s.mem.Unshared) : s'.mem.Unshared := by
  cases step with
  | kept tables frames =>
      refine unshared.of_origin (fun row page _ => .kept ?_) fun free => frames ▸ free
      rw [Memory.getFrame, tables]
      rfl
  | forked _ _ _ _ _ enough frames entries => exact unshared.of_forked enough frames entries
  | forkFailed _ _ _ frames entries =>
      refine unshared.of_origin (fun row page inside => ?_) fun {f} free => ?_
      · have frame : s'.mem.getFrame row page = _ := congrArg (·.pbaseAddr.toNat)
          (entries row page inside)
        split_ifs at frame
        · have sizes := pageConstants
          exact .outside (.inl (by rw [frame]; exact Nat.lt_of_lt_of_le Nat.zero_lt_one (by omega)))
        · exact .kept frame
      · obtain ⟨bounds, zero⟩ := Memory.mem_freeFrames.mp free
        refine Memory.mem_freeFrames.mpr ⟨bounds, ?_⟩
        by_contra used
        exact used ((frames f fun _ => used).symm.trans zero)
  | created _ _ _ _ tables frames => exact unshared.of_created tables frames
  | exited _ tables frames => exact unshared.of_exited tables frames

/-- The pages of the first process have frames of their own. -/
theorem unshared_bootMemory (layout : Layout) : (bootMemory layout).Unshared := by
  have sizes := pageConstants
  obtain ⟨frames, entries⟩ := bootMemory_eq layout
  have frame : ∀ row page, page < totalPages → (bootMemory layout).getFrame row page =
      if row = 1 ∧ pagLogInitCode ≤ page ∧ page < pagLogInitData + numPagData then
        Memory.bootFrame (page - pagLogInitCode)
      else if 1 ≤ page ∧ page < numPagKernel then page else 0 := by
    intro row page inside
    have code : ∀ k < numPagCode + numPagData, Memory.bootFrame k < totalPages := by
      intro k bound
      unfold Memory.bootFrame
      omega
    rw [Memory.getFrame_eq, entries row page inside]
    by_cases user : row = 1 ∧ pagLogInitCode ≤ page ∧ page < pagLogInitData + numPagData
    · rw [if_pos user]
      by_cases data : pagLogInitData ≤ page
      · rw [if_pos ⟨user.1, data, user.2.2⟩]
        exact Memory.toNat_mapped (code _ (by omega))
      · rw [if_neg (fun held => data held.2.1),
          if_pos ⟨user.1, user.2.1, Nat.lt_of_not_le data⟩]
        exact Memory.toNat_mapped (code _ (by omega))
    · rw [if_neg user, if_neg (fun held => user ⟨held.1, by omega, held.2.2⟩),
        if_neg (fun held => user ⟨held.1, held.2.1, by omega⟩)]
      split
      · exact Memory.toNat_kernelEntry layout inside
      · rfl
  constructor
  · intro row page inside free
    obtain ⟨bounds, zero⟩ := Memory.mem_freeFrames.mp free
    rw [frame row page inside] at bounds zero
    split_ifs at bounds zero with user kernel
    · have used := (frames _ bounds.1 bounds.2.1).mpr ⟨_, by omega, rfl⟩
      rw [zero] at used
      exact absurd used (by decide)
    · omega
    · omega
  · intro row page row' page' data inside above physical same
    unfold Memory.DataPage at data
    rw [frame row page (by omega)] at above same
    rw [frame row' page' inside] at same
    unfold Memory.bootFrame at above same
    split_ifs at above with user
    · rw [if_pos user] at same
      split_ifs at same with user'
      · exact ⟨user'.1.trans user.1.symm, by omega⟩
      · omega
      · omega
    · omega
    · omega

/-- In every run the free frames and the frames of data pages are not shared. -/
theorem Kernel.Reachable.unshared {layout : Layout} {guard : Kernel → Action → Prop} {s : Kernel}
    (reachable : Reachable layout guard s) : s.mem.Unshared :=
  reachable.paged Memory.Unshared (unshared_bootMemory layout)
    fun unshared _ step => step.unshared unshared

end Zeos
