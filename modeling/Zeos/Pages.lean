import Zeos.Memory

/-!
# Page tables

What the functions of `mm.c` and the loops of `sys_fork` write to the page tables, entry by entry.
-/

namespace Zeos

open GuardedRun

theorem pageConstants : totalPages = 1024 ∧ numPagKernel = 256 ∧ numPagCode = 8 ∧
    numPagData = 20 ∧ pagLogInitCode = 256 ∧ pagLogInitData = 264 := by
  decide

theorem entryIndex_inj {row row' : TaskId} {page page' : Nat} (inside : page < totalPages)
    (inside' : page' < totalPages) :
    entryIndex row page = entryIndex row' page' ↔ row = row' ∧ page = page' := by
  simp only [entryIndex, totalPages] at inside inside' ⊢
  constructor
  · intro equal
    have rows : row.val = row'.val := by omega
    exact ⟨Fin.ext rows, by omega⟩
  · rintro ⟨rfl, rfl⟩
    rfl

/-- An entry that gives the user all access to a frame. -/
def mapped (frame : Nat) : PageTableEntry where
  present := true
  rw := true
  user := true
  pbaseAddr := BitVec.ofNat 20 frame

namespace Memory

/-- The entry of a logical page in a page table. -/
def entry (m : Memory) (row : TaskId) (page : Nat) : PageTableEntry :=
  m.pagusrTable (entryIndex row page)

variable {m m' : Memory} {row row' : TaskId} {page page' : Nat}

theorem entry_setEntry (inside : page < totalPages) (inside' : page' < totalPages)
    (content : PageTableEntry) : (m.setEntry (entryIndex row page) content).entry row' page' =
      if row' = row ∧ page' = page then content else m.entry row' page' := by
  unfold entry setEntry
  dsimp only
  rw [Function.update_apply]
  simp only [entryIndex_inj inside' inside]

theorem entry_setSsPag (inside : page < totalPages) (inside' : page' < totalPages) (frame : Nat) :
    (m.setSsPag row page frame).entry row' page' =
      if row' = row ∧ page' = page then mapped frame else m.entry row' page' := by
  rw [setSsPag, entry_setEntry inside inside', BitVec.ofInt_natCast]
  rfl

theorem entry_delSsPag (inside : page < totalPages) (inside' : page' < totalPages) :
    (m.delSsPag row page).entry row' page' =
      if row' = row ∧ page' = page then .zero else m.entry row' page' :=
  entry_setEntry inside inside' _

theorem entry_freeFrame (frame : Nat) : (m.freeFrame frame).entry row page = m.entry row page := by
  unfold freeFrame
  split
  · rfl
  · rfl

theorem getFrame_eq (m : Memory) (row : TaskId) (page : Nat) :
    m.getFrame row page = (m.entry row page).pbaseAddr.toNat := rfl

@[simp]
theorem pbaseAddr_mapped (b : BitVec 20) : (mapped b.toNat).pbaseAddr = b := by
  simp [mapped]

theorem toNat_mapped {frame : Nat} (physical : frame < totalPages) :
    (mapped frame).pbaseAddr.toNat = frame := by
  have sizes := pageConstants
  rw [mapped, BitVec.toNat_ofNat]
  exact Nat.mod_eq_of_lt (by omega)

/-! ## Frames -/

/-- The free frames that `alloc_frame` finds, in the order in which it finds them. -/
def freeFrames (physMem : Nat → Byte) : List Nat :=
  (List.range' numPagKernel ((totalPages - numPagKernel) / 2) 2).filter fun f => physMem f = 0

theorem mem_freeFrames {physMem : Nat → Byte} {f : Nat} : f ∈ freeFrames physMem ↔
    (numPagKernel ≤ f ∧ f < totalPages ∧ f % 2 = 0) ∧ physMem f = 0 := by
  have sizes := pageConstants
  rw [freeFrames, List.mem_filter, List.mem_range', decide_eq_true_eq]
  refine and_congr_left fun _ => ?_
  constructor
  · rintro ⟨i, inside, rfl⟩
    omega
  · intro bounds
    exact ⟨(f - numPagKernel) / 2, by omega, by omega⟩

theorem nodup_freeFrames (physMem : Nat → Byte) : (freeFrames physMem).Nodup :=
  (List.nodup_range' 2 (by decide)).filter _

theorem getD_freeFrames {physMem : Nat → Byte} {k : Nat}
    (bound : k < (freeFrames physMem).length) :
    (freeFrames physMem).getD k 0 = (freeFrames physMem)[k] := by
  rw [List.getD_eq_getElem?_getD, List.getElem?_eq_getElem bound]
  rfl

theorem findFrame_eq (physMem : Nat → Byte) {count fuel i : Nat}
    (rounds : i + 2 * count = totalPages) (enough : count ≤ fuel) :
    findFrame physMem fuel i =
      ((List.range' i count 2).filter fun f => physMem f = 0).head? := by
  induction count generalizing fuel i with
  | zero =>
      cases fuel with
      | zero => rfl
      | succ fuel =>
          rw [findFrame, if_neg (by omega)]
          rfl
  | succ count induction =>
      cases fuel with
      | zero => omega
      | succ fuel =>
          rw [findFrame, if_pos (by omega), List.range'_succ, List.filter_cons]
          by_cases free : physMem i = 0
          · rw [if_pos free, if_pos (by simpa using free)]
            rfl
          · rw [if_neg free, if_neg (by simpa using free)]
            exact induction (by omega) (by omega)

theorem allocFrame_nil (empty : freeFrames m.physMem = []) : m.allocFrame = (-1, m) := by
  have found : findFrame m.physMem totalPages numPagKernel = (freeFrames m.physMem).head? :=
    findFrame_eq m.physMem (by decide) (by decide)
  rw [allocFrame, found, empty]
  rfl

theorem allocFrame_cons {f : Nat} {rest : List Nat} (first : freeFrames m.physMem = f :: rest) :
    m.allocFrame = ((f : Int), { m with physMem := Function.update m.physMem f 1 }) := by
  have found : findFrame m.physMem totalPages numPagKernel = (freeFrames m.physMem).head? :=
    findFrame_eq m.physMem (by decide) (by decide)
  rw [allocFrame, found, first]
  rfl

theorem pagusrTable_allocFrame (m : Memory) : m.allocFrame.2.pagusrTable = m.pagusrTable := by
  unfold allocFrame
  split
  · rfl
  · rfl

/-- A used frame stays used. -/
theorem physMem_allocFrame {f : Nat} (used : m.physMem f = 1) : m.allocFrame.2.physMem f = 1 := by
  cases free : freeFrames m.physMem with
  | nil =>
      rw [allocFrame_nil free]
      exact used
  | cons g rest =>
      rw [allocFrame_cons free]
      by_cases same : f = g
      · subst same
        exact Function.update_self f (1 : Byte) m.physMem
      · exact (Function.update_of_ne same _ _).trans used

/-- A frame that is given out is no longer free. -/
theorem freeFrames_update {physMem : Nat → Byte} {f : Nat} {rest : List Nat}
    (first : freeFrames physMem = f :: rest) :
    freeFrames (Function.update physMem f 1) = rest := by
  have nodup : (f :: rest).Nodup := first ▸ nodup_freeFrames physMem
  have fresh := (List.nodup_cons.mp nodup).1
  have split : freeFrames (Function.update physMem f 1) =
      (freeFrames physMem).filter fun g => decide (g ≠ f) := by
    unfold freeFrames
    rw [List.filter_filter]
    refine List.filter_congr fun g _ => ?_
    by_cases same : g = f
    · simp [same]
    · simp [same]
  rw [split, first, List.filter_cons_of_neg (by simp)]
  exact List.filter_eq_self.mpr fun g member => by
    have different : g ≠ f := fun same => fresh (same ▸ member)
    simpa using different

/-! ## Data pages -/

theorem entry_releaseDataPages {count : Nat} (short : pagLogInitData + count ≤ totalPages)
    (inside : page < totalPages) : (m.releaseDataPages row count).entry row' page =
      if row' = row ∧ pagLogInitData ≤ page ∧ page < pagLogInitData + count then .zero
      else m.entry row' page := by
  have sizes := pageConstants
  unfold releaseDataPages
  induction count with
  | zero =>
      rw [List.range_zero, List.foldl_nil, if_neg (by omega)]
  | succ count induction =>
      rw [List.range_succ, List.foldl_append, List.foldl_cons, List.foldl_nil,
        entry_delSsPag (by omega) inside, entry_freeFrame, induction (by omega)]
      by_cases same : row' = row
      · simp only [same, true_and]
        split_ifs
        · rfl
        · omega
        · rfl
        · omega
        · omega
        · rfl
      · simp only [same, false_and, if_false]

/-- The frames of data pages that `free_frame` accepts become free. -/
theorem physMem_releaseDataPages {count : Nat} (short : pagLogInitData + count ≤ totalPages)
    (f : Nat) : (m.releaseDataPages row count).physMem f =
      if (numPagKernel < f ∧ f < totalPages) ∧
          ∃ k < count, (m.entry row (pagLogInitData + k)).pbaseAddr.toNat = f then 0
      else m.physMem f := by
  have sizes := pageConstants
  induction count with
  | zero => simp [releaseDataPages]
  | succ count induction =>
      have last : (m.releaseDataPages row count).getFrame row (pagLogInitData + count) =
          (m.entry row (pagLogInitData + count)).pbaseAddr.toNat := by
        rw [getFrame_eq, entry_releaseDataPages (by omega) (by omega), if_neg (by omega)]
      have unfolded : (m.releaseDataPages row (count + 1)).physMem =
          ((m.releaseDataPages row count).freeFrame
            ((m.releaseDataPages row count).getFrame row (pagLogInitData + count))).physMem := by
        unfold releaseDataPages
        rw [List.range_succ, List.foldl_append, List.foldl_cons, List.foldl_nil]
        rfl
      rw [unfolded, last]
      have before := induction (by omega)
      have one_more : (∃ k < count + 1, (m.entry row (pagLogInitData + k)).pbaseAddr.toNat = f) ↔
          (∃ k < count, (m.entry row (pagLogInitData + k)).pbaseAddr.toNat = f) ∨
            (m.entry row (pagLogInitData + count)).pbaseAddr.toNat = f :=
        Nat.exists_lt_succ_right
      simp only [one_more]
      unfold freeFrame
      by_cases valid : numPagKernel < (m.entry row (pagLogInitData + count)).pbaseAddr.toNat ∧
          (m.entry row (pagLogInitData + count)).pbaseAddr.toNat < totalPages
      · rw [if_pos valid]
        by_cases same : f = (m.entry row (pagLogInitData + count)).pbaseAddr.toNat
        · subst same
          rw [if_pos ⟨valid, .inr rfl⟩]
          exact Function.update_self _ _ _
        · show Function.update _ _ _ _ = _
          rw [Function.update_of_ne same, before]
          simp [Ne.symm same]
      · rw [if_neg valid, before]
        refine if_congr ?_ rfl rfl
        refine and_congr_right fun bounds => ?_
        constructor
        · exact .inl
        · rintro (found | rfl)
          · exact found
          · exact absurd bounds valid

/-- With enough free frames the loop of `sys_fork` maps the data pages to the first of them. -/
theorem allocDataPages_enough (row : TaskId) (remaining pag : Nat)
    (short : pagLogInitData + pag + remaining ≤ totalPages)
    (enough : remaining ≤ (freeFrames m.physMem).length) :
    ∃ mem, m.allocDataPages row remaining pag = (true, mem) ∧
      (∀ f, mem.physMem f =
        if f ∈ (freeFrames m.physMem).take remaining then 1 else m.physMem f) ∧
      ∀ row' page, page < totalPages → mem.entry row' page =
        if row' = row ∧ pagLogInitData + pag ≤ page ∧ page < pagLogInitData + pag + remaining then
          mapped ((freeFrames m.physMem).getD (page - (pagLogInitData + pag)) 0)
        else m.entry row' page := by
  have sizes := pageConstants
  induction remaining generalizing pag m with
  | zero =>
      exact ⟨m, rfl, fun f => by simp, fun row' page _ => by rw [if_neg (by omega)]⟩
  | succ remaining induction =>
      cases first : freeFrames m.physMem with
      | nil =>
          rw [first] at enough
          exact absurd enough (by simp)
      | cons f rest =>
          rw [first] at enough
          have next : freeFrames (({ m with physMem := Function.update m.physMem f 1 } :
              Memory).setSsPag row (pagLogInitData + pag) f).physMem = rest :=
            freeFrames_update first
          obtain ⟨mem, rounds, frames, entries⟩ := induction (pag + 1)
            (m := ({ m with physMem := Function.update m.physMem f 1 } : Memory).setSsPag row
              (pagLogInitData + pag) f) (by omega)
            (by rw [next]; simpa using enough)
          refine ⟨mem, ?_, fun g => ?_, fun row' page inside => ?_⟩
          · rw [allocDataPages, allocFrame_cons first]
            dsimp only
            rw [if_pos (by omega)]
            exact rounds
          · rw [frames g, next, List.take_succ_cons]
            show (if _ then _ else Function.update m.physMem f 1 g) = _
            by_cases same : g = f
            · simp [same]
            · simp [same]
          · rw [entries row' page inside, next, entry_setSsPag (by omega) inside]
            by_cases same : row' = row
            · simp only [same, true_and]
              by_cases at_pag : page = pagLogInitData + pag
              · subst at_pag
                rw [if_neg (by omega), if_pos rfl, if_pos (by omega), Nat.sub_self,
                  List.getD_cons_zero]
              · by_cases later : pagLogInitData + (pag + 1) ≤ page ∧
                  page < pagLogInitData + (pag + 1) + remaining
                · have index : page - (pagLogInitData + pag) =
                      page - (pagLogInitData + (pag + 1)) + 1 := by omega
                  rw [if_pos later, if_pos (by omega), index, List.getD_cons_succ]
                · rw [if_neg later, if_neg at_pag, if_neg (by omega)]
                  rfl
            · simp only [same, false_and, if_false]
              rfl

/-- Without enough free frames the loop of `sys_fork` fails, clears the data pages it has reached
and gives the frames back, as far as `free_frame` accepts them. -/
theorem allocDataPages_short (row : TaskId) (remaining pag : Nat)
    (short : pagLogInitData + pag + remaining ≤ totalPages)
    (few : (freeFrames m.physMem).length < remaining) :
    ∃ mem, m.allocDataPages row remaining pag = (false, mem) ∧
      (∀ f, (f = numPagKernel → m.physMem f ≠ 0) → mem.physMem f =
        if (numPagKernel < f ∧ f < totalPages) ∧
            ∃ k < pag, (m.entry row (pagLogInitData + k)).pbaseAddr.toNat = f then 0
        else m.physMem f) ∧
      ∀ row' page, page < totalPages → mem.entry row' page =
        if row' = row ∧ pagLogInitData ≤ page ∧
            page < pagLogInitData + pag + (freeFrames m.physMem).length then .zero
        else m.entry row' page := by
  have sizes := pageConstants
  induction remaining generalizing pag m with
  | zero => omega
  | succ remaining induction =>
      cases first : freeFrames m.physMem with
      | nil =>
          refine ⟨m.releaseDataPages row pag, ?_, fun f _ => ?_, fun row' page inside => ?_⟩
          · rw [allocDataPages, allocFrame_nil first]
            rfl
          · exact physMem_releaseDataPages (by omega) f
          · rw [entry_releaseDataPages (by omega) inside, List.length_nil, Nat.add_zero]
      | cons f rest =>
          rw [first] at few
          have next : freeFrames (({ m with physMem := Function.update m.physMem f 1 } :
              Memory).setSsPag row (pagLogInitData + pag) f).physMem = rest :=
            freeFrames_update first
          obtain ⟨mem, rounds, frames, entries⟩ := induction (pag + 1)
            (m := ({ m with physMem := Function.update m.physMem f 1 } : Memory).setSsPag row
              (pagLogInitData + pag) f) (by omega)
            (by rw [next]; simpa using few)
          have taken : f ∈ freeFrames m.physMem := by
            rw [first]
            exact List.mem_cons_self
          obtain ⟨⟨above, below, _⟩, free⟩ := mem_freeFrames.mp taken
          refine ⟨mem, ?_, fun g kept => ?_, fun row' page inside => ?_⟩
          · rw [allocDataPages, allocFrame_cons first]
            dsimp only
            rw [if_pos (by omega)]
            exact rounds
          · have entry_eq : ∀ k < pag + 1,
                ((({ m with physMem := Function.update m.physMem f 1 } : Memory).setSsPag row
                  (pagLogInitData + pag) f).entry row (pagLogInitData + k)).pbaseAddr.toNat =
                if k = pag then f else (m.entry row (pagLogInitData + k)).pbaseAddr.toNat := by
              intro k bound
              rw [entry_setSsPag (by omega) (by omega)]
              by_cases last : k = pag
              · rw [if_pos ⟨rfl, by rw [last]⟩, if_pos last, toNat_mapped below]
              · rw [if_neg (by omega), if_neg last]
                rfl
            have found : (∃ k < pag + 1,
                ((({ m with physMem := Function.update m.physMem f 1 } : Memory).setSsPag row
                  (pagLogInitData + pag) f).entry row (pagLogInitData + k)).pbaseAddr.toNat = g) ↔
                (∃ k < pag, (m.entry row (pagLogInitData + k)).pbaseAddr.toNat = g) ∨ f = g := by
              rw [Nat.exists_lt_succ_right, entry_eq pag (by omega), if_pos rfl]
              refine or_congr_left (exists_congr fun k => and_congr_right fun bound => ?_)
              rw [entry_eq k (by omega), if_neg (by omega)]
            have kept' : g = numPagKernel → Function.update m.physMem f 1 g ≠ 0 := by
              intro first_frame
              by_cases same : g = f
              · simp [same]
              · rw [Function.update_of_ne same]
                exact kept first_frame
            rw [frames g kept']
            simp only [found]
            show (if _ then _ else Function.update m.physMem f 1 g) = _
            by_cases same : g = f
            · subst same
              have other : g ≠ numPagKernel := fun first_frame => kept first_frame free
              rw [if_pos ⟨by omega, .inr rfl⟩, free, ite_self]
            · rw [Function.update_of_ne same]
              simp [Ne.symm same]
          · rw [List.length_cons] at few
            rw [entries row' page inside, next, entry_setSsPag (by omega) inside, List.length_cons]
            by_cases same : row' = row
            · simp only [same, true_and]
              by_cases cleared : pagLogInitData ≤ page ∧
                  page < pagLogInitData + (pag + 1) + rest.length
              · rw [if_pos cleared, if_pos (by omega)]
              · rw [if_neg cleared, if_neg (by omega), if_neg (by omega)]
                rfl
            · simp only [same, false_and, if_false]
              rfl

/-- The loops of `set_user_pages`: give frames to consecutive pages. -/
theorem allocPages_eq {base count : Nat} {writable : Bool} {round : Memory → Nat → Memory}
    (round_eq : ∀ m pag, round m pag = m.allocFrame.2.setEntry (entryIndex row (base + pag))
      { present := true, rw := writable, user := true
        pbaseAddr := BitVec.ofInt 20 m.allocFrame.1 })
    (short : base + count ≤ totalPages) (enough : count ≤ (freeFrames m.physMem).length) :
    freeFrames ((List.range count).foldl round m).physMem = (freeFrames m.physMem).drop count ∧
      (∀ f, ((List.range count).foldl round m).physMem f =
        if f ∈ (freeFrames m.physMem).take count then 1 else m.physMem f) ∧
      ∀ row' page, page < totalPages → ((List.range count).foldl round m).entry row' page =
        if row' = row ∧ base ≤ page ∧ page < base + count then
          { mapped ((freeFrames m.physMem).getD (page - base) 0) with rw := writable }
        else m.entry row' page := by
  induction count with
  | zero =>
      refine ⟨rfl, fun f => by simp, fun row' page inside => ?_⟩
      rw [if_neg (by omega)]
      rfl
  | succ count induction =>
      obtain ⟨rest, frames, entries⟩ := induction (by omega) (by omega)
      rw [List.range_succ, List.foldl_append, List.foldl_cons, List.foldl_nil, round_eq]
      generalize (List.range count).foldl round m = m₁ at rest frames entries ⊢
      have first : freeFrames m₁.physMem =
          (freeFrames m.physMem)[count] :: (freeFrames m.physMem).drop (count + 1) := by
        rw [rest]
        exact List.drop_eq_getElem_cons (by omega)
      rw [allocFrame_cons first]
      refine ⟨freeFrames_update first, fun f => ?_, fun row' page inside => ?_⟩
      · show Function.update m₁.physMem _ 1 f = _
        have one_more : f ∈ (freeFrames m.physMem).take (count + 1) ↔
            f ∈ (freeFrames m.physMem).take count ∨ f = (freeFrames m.physMem)[count] := by
          rw [List.take_succ_eq_append_getElem (by omega), List.mem_append, List.mem_singleton]
        by_cases same : f = (freeFrames m.physMem)[count]
        · rw [if_pos (one_more.mpr (.inr same)), same, Function.update_self]
        · rw [Function.update_of_ne same, frames f]
          exact if_congr ((or_iff_left same).symm.trans one_more.symm) rfl rfl
      · rw [entry_setEntry (by omega) inside, BitVec.ofInt_natCast]
        show (if _ then _ else m₁.entry row' page) = _
        rw [entries row' page inside]
        by_cases same : row' = row
        · simp only [same, true_and]
          by_cases last : page = base + count
          · subst last
            rw [if_pos rfl, if_pos (by omega), Nat.add_sub_cancel_left,
              List.getD_eq_getElem?_getD, List.getElem?_eq_getElem (by omega)]
            rfl
          · rw [if_neg last]
            exact if_congr (by omega) rfl rfl
        · simp only [same, false_and, if_false]

/-! ## Sharing and copying -/

theorem entry_sharePages (parent child : TaskId) (base count : Nat)
    (short : base + count ≤ totalPages) (inside : page < totalPages) :
    ((List.range count).foldl (fun m pag =>
        m.setSsPag child (base + pag) (m.getFrame parent (base + pag))) m).entry row page =
      if row = child ∧ base ≤ page ∧ page < base + count then
        mapped (m.entry parent page).pbaseAddr.toNat
      else m.entry row page := by
  have sizes := pageConstants
  induction count generalizing row page with
  | zero => rw [List.range_zero, List.foldl_nil, if_neg (by omega)]
  | succ count induction =>
      rw [List.range_succ, List.foldl_append, List.foldl_cons, List.foldl_nil,
        entry_setSsPag (by omega) inside, induction (by omega) inside, getFrame_eq,
        induction (by omega) (by omega)]
      by_cases same : row = child
      · simp only [same, true_and]
        by_cases last : page = base + count
        · subst last
          rw [if_pos rfl, if_neg (by omega), if_pos (by omega)]
        · rw [if_neg last]
          exact if_congr (by omega) rfl rfl
      · simp only [same, false_and, if_false]

/-- The child's system and code pages have the parent's frames, with all access. -/
theorem entry_shareSystemAndCode {parent child : TaskId} (inside : page < totalPages) :
    (m.shareSystemAndCode parent child).entry row page =
      if row = child ∧ page < pagLogInitData then mapped (m.entry parent page).pbaseAddr.toNat
      else m.entry row page := by
  have sizes := pageConstants
  have system := fun {row : TaskId} {page : Nat} (inside : page < totalPages) =>
    @entry_sharePages m row page parent child 0 numPagKernel (by decide) inside
  simp only [Nat.zero_add, Nat.zero_le, true_and] at system
  unfold shareSystemAndCode
  dsimp only
  rw [entry_sharePages _ _ _ _ (by decide) inside, system inside, system inside]
  by_cases same : row = child
  · subst same
    simp only [true_and]
    by_cases kernel : page < numPagKernel
    · rw [if_neg (by omega), if_pos kernel, if_pos (by omega)]
    · by_cases code : page < pagLogInitData
      · rw [if_pos (by omega), if_pos code]
        by_cases own : parent = row
        · simp only [own, true_and, if_neg kernel]
        · simp only [own, false_and, if_false]
      · rw [if_neg (by omega), if_neg kernel, if_neg code]
  · simp only [same, false_and, if_false]

theorem entry_copyPage {cr3 : TaskId} {source target : Nat}
    (copied : m.copyPage cr3 source target = .ok m') : m'.entry row page = m.entry row page := by
  obtain ⟨start, _, copied⟩ := bind_eq_ok.mp copied
  obtain ⟨dest, _, copied⟩ := bind_eq_ok.mp copied
  rw [← Except.ok.inj copied]
  rfl

theorem physMem_copyPages {cr3 parent child : TaskId} {pages : List Nat}
    (copied : pages.foldlM (copyDataPage cr3 parent child) m = .ok m') :
    m'.physMem = m.physMem := by
  induction pages generalizing m with
  | nil =>
      rw [List.foldlM_nil] at copied
      rw [Except.ok.inj copied]
  | cons pag pages induction =>
      rw [List.foldlM_cons] at copied
      obtain ⟨next, round, rest⟩ := bind_eq_ok.mp copied
      obtain ⟨copy, page_copied, deleted⟩ := bind_eq_ok.mp round
      obtain ⟨start, _, page_copied⟩ := bind_eq_ok.mp page_copied
      obtain ⟨dest, _, page_copied⟩ := bind_eq_ok.mp page_copied
      rw [induction rest, ← Except.ok.inj deleted, ← Except.ok.inj page_copied]
      rfl

theorem physMem_copyDataPages {cr3 parent child : TaskId}
    (copied : m.copyDataPages cr3 parent child = .ok m') : m'.physMem = m.physMem :=
  physMem_copyPages copied

/-- Sharing pages writes to the page tables only. -/
theorem shareSystemAndCode_eq (m : Memory) (parent child : TaskId) :
    ∃ tables, m.shareSystemAndCode parent child = { m with pagusrTable := tables } := by
  have shared : ∀ (base : Nat) (pages : List Nat) (m : Memory), ∃ tables,
      pages.foldl (fun m pag => m.setSsPag child (base + pag) (m.getFrame parent (base + pag))) m =
        { m with pagusrTable := tables } := by
    intro base pages
    induction pages with
    | nil => exact fun m => ⟨m.pagusrTable, rfl⟩
    | cons pag pages induction => exact fun m => induction _
  obtain ⟨tables, system⟩ := shared 0 (List.range numPagKernel) m
  obtain ⟨tables', code⟩ := shared pagLogInitCode (List.range numPagCode)
    { m with pagusrTable := tables }
  simp only [Nat.zero_add] at system
  unfold shareSystemAndCode
  dsimp only
  rw [system, code]
  exact ⟨tables', rfl⟩

theorem physMem_shareSystemAndCode (m : Memory) (parent child : TaskId) :
    (m.shareSystemAndCode parent child).physMem = m.physMem := by
  obtain ⟨tables, shared⟩ := m.shareSystemAndCode_eq parent child
  rw [shared]

/-- The copy loop leaves the page tables as they are, but for the pages it uses as aliases. -/
theorem entry_copyPages {cr3 parent child : TaskId} {pages : List Nat}
    (short : ∀ pag ∈ pages, pag + numPagData < totalPages) (inside : page < totalPages)
    (copied : pages.foldlM (copyDataPage cr3 parent child) m = .ok m') :
    m'.entry row page =
      if row = parent ∧ ∃ pag ∈ pages, page = pag + numPagData then .zero
      else m.entry row page := by
  induction pages generalizing m with
  | nil =>
      rw [List.foldlM_nil] at copied
      rw [if_neg (by simp), Except.ok.inj copied]
  | cons pag pages induction =>
      rw [List.foldlM_cons] at copied
      obtain ⟨next, round, rest⟩ := bind_eq_ok.mp copied
      rw [induction (fun other member => short other (List.mem_cons_of_mem _ member)) rest]
      have fits := short pag List.mem_cons_self
      unfold copyDataPage at round
      obtain ⟨copy, page_copied, deleted⟩ := bind_eq_ok.mp round
      rw [← Except.ok.inj deleted, entry_delSsPag fits inside, entry_copyPage page_copied,
        entry_setSsPag fits inside]
      by_cases same : row = parent
      · simp only [same, true_and, List.mem_cons, exists_eq_or_imp]
        by_cases first : page = pag + numPagData
        · simp [first]
        · simp [first]
      · simp only [same, false_and, if_false]

theorem entry_copyDataPages {cr3 parent child : TaskId} (inside : page < totalPages)
    (copied : m.copyDataPages cr3 parent child = .ok m') :
    m'.entry row page =
      if row = parent ∧ pagLogInitData + numPagData ≤ page ∧
          page < pagLogInitData + 2 * numPagData then .zero
      else m.entry row page := by
  have sizes := pageConstants
  rw [entry_copyPages (by simp; omega) inside copied]
  refine if_congr (and_congr_right fun _ => ?_) rfl rfl
  simp only [List.mem_range'_1]
  constructor
  · rintro ⟨pag, bounds, rfl⟩
    omega
  · intro bounds
    exact ⟨page - numPagData, by omega, by omega⟩

/-- `set_user_pages` gives frames to the code pages, which stay read-only, and then to the data
pages. -/
theorem setCodePages_eq (row : TaskId) (enough : numPagCode ≤ (freeFrames m.physMem).length) :
    freeFrames (m.setCodePages row).physMem = (freeFrames m.physMem).drop numPagCode ∧
      (∀ f, (m.setCodePages row).physMem f =
        if f ∈ (freeFrames m.physMem).take numPagCode then 1 else m.physMem f) ∧
      ∀ row' page, page < totalPages → (m.setCodePages row).entry row' page =
        if row' = row ∧ pagLogInitCode ≤ page ∧ page < pagLogInitCode + numPagCode then
          { mapped ((freeFrames m.physMem).getD (page - pagLogInitCode) 0) with rw := false }
        else m.entry row' page := by
  unfold setCodePages
  exact allocPages_eq (fun _ _ => rfl) (by decide) enough

theorem setUserPages_eq (row : TaskId)
    (enough : numPagData ≤ (freeFrames (m.setCodePages row).physMem).length) :
    freeFrames (m.setUserPages row).physMem =
        (freeFrames (m.setCodePages row).physMem).drop numPagData ∧
      (∀ f, (m.setUserPages row).physMem f =
        if f ∈ (freeFrames (m.setCodePages row).physMem).take numPagData then 1
        else (m.setCodePages row).physMem f) ∧
      ∀ row' page, page < totalPages → (m.setUserPages row).entry row' page =
        if row' = row ∧ pagLogInitData ≤ page ∧ page < pagLogInitData + numPagData then
          mapped ((freeFrames (m.setCodePages row).physMem).getD (page - pagLogInitData) 0)
        else (m.setCodePages row).entry row' page := by
  unfold setUserPages
  exact allocPages_eq (fun _ _ => rfl) (by decide) enough

/-! ## The search for a stack page -/

/-- The search finds an entry without a frame that is not before the one it starts with. -/
theorem findStackEntry_spec (m : Memory) (fuel index : Nat) :
    Ensures (fun entry => index ≤ entry ∧ (m.pagusrTable entry).pbaseAddr = 0)
      (m.findStackEntry fuel index) := by
  induction fuel generalizing index with
  | zero => exact .error _
  | succ fuel induction =>
      rw [findStackEntry]
      split
      · split
        · rename_i empty
          exact .ok ⟨le_rfl, empty⟩
        · exact (induction (index + 1)).mono fun entry found => ⟨by omega, found.2⟩
      · exact .error _

/-- A search that ends in the page table in which it starts finds a page without a frame. -/
theorem stackPage_eq {fuel first index : Nat} {content : PageTableEntry}
    (found : m.findStackEntry fuel (entryIndex row first) = .ok index)
    (own : index < entryIndex row totalPages)
    (tables : m'.pagusrTable = Function.update m.pagusrTable index content) :
    ∃ page, index = entryIndex row page ∧ first ≤ page ∧ page < totalPages ∧
      (m.entry row page).pbaseAddr = 0 ∧ ∀ row' page', page' < totalPages →
        m'.entry row' page' =
          if row' = row ∧ page' = page then content else m.entry row' page' := by
  obtain ⟨start, empty⟩ := findStackEntry_spec m _ _ _ found
  obtain ⟨page, rfl⟩ : ∃ page, index = entryIndex row page :=
    ⟨index - totalPages * row, by simp only [entryIndex] at start ⊢; omega⟩
  simp only [entryIndex] at start own
  have inside : page < totalPages := by omega
  refine ⟨page, rfl, by omega, inside, empty, fun row' page' inside' => ?_⟩
  rw [entry, tables, Function.update_apply]
  simp only [entryIndex_inj inside' inside]
  rfl

/-! ## Boot -/

/-- The entry of a kernel page that `init_table_pages` makes. -/
def kernelEntry (layout : Layout) (page : Nat) : PageTableEntry where
  present := decide (page ≠ layout.protectedTasks ∧ page ≠ layout.protectedTasks + 11)
  rw := true
  user := false
  pbaseAddr := BitVec.ofNat 20 page

theorem toNat_kernelEntry (layout : Layout) (inside : page < totalPages) :
    (kernelEntry layout page).pbaseAddr.toNat = page := by
  have sizes := pageConstants
  rw [kernelEntry, BitVec.toNat_ofNat]
  exact Nat.mod_eq_of_lt (by omega)

theorem entry_initTablePages (layout : Layout) (inside : page < totalPages) :
    (m.initTablePages layout).entry row page =
      if 1 ≤ page ∧ page < numPagKernel then kernelEntry layout page else .zero := by
  have bound : entryIndex row page < nrTasks * totalPages := by
    have rows := row.isLt
    simp only [entryIndex, nrTasks, totalPages] at rows inside ⊢
    omega
  have remainder : entryIndex row page % totalPages = page := by
    rw [entryIndex, Nat.mul_add_mod, Nat.mod_eq_of_lt inside]
  unfold entry initTablePages
  dsimp only
  rw [if_pos bound, remainder]
  rfl

/-- After `init_frames` every other frame above the kernel is one that `alloc_frame` finds. -/
theorem freeFrames_initFrames (m : Memory) :
    freeFrames m.initFrames.physMem =
      List.range' numPagKernel ((totalPages - numPagKernel) / 2) 2 := by
  have sizes := pageConstants
  rw [freeFrames]
  refine List.filter_eq_self.mpr fun f member => ?_
  obtain ⟨i, bound, rfl⟩ := List.mem_range'.mp member
  show decide ((if _ then _ else _ : Byte) = 0) = true
  rw [if_neg (by omega), if_pos (by omega)]
  rfl

/-- The frame of a page of a process after boot, counted from the first code page. -/
def bootFrame (k : Nat) : Nat := numPagKernel + 2 * k

theorem getD_range' {start count k : Nat} (inside : k < count) :
    (List.range' start count 2).getD k 0 = start + 2 * k := by
  rw [List.getD_eq_getElem?_getD, List.getElem?_range' inside]
  rfl

/-- The page tables and frames after boot. -/
theorem boot_eq (layout : Layout) (m : Memory) (row : TaskId) :
    (∀ f, numPagKernel ≤ f → f < totalPages →
        (((m.initTablePages layout).initFrames.setUserPages row).physMem f = 1 ↔
          ∃ k < numPagCode + numPagData, f = bootFrame k)) ∧
      ∀ row' page, page < totalPages →
        ((m.initTablePages layout).initFrames.setUserPages row).entry row' page =
          if row' = row ∧ pagLogInitData ≤ page ∧ page < pagLogInitData + numPagData then
            mapped (bootFrame (page - pagLogInitCode))
          else if row' = row ∧ pagLogInitCode ≤ page ∧ page < pagLogInitData then
            { mapped (bootFrame (page - pagLogInitCode)) with rw := false }
          else if 1 ≤ page ∧ page < numPagKernel then kernelEntry layout page
          else .zero := by
  have sizes := pageConstants
  have free := freeFrames_initFrames (m.initTablePages layout)
  obtain ⟨rest, frames, entries⟩ := setCodePages_eq row
    (m := (m.initTablePages layout).initFrames) (by rw [free, List.length_range']; decide)
  rw [free] at frames entries
  have left : freeFrames ((m.initTablePages layout).initFrames.setCodePages row).physMem =
      List.range' (numPagKernel + numPagCode * 2)
        ((totalPages - numPagKernel) / 2 - numPagCode) 2 := by
    rw [rest, free, List.drop_range']
  obtain ⟨_, frames', entries'⟩ := setUserPages_eq row
    (m := (m.initTablePages layout).initFrames) (by rw [left, List.length_range']; decide)
  rw [left] at frames' entries'
  refine ⟨fun f above physical => ?_, fun row' page inside => ?_⟩
  · have unused : (m.initTablePages layout).initFrames.physMem f = 0 := by
      unfold initFrames
      dsimp only
      rw [if_neg (by omega), if_pos physical]
    rw [frames' f, frames f, List.take_range'_of_length_ge (by decide),
      List.take_range'_of_length_ge (by decide), ← ite_or, unused, ite_eq_left_iff,
      eq_false (by decide : ¬(0 : Byte) = 1), imp_false, not_not]
    simp only [List.mem_range', bootFrame]
    constructor
    · rintro (⟨k, bound, rfl⟩ | ⟨k, bound, rfl⟩)
      · exact ⟨numPagCode + k, by omega, by omega⟩
      · exact ⟨k, by omega, rfl⟩
    · rintro ⟨k, bound, rfl⟩
      by_cases first : k < numPagCode
      · exact .inr ⟨k, first, rfl⟩
      · exact .inl ⟨k - numPagCode, by omega, by omega⟩
  · rw [entries' row' page inside, entries row' page inside]
    refine ite_congr rfl (fun reached => ?_) fun _ =>
      ite_congr (propext ?_) (fun reached => ?_) fun _ => entry_initTablePages layout inside
    · rw [getD_range' (by omega)]
      exact congrArg mapped (by simp only [bootFrame]; omega)
    · exact and_congr_right fun _ => by omega
    · rw [getD_range' (by omega)]
      rfl

end Memory

end Zeos
