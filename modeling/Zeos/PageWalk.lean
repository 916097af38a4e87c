import Zeos.Mmu
import Zeos.Observation

/-!
# Page tables in memory

The functions of `mm.c` on the words of `dir_pages` and `pagusr_table`, through which the processor
walks.
-/

namespace Zeos

open X86 (load store)
open Kernel (plainLayout)
open Mmu (Access Cells Rights rights)

/-- Where the linker puts both arrays: each in pages of its own. -/
structure Placement where
  dirPages : Word
  pagusrTable : Word
  aligned : dirPages.toNat % pageSize = 0 ∧ pagusrTable.toNat % pageSize = 0
  inside : dirPages.toNat + pageSize * nrTasks ≤ 2 ^ 32 ∧
    pagusrTable.toNat + pageSize * nrTasks ≤ 2 ^ 32
  apart : dirPages.toNat + pageSize * nrTasks ≤ pagusrTable.toNat ∨
    pagusrTable.toNat + pageSize * nrTasks ≤ dirPages.toNat

namespace Placement

def dirEntry (placement : Placement) (row : TaskId) (page : Nat) : Word :=
  placement.dirPages + BitVec.ofNat 32 (4 * entryIndex row page)

def tableEntry (placement : Placement) (row : TaskId) (page : Nat) : Word :=
  placement.pagusrTable + BitVec.ofNat 32 (4 * entryIndex row page)

end Placement

namespace Words

/-- An assignment to a bit field in memory. -/
def assign (field : Mmu.Field) (value addr : Word) (mem : X86.Memory) : X86.Memory :=
  store mem addr (field.assign value (load mem addr))

/-- A round of `init_dir_pages`. -/
def initDir (placement : Placement) (mem : X86.Memory) (i : TaskId) : X86.Memory :=
  let entry := placement.dirEntry i 0
  let mem := store mem entry 0
  let mem := assign Mmu.base (placement.tableEntry i 0 >>> 12) entry mem
  let mem := assign Mmu.user 1 entry mem
  let mem := assign Mmu.rw 1 entry mem
  assign Mmu.present 1 entry mem

/-- `init_dir_pages`. -/
def initDirPages (placement : Placement) (mem : X86.Memory) : X86.Memory :=
  (List.finRange nrTasks).foldl (initDir placement) mem

/-- The loop of `init_table_pages` that resets the entries of a row. -/
def resetRow (placement : Placement) (j : TaskId) (mem : X86.Memory) : X86.Memory :=
  (List.range totalPages).foldl (fun mem i => store mem (placement.tableEntry j i) 0) mem

/-- The loop of `init_table_pages` over the kernel pages. -/
def kernelRow (placement : Placement) (j : TaskId) (mem : X86.Memory) : X86.Memory :=
  (List.range' 1 (numPagKernel - 1)).foldl (fun mem i =>
    let entry := placement.tableEntry j i
    let mem := assign Mmu.base (BitVec.ofNat 32 i) entry mem
    let mem := assign Mmu.rw 1 entry mem
    assign Mmu.present 1 entry mem) mem

/-- A round of `init_table_pages`. -/
def initRow (placement : Placement) (layout : Layout) (mem : X86.Memory) (j : TaskId) :
    X86.Memory :=
  let mem := kernelRow placement j (resetRow placement j mem)
  let mem := assign Mmu.present 0 (placement.tableEntry j layout.protectedTasks) mem
  assign Mmu.present 0 (placement.tableEntry j (layout.protectedTasks + 11)) mem

/-- `init_table_pages`. -/
def initTablePages (placement : Placement) (layout : Layout) (mem : X86.Memory) : X86.Memory :=
  (List.finRange nrTasks).foldl (initRow placement layout) mem

/-- `get_PT`, of a page directory. -/
def getPT (mem : X86.Memory) (dir : Word) : Word :=
  ((load mem dir).extractLsb' 12 20).setWidth 32 <<< 12

/-- `set_ss_pag`. -/
def setSsPag (pt : Word) (page : Nat) (frame : Word) (mem : X86.Memory) : X86.Memory :=
  let entry := pt + BitVec.ofNat 32 (4 * page)
  let mem := store mem entry 0
  let mem := assign Mmu.base frame entry mem
  let mem := assign Mmu.user 1 entry mem
  let mem := assign Mmu.rw 1 entry mem
  assign Mmu.present 1 entry mem

/-- What `set_user_pages` does for a page of code. -/
def setCodePage (pt : Word) (page : Nat) (frame : Word) (mem : X86.Memory) : X86.Memory :=
  let entry := pt + BitVec.ofNat 32 (4 * page)
  let mem := store mem entry 0
  let mem := assign Mmu.base frame entry mem
  let mem := assign Mmu.user 1 entry mem
  assign Mmu.present 1 entry mem

/-- `del_ss_pag`. -/
def delSsPag (pt : Word) (page : Nat) (mem : X86.Memory) : X86.Memory :=
  store mem (pt + BitVec.ofNat 32 (4 * page)) 0

/-- `get_frame`. -/
def getFrame (pt : Word) (page : Nat) (mem : X86.Memory) : Nat :=
  ((load mem (pt + BitVec.ofNat 32 (4 * page))).extractLsb' 12 20).toNat

/-- The processor marks an entry that it has used. -/
def mark (entry : Word) (write : Bool) (mem : X86.Memory) : X86.Memory :=
  let mem := assign Mmu.accessed 1 entry mem
  if write then assign Mmu.dirty 1 entry mem else mem

end Words

/-- What changes the tables: the kernel's calls for a page of a process, and the processor. -/
inductive TableOp
  | setSsPag (row : TaskId) (page : Nat) (frame : Int)
  | setCodePage (row : TaskId) (page : Nat) (frame : Int)
  | delSsPag (row : TaskId) (page : Nat)
  | markPage (row : TaskId) (page : Nat) (write : Bool)
  | markDirectory (row : TaskId)

namespace TableOp

/-- The page belongs to the table, or to the next one. -/
def Inside : TableOp → Prop
  | setSsPag row page _ | setCodePage row page _ | delSsPag row page | markPage row page _ =>
      entryIndex row page < nrTasks * totalPages
  | markDirectory _ => True

/-- The operation on the words in memory, with `get_PT` of the process. -/
def perform (placement : Placement) (mem : X86.Memory) : TableOp → X86.Memory
  | setSsPag row page frame => Words.setSsPag (Words.getPT mem (placement.dirEntry row 0)) page
      (BitVec.ofInt 32 frame) mem
  | setCodePage row page frame => Words.setCodePage (Words.getPT mem (placement.dirEntry row 0))
      page (BitVec.ofInt 32 frame) mem
  | delSsPag row page => Words.delSsPag (Words.getPT mem (placement.dirEntry row 0)) page mem
  | markPage row page write => Words.mark (placement.tableEntry row page) write mem
  | markDirectory row => Words.mark (placement.dirEntry row 0) false mem

/-- The operation on the table of entries. -/
def model (m : Memory) : TableOp → Memory
  | setSsPag row page frame => m.setSsPag row page frame
  | setCodePage row page frame => m.setEntry (entryIndex row page)
      { present := true, rw := false, user := true, pbaseAddr := BitVec.ofInt 20 frame }
  | delSsPag row page => m.delSsPag row page
  | markPage _ _ _ | markDirectory _ => m

end TableOp

/-- What an entry lets pass. -/
def PageTableEntry.rights (entry : PageTableEntry) : Rights :=
  ⟨entry.present, entry.rw, entry.user, entry.pbaseAddr⟩

/-- The physical address behind an address, for an access of the kernel or the user. -/
def Memory.reach (m : Memory) (row : TaskId) (access : Access) (addr : Word) : Option Word :=
  let entry := m.pagusrTable (entryIndex row (addr.toNat / pageSize))
  if addr.toNat / pageSize < totalPages ∧ entry.rights.permits access then
    some (entry.pbaseAddr ++ addr.setWidth 12)
  else none

variable {placement : Placement} {mem : X86.Memory} {dir : Nat → Word} {f : Nat → Rights}
  {m : Memory} {row : TaskId} {index page : Nat} {value : Word} {field : Mmu.Field}

/-! ## The words of both arrays -/

theorem entryIndex_lt (row : TaskId) (inside : page < totalPages) :
    entryIndex row page < nrTasks * totalPages := by
  have bound := row.isLt
  simp only [entryIndex, nrTasks, totalPages] at *
  omega

/-- The words of `dir_pages`, and what the entries of `pagusr_table` let pass. -/
structure Entries (placement : Placement) (mem : X86.Memory) (dir : Nat → Word)
    (f : Nat → Rights) : Prop where
  dirCells : Cells mem placement.dirPages (nrTasks * totalPages) dir
  tableCells : ∃ table, Cells mem placement.pagusrTable (nrTasks * totalPages) table ∧
    ∀ index < nrTasks * totalPages, rights (table index) = f index

namespace Entries

/-- A store to an entry of a page table. -/
theorem store (entries : Entries placement mem dir f) (bound : index < nrTasks * totalPages)
    (value : Word) : Entries placement
      (X86.store mem (placement.pagusrTable + BitVec.ofNat 32 (4 * index)) value) dir
      (Function.update f index (rights value)) := by
  obtain ⟨dirCells, table, tableCells, same⟩ := entries
  have place := tableCells.toNat_cell bound
  have inside := placement.inside
  have apart := placement.apart
  simp only [nrTasks, totalPages, pageSize] at *
  refine ⟨dirCells.store_outside (by omega) (by omega), _, tableCells.store_cell bound,
    fun index' bound' => ?_⟩
  by_cases here : index' = index
  · rw [here, Function.update_self, Function.update_self]
  · rw [Function.update_of_ne here, Function.update_of_ne here, same index' bound']

/-- An assignment to a bit field of an entry. -/
theorem assign (entries : Entries placement mem dir f) (bound : index < nrTasks * totalPages)
    (effect : Rights → Rights)
    (effect_eq : ∀ entry, rights (field.assign value entry) = effect (rights entry)) :
    Entries placement
      (Words.assign field value (placement.pagusrTable + BitVec.ofNat 32 (4 * index)) mem) dir
      (Function.update f index (effect (f index))) := by
  obtain ⟨table, tableCells, same⟩ := entries.tableCells
  rw [← same index bound, ← effect_eq, ← tableCells.word index bound]
  exact entries.store bound _

/-- An assignment that makes no difference for accesses. -/
theorem assign_same (entries : Entries placement mem dir f) (bound : index < nrTasks * totalPages)
    (same : ∀ entry, rights (field.assign value entry) = rights entry) : Entries placement
      (Words.assign field value (placement.pagusrTable + BitVec.ofNat 32 (4 * index)) mem) dir
      f := by
  have kept := entries.assign bound id same
  rwa [id, Function.update_eq_self] at kept

theorem assign_base (entries : Entries placement mem dir f)
    (bound : index < nrTasks * totalPages) (value : Word) : Entries placement
      (Words.assign Mmu.base value (placement.pagusrTable + BitVec.ofNat 32 (4 * index)) mem) dir
      (Function.update f index { f index with frame := value.setWidth 20 }) :=
  entries.assign bound (fun old => { old with frame := value.setWidth 20 }) fun _ => Mmu.rights_base

theorem assign_user (entries : Entries placement mem dir f)
    (bound : index < nrTasks * totalPages) : Entries placement
      (Words.assign Mmu.user 1 (placement.pagusrTable + BitVec.ofNat 32 (4 * index)) mem) dir
      (Function.update f index { f index with user := true }) :=
  entries.assign bound (fun old => { old with user := true }) fun _ => Mmu.rights_user

theorem assign_rw (entries : Entries placement mem dir f)
    (bound : index < nrTasks * totalPages) : Entries placement
      (Words.assign Mmu.rw 1 (placement.pagusrTable + BitVec.ofNat 32 (4 * index)) mem) dir
      (Function.update f index { f index with rw := true }) :=
  entries.assign bound (fun old => { old with rw := true }) fun _ => Mmu.rights_rw

theorem assign_present (entries : Entries placement mem dir f)
    (bound : index < nrTasks * totalPages) (value : Word) : Entries placement
      (Words.assign Mmu.present value (placement.pagusrTable + BitVec.ofNat 32 (4 * index)) mem) dir
      (Function.update f index { f index with present := value.getLsbD 0 }) :=
  entries.assign bound (fun old => { old with present := value.getLsbD 0 })
    fun _ => Mmu.rights_present

/-- A store to an entry of a page directory. -/
theorem store_dir (entries : Entries placement mem dir f) (bound : index < nrTasks * totalPages)
    (value : Word) :
    Entries placement (X86.store mem (placement.dirPages + BitVec.ofNat 32 (4 * index)) value)
      (Function.update dir index value) f := by
  obtain ⟨dirCells, table, tableCells, same⟩ := entries
  have place := dirCells.toNat_cell bound
  have inside := placement.inside
  have apart := placement.apart
  simp only [nrTasks, totalPages, pageSize] at *
  exact ⟨dirCells.store_cell bound, table, tableCells.store_outside (by omega) (by omega), same⟩

theorem assign_dir (entries : Entries placement mem dir f) (bound : index < nrTasks * totalPages)
    (field : Mmu.Field) (value : Word) : Entries placement
      (Words.assign field value (placement.dirPages + BitVec.ofNat 32 (4 * index)) mem)
      (Function.update dir index (field.assign value (dir index))) f := by
  rw [← entries.dirCells.word index bound]
  exact entries.store_dir bound _

end Entries

/-- The first entry of each directory leads to the table of its row, and there are no others. -/
structure Directories (placement : Placement) (dir : Nat → Word) : Prop where
  first : ∀ row, rights (dir (entryIndex row 0)) =
    ⟨true, true, true, (placement.tableEntry row 0).extractLsb' 12 20⟩
  others : ∀ row page, 0 < page → page < totalPages →
    (rights (dir (entryIndex row page))).present = false

theorem toNat_tableEntry (placement : Placement) (row : TaskId) :
    (placement.tableEntry row 0).toNat = placement.pagusrTable.toNat + pageSize * row := by
  have inside := placement.inside
  have bound := row.isLt
  simp only [Placement.tableEntry, entryIndex, nrTasks, totalPages, pageSize] at *
  rw [X86.toNat_advance _ _ (by omega)]
  omega

theorem tableEntry_add (placement : Placement) (row : TaskId) (page : Nat) :
    placement.tableEntry row 0 + BitVec.ofNat 32 (4 * page) = placement.tableEntry row page := by
  rw [Placement.tableEntry, Placement.tableEntry, BitVec.add_assoc, ← BitVec.ofNat_add,
    ← Nat.mul_add, entryIndex, entryIndex, Nat.add_zero]

/-- `get_PT` finds the table of the row. -/
theorem getPT_eq (entries : Entries placement mem dir f) (directories : Directories placement dir)
    (row : TaskId) : Words.getPT mem (placement.dirEntry row 0) = placement.tableEntry row 0 := by
  have found := entries.dirCells.word _ (entryIndex_lt row (by decide : 0 < totalPages))
  have frame := congrArg Rights.frame (directories.first row)
  have aligned := placement.aligned.2
  have place := toNat_tableEntry placement row
  rw [Words.getPT, Placement.dirEntry, found]
  rw [show (dir (entryIndex row 0)).extractLsb' 12 20 = _ from frame]
  exact Mmu.page_of_frame (by simp only [pageSize] at *; omega)

theorem rights_setEntry (m : Memory) (index : Nat) (entry : PageTableEntry) :
    (fun i => ((m.setEntry index entry).pagusrTable i).rights) =
      Function.update (fun i => (m.pagusrTable i).rights) index entry.rights := by
  funext i
  rw [Memory.setEntry]
  dsimp only
  rw [Function.update_apply, Function.update_apply]
  split <;> rfl

/-! ## The operations -/

/-- The words in memory stand for the table of entries. -/
def TablesIn (placement : Placement) (mem : X86.Memory) (m : Memory) : Prop :=
  ∃ dir, Entries placement mem dir (fun i => (m.pagusrTable i).rights) ∧ Directories placement dir

theorem setWidth_ofInt (frame : Int) :
    (BitVec.ofInt 32 frame).setWidth 20 = BitVec.ofInt 20 frame := by
  refine BitVec.eq_of_toNat_eq ?_
  rw [BitVec.toNat_setWidth, BitVec.toNat_ofInt, BitVec.toNat_ofInt]
  omega

namespace Entries

theorem setSsPag (entries : Entries placement mem dir f)
    (bound : entryIndex row page < nrTasks * totalPages) (frame : Int) :
    Entries placement
      (Words.setSsPag (placement.tableEntry row 0) page (BitVec.ofInt 32 frame) mem) dir
      (Function.update f (entryIndex row page) ⟨true, true, true, BitVec.ofInt 20 frame⟩) := by
  have based := (entries.store bound 0).assign_base bound (BitVec.ofInt 32 frame)
  have done := ((based.assign_user bound).assign_rw bound).assign_present bound 1
  simp only [Function.update_self, Function.update_idem, setWidth_ofInt] at done
  rw [Words.setSsPag, tableEntry_add]
  exact done

theorem setCodePage (entries : Entries placement mem dir f)
    (bound : entryIndex row page < nrTasks * totalPages) (frame : Int) :
    Entries placement
      (Words.setCodePage (placement.tableEntry row 0) page (BitVec.ofInt 32 frame) mem) dir
      (Function.update f (entryIndex row page) ⟨true, false, true, BitVec.ofInt 20 frame⟩) := by
  have based := (entries.store bound 0).assign_base bound (BitVec.ofInt 32 frame)
  have done := (based.assign_user bound).assign_present bound 1
  simp only [Function.update_self, Function.update_idem, setWidth_ofInt] at done
  rw [Words.setCodePage, tableEntry_add]
  exact done

theorem delSsPag (entries : Entries placement mem dir f)
    (bound : entryIndex row page < nrTasks * totalPages) :
    Entries placement (Words.delSsPag (placement.tableEntry row 0) page mem) dir
      (Function.update f (entryIndex row page) PageTableEntry.zero.rights) := by
  rw [Words.delSsPag, tableEntry_add]
  exact entries.store bound 0

theorem mark (entries : Entries placement mem dir f)
    (bound : entryIndex row page < nrTasks * totalPages) (write : Bool) :
    Entries placement (Words.mark (placement.tableEntry row page) write mem) dir f := by
  cases write with
  | false => exact entries.assign_same bound fun _ => Mmu.rights_accessed
  | true =>
      exact (entries.assign_same bound fun _ => Mmu.rights_accessed).assign_same bound
        fun _ => Mmu.rights_dirty

end Entries

/-- The processor's marks do not change a directory. -/
theorem Directories.mark (directories : Directories placement dir) (index : Nat) :
    Directories placement
      (Function.update dir index (Mmu.accessed.assign 1 (dir index))) where
  first row := by
    rw [Function.update_apply]
    split_ifs with here
    · rw [Mmu.rights_accessed, ← here]
      exact directories.first row
    · exact directories.first row
  others row page positive inside := by
    rw [Function.update_apply]
    split_ifs with here
    · rw [Mmu.rights_accessed, ← here]
      exact directories.others row page positive inside
    · exact directories.others row page positive inside

/-- An operation on the words in memory is the one on the table of entries. -/
theorem TablesIn.perform (tables : TablesIn placement mem m) {op : TableOp}
    (inside : op.Inside) : TablesIn placement (op.perform placement mem) (op.model m) := by
  obtain ⟨dir, entries, directories⟩ := tables
  have found := getPT_eq entries directories
  cases op with
  | setSsPag row page frame =>
      refine ⟨dir, ?_, directories⟩
      rw [TableOp.perform, found, TableOp.model, Memory.setSsPag, rights_setEntry]
      exact entries.setSsPag inside frame
  | setCodePage row page frame =>
      refine ⟨dir, ?_, directories⟩
      rw [TableOp.perform, found, TableOp.model, rights_setEntry]
      exact entries.setCodePage inside frame
  | delSsPag row page =>
      refine ⟨dir, ?_, directories⟩
      rw [TableOp.perform, found, TableOp.model, Memory.delSsPag, rights_setEntry]
      exact entries.delSsPag inside
  | markPage row page write => exact ⟨dir, entries.mark inside write, directories⟩
  | markDirectory row =>
      exact ⟨_, entries.assign_dir (entryIndex_lt row (by decide)) _ _, directories.mark _⟩

theorem TablesIn.foldl {ops : List TableOp} (tables : TablesIn placement mem m)
    (inside : ∀ op ∈ ops, op.Inside) :
    TablesIn placement (ops.foldl (TableOp.perform placement) mem)
      (ops.foldl TableOp.model m) := by
  induction ops generalizing mem m with
  | nil => exact tables
  | cons op ops induction =>
      exact induction (tables.perform (inside op List.mem_cons_self))
        fun op member => inside op (List.mem_cons_of_mem _ member)

/-! ## The walk -/

/-- The processor reaches what the table of entries says. -/
theorem TablesIn.walk_eq (tables : TablesIn placement mem m) (row : TaskId)
    (access : Access) (addr : Word) :
    Mmu.walk mem (placement.dirEntry row 0) access addr = m.reach row access addr := by
  obtain ⟨dir, ⟨dirCells, table, tableCells, same⟩, directories⟩ := tables
  have bound := addr.isLt
  have entry_add : ∀ (first : Word) (page : Nat), first + BitVec.ofNat 32 (4 * entryIndex row 0) +
      BitVec.ofNat 32 (4 * page) = first + BitVec.ofNat 32 (4 * entryIndex row page) := by
    intro first page
    rw [BitVec.add_assoc, ← BitVec.ofNat_add, ← Nat.mul_add, entryIndex, entryIndex, Nat.add_zero]
  have high : (addr >>> 22).toNat = addr.toNat / 2 ^ 22 := by
    rw [BitVec.toNat_ushiftRight, Nat.shiftRight_eq_div_pow]
  have middle : (addr >>> 12 &&& 0x3ff).toNat = addr.toNat / 2 ^ 12 % 2 ^ 10 := by
    rw [BitVec.toNat_and, BitVec.toNat_ushiftRight, Nat.shiftRight_eq_div_pow]
    exact Nat.and_two_pow_sub_one_eq_mod _ 10
  have inside : addr.toNat / 2 ^ 22 < totalPages := by
    simp only [totalPages]
    omega
  have pde := dirCells.word _ (entryIndex_lt row inside)
  rw [Mmu.walk, Memory.reach, high, middle, Placement.dirEntry, entry_add, pde]
  by_cases small : addr.toNat / 2 ^ 22 = 0
  · have page : addr.toNat / pageSize < totalPages := by
      simp only [pageSize, totalPages]
      omega
    have same_page : addr.toNat / 2 ^ 12 % 2 ^ 10 = addr.toNat / pageSize := by
      simp only [pageSize]
      omega
    have aligned : (placement.tableEntry row 0).toNat % 4096 = 0 := by
      have first := placement.aligned.2
      rw [toNat_tableEntry]
      simp only [pageSize] at *
      omega
    have pte := tableCells.word _ (entryIndex_lt row page)
    rw [small, directories.first row, if_pos (Rights.permits_all _ _)]
    simp only [Mmu.frame_append, Mmu.page_of_frame aligned]
    rw [same_page, tableEntry_add, Placement.tableEntry, pte, same _ (entryIndex_lt row page)]
    exact if_congr (by rw [and_iff_right page]) rfl rfl
  · have absent := directories.others row _ (Nat.pos_of_ne_zero small) inside
    rw [Rights.permits_absent absent, if_neg Bool.false_ne_true, if_neg]
    simp only [pageSize, totalPages]
    omega

/-! ## The first tables -/

/-- What the entry of a page lets pass after `init_table_pages`. -/
def firstRights (layout : Layout) (page : Nat) : Rights :=
  if 1 ≤ page ∧ page < numPagKernel then
    ⟨decide (page ≠ layout.protectedTasks ∧ page ≠ layout.protectedTasks + 11), true, false,
      BitVec.ofNat 20 page⟩
  else PageTableEntry.zero.rights

namespace Entries

theorem congr {g : Nat → Rights} (entries : Entries placement mem dir f)
    (same : ∀ i < nrTasks * totalPages, f i = g i) : Entries placement mem dir g := by
  obtain ⟨dirCells, table, tableCells, found⟩ := entries
  exact ⟨dirCells, table, tableCells, fun i bound => (found i bound).trans (same i bound)⟩

/-- A loop over the entries of a row. -/
theorem foldl_pages (row : TaskId) (step : X86.Memory → Nat → X86.Memory)
    (effect : Nat → Rights → Rights)
    (each : ∀ {mem f page}, Entries placement mem dir f → page < totalPages →
      Entries placement (step mem page) dir
        (Function.update f (entryIndex row page) (effect page (f (entryIndex row page)))))
    {pages : List Nat} (nodup : pages.Nodup) (inside : ∀ page ∈ pages, page < totalPages)
    (entries : Entries placement mem dir f) :
    Entries placement (pages.foldl step mem) dir fun i =>
      if i / totalPages = row ∧ i % totalPages ∈ pages then effect (i % totalPages) (f i)
      else f i := by
  induction pages generalizing mem f with
  | nil => exact entries.congr fun i _ => (if_neg (by simp)).symm
  | cons page pages induction =>
      obtain ⟨fresh, nodup⟩ := List.nodup_cons.mp nodup
      have below := inside page List.mem_cons_self
      refine (induction nodup (fun other member => inside other (List.mem_cons_of_mem _ member))
        (each entries below)).congr fun i _ => ?_
      by_cases here : i = entryIndex row page
      · have place : i / totalPages = row ∧ i % totalPages = page := by
          simp only [here, entryIndex, totalPages] at *
          omega
        rw [if_neg (by rw [place.2]; exact fun found => fresh found.2),
          if_pos ⟨place.1, by rw [place.2]; exact List.mem_cons_self⟩, here, Function.update_self,
          ← here, place.2]
      · have other : ¬(i / totalPages = row ∧ i % totalPages = page) := by
          simp only [entryIndex, totalPages] at *
          omega
        rw [Function.update_of_ne here]
        refine if_congr ?_ rfl rfl
        rw [List.mem_cons]
        grind

theorem resetRow (entries : Entries placement mem dir f) :
    Entries placement (Words.resetRow placement row mem) dir fun i =>
      if i / totalPages = row then PageTableEntry.zero.rights else f i := by
  refine (entries.foldl_pages row _ (fun _ _ => PageTableEntry.zero.rights)
    (fun entries below => entries.store (entryIndex_lt row below) 0) List.nodup_range
    fun _ member => List.mem_range.mp member).congr fun i _ => ?_
  have below : i % totalPages ∈ List.range totalPages :=
    List.mem_range.mpr (Nat.mod_lt i (by decide))
  exact if_congr (and_iff_left below) rfl rfl

theorem kernelRow (entries : Entries placement mem dir f) :
    Entries placement (Words.kernelRow placement row mem) dir fun i =>
      if i / totalPages = row ∧ 1 ≤ i % totalPages ∧ i % totalPages < numPagKernel then
        ⟨true, true, (f i).user, BitVec.ofNat 20 (i % totalPages)⟩
      else f i := by
  have short : ∀ page, (BitVec.ofNat 32 page).setWidth 20 = BitVec.ofNat 20 page :=
    fun page => BitVec.setWidth_ofNat_of_le (by decide) page
  refine (entries.foldl_pages row _ (fun page old => ⟨true, true, old.user, BitVec.ofNat 20 page⟩)
    (fun {mem f page} entries below => ?_) List.nodup_range' fun page member => ?_).congr
      fun i _ => ?_
  · have bound := entryIndex_lt row below
    have done := ((entries.assign_base bound (BitVec.ofNat 32 page)).assign_rw bound).assign_present
      bound 1
    simp only [Function.update_self, Function.update_idem, short] at done
    exact done
  · have range := List.mem_range'_1.mp member
    simp only [numPagKernel, totalPages] at *
    omega
  · refine if_congr (and_congr_right fun _ => ?_) rfl rfl
    rw [List.mem_range'_1]
    exact Iff.rfl

theorem assign_absent (entries : Entries placement mem dir f)
    (bound : index < nrTasks * totalPages) : Entries placement
      (Words.assign Mmu.present 0 (placement.pagusrTable + BitVec.ofNat 32 (4 * index)) mem) dir
      fun i => if i = index then { f i with present := false } else f i := by
  refine (entries.assign_present bound 0).congr fun i _ => ?_
  rw [Function.update_apply]
  split_ifs with here
  · rw [here]
    rfl
  · rfl

/-- A round of `init_table_pages`. -/
theorem initRow (layout : Layout) (guarded : layout.protectedTasks + 11 < totalPages)
    (entries : Entries placement mem dir f) : Entries placement
      (Words.initRow placement layout mem row) dir fun i =>
        if i / totalPages = row then firstRights layout (i % totalPages) else f i := by
  have first := entryIndex_lt row (Nat.lt_of_le_of_lt (Nat.le_add_right _ _) guarded)
  have last := entryIndex_lt row guarded
  refine ((entries.resetRow.kernelRow.assign_absent first).assign_absent last).congr fun i _ => ?_
  have place : ∀ page, page < totalPages →
      (i = entryIndex row page ↔ i / totalPages = row ∧ i % totalPages = page) := by
    intro page below
    simp only [entryIndex, totalPages] at *
    omega
  have lastPlace := place _ guarded
  have firstPlace := place _ (Nat.lt_of_le_of_lt (Nat.le_add_right _ _) guarded)
  simp only [lastPlace, firstPlace, firstRights]
  by_cases here : i / totalPages = row
  · simp only [here, true_and, if_true]
    split_ifs <;> simp_all [PageTableEntry.rights, PageTableEntry.zero]
  · simp only [here, false_and, if_false]

theorem foldl_rows (layout : Layout) (guarded : layout.protectedTasks + 11 < totalPages)
    {rows : List TaskId} (entries : Entries placement mem dir f) : Entries placement
      (rows.foldl (Words.initRow placement layout) mem) dir fun i =>
        if ∃ row ∈ rows, i / totalPages = (row : Nat) then firstRights layout (i % totalPages)
        else f i := by
  induction rows generalizing mem f with
  | nil => exact entries.congr fun i _ => (if_neg (by simp)).symm
  | cons row rows induction =>
      refine (induction (entries.initRow layout guarded)).congr fun i _ => ?_
      simp only [List.mem_cons, exists_eq_or_imp]
      by_cases later : ∃ row ∈ rows, i / totalPages = (row : Nat)
      · rw [if_pos later, if_pos (.inr later)]
      · rw [if_neg later]
        exact if_congr (or_iff_left later).symm rfl rfl

/-- `init_table_pages` on the words is the one on the table of entries. -/
theorem initTablePages (layout : Layout) (guarded : layout.protectedTasks + 11 < totalPages)
    (m : Memory) (entries : Entries placement mem dir f) : Entries placement
      (Words.initTablePages placement layout mem) dir fun i =>
        ((m.initTablePages layout).pagusrTable i).rights := by
  refine (entries.foldl_rows layout guarded).congr fun i bound => ?_
  have row : i / totalPages < nrTasks := by
    simp only [nrTasks, totalPages] at *
    omega
  rw [if_pos ⟨⟨i / totalPages, row⟩, List.mem_finRange _, rfl⟩, Memory.initTablePages]
  dsimp only
  rw [if_pos bound, firstRights]
  split_ifs <;> rfl

end Entries

/-! ## The first directories -/

/-- The entry leads to the table of its row. -/
def LeadsToTable (placement : Placement) (dir : Nat → Word) (row : TaskId) : Prop :=
  rights (dir (entryIndex row 0)) =
    ⟨true, true, true, (placement.tableEntry row 0).extractLsb' 12 20⟩

/-- A round of `init_dir_pages`. -/
theorem Entries.initDir (entries : Entries placement mem dir f) (row : TaskId) :
    ∃ entry, rights entry = ⟨true, true, true, (placement.tableEntry row 0).extractLsb' 12 20⟩ ∧
      Entries placement (Words.initDir placement mem row)
        (Function.update dir (entryIndex row 0) entry) f := by
  have bound := entryIndex_lt row (by decide : 0 < totalPages)
  have based := (entries.store_dir bound 0).assign_dir bound Mmu.base
    (placement.tableEntry row 0 >>> 12)
  have done := ((based.assign_dir bound Mmu.user 1).assign_dir bound Mmu.rw 1).assign_dir bound
    Mmu.present 1
  simp only [Function.update_self, Function.update_idem] at done
  refine ⟨_, ?_, done⟩
  rw [Mmu.rights_present, Mmu.rights_rw, Mmu.rights_user, Mmu.rights_base,
    BitVec.setWidth_ushiftRight_eq_extractLsb]
  rfl

/-- `init_dir_pages`. -/
theorem Entries.foldl_dirs (entries : Entries placement mem dir f) (rows : List TaskId)
    (others : ∀ row page, 0 < page → page < totalPages →
      (rights (dir (entryIndex row page))).present = false) :
    ∃ dir', Entries placement (rows.foldl (Words.initDir placement) mem) dir' f ∧
      (∀ row page, 0 < page → page < totalPages →
        (rights (dir' (entryIndex row page))).present = false) ∧
      ∀ row, row ∈ rows ∨ LeadsToTable placement dir row → LeadsToTable placement dir' row := by
  induction rows generalizing mem dir with
  | nil => exact ⟨dir, entries, others, by simp⟩
  | cons row rows induction =>
      obtain ⟨entry, made, written⟩ := entries.initDir row
      have apart : ∀ row' page, 0 < page → page < totalPages →
          entryIndex row' page ≠ entryIndex row 0 := by
        intro row' page positive inside
        simp only [entryIndex, totalPages] at *
        omega
      obtain ⟨dir', folded, others', leads⟩ := induction written fun row' page positive inside => by
        rw [Function.update_of_ne (apart row' page positive inside)]
        exact others row' page positive inside
      refine ⟨dir', folded, others', fun row' found => leads row' ?_⟩
      rw [LeadsToTable, Function.update_apply]
      by_cases here : row' = row
      · rw [here, if_pos rfl]
        exact .inr made
      · have distinct : entryIndex row' 0 ≠ entryIndex row 0 := fun same => here (Fin.ext (by
          simp only [entryIndex, totalPages] at same
          omega))
        rw [if_neg distinct]
        exact found.imp_left fun member => (List.mem_cons.mp member).resolve_left here

theorem cells_load {addr : Word} {count : Nat} (inside : addr.toNat + 4 * count ≤ 2 ^ 32) :
    Cells mem addr count fun i => load mem (addr + BitVec.ofNat 32 (4 * i)) :=
  ⟨inside, fun _ _ => rfl⟩

/-- After both initialisations the words stand for the tables. -/
theorem tablesIn_init (placement : Placement) (layout : Layout)
    (guarded : layout.protectedTasks + 11 < totalPages) (mem : X86.Memory) (m : Memory)
    (cleared : ∀ row page, page < totalPages → load mem (placement.dirEntry row page) = 0) :
    TablesIn placement
      (Words.initDirPages placement (Words.initTablePages placement layout mem))
      (m.initTablePages layout) := by
  have inside := placement.inside
  simp only [nrTasks, pageSize] at inside
  have entries : Entries placement mem _ _ :=
    ⟨cells_load (by simp only [nrTasks, totalPages]; omega), _,
      cells_load (by simp only [nrTasks, totalPages]; omega), fun _ _ => rfl⟩
  obtain ⟨dir, done, others, leads⟩ := (entries.initTablePages layout guarded m).foldl_dirs
    (List.finRange nrTasks) fun row page _ below => by
      have zero := cleared row page below
      rw [Placement.dirEntry] at zero
      rw [zero]
      exact congrArg Rights.present Mmu.rights_zero
  exact ⟨dir, done, fun row => leads row (.inl (List.mem_finRange row)), others⟩

/-- The kernel's own accesses. -/
theorem reach_supervisor (m : Memory) (row : TaskId) (write : Bool) (addr : Word) :
    m.reach row ⟨false, write⟩ addr =
      (m.translate row addr.toNat).toOption.map (BitVec.ofNat 32) := by
  have permits : (m.pagusrTable (entryIndex row (addr.toNat / pageSize))).rights.permits
      ⟨false, write⟩ = (m.pagusrTable (entryIndex row (addr.toNat / pageSize))).present :=
    Bool.and_true _
  have place (frame : BitVec 20) : (frame ++ addr.setWidth 12 : Word) =
      BitVec.ofNat 32 (frame.toNat * pageSize + addr.toNat % pageSize) := by
    have bound := frame.isLt
    have digit := Nat.mod_lt addr.toNat (show 0 < 2 ^ 12 by decide)
    refine BitVec.eq_of_toNat_eq ?_
    rw [BitVec.toNat_append, BitVec.toNat_setWidth, ← Nat.shiftLeft_add_eq_or_of_lt digit,
      Nat.shiftLeft_eq, BitVec.toNat_ofNat]
    simp only [pageSize]
    omega
  simp only [Memory.reach, Memory.translate, Memory.frameOf, permits]
  split_ifs with found
  · rw [place]
    rfl
  · rfl

/-- Through the words that `init_table_pages`, `init_dir_pages` and any sequence of later changes
leave in memory, with the marks of the processor in between, the walk of the processor from the
directory of a process reaches what the table of entries says: for the kernel, what `translate`
gives. -/
theorem walk_of_operations (placement : Placement) (layout : Layout)
    (guarded : layout.protectedTasks + 11 < totalPages) (mem : X86.Memory) (m : Memory)
    (cleared : ∀ row page, page < totalPages → load mem (placement.dirEntry row page) = 0)
    (ops : List TableOp) (inside : ∀ op ∈ ops, op.Inside) (row : TaskId) (addr : Word) :
    (∀ access, Mmu.walk (ops.foldl (TableOp.perform placement)
        (Words.initDirPages placement (Words.initTablePages placement layout mem)))
        (placement.dirEntry row 0) access addr =
      (ops.foldl TableOp.model (m.initTablePages layout)).reach row access addr) ∧
    ∀ write, Mmu.walk (ops.foldl (TableOp.perform placement)
        (Words.initDirPages placement (Words.initTablePages placement layout mem)))
        (placement.dirEntry row 0) ⟨false, write⟩ addr =
      ((ops.foldl TableOp.model (m.initTablePages layout)).translate row
        addr.toNat).toOption.map (BitVec.ofNat 32) := by
  have tables := (tablesIn_init placement layout guarded mem m cleared).foldl inside
  refine ⟨fun access => tables.walk_eq row access addr, fun write => ?_⟩
  rw [tables.walk_eq, reach_supervisor]

/-- Both arrays after the first 128 kB. -/
def lowPlacement : Placement where
  dirPages := 0x20000
  pagusrTable := 0x30000
  aligned := by decide
  inside := by decide
  apart := by decide

/-- The user writes to a stack page that the kernel has mapped, and the processor marks it. -/
theorem walk_of_operations_stack :
    Mmu.walk ([TableOp.setSsPag 1 284 320, .markPage 1 284 true, .markDirectory 1].foldl
        (TableOp.perform lowPlacement) (Words.initDirPages lowPlacement
          (Words.initTablePages lowPlacement plainLayout fun _ => 0)))
      (lowPlacement.dirEntry 1 0) ⟨true, true⟩ 0x11c123 = some 0x140123 := by
  have zero : ∀ row page, page < totalPages → load (fun _ => 0) (lowPlacement.dirEntry row page) =
      0 := fun _ _ _ => by
    rw [load]
    decide
  have inside : ∀ op ∈ [TableOp.setSsPag 1 284 320, .markPage 1 284 true, .markDirectory 1],
      op.Inside := by
    intro op member
    simp only [List.mem_cons, List.not_mem_nil, or_false] at member
    rcases member with rfl | rfl | rfl
    · exact (by decide : entryIndex 1 284 < nrTasks * totalPages)
    · exact (by decide : entryIndex 1 284 < nrTasks * totalPages)
    · trivial
  exact ((walk_of_operations lowPlacement plainLayout (by decide) _
    ⟨fun _ => 0, fun _ => .zero, fun _ => 0⟩ zero _ inside 1 0x11c123).1 ⟨true, true⟩).trans rfl

end Zeos
