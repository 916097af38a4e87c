import Zeos.X86

/-!
# Paging in hardware

Arrays of words in memory, the bit fields of the entries of page directories and page tables, and
the walk of the processor through the two levels.
-/

namespace Mmu

open X86 (Word Byte Memory load store)

/-! ## Arrays of words -/

/-- The words of an array at an address. -/
structure Cells (mem : Memory) (addr : Word) (count : Nat) (words : Nat → Word) : Prop where
  inside : addr.toNat + 4 * count ≤ 2 ^ 32
  word : ∀ i < count, load mem (addr + BitVec.ofNat 32 (4 * i)) = words i

namespace Cells

variable {mem : Memory} {addr a value : Word} {count i : Nat} {words : Nat → Word}

theorem toNat_cell (cells : Cells mem addr count words) (bound : i < count) :
    (addr + BitVec.ofNat 32 (4 * i)).toNat = addr.toNat + 4 * i := by
  have inside := cells.inside
  exact X86.toNat_advance addr (4 * i) (by omega)

theorem store_cell (cells : Cells mem addr count words) (bound : i < count) :
    Cells (store mem (addr + BitVec.ofNat 32 (4 * i)) value) addr count
      (Function.update words i value) where
  inside := cells.inside
  word j bound' := by
    by_cases same : j = i
    · rw [same, X86.load_store_same, Function.update_self]
    · have cell := cells.toNat_cell bound
      have cell' := cells.toNat_cell bound'
      have inside := cells.inside
      rw [Function.update_of_ne same, ← cells.word j bound']
      exact X86.load_congr (by omega) fun b above below =>
        X86.store_other (by omega) (by omega)

theorem store_outside (cells : Cells mem addr count words) (room : a.toNat + 4 ≤ 2 ^ 32)
    (apart : a.toNat + 4 ≤ addr.toNat ∨ addr.toNat + 4 * count ≤ a.toNat) :
    Cells (store mem a value) addr count words where
  inside := cells.inside
  word j bound := by
    have cell := cells.toNat_cell bound
    have inside := cells.inside
    rw [← cells.word j bound]
    exact X86.load_congr (by omega) fun b above below => X86.store_other room (by omega)

end Cells

/-! ## Bit fields -/

/-- A bit field of a word, counted from the least significant bit. -/
structure Field where
  offset : Nat
  width : Nat
  inside : offset + width ≤ 32

namespace Field

/-- The bits of the field. -/
def mask (field : Field) : Word := (BitVec.allOnes field.width).setWidth 32 <<< field.offset

/-- An assignment to the field; bits of the value that it has no room for are lost. -/
def assign (field : Field) (value entry : Word) : Word :=
  (entry &&& ~~~field.mask) ||| ((value <<< field.offset) &&& field.mask)

variable {field : Field} {value entry : Word} {i : Nat}

theorem getLsbD_mask (field : Field) (i : Nat) :
    field.mask.getLsbD i = decide (field.offset ≤ i ∧ i < field.offset + field.width) := by
  have inside := field.inside
  simp only [mask, BitVec.getLsbD_shiftLeft, BitVec.getLsbD_setWidth, BitVec.getLsbD_allOnes]
  rw [Bool.eq_iff_iff]
  simp only [Bool.and_eq_true, Bool.not_eq_true', decide_eq_true_eq, decide_eq_false_iff_not]
  omega

/-- An assignment replaces the bits of its field. -/
theorem getLsbD_assign : (field.assign value entry).getLsbD i =
    if field.offset ≤ i ∧ i < field.offset + field.width then value.getLsbD (i - field.offset)
    else entry.getLsbD i := by
  have inside := field.inside
  have mask := getLsbD_mask field i
  rw [assign, BitVec.getLsbD_or, BitVec.getLsbD_and, BitVec.getLsbD_and, BitVec.getLsbD_not, mask,
    BitVec.getLsbD_shiftLeft]
  split_ifs with here
  · have within : i < 32 := by omega
    have above : ¬i < field.offset := by omega
    simp [here, within, above]
  · by_cases within : i < 32
    · simp [here, within]
    · simp [here, BitVec.getLsbD_of_ge _ _ (Nat.le_of_not_lt within)]

end Field

/-! ## Entries -/

def present : Field := ⟨0, 1, by decide⟩
def rw : Field := ⟨1, 1, by decide⟩
def user : Field := ⟨2, 1, by decide⟩
def accessed : Field := ⟨5, 1, by decide⟩
def dirty : Field := ⟨6, 1, by decide⟩
def base : Field := ⟨12, 20, by decide⟩

/-- Who accesses memory, and how. -/
structure Access where
  user : Bool
  write : Bool

/-- What an entry says of the page or the table behind it. -/
structure Rights where
  present : Bool
  rw : Bool
  user : Bool
  frame : BitVec 20
  deriving DecidableEq

/-- The bits of an entry that decide on accesses. -/
def rights (entry : Word) : Rights :=
  ⟨entry.getLsbD 0, entry.getLsbD 1, entry.getLsbD 2, entry.extractLsb' 12 20⟩

/-- Whether an entry lets an access pass.  With `WP` clear in `cr0` the supervisor may write
everywhere. -/
def Rights.permits (rights : Rights) (access : Access) : Bool :=
  rights.present && (!access.user || (rights.user && (!access.write || rights.rw)))

@[simp]
theorem Rights.permits_all (frame : BitVec 20) (access : Access) :
    (⟨true, true, true, frame⟩ : Rights).permits access = true := by
  cases access
  simp [permits]

theorem Rights.permits_absent {rights : Rights} (absent : rights.present = false)
    (access : Access) : rights.permits access = false := by
  rw [permits, absent, Bool.false_and]

/-- The walk: the entry of the directory, the entry of the table, and the byte in the page. -/
def walk (mem : Memory) (cr3 : Word) (access : Access) (addr : Word) : Option Word :=
  let pde := rights (load mem (cr3 + BitVec.ofNat 32 (4 * (addr >>> 22).toNat)))
  if pde.permits access then
    let table : Word := pde.frame ++ (0 : BitVec 12)
    let pte := rights (load mem (table + BitVec.ofNat 32 (4 * (addr >>> 12 &&& 0x3ff).toNat)))
    if pte.permits access then some (pte.frame ++ addr.setWidth 12) else none
  else none

variable {entry value : Word}

theorem rights_zero : rights 0 = ⟨false, false, false, 0⟩ := by decide

/-- The address of a page, from the frame in an entry. -/
theorem page_of_frame {page : Word} (aligned : page.toNat % 4096 = 0) :
    (page.extractLsb' 12 20).setWidth 32 <<< 12 = page := by
  have bound := page.isLt
  refine BitVec.eq_of_toNat_eq ?_
  rw [BitVec.toNat_shiftLeft, BitVec.toNat_setWidth, BitVec.extractLsb'_toNat, Nat.shiftLeft_eq,
    Nat.shiftRight_eq_div_pow]
  omega

theorem frame_append (frame : BitVec 20) :
    (frame ++ (0 : BitVec 12) : Word) = frame.setWidth 32 <<< 12 := by
  refine BitVec.eq_of_toNat_eq ?_
  have bound := frame.isLt
  rw [BitVec.toNat_append, BitVec.toNat_shiftLeft, BitVec.toNat_setWidth]
  show frame.toNat <<< 12 ||| 0 = _
  rw [Nat.or_zero, Nat.shiftLeft_eq, Nat.shiftLeft_eq]
  omega

/-- A flag is apart from the frame. -/
theorem frame_assign {field : Field} (low : field.offset + field.width ≤ 12) :
    (field.assign value entry).extractLsb' 12 20 = entry.extractLsb' 12 20 := by
  refine BitVec.eq_of_getLsbD_eq fun i _ => ?_
  rw [BitVec.getLsbD_extractLsb', BitVec.getLsbD_extractLsb', Field.getLsbD_assign,
    if_neg (by omega)]

@[simp]
theorem rights_present :
    rights (present.assign value entry) = { rights entry with present := value.getLsbD 0 } := by
  rw [rights, frame_assign (by decide)]
  simp only [Field.getLsbD_assign]
  rfl

@[simp]
theorem rights_rw :
    rights (rw.assign value entry) = { rights entry with rw := value.getLsbD 0 } := by
  rw [rights, frame_assign (by decide)]
  simp only [Field.getLsbD_assign]
  rfl

@[simp]
theorem rights_user :
    rights (user.assign value entry) = { rights entry with user := value.getLsbD 0 } := by
  rw [rights, frame_assign (by decide)]
  simp only [Field.getLsbD_assign]
  rfl

@[simp]
theorem rights_base :
    rights (base.assign value entry) = { rights entry with frame := value.setWidth 20 } := by
  have frame : (base.assign value entry).extractLsb' 12 20 = value.setWidth 20 := by
    refine BitVec.eq_of_getLsbD_eq fun i bound => ?_
    rw [BitVec.getLsbD_extractLsb', Field.getLsbD_assign, BitVec.getLsbD_setWidth, if_pos (by
      simp only [base]
      omega)]
    simp [base, bound]
  rw [rights, frame]
  simp only [Field.getLsbD_assign]
  rfl

/-- The processor's marks do not matter for accesses. -/
@[simp]
theorem rights_accessed : rights (accessed.assign value entry) = rights entry := by
  rw [rights, frame_assign (by decide)]
  simp only [Field.getLsbD_assign]
  rfl

@[simp]
theorem rights_dirty : rights (dirty.assign value entry) = rights entry := by
  rw [rights, frame_assign (by decide)]
  simp only [Field.getLsbD_assign]
  rfl

end Mmu
