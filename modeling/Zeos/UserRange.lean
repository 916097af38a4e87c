import Zeos.Pages

/-!
# Ranges that `access_ok` accepts

`access_ok` compares the pages of both ends of a range with the user's pages.  The end is exclusive,
but its page may be the one behind the data pages, and the sum of address and size may wrap around.
-/

namespace Zeos

/-- `L_USER_START`. -/
abbrev lUserStart : Nat := pagLogInitCode * pageSize

/-- The first address behind the data pages. -/
abbrev userEnd : Nat := lUserStart + (numPagCode + numPagData) * pageSize

variable {addr size : Word}

/-- A range that does not wrap around, with all of its bytes in the user area. -/
def InUserArea (addr size : Word) : Prop :=
  addr.toNat + size.toNat ≤ 2 ^ 32 ∧
    ∀ byte, addr.toNat ≤ byte → byte < addr.toNat + size.toNat →
      lUserStart ≤ byte ∧ byte < userEnd

/-- The end of a range that begins at a user's address is not in the page behind the data pages, or
at its first byte, and a range that wraps around does not end in the page in which it begins, if
this is a user's page or the one behind. -/
def EndsApart (addr size : Word) : Prop :=
  if addr.toNat + size.toNat < 2 ^ 32 then
    addr.toNat < lUserStart ∨ addr.toNat + size.toNat ≤ userEnd ∨
      userEnd + pageSize ≤ addr.toNat + size.toNat
  else addr.toNat < lUserStart ∨ userEnd + pageSize ≤ addr.toNat ∨
    addr.toNat / pageSize ≠ (addr + size).toNat / pageSize

instance : Decidable (EndsApart addr size) := inferInstanceAs (Decidable (ite _ _ _))

/-- No byte of the range is in the code pages. -/
def SparesCode (addr size : Word) : Prop :=
  ∀ byte, addr.toNat ≤ byte → byte < addr.toNat + size.toNat →
    byte / pageSize < pagLogInitCode ∨ pagLogInitCode + numPagCode ≤ byte / pageSize

/-- What `access_ok` promises of a range that it accepts for writing. -/
def GrantsWriting (addr size : Word) : Prop :=
  accessOk .write addr size = true → SparesCode addr size ∧ accessOk .read addr size = true

theorem toNat_page (a : Word) : (a >>> 12).toNat = a.toNat / pageSize := by
  rw [BitVec.toNat_ushiftRight, Nat.shiftRight_eq_div_pow]

/-- The test of the default case. -/
theorem accessOk_read_iff : accessOk .read addr size = true ↔
    addr.toNat / pageSize ≤ (addr + size).toNat / pageSize ∧
      pagLogInitCode ≤ addr.toNat / pageSize ∧
      (addr + size).toNat / pageSize ≤ pagLogInitData + numPagData := by
  simp only [accessOk, userPages, toNat_page]
  split_ifs with overflow
  · simp only [false_iff]
    omega
  · rw [decide_eq_true_eq]
    exact ⟨fun inside => ⟨Nat.le_of_not_lt overflow, inside⟩, And.right⟩

/-- What fails the test of the write case is tried again as a range to read. -/
theorem accessOk_write : accessOk .write addr size = accessOk .read addr size := by
  simp only [accessOk]
  split_ifs
  · rfl
  · rw [Bool.or_eq_right_iff_imp, decide_eq_true_eq]
    rintro ⟨above, below⟩
    rw [userPages, decide_eq_true_eq]
    exact ⟨Nat.le_of_add_right_le above, below⟩

/-- A range with a byte lies in the user area exactly if its ends do. -/
theorem inUserArea_iff (nonempty : 0 < size.toNat) : InUserArea addr size ↔
    lUserStart ≤ addr.toNat ∧ addr.toNat + size.toNat ≤ userEnd := by
  constructor
  · rintro ⟨_, inside⟩
    have first := inside addr.toNat le_rfl (by omega)
    have last := inside (addr.toNat + size.toNat - 1) (by omega) (by omega)
    omega
  · rintro ⟨above, below⟩
    have small : userEnd ≤ 2 ^ 32 := by decide
    exact ⟨by omega, fun byte from_start to_end => by omega⟩

/-- `access_ok` accepts for reading exactly the ranges in the user area, among those whose ends are
apart. -/
theorem exact_iff_endsApart (addr size : Word) (nonempty : 0 < size.toNat) :
    (accessOk .read addr size = true ↔ InUserArea addr size) ↔ EndsApart addr size := by
  have sizes := pageConstants
  have bound := addr.isLt
  have bound' := size.isLt
  have sum := BitVec.toNat_add addr size
  rw [accessOk_read_iff, inUserArea_iff nonempty, EndsApart]
  simp only [lUserStart, userEnd, pageSize, pagLogInitData, pagLogInitCode, numPagCode, numPagData]
  split_ifs with inside
  · rw [Nat.mod_eq_of_lt inside] at sum
    rw [sum]
    omega
  · omega

/-- The first data page. -/
theorem exact_iff_endsApart_data :
    (accessOk .read 0x108000 0x1000 = true ↔ InUserArea 0x108000 0x1000) ↔
      EndsApart 0x108000 0x1000 :=
  exact_iff_endsApart 0x108000 0x1000 (by decide)

/-- One byte more than the whole user area. -/
theorem not_exact : ¬∀ addr size : Word, 0 < size.toNat →
    (accessOk .read addr size = true ↔ InUserArea addr size) := by
  intro exact
  have inside := (exact 0x100000 0x1c001 (by decide)).mp (by decide)
  exact absurd ((inUserArea_iff (by decide)).mp inside).2 (by decide)

/-- Among the ranges that do not wrap around, `access_ok` keeps its promise exactly of those which
do not begin in the code pages or which end behind the page after the data pages. -/
theorem grantsWriting_iff (addr size : Word) (nonempty : 0 < size.toNat)
    (noWrap : addr.toNat + size.toNat < 2 ^ 32) : GrantsWriting addr size ↔
      addr.toNat < lUserStart ∨ lUserStart + numPagCode * pageSize ≤ addr.toNat ∨
        userEnd + pageSize ≤ addr.toNat + size.toNat := by
  have sum := BitVec.toNat_add addr size
  rw [Nat.mod_eq_of_lt noWrap] at sum
  rw [GrantsWriting, accessOk_write, accessOk_read_iff, sum]
  simp only [lUserStart, userEnd, pageSize, pagLogInitData, pagLogInitCode, numPagCode, numPagData]
  constructor
  · intro grants
    by_contra denied
    obtain ⟨spares, _⟩ := grants (by omega)
    have first := spares addr.toNat le_rfl (by omega)
    simp only [pageSize, pagLogInitCode, numPagCode] at first
    omega
  · intro apart accepted
    refine ⟨fun byte above below => ?_, accepted⟩
    simp only [pageSize, pagLogInitCode, numPagCode]
    omega

/-- The data pages. -/
theorem grantsWriting_iff_data : GrantsWriting 0x108000 0x14000 :=
  (grantsWriting_iff 0x108000 0x14000 (by decide) (by decide)).mpr (by decide)

/-- The first word of the code. -/
theorem not_grantsWriting : ¬∀ addr size : Word, 0 < size.toNat →
    addr.toNat + size.toNat < 2 ^ 32 → GrantsWriting addr size := by
  intro grants
  obtain ⟨spares, _⟩ := grants 0x100000 4 (by decide) (by decide) (by decide)
  exact absurd (spares 0x100000 (by decide) (by decide)) (by decide)

end Zeos
