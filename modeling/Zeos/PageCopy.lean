import Zeos.Pages

/-!
# Copied pages

What `copy_data` does to the bytes of the memory, and what the copy loop of `sys_fork` does to the
content of the frames.
-/

namespace Zeos

open GuardedRun

/-! ## Blocks of bytes -/

section Blocks

variable {ram : Nat → Byte} {start dest size : Nat}

/-- A block of bytes is copied to another place at once. -/
def copyBlock (ram : Nat → Byte) (start dest size : Nat) : Nat → Byte := fun address =>
  if dest ≤ address ∧ address < dest + size then ram (start + (address - dest)) else ram address

/-- A copy in ascending order does not overwrite what it is still to read. -/
def Ascending (start dest size : Nat) : Prop := dest ≤ start ∨ start + size ≤ dest

theorem copyBlock_zero : copyBlock ram start dest 0 = ram := by
  funext address
  exact if_neg (by omega)

theorem copyBlock_copyBlock {first rest : Nat} (ascending : Ascending start dest (first + rest)) :
    copyBlock (copyBlock ram start dest first) (start + first) (dest + first) rest =
      copyBlock ram start dest (first + rest) := by
  unfold Ascending at ascending
  funext address
  unfold copyBlock
  by_cases later : dest + first ≤ address ∧ address < dest + first + rest
  · have place : start + first + (address - (dest + first)) = start + (address - dest) := by omega
    rw [if_pos later, if_neg (by omega), if_pos (by omega), place]
  · rw [if_neg later]
    exact if_congr (by omega) rfl rfl

theorem copyBytes_eq (ascending : Ascending start dest size) :
    copyBytes size ram start dest = copyBlock ram start dest size := by
  induction size generalizing ram start dest with
  | zero => exact copyBlock_zero.symm
  | succ size induction =>
      have byte : Function.update ram dest (ram start) = copyBlock ram start dest 1 := by
        funext address
        rw [Function.update_apply, copyBlock]
        by_cases same : address = dest
        · rw [if_pos same, if_pos (by omega), same, Nat.sub_self, Nat.add_zero]
        · rw [if_neg same, if_neg (by omega)]
      unfold Ascending at ascending
      have rest : Ascending (start + 1) (dest + 1) size := by
        unfold Ascending
        omega
      have both : Ascending start dest (1 + size) := by
        unfold Ascending
        omega
      rw [copyBytes, byte, induction rest, copyBlock_copyBlock both, Nat.add_comm]

/-- `copy_data` copies a block, unless its destination begins in the block to be read. -/
theorem copyData_eq (ascending : Ascending start dest size) :
    copyData ram start dest size = copyBlock ram start dest size := by
  induction size using Nat.strongRecOn generalizing ram start dest with
  | ind size induction =>
      rw [copyData]
      split
      · rename_i more
        have sum : 4 + (size - 4) = size := Nat.add_sub_cancel' more.le
        have word : copyWord ram start dest = copyBlock ram start dest 4 := rfl
        have rest : Ascending (start + 4) (dest + 4) (size - 4) := by
          unfold Ascending at ascending ⊢
          omega
        rw [word, induction (size - 4) (by omega) rest,
          copyBlock_copyBlock (by rw [sum]; exact ascending), sum]
      · exact copyBytes_eq ascending

end Blocks

/-! ## The content of frames -/

namespace Memory

variable {m m' : Memory} {row parent child : TaskId} {page pag f offset : Nat}

/-- A byte of a frame. -/
def content (m : Memory) (frame offset : Nat) : Byte := m.ram (frame * pageSize + offset)

end Memory

end Zeos
