import Zeos.PageCopy
import Zeos.X86

/-!
# Copying through pointers

The copy routines of `utils.c` over the bytes that 32-bit pointers reach.  They differ in what they
return and in who calls them.
-/

namespace Zeos.Flat

open X86 (load store)

/-- `while (size > 4) *q++ = *p++`, which leaves one to four bytes of a positive size. -/
def copyWords (mem : X86.Memory) (p q : Word) (size : Int) : X86.Memory × Word × Word × Int :=
  if 4 < size then copyWords (store mem q (load mem p)) (p + 4) (q + 4) (size - 4)
  else (mem, p, q, size)
termination_by size.toNat

/-- `while (size > 0) *q1++ = *p1++`. -/
def copyBytes (mem : X86.Memory) (p1 q1 : Word) (size : Int) : X86.Memory :=
  if 0 < size then copyBytes (Function.update mem q1 (mem p1)) (p1 + 1) (q1 + 1) (size - 1)
  else mem
termination_by size.toNat

/-- Both loops. -/
def copy (mem : X86.Memory) (start dest : Word) (size : Int) : X86.Memory :=
  let (mem, p1, q1, size) := copyWords mem start dest size
  copyBytes mem p1 q1 size

def copyData (mem : X86.Memory) (start dest : Word) (size : Int) : X86.Memory :=
  copy mem start dest size

def copyFromUser (mem : X86.Memory) (start dest : Word) (size : Int) : X86.Memory × Int :=
  (copy mem start dest size, 0)

def copyToUser (mem : X86.Memory) (start dest : Word) (size : Int) : X86.Memory × Int :=
  (copy mem start dest size, 0)

/-- The bytes from an address on have been copied, and the others are as before. -/
structure Copied (mem mem' : X86.Memory) (start dest : Word) (count : Nat) : Prop where
  inside : ∀ i < count, mem' (dest + BitVec.ofNat 32 i) = mem (start + BitVec.ofNat 32 i)
  outside : ∀ a : Word, a.toNat < dest.toNat ∨ dest.toNat + count ≤ a.toNat → mem' a = mem a

/-- Two ranges that do not wrap around, of which a copy in ascending order overwrites nothing that
it is still to read. -/
structure Forward (start dest : Word) (count : Nat) : Prop where
  source : start.toNat + count ≤ 2 ^ 32
  target : dest.toNat + count ≤ 2 ^ 32
  ascending : Ascending start.toNat dest.toNat count

variable {mem mem₁ mem₂ : X86.Memory} {start dest : Word} {first rest count : Nat}

theorem Copied.none (mem : X86.Memory) (start dest : Word) : Copied mem mem start dest 0 where
  inside _ bound := absurd bound (Nat.not_lt_zero _)
  outside _ _ := rfl

/-- The rest of a range after its beginning. -/
theorem Copied.append (forward : Forward start dest (first + rest))
    (copied : Copied mem mem₁ start dest first)
    (others : Copied mem₁ mem₂ (start + BitVec.ofNat 32 first) (dest + BitVec.ofNat 32 first)
      rest) : Copied mem mem₂ start dest (first + rest) := by
  obtain ⟨source, target, ascending⟩ := forward
  rcases Nat.eq_zero_or_pos rest with rfl | some
  · have same : mem₂ = mem₁ := funext fun a => others.outside a (by omega)
    rw [same]
    exact copied
  · have begins := X86.toNat_advance dest first (by omega)
    constructor
    · intro i bound
      have place := X86.toNat_advance dest i (by omega)
      by_cases early : i < first
      · rw [others.outside _ (.inl (by omega)), copied.inside i early]
      · obtain ⟨j, rfl⟩ := Nat.exists_eq_add_of_le (Nat.le_of_not_lt early)
        have unread := X86.toNat_advance start (first + j) (by omega)
        have byte := others.inside j (by omega)
        rw [BitVec.add_assoc, BitVec.add_assoc, ← BitVec.ofNat_add] at byte
        rw [byte]
        unfold Ascending at ascending
        exact copied.outside _ (by omega)
    · intro a apart
      rw [others.outside a (by omega), copied.outside a (by omega)]

theorem copied_word (target : dest.toNat + 4 ≤ 2 ^ 32) :
    Copied mem (store mem dest (load mem start)) start dest 4 where
  inside i bound := by
    have offset : (dest + BitVec.ofNat 32 i - dest).toNat = i := by
      rw [BitVec.add_comm, BitVec.add_sub_cancel, BitVec.toNat_ofNat]
      omega
    rw [store, if_pos (by rw [offset]; exact bound), offset]
    have loaded := X86.extract_word (fun k => mem (start + BitVec.ofNat 32 k)) bound
    rwa [BitVec.add_zero] at loaded
  outside a apart := X86.store_other target apart

theorem copied_byte (target : dest.toNat + 1 ≤ 2 ^ 32) :
    Copied mem (Function.update mem dest (mem start)) start dest 1 where
  inside i bound := by
    obtain rfl := Nat.lt_one_iff.mp bound
    rw [BitVec.add_zero, BitVec.add_zero, Function.update_self]
  outside a apart := by
    refine Function.update_of_ne ?_ _ _
    rintro rfl
    omega

theorem Forward.advance (forward : Forward start dest (first + rest)) (some : 0 < rest) :
    Forward (start + BitVec.ofNat 32 first) (dest + BitVec.ofNat 32 first) rest := by
  obtain ⟨source, target, ascending⟩ := forward
  have reads := X86.toNat_advance start first (by omega)
  have writes := X86.toNat_advance dest first (by omega)
  unfold Ascending at ascending
  refine ⟨by omega, by omega, ?_⟩
  unfold Ascending
  omega

theorem copied_copyBytes (count : Nat) (forward : Forward start dest count) :
    Copied mem (copyBytes mem start dest count) start dest count := by
  induction count generalizing mem start dest with
  | zero =>
      rw [copyBytes, if_neg (by decide)]
      exact .none mem start dest
  | succ count induction =>
      have target := forward.target
      have size : ((count + 1 : Nat) : Int) - 1 = count := by omega
      rw [copyBytes, if_pos (by omega), size]
      rw [Nat.add_comm] at forward ⊢
      refine (copied_byte (by omega)).append forward ?_
      cases count with
      | zero =>
          rw [copyBytes, if_neg (by decide)]
          exact .none _ _ _
      | succ count => exact induction (forward.advance (Nat.succ_pos count))

theorem copied_copy (count : Nat) (forward : Forward start dest count) :
    Copied mem (copy mem start dest count) start dest count := by
  induction count using Nat.strongRecOn generalizing mem start dest with
  | ind count induction =>
      rw [copy, copyWords]
      split_ifs with more
      · have sum : 4 + (count - 4) = count := by omega
        have size : (count : Int) - 4 = ((count - 4 : Nat) : Int) := by omega
        have target := forward.target
        rw [← sum] at forward
        have word : Copied mem (store mem dest (load mem start)) start dest 4 :=
          copied_word (by omega)
        have rest : Copied (store mem dest (load mem start)) _ _ _ _ :=
          induction (count - 4) (by omega) (forward.advance (by omega))
        rw [copy, ← size] at rest
        have both := word.append forward rest
        rw [sum] at both
        exact both
      · exact copied_copyBytes count forward

theorem copy_nonpos {size : Int} (nonpos : size ≤ 0) : copy mem start dest size = mem := by
  rw [copy, copyWords, if_neg (by omega)]
  show copyBytes mem start dest size = mem
  rw [copyBytes, if_neg (by omega)]

/-- A negative size is like zero. -/
theorem copy_toNat (mem : X86.Memory) (start dest : Word) (size : Int) :
    copy mem start dest size.toNat = copy mem start dest size := by
  rcases Int.le_total 0 size with positive | negative
  · rw [Int.toNat_of_nonneg positive]
  · rw [Int.toNat_of_nonpos negative, copy_nonpos negative]
    exact copy_nonpos le_rfl

theorem copied_copyData {size : Int} (forward : Forward start dest size.toNat) :
    Copied mem (copyData mem start dest size) start dest size.toNat := by
  rw [copyData, ← copy_toNat]
  exact copied_copy size.toNat forward

/-- The copy of a page in the memory of frames is a copy through pointers. -/
theorem copyData_frames {size : Int} (forward : Forward start dest size.toNat) (a : Word) :
    Zeos.copyData (fun n => mem (BitVec.ofNat 32 n)) start.toNat dest.toNat size.toNat a.toNat =
      copyData mem start dest size a := by
  have copied : Copied mem (copyData mem start dest size) start dest size.toNat :=
    copied_copyData forward
  have source := forward.source
  rw [copyData_eq forward.ascending, copyBlock]
  split_ifs with inside
  · obtain ⟨i, offset⟩ := Nat.exists_eq_add_of_le inside.1
    have place := X86.toNat_advance dest i (by omega)
    have target : a = dest + BitVec.ofNat 32 i := BitVec.eq_of_toNat_eq (offset.trans place.symm)
    have byte := copied.inside i (by omega)
    have read : BitVec.ofNat 32 (start.toNat + i) = start + BitVec.ofNat 32 i := by
      rw [BitVec.ofNat_add, BitVec.ofNat_toNat, BitVec.setWidth_eq]
    rw [target, byte, place, Nat.add_sub_cancel_left, read]
  · rw [copied.outside a (by omega), BitVec.ofNat_toNat, BitVec.setWidth_eq]

/-- The three routines copy forward: the bytes of the destination become those of the source, also
where both overlap and the destination is below, and nothing else changes. -/
theorem copies_forward (mem : X86.Memory) (start dest : Word) (size : Int) :
    (start.toNat + size.toNat ≤ 2 ^ 32 → dest.toNat + size.toNat ≤ 2 ^ 32 →
      start.toNat + size.toNat ≤ dest.toNat ∨ dest.toNat + size.toNat ≤ start.toNat ∨
        dest.toNat ≤ start.toNat →
      Copied mem (copyData mem start dest size) start dest size.toNat) ∧
      copyFromUser mem start dest size = (copyData mem start dest size, 0) ∧
      copyToUser mem start dest size = (copyData mem start dest size, 0) := by
  refine ⟨fun source target apart => copied_copyData ⟨source, target, ?_⟩, rfl, rfl⟩
  unfold Ascending
  omega

/-- Seven bytes move down by four. -/
theorem copies_forward_overlap :
    Copied (fun a => a.setWidth 8) (copyData (fun a => a.setWidth 8) 0x2004 0x2000 7) 0x2004 0x2000
      7 :=
  (copies_forward (fun a => a.setWidth 8) 0x2004 0x2000 7).1 (by decide) (by decide) (by decide)

end Zeos.Flat
