import Zeos.X86

/-!
# Files of bytes

Writing at a position of a file, and the little-endian numbers in it.
-/

namespace ByteFile

open X86 (Byte Word)

/-- A write at a position; a file that ends before it is filled with zeros. -/
def overwrite (bytes : List Byte) (position : Nat) (data : List Byte) : List Byte :=
  bytes.take position ++ List.replicate (position - bytes.length) 0 ++ data ++
    bytes.drop (position + data.length)

/-- The 32-bit number at a position. -/
def word (bytes : List Byte) (position : Nat) : Word :=
  bytes.getD (position + 3) 0 ++ bytes.getD (position + 2) 0 ++ bytes.getD (position + 1) 0 ++
    bytes.getD position 0

/-- The 16-bit number at a position. -/
def half (bytes : List Byte) (position : Nat) : BitVec 16 :=
  bytes.getD (position + 1) 0 ++ bytes.getD position 0

variable {bytes data : List Byte} {position i : Nat}

theorem overwrite_end : overwrite bytes bytes.length data = bytes ++ data := by
  rw [overwrite, List.take_length, Nat.sub_self, List.replicate_zero, List.append_nil,
    List.drop_eq_nil_of_le (Nat.le_add_right _ _), List.append_nil]

theorem length_overwrite {size : Nat} (length : bytes.length = size)
    (inside : position + data.length ≤ size) : (overwrite bytes position data).length = size := by
  simp only [overwrite, List.length_append, List.length_take, List.length_replicate,
    List.length_drop]
  omega

theorem getElem?_overwrite (inside : position ≤ bytes.length) :
    (overwrite bytes position data)[i]? =
      if position ≤ i ∧ i < position + data.length then data[i - position]? else bytes[i]? := by
  have length : (bytes.take position).length = position := List.length_take_of_le inside
  rw [overwrite, Nat.sub_eq_zero_of_le inside, List.replicate_zero, List.append_nil]
  split_ifs with written
  · rw [List.getElem?_append_left (by rw [List.length_append, length]; exact written.2),
      List.getElem?_append_right (by rw [length]; exact written.1), length]
  · by_cases before : i < position
    · rw [List.append_assoc, List.getElem?_append_left (by rw [length]; exact before),
        List.getElem?_take_of_lt before]
    · have total : (bytes.take position ++ data).length = position + data.length := by
        rw [List.length_append, length]
      rw [List.getElem?_append_right (by rw [total]; omega), total, List.getElem?_drop]
      congr 1
      omega

theorem getElem?_overwrite_inside (inside : position ≤ bytes.length) (below : i < data.length) :
    (overwrite bytes position data)[position + i]? = data[i]? := by
  rw [getElem?_overwrite inside, if_pos (by omega), Nat.add_sub_cancel_left]

theorem getElem?_overwrite_outside (inside : position ≤ bytes.length)
    (apart : i < position ∨ position + data.length ≤ i) :
    (overwrite bytes position data)[i]? = bytes[i]? := by
  rw [getElem?_overwrite inside, if_neg (by omega)]

/-- The bytes of a number, the least significant one first. -/
def wordBytes (value : Word) : List Byte :=
  [value.extractLsb' 0 8, value.extractLsb' 8 8, value.extractLsb' 16 8, value.extractLsb' 24 8]

theorem word_eq {value : Word} (found : ∀ i < 4, bytes[position + i]? = (wordBytes value)[i]?) :
    word bytes position = value := by
  have byte : ∀ i < 4, bytes.getD (position + i) 0 = (wordBytes value).getD i 0 := fun i bound => by
    rw [List.getD_eq_getElem?_getD, found i bound, ← List.getD_eq_getElem?_getD]
  have first := byte 0 (by decide)
  rw [Nat.add_zero] at first
  rw [word, byte 3 (by decide), byte 2 (by decide), byte 1 (by decide), first]
  exact X86.bytes_word value

theorem half_eq {value : BitVec 16} (first : bytes[position]? = some (value.extractLsb' 0 8))
    (second : bytes[position + 1]? = some (value.extractLsb' 8 8)) :
    half bytes position = value := by
  rw [half, List.getD_eq_getElem?_getD, List.getD_eq_getElem?_getD, first, second]
  ext i bound
  simp only [Option.getD_some, BitVec.getElem_append, BitVec.getElem_extractLsb']
  split_ifs with low
  · rw [Nat.zero_add]
    exact BitVec.getLsbD_eq_getElem bound
  · rw [show 8 + (i - 8) = i by omega]
    exact BitVec.getLsbD_eq_getElem bound

end ByteFile
