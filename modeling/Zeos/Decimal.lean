import Mathlib.Data.List.GetD
import Mathlib.Data.Nat.Digits.Lemmas
import Mathlib.Tactic.Ring
import Zeos.Types

/-!
# Printing numbers

`itoa` stores the digits of a number from the last one on and then reverses them in place.
-/

namespace Zeos.Libc

/-- The bytes from a `char *` on. -/
abbrev Buffer := Nat → Byte

/-- `'0'`. -/
abbrev zeroChar : Int := 48

/-- `while (a > 0)`: the digits are stored, the last one first. -/
def storeDigits (a : Int) (b : Buffer) (i : Nat) : Buffer × Nat :=
  if 0 < a then
    storeDigits (a.tdiv 10) (Function.update b i (BitVec.ofInt 8 (a.tmod 10 + zeroChar))) (i + 1)
  else (b, i)
termination_by a.toNat
decreasing_by
  rw [Int.tdiv_eq_ediv_of_nonneg (by omega)]
  omega

/-- `for (; i1 < i/2; i1++)`: the characters change places. -/
def reverse (b : Buffer) (i i1 : Nat) : Buffer :=
  if i1 < i / 2 then
    let c := b i1
    let b := Function.update b i1 (b (i - i1 - 1))
    let b := Function.update b (i - i1 - 1) c
    reverse b i (i1 + 1)
  else b
termination_by i / 2 - i1

def itoa (a : Int) (b : Buffer) : Buffer :=
  if a = 0 then
    let b := Function.update b 0 (BitVec.ofInt 8 zeroChar)
    Function.update b 1 0
  else
    let (b, i) := storeDigits a b 0
    let b := reverse b i 0
    Function.update b i 0

/-- `strlen` from an index on, with so many rounds of its loop. -/
def strlenFrom (a : Buffer) : (rounds i : Nat) → Option Nat
  | 0, _ => none
  | rounds + 1, i => if a i ≠ 0 then strlenFrom a rounds (i + 1) else some i

/-- The value of characters, read as a decimal number. -/
def decimal (text : List Byte) : Int :=
  text.foldl (fun value c => 10 * value + (c.toInt - zeroChar)) 0

variable {b : Buffer} {text : List Byte}

/-- A text at an index of a buffer. -/
def place (b : Buffer) (i : Nat) (text : List Byte) : Buffer := fun j =>
  if i ≤ j then text.getD (j - i) (b j) else b j

theorem place_nil (i : Nat) : place b i [] = b := by
  funext j
  rw [place, List.getD_nil, ite_self]

theorem place_cons (i : Nat) (c : Byte) :
    place b i (c :: text) = place (Function.update b i c) (i + 1) text := by
  funext j
  rw [place, place]
  rcases Nat.lt_trichotomy i j with above | rfl | below
  · obtain ⟨offset, rfl⟩ := Nat.exists_eq_add_of_lt above
    rw [if_pos (by omega), if_pos (by omega), Function.update_of_ne (by omega),
      show i + offset + 1 - i = offset + 1 by omega, List.getD_cons_succ,
      show i + offset + 1 - (i + 1) = offset by omega]
  · rw [if_pos le_rfl, if_neg (by omega), Nat.sub_self, List.getD_cons_zero, Function.update_self]
  · rw [if_neg (by omega), if_neg (by omega), Function.update_of_ne (by omega)]

theorem place_of_lt {j : Nat} (inside : j < text.length) : place b 0 text j = text[j] := by
  rw [place, if_pos (Nat.zero_le j), Nat.sub_zero, List.getD_eq_getElem _ _ inside]

theorem place_of_le {j : Nat} (outside : text.length ≤ j) : place b 0 text j = b j := by
  rw [place, if_pos (Nat.zero_le j), Nat.sub_zero, List.getD_eq_default _ _ outside]

theorem place_concat (c : Byte) :
    place b 0 (text ++ [c]) = Function.update (place b 0 text) text.length c := by
  have length : (text ++ [c]).length = text.length + 1 := List.length_append
  funext j
  rcases Nat.lt_trichotomy j text.length with inside | rfl | outside
  · rw [Function.update_of_ne (by omega), place_of_lt inside, place_of_lt (by omega),
      List.getElem_append_left]
  · rw [Function.update_self, place_of_lt (by omega), List.getElem_concat_length rfl]
  · rw [Function.update_of_ne (by omega), place_of_le (by omega), place_of_le (by omega)]

/-- The character of a digit. -/
def digitChar (digit : Nat) : Byte := BitVec.ofInt 8 (digit + zeroChar)

/-- The characters of a number, the last digit first. -/
def digitChars (a : Nat) : List Byte := (Nat.digits 10 a).map digitChar

theorem storeDigits_eq (a : Nat) (b : Buffer) (i : Nat) :
    storeDigits a b i = (place b i (digitChars a), i + (digitChars a).length) := by
  induction a using Nat.strongRecOn generalizing b i with
  | ind a induction =>
      rw [storeDigits]
      by_cases positive : 0 < a
      · have quotient : (a : Int).tdiv 10 = ((a / 10 : Nat) : Int) := by
          rw [Int.tdiv_eq_ediv_of_nonneg (by omega)]
          rfl
        have digit : BitVec.ofInt 8 ((a : Int).tmod 10 + zeroChar) = digitChar (a % 10) := by
          rw [Int.tmod_eq_emod_of_nonneg (by omega)]
          rfl
        have chars : digitChars a = digitChar (a % 10) :: digitChars (a / 10) := by
          rw [digitChars, Nat.digits_def' (by decide) positive, List.map_cons]
          rfl
        rw [if_pos (by omega), quotient, digit, induction (a / 10) (by omega), chars, place_cons,
          List.length_cons]
        exact Prod.ext rfl (by show i + 1 + _ = _; omega)
      · obtain rfl : a = 0 := by omega
        have chars : digitChars 0 = [] := by rw [digitChars, Nat.digits_zero, List.map_nil]
        rw [if_neg (by decide), chars, place_nil]
        rfl

/-- The part that is still to be reversed lies between the two parts that have changed places. -/
theorem reverse_eq (b : Buffer) (i i1 : Nat) :
    reverse b i i1 = fun j => if i1 ≤ j ∧ j < i - i1 then b (i - 1 - j) else b j := by
  induction left : i / 2 - i1 generalizing b i1 with
  | zero =>
      rw [reverse, if_neg (by omega)]
      funext j
      split_ifs with inside
      · congr 1
        omega
      · rfl
  | succ left' induction =>
      rw [reverse, if_pos (by omega), induction _ _ (by omega)]
      funext j
      simp only [Function.update_apply]
      by_cases inner : i1 + 1 ≤ j ∧ j < i - (i1 + 1)
      · rw [if_pos inner, if_neg (by omega), if_neg (by omega), if_pos (by omega)]
      · rw [if_neg inner]
        by_cases last : j = i - i1 - 1
        · rw [if_pos last, if_pos (by omega), last]
          congr 1
          omega
        · rw [if_neg last]
          by_cases first : j = i1
          · rw [if_pos first, if_pos (by omega), first]
            congr 1
            omega
          · rw [if_neg first, if_neg (by omega)]

theorem reverse_place (b : Buffer) (text : List Byte) :
    reverse (place b 0 text) text.length 0 = place b 0 text.reverse := by
  rw [reverse_eq]
  funext j
  by_cases inside : j < text.length
  · rw [if_pos (by omega), place_of_lt (by omega), place_of_lt (by rw [List.length_reverse]; omega),
      List.getElem_reverse]
  · rw [if_neg (by omega), place_of_le (by omega),
      place_of_le (by rw [List.length_reverse]; omega)]

theorem itoa_zero (b : Buffer) : itoa 0 b = place b 0 [digitChar 0, 0] := by
  rw [itoa, if_pos rfl, place_cons, place_cons, place_nil]
  rfl

theorem itoa_pos {a : Nat} (positive : 0 < a) (b : Buffer) :
    itoa a b = place b 0 ((digitChars a).reverse ++ [0]) := by
  rw [itoa, if_neg (by omega), storeDigits_eq]
  dsimp only
  rw [Nat.zero_add, reverse_place, place_concat, List.length_reverse]

/-! ## The printed number -/

theorem toInt_digitChar {digit : Nat} (small : digit < 10) :
    (digitChar digit).toInt = digit + zeroChar := by
  have checked : ∀ digit < 10, (digitChar digit).toInt = digit + zeroChar := by decide
  exact checked digit small

theorem decimal_reverse (digits : List Nat) (small : ∀ digit ∈ digits, digit < 10) :
    decimal (digits.map digitChar).reverse = (Nat.ofDigits 10 digits : Nat) := by
  induction digits with
  | nil => rfl
  | cons digit digits induction =>
      have rest := induction fun other member => small other (List.mem_cons_of_mem digit member)
      have first := toInt_digitChar (small digit List.mem_cons_self)
      rw [decimal] at rest
      rw [List.map_cons, List.reverse_cons, decimal, List.foldl_append, rest, List.foldl_cons,
        List.foldl_nil, first, Nat.ofDigits_cons]
      push_cast
      ring

/-- The buffer has a numeral of a number, without leading zeros and with so many digits, and is as
before behind it. -/
structure Prints (a : Int) (b b' : Buffer) (count : Nat) : Prop where
  digits : ∀ i < count, zeroChar ≤ (b' i).toInt ∧ (b' i).toInt ≤ zeroChar + 9
  leading : b' 0 = digitChar 0 → count = 1
  value : decimal ((List.range count).map b') = a
  terminated : b' count = 0
  strlen : ∀ rounds, count < rounds → strlenFrom b' rounds 0 = some count
  unchanged : ∀ i, count < i → b' i = b i

theorem strlenFrom_eq {count : Nat} (text : ∀ i < count, b i ≠ 0) (terminated : b count = 0)
    (rounds i : Nat) (before : i ≤ count) (enough : count < i + rounds) :
    strlenFrom b rounds i = some count := by
  induction rounds generalizing i with
  | zero => omega
  | succ rounds induction =>
      rw [strlenFrom]
      rcases before.lt_or_eq with inside | rfl
      · rw [if_pos (text i inside)]
        exact induction (i + 1) inside (by omega)
      · rw [if_neg (not_not.mpr terminated)]

/-- A numeral that has been placed with a terminator. -/
theorem prints_place (b : Buffer) (text : List Byte)
    (digits : ∀ c ∈ text, zeroChar ≤ c.toInt ∧ c.toInt ≤ zeroChar + 9)
    (leading : ∀ bound : 0 < text.length, text[0] = digitChar 0 → text.length = 1) :
    Prints (decimal text) b (place b 0 (text ++ [0])) text.length := by
  have length : (text ++ [0]).length = text.length + 1 := List.length_append
  have char : ∀ i (bound : i < text.length), place b 0 (text ++ [0]) i = text[i] := by
    intro i bound
    rw [place_of_lt (by omega), List.getElem_append_left]
  have terminated : place b 0 (text ++ [0]) text.length = 0 := by
    rw [place_of_lt (by omega), List.getElem_concat_length rfl]
  have range : ∀ i < text.length, zeroChar ≤ (place b 0 (text ++ [0]) i).toInt ∧
      (place b 0 (text ++ [0]) i).toInt ≤ zeroChar + 9 := by
    intro i bound
    rw [char i bound]
    exact digits _ (List.getElem_mem bound)
  refine ⟨range, fun zero => ?_, ?_, terminated, fun rounds enough => ?_, fun i behind => ?_⟩
  · rcases Nat.eq_zero_or_pos text.length with none | some
    · rw [none] at terminated
      rw [terminated] at zero
      exact absurd zero (by decide)
    · exact leading some ((char 0 some).symm.trans zero)
  · congr 1
    refine List.ext_getElem (by rw [List.length_map, List.length_range]) fun i _ bound => ?_
    rw [List.getElem_map, List.getElem_range, char i bound]
  · refine strlenFrom_eq (fun i bound zero => ?_) terminated rounds 0 (Nat.zero_le _) (by omega)
    have low := (range i bound).1
    rw [zero] at low
    exact absurd low (by decide)
  · exact place_of_le (by omega)

/-- The first digit of a positive number is not zero. -/
theorem first_ne_zero {n : Nat} (positive : 0 < n) (bound : 0 < (digitChars n).reverse.length) :
    (digitChars n).reverse[0] ≠ digitChar 0 := by
  have nonempty : Nat.digits 10 n ≠ [] := Nat.digits_ne_nil_iff_ne_zero.mpr (by omega)
  have last := Nat.getLast_digit_ne_zero 10 (by omega : n ≠ 0)
  have below : (Nat.digits 10 n).getLast nonempty < 10 :=
    Nat.digits_lt_base (by decide) (List.getLast_mem nonempty)
  have first : (digitChars n).reverse[0] = digitChar ((Nat.digits 10 n).getLast nonempty) := by
    simp only [digitChars, List.getElem_reverse, List.getElem_map, List.length_map,
      List.getLast_eq_getElem]
    rfl
  intro zero
  rw [first] at zero
  have same := congrArg BitVec.toInt zero
  rw [toInt_digitChar below, toInt_digitChar (by decide)] at same
  omega

/-- `itoa` prints every number that is not negative, with its number of decimal digits. -/
theorem itoa_prints {a : Int} (nonneg : 0 ≤ a) (b : Buffer) :
    Prints a b (itoa a b) (Nat.log 10 a.toNat + 1) := by
  obtain ⟨n, rfl⟩ := Int.eq_ofNat_of_zero_le nonneg
  have digit : ∀ digit < 10, zeroChar ≤ (digitChar digit).toInt ∧
      (digitChar digit).toInt ≤ zeroChar + 9 := by
    decide
  rcases Nat.eq_zero_or_pos n with rfl | positive
  · have printed := prints_place b [digitChar 0]
      (fun c member => by rw [List.mem_singleton.mp member]; exact digit 0 (by decide))
      fun _ _ => rfl
    exact itoa_zero b ▸ printed
  · have small : ∀ digit ∈ Nat.digits 10 n, digit < 10 := fun _ member =>
      Nat.digits_lt_base (by decide) member
    have count : (digitChars n).reverse.length = Nat.log 10 n + 1 := by
      rw [List.length_reverse, digitChars, List.length_map, Nat.length_digits 10 n (by decide)
        (by omega)]
    have value : decimal (digitChars n).reverse = n := by
      rw [digitChars, decimal_reverse _ small, Nat.ofDigits_digits]
    have chars : ∀ c ∈ (digitChars n).reverse, zeroChar ≤ c.toInt ∧ c.toInt ≤ zeroChar + 9 := by
      intro c member
      obtain ⟨d, found, rfl⟩ := List.mem_map.mp (List.mem_reverse.mp member)
      exact digit d (small d found)
    have printed := prints_place b _ chars fun bound zero =>
      absurd zero (first_ne_zero positive bound)
    rw [count, value, ← itoa_pos positive] at printed
    exact printed

theorem itoa_prints_largest :
    Prints (2 ^ 31 - 1) (fun _ => 1) (itoa (2 ^ 31 - 1) fun _ => 1)
      (Nat.log 10 (2 ^ 31 - 1 : Int).toNat + 1) :=
  itoa_prints (by decide) _

end Zeos.Libc
