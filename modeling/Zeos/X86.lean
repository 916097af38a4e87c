import Mathlib.Algebra.Group.Nat.Defs
import Mathlib.Data.List.Basic
import Mathlib.Logic.Function.Basic
import Mathlib.Tactic.SplitIfs

/-!
# A processor with 32-bit registers and a stack

Straight-line code over registers and bytes of memory.  `Holds` says which words a part of the
memory consists of; pushes, pops and stores change these lists of words.
-/

namespace X86

abbrev Word := BitVec 32
abbrev Byte := BitVec 8
abbrev Memory := Word → Byte

/-! ## Memory -/

/-- The word at an address, least significant byte first. -/
def load (mem : Memory) (addr : Word) : Word :=
  mem (addr + 3) ++ mem (addr + 2) ++ mem (addr + 1) ++ mem addr

def store (mem : Memory) (addr value : Word) : Memory := fun a =>
  if (a - addr).toNat < 4 then value.extractLsb' (8 * (a - addr).toNat) 8 else mem a

variable {mem mem' : Memory} {addr a value first : Word} {words : List Word}
  {count : Nat}

theorem bytes_word (value : Word) :
    value.extractLsb' 24 8 ++ value.extractLsb' 16 8 ++ value.extractLsb' 8 8 ++
      value.extractLsb' 0 8 = value := by
  ext i bound
  simp only [BitVec.getElem_append, BitVec.getElem_extractLsb']
  split_ifs with lowest low high
  · rw [Nat.zero_add]
    exact BitVec.getLsbD_eq_getElem bound
  · rw [show 8 + (i - 8) = i by omega]
    exact BitVec.getLsbD_eq_getElem bound
  · rw [show 16 + (i - 8 - 8) = i by omega]
    exact BitVec.getLsbD_eq_getElem bound
  · rw [show 24 + (i - 8 - 8 - 8) = i by omega]
    exact BitVec.getLsbD_eq_getElem bound

@[simp]
theorem load_store_same : load (store mem addr value) addr = value := by
  have offset : ∀ k : Word, addr + k - addr = k := fun k => by
    rw [BitVec.add_comm, BitVec.add_sub_cancel]
  have first : addr - addr = 0 := BitVec.sub_self addr
  simp only [load, store, offset, first]
  exact bytes_word value

/-- A store leaves the other bytes alone. -/
theorem store_other (inside : addr.toNat + 4 ≤ 2 ^ 32)
    (apart : a.toNat < addr.toNat ∨ addr.toNat + 4 ≤ a.toNat) : store mem addr value a = mem a := by
  have bound := a.isLt
  rw [store, if_neg]
  rw [BitVec.toNat_sub]
  omega

theorem toNat_add (addr value : Word) (bound : addr.toNat + value.toNat < 2 ^ 32) :
    (addr + value).toNat = addr.toNat + value.toNat := by
  rw [BitVec.toNat_add]
  exact Nat.mod_eq_of_lt bound

/-- A pointer is advanced without a wrap around. -/
theorem toNat_advance (addr : Word) (count : Nat) (room : addr.toNat + count < 2 ^ 32) :
    (addr + BitVec.ofNat 32 count).toNat = addr.toNat + count := by
  rw [BitVec.toNat_add, BitVec.toNat_ofNat]
  omega

/-- The bytes of a word that has been put together from them. -/
theorem extract_word (bytes : Nat → Byte) {offset : Nat} (below : offset < 4) :
    (bytes 3 ++ bytes 2 ++ bytes 1 ++ bytes 0 : Word).extractLsb' (8 * offset) 8 =
      bytes offset := by
  match offset, below with
  | 0, _ | 1, _ | 2, _ | 3, _ =>
      ext i bound
      simp only [BitVec.getElem_extractLsb', BitVec.getLsbD_append]
      grind

/-- Only the four bytes of a word matter. -/
theorem load_congr (inside : addr.toNat + 4 ≤ 2 ^ 32)
    (same : ∀ a : Word, addr.toNat ≤ a.toNat → a.toNat < addr.toNat + 4 → mem' a = mem a) :
    load mem' addr = load mem addr := by
  have byte : ∀ k : Word, k.toNat < 4 → mem' (addr + k) = mem (addr + k) := by
    intro k small
    have next := toNat_add addr k (by omega)
    exact same _ (by omega) (by omega)
  rw [load, load, byte 3 (by decide), byte 2 (by decide), byte 1 (by decide),
    same addr (Nat.le_refl _) (by omega)]

/-- The words from an address on are those of a list, and do not wrap around. -/
structure Holds (mem : Memory) (addr : Word) (words : List Word) : Prop where
  inside : addr.toNat + 4 * words.length ≤ 2 ^ 32
  word : ∀ i (bound : i < words.length), load mem (addr + BitVec.ofNat 32 (4 * i)) = words[i]

namespace Holds

theorem toNat_cell (holds : Holds mem addr words) {i : Nat} (bound : i < words.length) :
    (addr + BitVec.ofNat 32 (4 * i)).toNat = addr.toNat + 4 * i := by
  have inside := holds.inside
  exact toNat_advance addr (4 * i) (by omega)

/-- Only the bytes of the words matter. -/
theorem congr (holds : Holds mem addr words)
    (same : ∀ a : Word, addr.toNat ≤ a.toNat → a.toNat < addr.toNat + 4 * words.length →
      mem' a = mem a) : Holds mem' addr words where
  inside := holds.inside
  word i bound := by
    rw [← holds.word i bound]
    have cell := holds.toNat_cell bound
    have inside := holds.inside
    exact load_congr (by omega) fun a above below => same a (by omega) (by omega)

/-- A store outside of the words. -/
theorem store (holds : Holds mem addr words) (room : a.toNat + 4 ≤ 2 ^ 32)
    (apart : a.toNat + 4 ≤ addr.toNat ∨ addr.toNat + 4 * words.length ≤ a.toNat) :
    Holds (store mem a value) addr words :=
  holds.congr fun _ above below => store_other room (by omega)

/-- A store to one of the words. -/
theorem set (holds : Holds mem addr words) (value : Word) {i : Nat} (bound : i < words.length) :
    Holds (X86.store mem (addr + BitVec.ofNat 32 (4 * i)) value) addr (words.set i value) where
  inside := by
    rw [List.length_set]
    exact holds.inside
  word j bound' := by
    rw [List.length_set] at bound'
    rw [List.getElem_set]
    split_ifs with same
    · rw [same, load_store_same]
    · have cell := holds.toNat_cell bound
      have cell' := holds.toNat_cell bound'
      have inside := holds.inside
      rw [← holds.word j bound']
      exact load_congr (by omega) fun _ above below => store_other (by omega) (by omega)

theorem head (holds : Holds mem addr (first :: words)) : load mem addr = first := by
  have loaded := holds.word 0 (Nat.succ_pos _)
  rwa [Nat.mul_zero, BitVec.add_zero] at loaded

theorem next_cell (i : Nat) :
    addr + 4 + BitVec.ofNat 32 (4 * i) = addr + BitVec.ofNat 32 (4 * (i + 1)) := by
  rw [Nat.mul_succ, BitVec.ofNat_add, BitVec.add_assoc,
    BitVec.add_comm (BitVec.ofNat 32 (4 * i))]
  rfl

theorem tail (holds : Holds mem addr (first :: words)) : Holds mem (addr + 4) words where
  inside := by
    have inside := holds.inside
    rw [List.length_cons] at inside
    have sum := BitVec.toNat_add addr 4
    have four : (4 : Word).toNat = 4 := rfl
    omega
  word i bound := by
    rw [next_cell]
    exact holds.word (i + 1) (Nat.succ_lt_succ bound)

theorem cons (loaded : load mem addr = first) (holds : Holds mem (addr + 4) words)
    (inside : addr.toNat + 4 * (words.length + 1) ≤ 2 ^ 32) : Holds mem addr (first :: words) where
  inside := inside
  word i bound := by
    cases i with
    | zero => rwa [Nat.mul_zero, BitVec.add_zero]
    | succ i =>
        rw [← next_cell]
        exact holds.word i (Nat.lt_of_succ_lt_succ bound)

/-- The words after the first ones. -/
theorem drop (holds : Holds mem addr words) (count : Nat) (few : count ≤ words.length) :
    Holds mem (addr + BitVec.ofNat 32 (4 * count)) (words.drop count) := by
  induction count generalizing addr words with
  | zero => simpa using holds
  | succ count induction =>
      cases words with
      | nil => exact absurd few (by simp)
      | cons first words =>
          rw [← next_cell]
          exact induction holds.tail (Nat.le_of_succ_le_succ few)

theorem append_left {others : List Word} (holds : Holds mem addr (words ++ others)) :
    Holds mem addr words where
  inside := by
    have inside := holds.inside
    rw [List.length_append] at inside
    omega
  word i bound := by
    rw [holds.word i (by rw [List.length_append]; omega), List.getElem_append_left]

/-- A part of the memory that does not wrap around. -/
theorem of_range (mem : Memory) {count : Nat} (inside : addr.toNat + 4 * count ≤ 2 ^ 32) :
    Holds mem addr ((List.range count).map fun i => load mem (addr + BitVec.ofNat 32 (4 * i))) where
  inside := by
    rw [List.length_map, List.length_range]
    exact inside
  word i bound := by
    rw [List.getElem_map, List.getElem_range]

/-- Words below which others are found. -/
theorem exists_append (holds : Holds mem (addr + BitVec.ofNat 32 (4 * count)) words)
    (inside : addr.toNat + 4 * (count + words.length) ≤ 2 ^ 32) :
    ∃ others : List Word, others.length = count ∧ Holds mem addr (others ++ words) := by
  induction count generalizing addr with
  | zero => exact ⟨[], rfl, by simpa using holds⟩
  | succ count induction =>
      have next : (addr + 4).toNat + 4 * (count + words.length) ≤ 2 ^ 32 := by
        have sum := BitVec.toNat_add addr 4
        have four : (4 : Word).toNat = 4 := rfl
        omega
      rw [← next_cell] at holds
      obtain ⟨others, length, rest⟩ := induction holds next
      refine ⟨load mem addr :: others, congrArg (· + 1) length, .cons rfl rest ?_⟩
      show addr.toNat + 4 * ((others ++ words).length + 1) ≤ 2 ^ 32
      rw [List.length_append, length]
      omega

end Holds

/-- Memory with the given words, the first one at address 0. -/
def memoryOf (words : Nat → Word) : Memory := fun a =>
  (words (a.toNat / 4)).extractLsb' (8 * (a.toNat % 4)) 8

theorem load_memoryOf {words : Nat → Word} (aligned : addr.toNat % 4 = 0) :
    load (memoryOf words) addr = words (addr.toNat / 4) := by
  have byte : ∀ k : Word, k.toNat < 4 → memoryOf words (addr + k) =
      (words (addr.toNat / 4)).extractLsb' (8 * k.toNat) 8 := by
    intro k small
    have bound := addr.isLt
    rw [memoryOf, toNat_add _ _ (by omega),
      show (addr.toNat + k.toNat) / 4 = addr.toNat / 4 by omega,
      show (addr.toNat + k.toNat) % 4 = k.toNat by omega]
  have first : memoryOf words addr = (words (addr.toNat / 4)).extractLsb' 0 8 := by
    rw [memoryOf, aligned]
  rw [load, byte 3 (by decide), byte 2 (by decide), byte 1 (by decide), first]
  exact bytes_word _

theorem holds_memoryOf {words : Nat → Word} {first count : Nat} (place : addr.toNat = 4 * first)
    (inside : 4 * (first + count) ≤ 2 ^ 32) :
    Holds (memoryOf words) addr ((List.range' first count).map words) where
  inside := by
    rw [List.length_map, List.length_range']
    omega
  word i bound := by
    rw [List.length_map, List.length_range'] at bound
    have cell : (addr + BitVec.ofNat 32 (4 * i)).toNat = 4 * (first + i) := by
      rw [toNat_advance _ _ (by omega)]
      omega
    rw [load_memoryOf (by omega), cell, List.getElem_map, List.getElem_range', Nat.one_mul,
      Nat.mul_div_cancel_left _ (by decide)]

/-! ## Instructions -/

inductive Reg
  | eax | ebx | ecx | edx | esi | edi | ebp | esp | ds | es | fs | gs | eflags
  deriving DecidableEq

structure Machine where
  reg : Reg → Word
  eip : Word
  mem : Memory

/-- The address of an operand in memory. -/
inductive Address
  | base (offset : Word) (r : Reg)
  | absolute (addr : Word)

/-- A source operand. -/
inductive Source
  | imm (value : Word)
  | reg (r : Reg)
  | mem (address : Address)

/-- The instructions of straight-line code; the source comes before the target. -/
inductive Instr
  | push (source : Source)
  | pop (target : Reg)
  | mov (source : Source) (target : Reg)
  | movTo (source : Reg) (target : Address)
  | neg (r : Reg)

namespace Instr

def isPush : Instr → Bool
  | .push _ => true
  | _ => false

/-- Pushes and moves to other registers than the stack pointer. -/
def Grows : Instr → Prop
  | .push _ => True
  | .mov _ target => target ≠ .esp
  | _ => False

instance : DecidablePred Grows
  | .push _ => isTrue trivial
  | .mov _ target => inferInstanceAs (Decidable (target ≠ .esp))
  | .pop _ | .movTo .. | .neg _ => isFalse id

end Instr

namespace Machine

def set (m : Machine) (r : Reg) (value : Word) : Machine :=
  { m with reg := Function.update m.reg r value }

def address (m : Machine) : Address → Word
  | .base offset r => offset + m.reg r
  | .absolute addr => addr

def operand (m : Machine) : Source → Word
  | .imm value => value
  | .reg r => m.reg r
  | .mem address => load m.mem (m.address address)

def push (m : Machine) (value : Word) : Machine :=
  { m.set .esp (m.reg .esp - 4) with mem := store m.mem (m.reg .esp - 4) value }

def pop (m : Machine) (r : Reg) : Machine :=
  (m.set .esp (m.reg .esp + 4)).set r (load m.mem (m.reg .esp))

def exec (m : Machine) : Instr → Machine
  | .push source => m.push (m.operand source)
  | .pop target => m.pop target
  | .mov source target => m.set target (m.operand source)
  | .movTo source target => { m with mem := store m.mem (m.address target) (m.reg source) }
  | .neg r => m.set r (-m.reg r)

/-- The effect of straight-line code. -/
def run (code : List Instr) (m : Machine) : Machine := code.foldl exec m

/-- `ret`. -/
def ret (m : Machine) : Machine :=
  { m.set .esp (m.reg .esp + 4) with eip := load m.mem (m.reg .esp) }

/-- Call a routine, which has to come back to the instruction after the call. -/
def call (m : Machine) (back : Word) (routine : Machine → Option Machine) : Option Machine := do
  let returned ← routine (m.push back)
  if returned.eip = back then some returned else none

/-- The words on top of the stack. -/
def Stack (m : Machine) (words : List Word) : Prop := Holds m.mem (m.reg .esp) words

variable {m m' : Machine} {r : Reg} {code code' : List Instr}

@[simp] theorem reg_set_same : (m.set r value).reg r = value := Function.update_self ..
@[simp] theorem reg_set_other {r' : Reg} (different : r' ≠ r) :
    (m.set r value).reg r' = m.reg r' := Function.update_of_ne different ..
@[simp] theorem mem_set : (m.set r value).mem = m.mem := rfl
@[simp] theorem operand_set {offset : Word} {r' : Reg} (different : r' ≠ r) :
    (m.set r value).operand (.mem (.base offset r')) = m.operand (.mem (.base offset r')) := by
  simp [operand, address, different]
@[simp] theorem mem_pop : (m.pop r).mem = m.mem := rfl
@[simp] theorem esp_push : (m.push value).reg .esp = m.reg .esp - 4 := by
  simp [push]
@[simp] theorem esp_pop (different : r ≠ .esp) : (m.pop r).reg .esp = m.reg .esp + 4 := by
  simp [pop, different.symm]
@[simp] theorem reg_push (different : r ≠ .esp) : (m.push value).reg r = m.reg r := by
  simp [push, different]
@[simp] theorem run_nil : run [] m = m := rfl
@[simp] theorem run_cons {instr : Instr} : run (instr :: code) m = run code (m.exec instr) := rfl

theorem run_append : run (code ++ code') m = run code' (run code m) := List.foldl_append

/-! ## Stacks -/

theorem toNat_down {k : Nat} (room : 4 * k ≤ addr.toNat) :
    (addr - BitVec.ofNat 32 (4 * k)).toNat = addr.toNat - 4 * k := by
  have bound := addr.isLt
  have offset : (BitVec.ofNat 32 (4 * k)).toNat = 4 * k := by
    rw [BitVec.toNat_ofNat]
    omega
  rw [BitVec.toNat_sub_of_le (by rw [BitVec.le_def]; omega), offset]

theorem Stack.push (stack : m.Stack words) (room : 4 ≤ (m.reg .esp).toNat) (value : Word) :
    (m.push value).Stack (value :: words) := by
  have down : (m.reg .esp - 4).toNat = (m.reg .esp).toNat - 4 := toNat_down (k := 1) room
  have bound := (m.reg .esp).isLt
  have inside := stack.inside
  rw [Stack, esp_push]
  refine .cons load_store_same ?_ (by omega)
  rw [BitVec.sub_add_cancel]
  exact stack.store (by omega) (.inl (by omega))

theorem toNat_esp_push (room : 4 ≤ (m.reg .esp).toNat) :
    ((m.push value).reg .esp).toNat = (m.reg .esp).toNat - 4 := by
  rw [esp_push]
  exact toNat_down (k := 1) room

/-- A push changes only the bytes that it pushes. -/
theorem mem_push_other (room : 4 ≤ (m.reg .esp).toNat)
    (apart : a.toNat + 4 < (m.reg .esp).toNat ∨ (m.reg .esp).toNat ≤ a.toNat) :
    (m.push value).mem a = m.mem a := by
  have down : (m.reg .esp - 4).toNat = (m.reg .esp).toNat - 4 := toNat_down (k := 1) room
  have bound := (m.reg .esp).isLt
  exact store_other (by omega) (by omega)

/-- A push changes no byte above the stack pointer. -/
theorem mem_push (room : 4 ≤ (m.reg .esp).toNat) (above : (m.reg .esp).toNat ≤ a.toNat) :
    (m.push value).mem a = m.mem a :=
  mem_push_other room (.inr above)

/-- Code whose pushes alone write to memory and move the stack pointer changes only the bytes that
it pushes. -/
theorem mem_run_of_grows (grows : ∀ instr ∈ code, instr.Grows)
    (room : 4 * code.countP Instr.isPush ≤ (m.reg .esp).toNat)
    (apart : a.toNat + 4 * code.countP Instr.isPush < (m.reg .esp).toNat ∨
      (m.reg .esp).toNat ≤ a.toNat) : (run code m).mem a = m.mem a := by
  induction code generalizing m with
  | nil => rfl
  | cons instr code induction =>
      have rest := fun other member => grows other (List.mem_cons_of_mem instr member)
      have first := grows instr List.mem_cons_self
      rw [List.countP_cons] at room apart
      cases instr with
      | push source =>
          simp only [Instr.isPush, if_true] at room apart
          have down : ((m.push (m.operand source)).reg .esp).toNat = _ := toNat_esp_push (by omega)
          have run_eq := induction rest (m := m.push (m.operand source)) (by omega) (by omega)
          exact run_eq.trans (mem_push_other (by omega) (by omega))
      | mov source target =>
          have kept : (m.set target (m.operand source)).reg .esp = m.reg .esp :=
            reg_set_other first.symm
          simp only [Instr.isPush, Bool.false_eq_true, if_false, Nat.add_zero] at room apart
          exact induction rest (m := m.set target (m.operand source)) (by rw [kept]; exact room)
            (by rw [kept]; exact apart)
      | pop target => exact first.elim
      | movTo source target => exact first.elim
      | neg r => exact first.elim

theorem Stack.pop (stack : m.Stack (first :: words)) (different : r ≠ .esp) :
    (m.pop r).Stack words ∧ (m.pop r).reg r = first := by
  constructor
  · rw [Stack, Machine.pop, reg_set_other different.symm, reg_set_same]
    exact stack.tail
  · rw [Machine.pop, reg_set_same]
    exact stack.head

theorem reg_pop {r' : Reg} (different : r' ≠ r) (other : r' ≠ .esp) :
    (m.pop r).reg r' = m.reg r' := by
  rw [pop, reg_set_other different, reg_set_other other]

theorem Stack.ret (stack : m.Stack (first :: words)) : m.ret.eip = first ∧ m.ret.Stack words := by
  refine ⟨stack.head, ?_⟩
  show Holds m.mem ((m.set .esp (m.reg .esp + 4)).reg .esp) words
  rw [reg_set_same]
  exact stack.tail

theorem esp_ret : m.ret.reg .esp = m.reg .esp + 4 := by
  simp [Machine.ret]

theorem reg_ret (different : r ≠ .esp) : m.ret.reg r = m.reg r := by
  simp [Machine.ret, different]

/-- Pushing registers. -/
def pushes (rs : List Reg) : List Instr := rs.map fun r => .push (.reg r)

/-- Popping registers. -/
def pops (rs : List Reg) : List Instr := rs.map .pop

/-- Words have been pushed since a state `m₀`. -/
structure Pushed (m₀ m : Machine) (words : List Word) : Prop where
  stack : m.Stack words
  esp : (m.reg .esp).toNat + 4 * words.length = (m₀.reg .esp).toNat
  above : ∀ a : Word, (m₀.reg .esp).toNat ≤ a.toNat → m.mem a = m₀.mem a
  regs : ∀ r, r ≠ .esp → m.reg r = m₀.reg r

namespace Pushed

variable {m₀ : Machine}

theorem refl (m₀ : Machine) : Pushed m₀ m₀ [] where
  stack := ⟨Nat.le_of_lt (m₀.reg .esp).isLt, fun _ bound => absurd bound (Nat.not_lt_zero _)⟩
  esp := rfl
  above _ _ := rfl
  regs _ _ := rfl

theorem push (pushed : Pushed m₀ m words) (room : 4 * (words.length + 1) ≤ (m₀.reg .esp).toNat)
    (value : Word) : Pushed m₀ (m.push value) (value :: words) := by
  have esp := pushed.esp
  have room' : 4 ≤ (m.reg .esp).toNat := by omega
  refine ⟨pushed.stack.push room' value, ?_, fun a above => ?_, fun r other => ?_⟩
  · rw [toNat_esp_push room', List.length_cons]
    omega
  · exact (mem_push room' (by omega)).trans (pushed.above a above)
  · exact (reg_push other).trans (pushed.regs r other)

theorem exec (pushed : Pushed m₀ m words) (source : Source)
    (room : 4 * (words.length + 1) ≤ (m₀.reg .esp).toNat) (pushes : m.operand source = value) :
    Pushed m₀ (m.exec (.push source)) (value :: words) :=
  pushes ▸ pushed.push room (m.operand source)

/-- The registers are on the stack, the last one first. -/
theorem pushes (pushed : Pushed m₀ m words) (rs : List Reg) (apart : .esp ∉ rs)
    (room : 4 * (words.length + rs.length) ≤ (m₀.reg .esp).toNat) :
    Pushed m₀ (run (Machine.pushes rs) m) ((rs.map m₀.reg).reverse ++ words) := by
  induction rs generalizing m words with
  | nil => exact pushed
  | cons r rs induction =>
      obtain ⟨different, apart⟩ := not_or.mp (mt List.mem_cons.mpr apart)
      rw [List.length_cons] at room
      have next := pushed.push (by omega) (m.reg r)
      rw [List.map_cons, List.reverse_cons, List.append_assoc, ← pushed.regs r (Ne.symm different)]
      refine induction next apart ?_
      rw [List.singleton_append, List.length_cons]
      omega

end Pushed

/-- The registers have the words that were on the stack, the first word in the first register. -/
theorem run_pops (rs : List Reg) {values : List Word} (apart : .esp ∉ rs) (nodup : rs.Nodup)
    (stack : m.Stack (values ++ words)) (length : values.length = rs.length) :
    (run (pops rs) m).Stack words ∧ (run (pops rs) m).mem = m.mem ∧
      rs.map (run (pops rs) m).reg = values ∧
      (∀ r, r ∉ rs → r ≠ .esp → (run (pops rs) m).reg r = m.reg r) := by
  induction rs generalizing m values with
  | nil =>
      obtain rfl := List.length_eq_zero_iff.mp length
      exact ⟨stack, rfl, rfl, fun _ _ _ => rfl⟩
  | cons r rs induction =>
      obtain ⟨different, apart⟩ := not_or.mp (mt List.mem_cons.mpr apart)
      obtain ⟨fresh, nodup⟩ := List.nodup_cons.mp nodup
      cases values with
      | nil => exact absurd length (by simp)
      | cons first values =>
          obtain ⟨popped, loaded⟩ := Stack.pop stack (Ne.symm different)
          obtain ⟨stack, mem, regs, others⟩ :=
            induction apart nodup popped (Nat.succ_inj.mp length)
          refine ⟨stack, mem, ?_, fun r' absent other => ?_⟩
          · rw [List.map_cons]
            exact congrArg₂ List.cons ((others r fresh (Ne.symm different)).trans loaded) regs
          · obtain ⟨differs, absent⟩ := not_or.mp (mt List.mem_cons.mpr absent)
            exact (others r' absent other).trans (reg_pop differs other)

end Machine

variable {m : Machine} {r : Reg}

/-- A push leaves words above the stack pointer alone. -/
theorem Holds.push (holds : Holds m.mem addr words) (room : 4 ≤ (m.reg .esp).toNat)
    (above : (m.reg .esp).toNat ≤ addr.toNat) (value : Word) :
    Holds (m.push value).mem addr words :=
  holds.congr fun _ from_addr _ => Machine.mem_push room (Nat.le_trans above from_addr)

/-- An operand among words from a register's address on. -/
theorem Holds.operand (holds : Holds m.mem (m.reg r) words) {i : Nat} (bound : i < words.length) :
    m.operand (.mem (.base (BitVec.ofNat 32 (4 * i)) r)) = words[i] := by
  rw [Machine.operand, Machine.address, BitVec.add_comm]
  exact holds.word i bound

end X86
