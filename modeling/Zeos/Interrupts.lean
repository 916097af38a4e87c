import Zeos.Preemption
import Zeos.Segmentation

/-!
# The tables of interrupts

`interrupt.c` fills in the gates of the handlers, and `mm.c` the descriptor of the task state
segment and the segment itself.  Through these tables the processor enters and leaves the handlers
as the runs of `Zeos.Preemption` have it.
-/

namespace Zeos.Asm

open X86 Segmentation

/-! ## The table of segments -/

/-- `GDT_START`: the table of `bootsect.S`, at byte 435 of the boot sector at 0x90000. -/
abbrev gdtStart : Word := 0x901b3

/-- `__KERNEL_DS` -/
abbrev kernelDs : Half := 0x18

/-- `KERNEL_TSS` -/
abbrev kernelTss : Half := 0x30

/-- The entries of `gdt` in `bootsect.S` behind the two unused ones: the code and the data of the
kernel, those of the user, and the task state segment without its address. -/
def bootGdt : Fin 5 → Descriptor
  | 0 => ⟨0xffff, 0, 0, 0x9a, 0xcf, 0⟩
  | 1 => ⟨0xffff, 0, 0, 0x92, 0xcf, 0⟩
  | 2 => ⟨0xffff, 0, 0, 0xfa, 0xcf, 0⟩
  | 3 => ⟨0xffff, 0, 0, 0xf2, 0xcf, 0⟩
  | 4 => ⟨104, 0, 0, 0x89, 0, 0⟩

/-- The address of one of these entries. -/
def gdtEntry (i : Fin 5) : Word := gdtStart + BitVec.ofNat 32 (8 * (i + 2))

/-- The boot sector is at its place. -/
def HasBootGdt (mem : X86.Memory) : Prop := ∀ i, descriptorAt mem (gdtEntry i) = bootGdt i

def lowWord (address : Word) : Half := (address &&& 0xffff).setWidth 16
def highWord (address : Word) : Half := (address >>> 16 &&& 0xffff).setWidth 16
def midByte (address : Word) : Byte := (address >>> 16 &&& 0xff).setWidth 8
def highByte (address : Word) : Byte := (address >>> (16 + 8) &&& 0xff).setWidth 8

/-- Addresses in the linked kernel. -/
structure Placement where
  idt : Word
  tss : Word
  /-- `INITIAL_ESP` -/
  initialEsp : Word
  clockHandler : Word
  keyboardHandler : Word
  systemCallHandler : Word
  idt_system : idt.toNat + 8 * 256 ≤ pageSize * pagLogInitCode
  tss_system : tss.toNat + 104 ≤ pageSize * pagLogInitCode
  apart : idt.toNat + 8 * 256 ≤ tss.toNat ∨ tss.toNat + 104 ≤ idt.toNat
  idt_gdt : idt.toNat + 8 * 256 ≤ gdtStart.toNat ∨ gdtStart.toNat + 56 ≤ idt.toNat
  tss_gdt : tss.toNat + 104 ≤ gdtStart.toNat ∨ gdtStart.toNat + 56 ≤ tss.toNat

/-- Memory and the registers that boot sets. -/
structure Processor where
  mem : X86.Memory
  tables : Tables
  msr : Word → BitVec 64

/-- `setGdt` -/
def setGdt (place : Placement) (cpu : Processor) : Processor :=
  let entry := gdtEntry 4
  let mem := storeHalf cpu.mem (entry + 2) (lowWord place.tss)
  let mem := storeByte mem (entry + 4) (midByte place.tss)
  let mem := storeByte mem (entry + 7) (highByte place.tss)
  { cpu with mem, tables := { cpu.tables with gdtr := ⟨256 * 8, gdtStart⟩ } }

/-! ## The table of interrupts -/

/-- The gate that both functions for handlers build, with the flags of its type. -/
def handlerGate (type : Half) (handler maxAccessibleFromPL : Word) : Gate where
  lowOffset := lowWord handler
  segmentSelector := 0x10
  flags := (maxAccessibleFromPL <<< 13).setWidth 16 ||| type
  highOffset := highWord handler

def setHandler (type : Half) (idt : Word) (vector : Byte) (handler maxAccessibleFromPL : Word)
    (mem : X86.Memory) : X86.Memory :=
  storeGate mem (idt + BitVec.ofNat 32 (8 * vector.toNat))
    (handlerGate type handler maxAccessibleFromPL)

def setInterruptHandler : Word → Byte → Word → Word → X86.Memory → X86.Memory := setHandler 0x8e00

/-- `setTrapHandler`, which builds gates for interrupts, too. -/
def setTrapHandler : Word → Byte → Word → Word → X86.Memory → X86.Memory := setHandler 0x8e00

/-- A call of one of the two functions. -/
structure Registration where
  trap : Bool
  vector : Byte
  handler : Word
  maxAccessibleFromPL : Word

def Registration.perform (idt : Word) (mem : X86.Memory) (r : Registration) : X86.Memory :=
  if r.trap then setTrapHandler idt r.vector r.handler r.maxAccessibleFromPL mem
  else setInterruptHandler idt r.vector r.handler r.maxAccessibleFromPL mem

/-- `setSysenter` -/
def setSysenter (place : Placement) (cpu : Processor) : Processor :=
  let msr := Function.update cpu.msr 0x174 ((0 : Word) ++ (0x10 : Word))
  let msr := Function.update msr 0x175 ((0 : Word) ++ place.initialEsp)
  { cpu with msr := Function.update msr 0x176 ((0 : Word) ++ place.systemCallHandler) }

/-- The calls of `setIdt` itself. -/
def Placement.ownHandlers (place : Placement) : List Registration :=
  [⟨false, 32, place.clockHandler, 0⟩, ⟨false, 33, place.keyboardHandler, 0⟩]

/-- `setIdt`, with the calls of `set_handlers` from the library. -/
def setIdt (place : Placement) (setHandlers : List Registration) (cpu : Processor) : Processor :=
  let mem := setHandlers.foldl (Registration.perform place.idt) cpu.mem
  let mem := place.ownHandlers.foldl (Registration.perform place.idt) mem
  let cpu := setSysenter place { cpu with mem }
  { cpu with tables := { cpu.tables with idtr := ⟨256 * 8 - 1, place.idt⟩ } }

/-! ## The task state segment -/

/-- An assignment to a field. -/
inductive Assignment
  | half (offset : Nat) (value : Half)
  | word (offset : Nat) (value : Word)

namespace Assignment

def offset : Assignment → Nat
  | half offset _ | word offset _ => offset

def size : Assignment → Nat
  | half .. => 2
  | word .. => 4

def perform (base : Word) (mem : X86.Memory) : Assignment → X86.Memory
  | half offset value => storeHalf mem (base + BitVec.ofNat 32 offset) value
  | word offset value => store mem (base + BitVec.ofNat 32 offset) value

end Assignment

/-- `USER_ESP` -/
abbrev userEsp : Word := 0x100000 + (8 + 20) * 0x1000 - 16

/-- The assignments of `setTSS` before `tss.ss0 = __KERNEL_DS`. -/
def beforeSs0 (place : Placement) : List Assignment := [.half 0 0, .word 4 place.initialEsp]

/-- The assignments from `tss.esp1` to `tss.esp`. -/
def beforeEbp : List Assignment :=
  [.word 12 0, .half 16 0, .word 20 0, .half 24 0, .word 28 0, .word 32 0, .word 36 0x200,
    .word 40 0, .word 44 0, .word 48 0, .word 52 0, .word 56 userEsp]

/-- The assignments after `tss.ebp = tss.esp`. -/
def afterEbp : List Assignment :=
  [.word 64 0, .word 68 0, .half 72 0x2b, .half 76 0x23, .half 80 0x2b, .half 84 0x2b, .half 88 0,
    .half 92 0, .half 96 kernelTss, .half 100 0, .half 102 0]

/-- The assignments of `setTSS`. -/
def fillTss (place : Placement) (mem : X86.Memory) : X86.Memory :=
  let mem := (beforeSs0 place).foldl (Assignment.perform place.tss) mem
  let mem := Assignment.perform place.tss mem (.half 8 kernelDs)
  let mem := beforeEbp.foldl (Assignment.perform place.tss) mem
  let mem := Assignment.perform place.tss mem (.word 60 (load mem (place.tss + 56)))
  afterEbp.foldl (Assignment.perform place.tss) mem

/-- `setTSS` -/
def setTss (place : Placement) (cpu : Processor) : Option Processor := do
  let mem ← ltr cpu.tables.gdtr kernelTss (fillTss place cpu.mem)
  return { cpu with mem, tables := { cpu.tables with tr := kernelTss } }

/-- The initialisation of the hardware in `main`. -/
def initHardware (place : Placement) (setHandlers : List Registration) (cpu : Processor) :
    Option Processor :=
  setTss place (setIdt place setHandlers (setGdt place cpu))

/-! ## Fields of gates and descriptors -/

theorem setWidth_mask (address mask : Word) (offset width : Nat)
    (ones : ∀ i < width, mask.getLsbD i = true) :
    (address >>> offset &&& mask).setWidth width = address.extractLsb' offset width := by
  refine BitVec.eq_of_getLsbD_eq fun i bound => ?_
  rw [BitVec.getLsbD_setWidth, BitVec.getLsbD_and, BitVec.getLsbD_ushiftRight,
    BitVec.getLsbD_extractLsb', ones i bound, Bool.and_true]

theorem lowWord_eq (address : Word) : lowWord address = address.extractLsb' 0 16 := by
  have shifted := setWidth_mask address 0xffff 0 16 (by decide)
  rwa [BitVec.ushiftRight_zero] at shifted

theorem highWord_eq (address : Word) : highWord address = address.extractLsb' 16 16 :=
  setWidth_mask address 0xffff 16 16 (by decide)

theorem midByte_eq (address : Word) : midByte address = address.extractLsb' 16 8 :=
  setWidth_mask address 0xff 16 8 (by decide)

theorem highByte_eq (address : Word) : highByte address = address.extractLsb' 24 8 :=
  setWidth_mask address 0xff 24 8 (by decide)

/-- The address of the task state segment is that in its descriptor. -/
theorem base_of_bytes (limit : Half) (flags1 flags2 : Byte) (address : Word) :
    Descriptor.base ⟨limit, lowWord address, midByte address, flags1, flags2,
      highByte address⟩ = address := by
  rw [Descriptor.base, lowWord_eq, midByte_eq, highByte_eq]
  ext i bound
  simp only [BitVec.getElem_append, BitVec.getElem_extractLsb']
  split_ifs with low mid
  · rw [Nat.zero_add]
    exact BitVec.getLsbD_eq_getElem bound
  · rw [show 16 + (i - 16) = i by omega]
    exact BitVec.getLsbD_eq_getElem bound
  · rw [show 24 + (i - 16 - 8) = i by omega]
    exact BitVec.getLsbD_eq_getElem bound

theorem offset_handlerGate (type : Half) (handler maxAccessibleFromPL : Word) :
    (handlerGate type handler maxAccessibleFromPL).offset = handler := by
  rw [Gate.offset, handlerGate, lowWord_eq, highWord_eq]
  ext i bound
  simp only [BitVec.getElem_append, BitVec.getElem_extractLsb']
  split_ifs with low
  · rw [Nat.zero_add]
    exact BitVec.getLsbD_eq_getElem bound
  · rw [show 16 + (i - 16) = i by omega]
    exact BitVec.getLsbD_eq_getElem bound

/-- The bits of the privilege level are above those of the type; what the level has too many is
lost, or sets the bit that is set in any case. -/
theorem dpl_handlerGate (handler maxAccessibleFromPL : Word) :
    (handlerGate 0x8e00 handler maxAccessibleFromPL).dpl = maxAccessibleFromPL.setWidth 2 := by
  have clear : ∀ i < 2, (0x8e00 : Half).getLsbD (13 + i) = false := by decide
  refine BitVec.eq_of_getLsbD_eq fun i bound => ?_
  have inside : 13 + i < 16 ∧ ¬13 + i < 13 ∧ i < 16 := by omega
  rw [Gate.dpl, handlerGate, BitVec.getLsbD_extractLsb', BitVec.getLsbD_or, clear i bound]
  simp [bound, inside]

theorem cleared_handlerGate (handler maxAccessibleFromPL : Word) :
    (handlerGate 0x8e00 handler maxAccessibleFromPL).cleared = some 0x34300 := by
  have present : (handlerGate 0x8e00 handler maxAccessibleFromPL).present = true := by
    rw [Gate.present, handlerGate, BitVec.getLsbD_or]
    exact Bool.or_true _
  have low : ∀ i < 5,
      ((maxAccessibleFromPL <<< 13).setWidth 16 : Half).getLsbD (8 + i) = false := by
    intro i small
    simp
    omega
  have type : (handlerGate 0x8e00 handler maxAccessibleFromPL).flags.extractLsb' 8 5 = 0b01110 := by
    have bits : ∀ i : Fin 5, (0x8e00 : Half).getLsbD (8 + i) = (0b01110 : BitVec 5).getLsbD i := by
      decide
    refine BitVec.eq_of_getLsbD_eq fun i bound => ?_
    rw [handlerGate, BitVec.getLsbD_extractLsb', BitVec.getLsbD_or, low i bound, bits ⟨i, bound⟩]
    simp [bound]
  rw [Gate.cleared, present, type]
  rfl
/-! ## What the initialisation leaves -/

variable {place : Placement} {mem mem' : X86.Memory} {registrations : List Registration}
  {vector : Byte} {assignments : List Assignment} {tables : Tables} {m : Machine} {ring : Ring}

theorem descriptorAt_setGdt (place : Placement) (cpu : Processor) :
    descriptorAt (setGdt place cpu).mem (gdtEntry 4) =
      { descriptorAt cpu.mem (gdtEntry 4) with
        lowBase := lowWord place.tss
        midBase := midByte place.tss
        highBase := highByte place.tss } := by
  have entry : gdtEntry 4 = 0x901e3 := by decide
  simp [setGdt, entry, descriptorAt, loadHalf, storeHalf, storeByte, bytes_half]

theorem frames_setGdt (place : Placement) (cpu : Processor) :
    Frames (gdtEntry 4) 8 cpu.mem (setGdt place cpu).mem := by
  have low : Frames (gdtEntry 4) 8 cpu.mem _ :=
    (@Frames.storeHalf _ (gdtEntry 4 + 2) (lowWord place.tss) (by decide)).mono
      (by decide) (by decide)
  have mid : ∀ mem, Frames (gdtEntry 4) 8 mem _ := fun mem =>
    (@Frames.storeByte _ (gdtEntry 4 + 4) (midByte place.tss)).mono (by decide) (by decide)
  have high : ∀ mem, Frames (gdtEntry 4) 8 mem _ := fun mem =>
    (@Frames.storeByte _ (gdtEntry 4 + 7) (highByte place.tss)).mono (by decide) (by decide)
  exact low.trans ((mid _).trans (high _))

/-- The call that counts for a vector. -/
def lastFor (registrations : List Registration) (vector : Byte) : Option Registration :=
  registrations.reverse.find? fun r => r.vector = vector

/-- Both kinds of handlers get a gate for interrupts. -/
def Registration.gate (r : Registration) : Gate :=
  handlerGate 0x8e00 r.handler r.maxAccessibleFromPL

theorem Registration.perform_eq (idt : Word) (mem : X86.Memory) (r : Registration) :
    r.perform idt mem = storeGate mem (idt + BitVec.ofNat 32 (8 * r.vector.toNat)) r.gate := by
  rw [perform]
  split
  · rfl
  · rfl

theorem Placement.toNat_gate (place : Placement) (vector : Byte) :
    (place.idt + BitVec.ofNat 32 (8 * vector.toNat)).toNat = place.idt.toNat + 8 * vector.toNat ∧
      8 * vector.toNat + 8 ≤ 8 * 256 := by
  have bound := vector.isLt
  have system := place.idt_system
  simp only [pageSize, pagLogInitCode] at system
  exact ⟨toNat_advance _ _ (by omega), by omega⟩

theorem Registration.frames (place : Placement) (mem : X86.Memory) (r : Registration) :
    Frames place.idt (8 * 256) mem (r.perform place.idt mem) := by
  obtain ⟨start, inside⟩ := place.toNat_gate r.vector
  have system := place.idt_system
  simp only [pageSize, pagLogInitCode] at system
  rw [perform_eq]
  exact (frames_storeGate _ (by omega)).mono (by omega) (by omega)

theorem frames_registrations (place : Placement) (mem : X86.Memory) :
    Frames place.idt (8 * 256) mem (registrations.foldl (Registration.perform place.idt) mem) := by
  induction registrations generalizing mem with
  | nil => exact .refl _ _ _
  | cons r registrations induction =>
      rw [List.foldl_cons]
      exact (r.frames place mem).trans (induction _)

/-- The gate of a vector is that of the last call for it. -/
theorem gateAt_registrations {r : Registration} (last : lastFor registrations vector = some r)
    (mem : X86.Memory) :
    gateAt (registrations.foldl (Registration.perform place.idt) mem)
      (place.idt + BitVec.ofNat 32 (8 * vector.toNat)) = r.gate := by
  induction registrations using List.reverseRecOn with
  | nil => exact absurd last (by simp [lastFor])
  | append_singleton registrations r' induction =>
      obtain ⟨start, inside⟩ := place.toNat_gate vector
      obtain ⟨start', inside'⟩ := place.toNat_gate r'.vector
      have system := place.idt_system
      simp only [pageSize, pagLogInitCode] at system
      rw [lastFor, List.reverse_append, List.reverse_singleton, List.singleton_append,
        List.find?_cons] at last
      rw [List.foldl_append, List.foldl_cons, List.foldl_nil, Registration.perform_eq]
      by_cases same : r'.vector = vector
      · simp only [same, decide_true] at last
        obtain rfl : r' = r := Option.some.inj last
        rw [same]
        exact gateAt_storeGate _ (by omega)
      · simp only [same, decide_false] at last
        have differ : r'.vector.toNat ≠ vector.toNat :=
          fun equal => same (BitVec.eq_of_toNat_eq equal)
        rw [← induction last]
        exact gateAt_congr (by omega) fun a low high =>
          frames_storeGate _ (by omega) a (by omega)

theorem Assignment.frames (place : Placement) (mem : X86.Memory) {assignment : Assignment}
    (inside : assignment.offset + assignment.size ≤ 104) :
    ∀ a : Word, a.toNat < place.tss.toNat + assignment.offset ∨
      place.tss.toNat + assignment.offset + assignment.size ≤ a.toNat →
        assignment.perform place.tss mem a = mem a := by
  have system := place.tss_system
  simp only [pageSize, pagLogInitCode] at system
  cases assignment with
  | half offset value =>
      simp only [Assignment.offset, Assignment.size] at inside ⊢
      have start := toNat_advance place.tss offset (by omega)
      exact fun a outside => Frames.storeHalf (by omega) a (by omega)
  | word offset value =>
      simp only [Assignment.offset, Assignment.size] at inside ⊢
      have start := toNat_advance place.tss offset (by omega)
      exact fun a outside => Frames.store (by omega) a (by omega)

theorem frames_assignments (place : Placement) (mem : X86.Memory)
    (inside : ∀ assignment ∈ assignments, assignment.offset + assignment.size ≤ 104) :
    Frames place.tss 104 mem (assignments.foldl (Assignment.perform place.tss) mem) := by
  induction assignments generalizing mem with
  | nil => exact .refl _ _ _
  | cons assignment assignments induction =>
      have first := inside assignment List.mem_cons_self
      rw [List.foldl_cons]
      refine Frames.trans (fun a outside => ?_)
        (induction _ fun other member => inside other (List.mem_cons_of_mem _ member))
      exact assignment.frames place mem first a (by omega)

/-- Assignments to other fields than `ss0`. -/
theorem ss0_assignments (place : Placement) (mem : X86.Memory)
    (other : ∀ assignment ∈ assignments, assignment.offset + assignment.size ≤ 104 ∧
      (10 ≤ assignment.offset ∨ assignment.offset + assignment.size ≤ 8)) :
    loadHalf (assignments.foldl (Assignment.perform place.tss) mem) (place.tss + 8) =
      loadHalf mem (place.tss + 8) := by
  induction assignments generalizing mem with
  | nil => rfl
  | cons assignment assignments induction =>
      obtain ⟨inside, apart⟩ := other assignment List.mem_cons_self
      have system := place.tss_system
      simp only [pageSize, pagLogInitCode] at system
      have start : (place.tss + 8).toNat = place.tss.toNat + 8 :=
        toNat_add _ 8 (by show _ + 8 < _; omega)
      rw [List.foldl_cons, induction _ fun a member => other a (List.mem_cons_of_mem _ member)]
      exact loadHalf_congr (by omega) fun a low high =>
        assignment.frames place mem inside a (by omega)

/-- The processor as it needs to be for interrupts. -/
structure Installed (place : Placement) (registrations : List Registration) (tables : Tables)
    (mem : X86.Memory) : Prop where
  tables : tables = ⟨⟨256 * 8, gdtStart⟩, ⟨256 * 8 - 1, place.idt⟩, kernelTss⟩
  segments : ∀ i : Fin 4, descriptorAt mem (gdtEntry i.castSucc) = bootGdt i.castSucc
  tss : descriptorAt mem (gdtEntry 4) =
    ⟨104, lowWord place.tss, midByte place.tss, 0x8b, 0, highByte place.tss⟩
  ss0 : loadHalf mem (place.tss + 8) = kernelDs
  gates : ∀ vector r, lastFor registrations vector = some r →
    gateAt mem (place.idt + BitVec.ofNat 32 (8 * vector.toNat)) = r.gate

/-- The bytes of the tables, but for the stack pointer in the task state segment. -/
def KeepsTables (place : Placement) (mem mem' : X86.Memory) : Prop :=
  ∀ a : Word, gdtStart.toNat ≤ a.toNat ∧ a.toNat < gdtStart.toNat + 56 ∨
    place.idt.toNat ≤ a.toNat ∧ a.toNat < place.idt.toNat + 8 * 256 ∨
    place.tss.toNat + 8 ≤ a.toNat ∧ a.toNat < place.tss.toNat + 10 → mem' a = mem a

theorem toNat_gdtEntry (i : Fin 5) : (gdtEntry i).toNat = gdtStart.toNat + 8 * (i + 2) := by
  revert i
  decide

theorem descriptorAt_entry_congr {i : Fin 5}
    (same : ∀ a : Word, gdtStart.toNat ≤ a.toNat → a.toNat < gdtStart.toNat + 56 →
      mem' a = mem a) :
    descriptorAt mem' (gdtEntry i) = descriptorAt mem (gdtEntry i) := by
  have entry := toNat_gdtEntry i
  have start : gdtStart.toNat = 0x901b3 := rfl
  have bound := i.isLt
  exact descriptorAt_congr (by omega) fun a low high => same a (by omega) (by omega)

theorem Installed.congr (installed : Installed place registrations tables mem)
    (keeps : KeepsTables place mem mem') : Installed place registrations tables mem' where
  tables := installed.tables
  segments i := by
    rw [← installed.segments i]
    exact descriptorAt_entry_congr fun a low high => keeps a (.inl ⟨low, high⟩)
  tss := by
    rw [← installed.tss]
    exact descriptorAt_entry_congr fun a low high => keeps a (.inl ⟨low, high⟩)
  ss0 := by
    have system := place.tss_system
    simp only [pageSize, pagLogInitCode] at system
    have start : (place.tss + 8).toNat = place.tss.toNat + 8 :=
      toNat_add _ 8 (by show _ + 8 < _; omega)
    rw [← installed.ss0]
    exact loadHalf_congr (by omega) fun a low high => keeps a (.inr (.inr (by omega)))
  gates vector r last := by
    obtain ⟨start, inside⟩ := place.toNat_gate vector
    have system := place.idt_system
    simp only [pageSize, pagLogInitCode] at system
    rw [← installed.gates vector r last]
    exact gateAt_congr (by omega) fun a low high => keeps a (.inr (.inl (by omega)))

/-- The selectors of the entries. -/
def selector : Fin 5 → Half
  | 0 => 0x10
  | 1 => kernelDs
  | 2 => 0x23
  | 3 => 0x2b
  | 4 => kernelTss

theorem segment_selector (mem : X86.Memory) (i : Fin 5) :
    segmentOf ⟨256 * 8, gdtStart⟩ mem (selector i) = some (descriptorAt mem (gdtEntry i)) := by
  have valid : ¬((selector i).extractLsb' 3 13 = 0 ∨ (selector i).getLsbD 2 = true ∨
      (256 * 8 : Half) < selector i ||| 7) := by
    revert i
    decide
  have place : gdtStart + (selector i &&& 0xfff8).setWidth 32 = gdtEntry i := by
    revert i
    decide
  rw [segmentOf, if_neg valid, place]

theorem frames_fillTss (place : Placement) (mem : X86.Memory) :
    Frames place.tss 104 mem (fillTss place mem) := by
  have one : ∀ mem, ∀ assignment : Assignment, assignment.offset + assignment.size ≤ 104 →
      Frames place.tss 104 mem (assignment.perform place.tss mem) :=
    fun mem assignment inside a outside => assignment.frames place mem inside a (by omega)
  exact (frames_assignments place _ (by simp [beforeSs0, Assignment.offset, Assignment.size])).trans
    ((one _ _ (by decide)).trans ((frames_assignments place _ (by decide)).trans
      ((one _ _ (by simp [Assignment.offset, Assignment.size])).trans
        (frames_assignments place _ (by decide)))))

theorem ss0_fillTss (place : Placement) (mem : X86.Memory) :
    loadHalf (fillTss place mem) (place.tss + 8) = kernelDs := by
  have ebp : ∀ mem value, loadHalf (Assignment.perform place.tss mem (.word 60 value))
      (place.tss + 8) = loadHalf mem (place.tss + 8) := fun mem value =>
    @ss0_assignments [.word 60 value] place mem
      (by simp [Assignment.offset, Assignment.size])
  rw [fillTss, ss0_assignments place _ (by decide), ebp, ss0_assignments place _ (by decide)]
  exact loadHalf_storeHalf_same

/-- `ltr` marks the task state segment as busy. -/
theorem ltr_kernelTss {low : Half} {mid high : Byte}
    (available : descriptorAt mem (gdtEntry 4) = ⟨104, low, mid, 0x89, 0, high⟩) :
    ∃ mem', ltr ⟨256 * 8, gdtStart⟩ kernelTss mem = some mem' ∧ Frames (gdtEntry 4) 8 mem mem' ∧
      descriptorAt mem' (gdtEntry 4) = ⟨104, low, mid, 0x8b, 0, high⟩ := by
  have found := segment_selector mem 4
  rw [available] at found
  have entry : gdtEntry 4 = 0x901e3 := by decide
  have busy : descriptorAt (storeByte mem (gdtEntry 4 + 5) 0x8b) (gdtEntry 4) =
      { descriptorAt mem (gdtEntry 4) with flags1 := 0x8b } := by
    simp [entry, descriptorAt, loadHalf, storeByte]
  refine ⟨storeByte mem (gdtEntry 4 + 5) 0x8b, ?_, ?_, ?_⟩
  · have place : gdtStart + (kernelTss &&& 0xfff8).setWidth 32 = gdtEntry 4 := by decide
    rw [ltr, show segmentOf ⟨256 * 8, gdtStart⟩ mem kernelTss = _ from found]
    simp only [Option.bind_eq_bind, Option.bind_some]
    have type : (Descriptor.present ⟨104, low, mid, 0x89, 0, high⟩ &&
        decide ((0x89 : Byte).extractLsb' 0 5 = 0b01001)) = true :=
      show ((0x89 : Byte).getLsbD 7 && decide ((0x89 : Byte).extractLsb' 0 5 = 0b01001)) = true by
        decide
    rw [if_pos type, place]
    rfl
  · exact (@Frames.storeByte _ (gdtEntry 4 + 5) 0x8b).mono (by decide) (by decide)
  · rw [busy, available]

/-- The last part of the initialisation. -/
theorem setTss_installs {cpu : Processor}
    (gdtr : cpu.tables.gdtr = ⟨256 * 8, gdtStart⟩)
    (idtr : cpu.tables.idtr = ⟨256 * 8 - 1, place.idt⟩)
    (segments : ∀ i : Fin 4, descriptorAt cpu.mem (gdtEntry i.castSucc) = bootGdt i.castSucc)
    (tss : descriptorAt cpu.mem (gdtEntry 4) =
      ⟨104, lowWord place.tss, midByte place.tss, 0x89, 0, highByte place.tss⟩)
    (gates : ∀ vector r, lastFor registrations vector = some r →
      gateAt cpu.mem (place.idt + BitVec.ofNat 32 (8 * vector.toNat)) = r.gate) :
    ∃ cpu', setTss place cpu = some cpu' ∧
      Installed place registrations cpu'.tables cpu'.mem := by
  have apart := place.apart
  have idt_gdt := place.idt_gdt
  have tss_gdt := place.tss_gdt
  have idt_system := place.idt_system
  have tss_system := place.tss_system
  have start : gdtStart.toNat = 0x901b3 := rfl
  have entries := toNat_gdtEntry
  have last : (gdtEntry 4).toNat = 0x901e3 := by decide
  simp only [pageSize, pagLogInitCode] at idt_system tss_system
  have filled := frames_fillTss place cpu.mem
  have ss0 := ss0_fillTss place cpu.mem
  have entry : ∀ i, descriptorAt (fillTss place cpu.mem) (gdtEntry i) =
      descriptorAt cpu.mem (gdtEntry i) := by
    intro i
    have address := entries i
    have bound := i.isLt
    exact descriptorAt_congr (by omega) fun a low high => filled a (by omega)
  obtain ⟨mem', loaded, marked, busy⟩ := ltr_kernelTss ((entry 4).trans tss)
  refine ⟨{ cpu with mem := mem', tables := { cpu.tables with tr := kernelTss } }, ?_, ?_⟩
  · rw [setTss, gdtr, loaded]
    rfl
  · refine ⟨?_, fun i => ?_, busy, ?_, fun vector r counts => ?_⟩
    · show Tables.mk cpu.tables.gdtr cpu.tables.idtr kernelTss = _
      rw [gdtr, idtr]
    · have address := entries i.castSucc
      have bound := i.isLt
      rw [← segments i, ← entry i.castSucc]
      refine descriptorAt_congr ?_ fun a low high => marked a ?_
      all_goals
        rw [Fin.val_castSucc] at address
        omega
    · have field : (place.tss + 8).toNat = place.tss.toNat + 8 :=
        toNat_add _ 8 (by show _ + 8 < _; omega)
      rw [← ss0]
      exact loadHalf_congr (by omega) fun a low high => marked a (by omega)
    · obtain ⟨address, inside⟩ := place.toNat_gate vector
      rw [← gates vector r counts]
      exact gateAt_congr (by omega) fun a low high =>
        (marked a (by omega)).trans (filled a (by omega))

/-- After the initialisation interrupts find their way. -/
theorem initHardware_installs (place : Placement) (setHandlers : List Registration)
    (cpu : Processor) (boots : HasBootGdt cpu.mem) :
    ∃ cpu', initHardware place setHandlers cpu = some cpu' ∧
      Installed place (setHandlers ++ place.ownHandlers) cpu'.tables cpu'.mem := by
  have idt_gdt := place.idt_gdt
  have start : gdtStart.toNat = 0x901b3 := rfl
  have last : (gdtEntry 4).toNat = 0x901e3 := by decide
  have entries := toNat_gdtEntry
  have gdt := frames_setGdt place cpu
  have filled : (setIdt place setHandlers (setGdt place cpu)).mem =
      (setHandlers ++ place.ownHandlers).foldl (Registration.perform place.idt)
        (setGdt place cpu).mem := by
    rw [List.foldl_append]
    rfl
  have idt := @frames_registrations (setHandlers ++ place.ownHandlers) place (setGdt place cpu).mem
  have entry : ∀ i, descriptorAt (setIdt place setHandlers (setGdt place cpu)).mem (gdtEntry i) =
      descriptorAt (setGdt place cpu).mem (gdtEntry i) := by
    intro i
    have address := entries i
    have bound := i.isLt
    rw [filled]
    exact descriptorAt_congr (by omega) fun a low high => idt a (by omega)
  refine setTss_installs rfl rfl (fun i => ?_) ?_ fun vector r counts => ?_
  · have address := entries i.castSucc
    have bound := i.isLt
    rw [Fin.val_castSucc] at address
    rw [entry, ← boots i.castSucc]
    exact descriptorAt_congr (by omega) fun a low high => gdt a (by omega)
  · rw [entry, descriptorAt_setGdt, boots 4]
    rfl
  · rw [filled]
    exact gateAt_registrations counts _

/-! ## Through the tables -/

/-- The selector of the code that is interrupted. -/
def Ring.cs : Ring → Half
  | .user => 0x23
  | .system => 0x10

/-- The selector of the stack of that code. -/
def Ring.ss : Ring → Half
  | .user => 0x2b
  | .system => kernelDs

theorem run_eip (code : List Instr) (m : Machine) (eip : Word) :
    Machine.run code { m with eip } = { Machine.run code m with eip } := by
  induction code generalizing m with
  | nil => rfl
  | cons instr code induction =>
      rw [Machine.run_cons, Machine.run_cons, ← induction]
      cases instr <;> rfl

namespace Installed

theorem gate (installed : Installed place registrations tables mem) {r : Registration}
    (last : lastFor registrations vector = some r) : tables.gate mem vector = some r.gate := by
  have bound := vector.isLt
  have limit : (256 * 8 - 1 : Half).toNat = 2047 := by decide
  rw [Tables.gate, installed.tables]
  dsimp only
  rw [if_neg (by omega), installed.gates vector r last]

theorem segment (installed : Installed place registrations tables mem) (i : Fin 4) :
    Segmentation.segmentOf tables.gdtr mem (selector i.castSucc) = some (bootGdt i.castSucc) := by
  rw [installed.tables, segment_selector, installed.segments i]

/-- The stack of the kernel is where `tss.esp0` leads. -/
theorem innerStack (installed : Installed place registrations tables mem) :
    tables.innerStack mem 0 = some (kernelDs, load mem (place.tss + 4)) := by
  have tss : Segmentation.segmentOf tables.gdtr mem tables.tr = some ⟨104, lowWord place.tss,
      midByte place.tss, 0x8b, 0, highByte place.tss⟩ := by
    have found := segment_selector mem 4
    rw [installed.tss] at found
    rw [installed.tables]
    exact found
  have usable : ¬(!Descriptor.isBusyTss ⟨104, lowWord place.tss, midByte place.tss, 0x8b, 0,
      highByte place.tss⟩ || decide ((104 : Half).toNat < 8 * (0 : BitVec 2).toNat + 9)) = true :=
    show ¬(!((0x8b : Byte).getLsbD 7 && decide ((0x8b : Byte).extractLsb' 0 5 = 0b01011)) ||
      decide ((104 : Half).toNat < 8 * (0 : BitVec 2).toNat + 9)) = true by decide
  have data : Segmentation.segmentOf tables.gdtr mem kernelDs = some (bootGdt 1) :=
    installed.segment 1
  rw [Tables.innerStack, tss]
  simp only [Option.bind_eq_bind, Option.bind_some]
  have field : BitVec.ofNat 32 (8 * (0 : BitVec 2).toNat + 8) = (8 : Word) := by decide
  rw [if_neg usable, base_of_bytes, field, installed.ss0, data, Option.bind_some,
    if_pos (by decide)]
  rfl

/-- A vector leads to the handler of the last call for it, on the stack of the thread. -/
theorem deliver (installed : Installed place registrations tables m.mem) {k : Unions}
    (esp0 : k.esp0 = place.tss + 4) {r : Registration}
    (last : lastFor registrations vector = some r) (ring : Ring) (cause : Cause) :
    Segmentation.deliver tables cause vector ⟨ring.cs, ring.ss, m⟩ =
      if cause = .instruction ∧ ring = .user ∧ r.maxAccessibleFromPL.setWidth 2 ≠ (3 : BitVec 2)
      then none
      else some ⟨0x10, kernelDs, { interrupt k ring m with eip := r.handler }⟩ := by
  have code : Segmentation.segmentOf tables.gdtr m.mem 0x10 = some (bootGdt 0) :=
    installed.segment 0
  have cleared : r.gate.cleared = some 0x34300 := cleared_handlerGate _ _
  have dpl : r.gate.dpl = r.maxAccessibleFromPL.setWidth 2 := dpl_handlerGate _ _
  have offset : r.gate.offset = r.handler := offset_handlerGate _ _ _
  have selects : r.gate.segmentSelector = 0x10 := rfl
  rw [Segmentation.deliver]
  simp only [Option.bind_eq_bind, installed.gate last, Option.bind_some, cleared, selects, code,
    dpl, offset]
  have entered : ∀ ring : Ring, { interrupt k ring m with eip := r.handler } =
      Machine.run (pushValues (ring.words m).reverse) { ring.start k m with eip := r.handler } :=
    fun ring => (run_eip _ _ _).symm
  have usable : ∀ ring : Ring,
      ¬(!(bootGdt 0).isCode || decide (rpl ring.cs < (bootGdt 0).dpl)) = true := by
    rintro (_ | _) <;> decide
  rw [entered ring, if_neg (usable ring)]
  cases ring with
  | user =>
      have below : ∀ level : BitVec 2, level < rpl Ring.user.cs ↔ level ≠ 3 := by decide
      have level : (bootGdt 0).dpl = 0 := by decide
      simp only [below, true_and]
      split
      · rfl
      · rw [if_pos (by decide), level, installed.innerStack, ← esp0]
        rfl
  | system =>
      have below : ∀ level : BitVec 2, ¬level < rpl Ring.system.cs := by decide
      rw [if_neg (fun refused => below _ refused.2), if_neg (by decide),
        if_neg (fun refused => absurd refused.2.1 (by decide))]
      rfl

/-- `iret` leads back to where an interrupt came from. -/
theorem interruptReturn (installed : Installed place registrations tables m.mem) (ring : Ring)
    (left : Machine) (stack : m.Stack (ring.words left))
    (nested : (m.reg .eflags).getLsbD 14 = false)
    (virtual : (left.reg .eflags).getLsbD 17 = false) :
    Segmentation.interruptReturn tables.gdtr ⟨0x10, kernelDs, m⟩ =
      some ⟨ring.cs, ring.ss, iret m⟩ := by
  have words : ∃ rest, ring.words left =
      left.eip :: ring.cs.setWidth 32 :: left.reg .eflags :: rest := by
    cases ring <;> exact ⟨_, rfl⟩
  obtain ⟨rest, words⟩ := words
  have stack' := words ▸ stack
  have code : load m.mem (m.reg .esp + 4) = ring.cs.setWidth 32 := stack'.tail.head
  have flags : load m.mem (m.reg .esp + 8) = left.reg .eflags := by
    have loaded := stack'.tail.tail.head
    rwa [BitVec.add_assoc] at loaded
  have cs : loadHalf m.mem (m.reg .esp + 4) = ring.cs := by
    rw [loadHalf_eq, code]
    cases ring <;> decide
  rw [Segmentation.interruptReturn]
  simp only [Option.bind_eq_bind, cs, flags, nested, virtual]
  rw [iret, code, flags]
  cases ring with
  | user =>
      have data : loadHalf m.mem (m.reg .esp + 16) = 0x2b := by
        have loaded := stack.tail.tail.tail.tail.head
        rw [BitVec.add_assoc, BitVec.add_assoc, BitVec.add_assoc] at loaded
        rw [loadHalf_eq, show m.reg .esp + 16 = m.reg .esp + (4 + (4 + (4 + 4))) from rfl, loaded]
        decide
      have userCode : Segmentation.segmentOf tables.gdtr m.mem Ring.user.cs = some (bootGdt 2) :=
        installed.segment 2
      have userData : Segmentation.segmentOf tables.gdtr m.mem 0x2b = some (bootGdt 3) :=
        installed.segment 3
      have usable : ¬(!(bootGdt 2).isCode || decide ((bootGdt 2).dpl ≠ rpl Ring.user.cs) ||
          decide (rpl Ring.user.cs < rpl 0x10)) = true := by decide
      rw [userCode, Option.bind_some, if_neg (by simp), if_neg usable, if_pos (by decide), data,
        userData, Option.bind_some, if_pos (by decide), if_neg (by decide)]
      rfl
  | system =>
      have systemCode : Segmentation.segmentOf tables.gdtr m.mem Ring.system.cs =
          some (bootGdt 0) :=
        installed.segment 0
      have usable : ¬(!(bootGdt 0).isCode || decide ((bootGdt 0).dpl ≠ rpl Ring.system.cs) ||
          decide (rpl Ring.system.cs < rpl 0x10)) = true := by decide
      rw [systemCode, Option.bind_some, if_neg (by simp), if_neg usable, if_neg (by decide),
        if_pos (by decide)]
      rfl

end Installed

/-- The handlers of the clock and of the keyboard are the last ones for their vectors. -/
theorem lastFor_ownHandlers (place : Placement) (setHandlers : List Registration) :
    lastFor (setHandlers ++ place.ownHandlers) 32 = some ⟨false, 32, place.clockHandler, 0⟩ ∧
      lastFor (setHandlers ++ place.ownHandlers) 33 =
        some ⟨false, 33, place.keyboardHandler, 0⟩ := by
  simp [lastFor, Placement.ownHandlers]

/-- After the initialisation, and as long as the tables are left alone, interrupts enter the
handlers and are left by `iret` as in the runs of the threads.  For each vector the last call
counts, and a program reaches its handler with `int` only if the call admits level 3. -/
theorem interrupts_of_tables (place : Placement) (setHandlers : List Registration)
    (cpu : Processor) (boots : HasBootGdt cpu.mem) :
    ∃ cpu', initHardware place setHandlers cpu = some cpu' ∧
      ∀ (k : Unions) (m : Machine), k.esp0 = place.tss + 4 → KeepsTables place cpu'.mem m.mem →
        (∀ ring cause vector r, lastFor (setHandlers ++ place.ownHandlers) vector = some r →
          deliver cpu'.tables cause vector ⟨ring.cs, ring.ss, m⟩ =
            if cause = .instruction ∧ ring = .user ∧
              r.maxAccessibleFromPL.setWidth 2 ≠ (3 : BitVec 2) then none
            else some ⟨0x10, kernelDs, { interrupt k ring m with eip := r.handler }⟩) ∧
        ∀ (ring : Ring) (left : Machine), m.Stack (ring.words left) →
          (m.reg .eflags).getLsbD 14 = false → (left.reg .eflags).getLsbD 17 = false →
          interruptReturn cpu'.tables.gdtr ⟨0x10, kernelDs, m⟩ =
            some ⟨ring.cs, ring.ss, iret m⟩ := by
  obtain ⟨cpu', initialised, installed⟩ := initHardware_installs place setHandlers cpu boots
  refine ⟨cpu', initialised, fun k m esp0 keeps => ?_⟩
  have installed' := installed.congr keeps
  exact ⟨fun ring cause vector r last => installed'.deliver esp0 last ring cause,
    fun ring left stack nested virtual => installed'.interruptReturn ring left stack nested virtual⟩

def plainPlacement : Placement where
  idt := 0x10100
  tss := 0x10000
  initialEsp := 0x33000
  clockHandler := 0x12000
  keyboardHandler := 0x12100
  systemCallHandler := 0x12200
  idt_system := by decide
  tss_system := by decide
  apart := by decide
  idt_gdt := by decide
  tss_gdt := by decide

/-- The processor in front of `main`. -/
def plainProcessor : Processor where
  mem a := ([0xff, 0xff, 0, 0, 0, 0x9a, 0xcf, 0, 0xff, 0xff, 0, 0, 0, 0x92, 0xcf, 0, 0xff, 0xff, 0,
    0, 0, 0xfa, 0xcf, 0, 0xff, 0xff, 0, 0, 0, 0xf2, 0xcf, 0, 104, 0, 0, 0, 0, 0x89, 0, 0] :
      List Byte).getD (a - gdtEntry 0).toNat 0
  tables := ⟨⟨0x8000, gdtStart⟩, ⟨0, 0⟩, 0⟩
  msr := fun _ => 0

/-- A handler that has come back to what the processor has pushed below 0x33000. -/
theorem exists_interrupted (m : Machine) (mem : X86.Memory) : ∃ m' : Machine,
    m'.Stack (Ring.user.words m) ∧ m'.reg .eflags = 0 ∧
      KeepsTables plainPlacement mem m'.mem := by
  set top : Machine := ⟨fun r => if r = .esp then 0x33000 else 0, 0x12000, mem⟩
  have esp : (top.reg .esp).toNat = 0x33000 := rfl
  have length : (Ring.user.words m).reverse.length = 5 := rfl
  have pushed : Machine.Pushed top (Machine.run (pushValues (Ring.user.words m).reverse) top)
      ((Ring.user.words m).reverse.reverse ++ []) :=
    (Machine.Pushed.refl top).values (by rw [esp, length]; decide)
  rw [List.reverse_reverse, List.append_nil] at pushed
  refine ⟨_, pushed.stack, pushed.regs .eflags (by decide), fun a table => ?_⟩
  have gdt : gdtStart.toNat = 0x901b3 := rfl
  have idt : plainPlacement.idt.toNat = 0x10100 := rfl
  have tss : plainPlacement.tss.toNat = 0x10000 := rfl
  refine Machine.mem_run_of_grows (grows_pushValues _) ?_ ?_
  · rw [countP_pushValues, esp, length]
    decide
  · rw [countP_pushValues, esp, length]
    omega

/-- The clock interrupts a program, which cannot call the handler of the clock itself, but one that
it may call; and the handler goes back to the program. -/
theorem interrupts_of_tables_clock : ∃ cpu' m m',
    initHardware plainPlacement [⟨true, 0x80, 0x14000, 3⟩] plainProcessor = some cpu' ∧
      deliver cpu'.tables .hardware 32 ⟨0x23, 0x2b, m⟩ = some ⟨0x10, kernelDs,
        { interrupt plainProgram.toUnions .user m with eip := 0x12000 }⟩ ∧
      deliver cpu'.tables .instruction 32 ⟨0x23, 0x2b, m⟩ = none ∧
      deliver cpu'.tables .instruction 0x80 ⟨0x23, 0x2b, m⟩ = some ⟨0x10, kernelDs,
        { interrupt plainProgram.toUnions .user m with eip := 0x14000 }⟩ ∧
      m'.Stack (Ring.user.words m) ∧
      interruptReturn cpu'.tables.gdtr ⟨0x10, kernelDs, m'⟩ = some ⟨0x23, 0x2b, iret m'⟩ := by
  obtain ⟨cpu', initialised, through⟩ := interrupts_of_tables plainPlacement
    [⟨true, 0x80, 0x14000, 3⟩] plainProcessor (by intro i; revert i; decide)
  obtain ⟨enters, _⟩ := through plainProgram.toUnions ⟨fun _ => 0, 0x100000, cpu'.mem⟩ rfl
    fun _ _ => rfl
  have clock := (lastFor_ownHandlers plainPlacement [⟨true, 0x80, 0x14000, 3⟩]).1
  obtain ⟨m', pushed, flags, keeps⟩ :=
    exists_interrupted ⟨fun _ => 0, 0x100000, cpu'.mem⟩ cpu'.mem
  obtain ⟨_, returns⟩ := through plainProgram.toUnions m' rfl keeps
  exact ⟨cpu', _, m', initialised, enters .user .hardware 32 _ clock,
    enters .user .instruction 32 _ clock, enters .user .instruction 0x80 _ rfl, pushed,
    returns .user _ pushed (by rw [flags]; decide)
      (show (0 : Word).getLsbD 17 = false by decide)⟩

end Zeos.Asm
