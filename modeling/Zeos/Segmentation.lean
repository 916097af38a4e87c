import Zeos.CallingConvention

/-!
# Segments, gates and privilege levels

What the processor does in protected mode for an interrupt and for `iret`: it finds segments and
gates in tables in memory, compares privilege levels and changes the stack.  Only flat segments of
4 GB are taken to be usable, and code only with its own privilege.
-/

namespace Segmentation

open X86

/-! ## Bytes and pairs of bytes -/

abbrev Half := BitVec 16

def loadHalf (mem : Memory) (addr : Word) : Half := mem (addr + 1) ++ mem addr

def storeHalf (mem : Memory) (addr : Word) (value : Half) : Memory := fun a =>
  if (a - addr).toNat < 2 then value.extractLsb' (8 * (a - addr).toNat) 8 else mem a

def storeByte (mem : Memory) (addr : Word) (value : Byte) : Memory := Function.update mem addr value

variable {mem mem' mem'' : Memory} {addr a : Word} {size size' : Nat} {half : Half} {value : Word}

theorem bytes_half (half : Half) : half.extractLsb' 8 8 ++ half.extractLsb' 0 8 = half := by
  ext i bound
  simp only [BitVec.getElem_append, BitVec.getElem_extractLsb']
  split_ifs with low
  · rw [Nat.zero_add]
    exact BitVec.getLsbD_eq_getElem bound
  · rw [show 8 + (i - 8) = i by omega]
    exact BitVec.getLsbD_eq_getElem bound

@[simp]
theorem loadHalf_storeHalf_same : loadHalf (storeHalf mem addr half) addr = half := by
  have next : addr + 1 - addr = 1 := by rw [BitVec.add_comm, BitVec.add_sub_cancel]
  have first : addr - addr = 0 := BitVec.sub_self addr
  simp only [loadHalf, storeHalf, next, first]
  exact bytes_half half

/-- Only the bytes of a region may have changed. -/
def Frames (addr : Word) (size : Nat) (mem mem' : Memory) : Prop :=
  ∀ a : Word, a.toNat < addr.toNat ∨ addr.toNat + size ≤ a.toNat → mem' a = mem a

namespace Frames

theorem refl (addr : Word) (size : Nat) (mem : Memory) : Frames addr size mem mem := fun _ _ => rfl

theorem trans (first : Frames addr size mem mem') (second : Frames addr size mem' mem'') :
    Frames addr size mem mem'' := fun a outside => (second a outside).trans (first a outside)

theorem mono (frames : Frames a size mem mem') (low : addr.toNat ≤ a.toNat)
    (high : a.toNat + size ≤ addr.toNat + size') : Frames addr size' mem mem' :=
  fun _ outside => frames _ (by omega)

theorem storeByte (value : Byte) : Frames addr 1 mem (storeByte mem addr value) := by
  intro a outside
  refine Function.update_of_ne ?_ _ _
  rintro rfl
  omega

theorem storeHalf (inside : addr.toNat + 2 ≤ 2 ^ 32) :
    Frames addr 2 mem (storeHalf mem addr half) := by
  intro a outside
  have bound := a.isLt
  rw [Segmentation.storeHalf, if_neg]
  rw [BitVec.toNat_sub]
  omega

theorem store (inside : addr.toNat + 4 ≤ 2 ^ 32) : Frames addr 4 mem (X86.store mem addr value) :=
  fun _ outside => store_other inside outside

end Frames

theorem loadHalf_congr (inside : addr.toNat + 2 ≤ 2 ^ 32)
    (same : ∀ a : Word, addr.toNat ≤ a.toNat → a.toNat < addr.toNat + 2 → mem' a = mem a) :
    loadHalf mem' addr = loadHalf mem addr := by
  have next : (addr + 1).toNat = addr.toNat + 1 := toNat_add addr 1 (by show _ + 1 < _; omega)
  rw [loadHalf, loadHalf, same addr (Nat.le_refl _) (by omega),
    same (addr + 1) (by omega) (by omega)]

theorem loadHalf_eq (mem : Memory) (addr : Word) :
    loadHalf mem addr = (load mem addr).setWidth 16 := by
  refine BitVec.eq_of_getLsbD_eq fun i bound => ?_
  simp only [loadHalf, load, BitVec.getLsbD_setWidth, BitVec.getLsbD_append]
  grind

/-! ## Descriptors -/

/-- A descriptor of a segment, as it is in memory. -/
structure Descriptor where
  limit : Half
  lowBase : Half
  midBase : Byte
  flags1 : Byte
  flags2 : Byte
  highBase : Byte
  deriving DecidableEq

def descriptorAt (mem : Memory) (addr : Word) : Descriptor where
  limit := loadHalf mem addr
  lowBase := loadHalf mem (addr + 2)
  midBase := mem (addr + 4)
  flags1 := mem (addr + 5)
  flags2 := mem (addr + 6)
  highBase := mem (addr + 7)

theorem descriptorAt_congr (inside : addr.toNat + 8 ≤ 2 ^ 32)
    (same : ∀ a : Word, addr.toNat ≤ a.toNat → a.toNat < addr.toNat + 8 → mem' a = mem a) :
    descriptorAt mem' addr = descriptorAt mem addr := by
  have next : ∀ k : Word, k.toNat < 8 → (addr + k).toNat = addr.toNat + k.toNat :=
    fun k small => toNat_add addr k (by omega)
  have two : (addr + 2).toNat = addr.toNat + 2 := next 2 (by decide)
  have byte : ∀ k : Word, k.toNat < 8 → mem' (addr + k) = mem (addr + k) := fun k small =>
    same _ (by rw [next k small]; omega) (by rw [next k small]; omega)
  rw [descriptorAt, descriptorAt, loadHalf_congr (by omega) fun a low high => same a low (by omega),
    @loadHalf_congr mem mem' (addr + 2) (by omega) fun a low high => same a (by omega) (by omega),
    byte 4 (by decide), byte 5 (by decide), byte 6 (by decide), byte 7 (by decide)]

namespace Descriptor

variable (d : Descriptor)

def base : Word := d.highBase ++ d.midBase ++ d.lowBase
def present : Bool := d.flags1.getLsbD 7
def dpl : BitVec 2 := d.flags1.extractLsb' 5 2

/-- All of the address space, in pages, with 32-bit offsets. -/
def flat : Bool := d.base = 0 && d.limit = 0xffff && d.flags2 = 0xcf

/-- Code that does not conform to other privilege levels. -/
def isCode : Bool := d.present && d.flat && d.flags1.extractLsb' 2 3 = 0b110

/-- Data that can be written. -/
def isStack (level : BitVec 2) : Bool :=
  d.present && d.flat && d.flags1.extractLsb' 1 4 = 0b1001 && d.dpl = level

/-- A 32-bit task state segment that the task register has been loaded with. -/
def isBusyTss : Bool := d.present && d.flags1.extractLsb' 0 5 = 0b01011

end Descriptor

/-- A gate of the table of interrupts. -/
structure Gate where
  lowOffset : Half
  segmentSelector : Half
  flags : Half
  highOffset : Half
  deriving DecidableEq

def gateAt (mem : Memory) (addr : Word) : Gate where
  lowOffset := loadHalf mem addr
  segmentSelector := loadHalf mem (addr + 2)
  flags := loadHalf mem (addr + 4)
  highOffset := loadHalf mem (addr + 6)

def storeGate (mem : Memory) (addr : Word) (gate : Gate) : Memory :=
  let mem := storeHalf mem addr gate.lowOffset
  let mem := storeHalf mem (addr + 2) gate.segmentSelector
  let mem := storeHalf mem (addr + 4) gate.flags
  storeHalf mem (addr + 6) gate.highOffset

namespace Gate

variable (gate : Gate)

def offset : Word := gate.highOffset ++ gate.lowOffset
def present : Bool := gate.flags.getLsbD 15
def dpl : BitVec 2 := gate.flags.extractLsb' 13 2

/-- The flags that are cleared behind the gate, if it is one for interrupts or traps: TF, NT, RF and
VM, and for an interrupt IF. -/
def cleared : Option Word :=
  if !gate.present then none
  else if gate.flags.extractLsb' 8 5 = 0b01110 then some 0x34300
  else if gate.flags.extractLsb' 8 5 = 0b01111 then some 0x34100
  else none

end Gate

theorem toNat_halves (inside : addr.toNat + 8 ≤ 2 ^ 32) :
    (addr + 2).toNat = addr.toNat + 2 ∧ (addr + 4).toNat = addr.toNat + 4 ∧
      (addr + 6).toNat = addr.toNat + 6 :=
  ⟨toNat_add addr 2 (by show _ + 2 < _; omega), toNat_add addr 4 (by show _ + 4 < _; omega),
    toNat_add addr 6 (by show _ + 6 < _; omega)⟩

theorem gateAt_congr (inside : addr.toNat + 8 ≤ 2 ^ 32)
    (same : ∀ a : Word, addr.toNat ≤ a.toNat → a.toNat < addr.toNat + 8 → mem' a = mem a) :
    gateAt mem' addr = gateAt mem addr := by
  obtain ⟨two, four, six⟩ := toNat_halves inside
  rw [gateAt, gateAt, loadHalf_congr (by omega) fun a low high => same a low (by omega),
    @loadHalf_congr mem mem' (addr + 2) (by omega) fun a low high => same a (by omega) (by omega),
    @loadHalf_congr mem mem' (addr + 4) (by omega) fun a low high => same a (by omega) (by omega),
    @loadHalf_congr mem mem' (addr + 6) (by omega) fun a low high => same a (by omega) (by omega)]

theorem frames_storeGate (gate : Gate) (inside : addr.toNat + 8 ≤ 2 ^ 32) :
    Frames addr 8 mem (storeGate mem addr gate) := by
  obtain ⟨two, four, six⟩ := toNat_halves inside
  have at_offset : ∀ {mem : Memory} {a : Word} {half : Half}, addr.toNat ≤ a.toNat →
      a.toNat + 2 ≤ addr.toNat + 8 → Frames addr 8 mem (storeHalf mem a half) :=
    fun low high => (Frames.storeHalf (by omega)).mono low high
  exact (at_offset (by omega) (by omega)).trans ((at_offset (by omega) (by omega)).trans
    ((at_offset (by omega) (by omega)).trans (at_offset (by omega) (by omega))))

/-- A gate is read as it has been stored. -/
theorem gateAt_storeGate (gate : Gate) (inside : addr.toNat + 8 ≤ 2 ^ 32) :
    gateAt (storeGate mem addr gate) addr = gate := by
  obtain ⟨two, four, six⟩ := toNat_halves inside
  have other : ∀ {mem : Memory} {a b : Word} {half : Half}, a.toNat + 2 ≤ b.toNat →
      b.toNat + 2 ≤ addr.toNat + 8 → loadHalf (storeHalf mem b half) a = loadHalf mem a :=
    fun apart high => loadHalf_congr (by omega) fun _ _ below =>
      Frames.storeHalf (by omega) _ (.inl (by omega))
  rw [gateAt, storeGate, other (b := addr + 6) (by omega) (by omega),
    other (b := addr + 4) (by omega) (by omega), other (b := addr + 2) (by omega) (by omega),
    other (a := addr + 2) (by omega) (by omega), other (a := addr + 2) (by omega) (by omega),
    other (a := addr + 4) (by omega) (by omega)]
  simp only [loadHalf_storeHalf_same]

/-! ## Tables -/

/-- The place of a table. -/
structure Register where
  limit : Half
  base : Word

structure Tables where
  gdtr : Register
  idtr : Register
  /-- The selector of the task state segment. -/
  tr : Half

/-- The privilege level in a selector. -/
def rpl (selector : Half) : BitVec 2 := selector.extractLsb' 0 2

/-- The descriptor that a selector leads to in the global table. -/
def segmentOf (gdtr : Register) (mem : Memory) (selector : Half) : Option Descriptor :=
  if selector.extractLsb' 3 13 = 0 ∨ selector.getLsbD 2 = true ∨ gdtr.limit < selector ||| 7 then
    none
  else some (descriptorAt mem (gdtr.base + (selector &&& 0xfff8).setWidth 32))

/-- The gate of a vector. -/
def Tables.gate (tables : Tables) (mem : Memory) (vector : Byte) : Option Gate :=
  if tables.idtr.limit.toNat < 8 * vector.toNat + 7 then none
  else some (gateAt mem (tables.idtr.base + BitVec.ofNat 32 (8 * vector.toNat)))

/-- The stack for a more privileged level, from the task state segment. -/
def Tables.innerStack (tables : Tables) (mem : Memory) (level : BitVec 2) :
    Option (Half × Word) := do
  let tss ← segmentOf tables.gdtr mem tables.tr
  if !tss.isBusyTss || tss.limit.toNat < 8 * level.toNat + 9 then none
  else
    let ss := loadHalf mem (tss.base + BitVec.ofNat 32 (8 * level.toNat + 8))
    let stack ← segmentOf tables.gdtr mem ss
    if stack.isStack level && rpl ss = level then
      some (ss, load mem (tss.base + BitVec.ofNat 32 (8 * level.toNat + 4)))
    else none

/-- `ltr`: the descriptor of the task state segment is marked as busy. -/
def ltr (gdtr : Register) (selector : Half) (mem : Memory) : Option Memory := do
  let tss ← segmentOf gdtr mem selector
  if tss.present && tss.flags1.extractLsb' 0 5 = 0b01001 then
    some (storeByte mem (gdtr.base + (selector &&& 0xfff8).setWidth 32 + 5) (tss.flags1 ||| 2))
  else none

/-! ## Interrupts -/

/-- The processor with the selectors of its code and of its stack. -/
structure Context where
  cs : Half
  ss : Half
  machine : Machine

inductive Cause
  | hardware
  /-- The instruction `int`. -/
  | instruction
  deriving DecidableEq

/-- An interrupt up to the first instruction of its handler. -/
def deliver (tables : Tables) (cause : Cause) (vector : Byte) (c : Context) : Option Context := do
  let m := c.machine
  let gate ← tables.gate m.mem vector
  let cleared ← gate.cleared
  let code ← segmentOf tables.gdtr m.mem gate.segmentSelector
  if cause = .instruction ∧ gate.dpl < rpl c.cs then none
  else if !code.isCode || rpl c.cs < code.dpl then none
  else
    let cs := gate.segmentSelector &&& 0xfffc ||| code.dpl.setWidth 16
    let m' := { m with eip := gate.offset }.set .eflags (m.reg .eflags &&& ~~~cleared)
    if code.dpl < rpl c.cs then do
      let (ss, esp) ← tables.innerStack m.mem code.dpl
      return ⟨cs, ss, Machine.run (pushValues [c.ss.setWidth 32, m.reg .esp, m.reg .eflags,
        c.cs.setWidth 32, m.eip]) (m'.set .esp esp)⟩
    else return ⟨cs, c.ss, Machine.run (pushValues [m.reg .eflags, c.cs.setWidth 32, m.eip]) m'⟩

/-- `iret`, but neither to another task nor to virtual-8086 mode. -/
def interruptReturn (gdtr : Register) (c : Context) : Option Context := do
  let m := c.machine
  let cs := loadHalf m.mem (m.reg .esp + 4)
  let flags := load m.mem (m.reg .esp + 8)
  let code ← segmentOf gdtr m.mem cs
  if (m.reg .eflags).getLsbD 14 || flags.getLsbD 17 then none
  else if !code.isCode || code.dpl ≠ rpl cs || rpl cs < rpl c.cs then none
  else
    let m' := { m.set .eflags flags with eip := load m.mem (m.reg .esp) }
    if rpl c.cs < rpl cs then do
      let ss := loadHalf m.mem (m.reg .esp + 16)
      let stack ← segmentOf gdtr m.mem ss
      if stack.isStack (rpl cs) && rpl ss = rpl cs then
        return ⟨cs, ss, m'.set .esp (load m.mem (m.reg .esp + 12))⟩
      else none
    else return ⟨cs, c.ss, m'.set .esp (m.reg .esp + 12)⟩

end Segmentation
