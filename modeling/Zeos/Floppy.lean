import Zeos.X86

/-!
# Reading sectors of a disk

Requests to read sectors of one track into memory, when they can be met, and what programs rely on
of a routine that takes them.
-/

namespace Floppy

open X86 (Byte Memory)

/-- Cylinders with a track for each head, all of the same number of sectors. -/
structure Geometry where
  sectors : Nat
  heads : Nat
  cylinders : Nat

/-- The bytes of the disk, in the order of the sectors. -/
abbrev Disk := Nat → Byte

abbrev sectorSize : Nat := 512

/-- What is read, and the segment and the offset of the memory that it is read to. -/
structure Request where
  cylinder : BitVec 8
  head : BitVec 8
  /-- Sectors of a track are counted from 1. -/
  sector : BitVec 8
  count : BitVec 8
  segment : BitVec 16
  offset : BitVec 16

namespace Request

def target (request : Request) : Nat := 16 * request.segment.toNat + request.offset.toNat

def size (request : Request) : Nat := sectorSize * request.count.toNat

/-- Where the first of the sectors begins on the disk. -/
def source (geometry : Geometry) (request : Request) : Nat :=
  sectorSize * ((request.cylinder.toNat * geometry.heads + request.head.toNat) * geometry.sectors +
    (request.sector.toNat - 1))

/-- The sectors exist and lie in one track, and the transfer does not leave 64 kB. -/
structure Valid (geometry : Geometry) (request : Request) : Prop where
  cylinder : request.cylinder.toNat < geometry.cylinders
  head : request.head.toNat < geometry.heads
  first : 1 ≤ request.sector.toNat
  some : 1 ≤ request.count.toNat
  track : request.sector.toNat - 1 + request.count.toNat ≤ geometry.sectors
  page : request.target % 0x10000 + request.size ≤ 0x10000

end Request

/-- The memory after a transfer of bytes of the disk to an address. -/
def transfer (disk : Disk) (source target size : Nat) (mem : Memory) : Memory := fun a =>
  if target ≤ a.toNat ∧ a.toNat < target + size then disk (source + (a.toNat - target)) else mem a

/-- A routine for requests: the memory that it leaves. -/
abbrev Bios := Request → Memory → Memory

namespace Bios

/-- Requests that can be met are met. -/
def Serves (bios : Bios) (geometry : Geometry) (disk : Disk) : Prop :=
  ∀ request mem, request.Valid geometry →
    bios request mem = transfer disk (request.source geometry) request.target request.size mem

/-- Nothing is written outside of the place that a request names. -/
def Confined (bios : Bios) : Prop :=
  ∀ request mem (a : X86.Word), a.toNat < request.target ∨ request.target + request.size ≤ a.toNat →
    bios request mem a = mem a

/-- A routine that transfers what it is asked for. -/
def transferring (geometry : Geometry) (disk : Disk) : Bios := fun request mem =>
  transfer disk (request.source geometry) request.target request.size mem

theorem serves_transferring (geometry : Geometry) (disk : Disk) :
    (transferring geometry disk).Serves geometry disk :=
  fun _ _ _ => rfl

theorem confined_transferring (geometry : Geometry) (disk : Disk) :
    (transferring geometry disk).Confined :=
  fun _ _ _ outside => if_neg (by omega)

end Bios

variable {disk : Disk} {mem : Memory} {source target first rest : Nat}

theorem transfer_zero : transfer disk source target 0 mem = mem := by
  funext a
  exact if_neg (by omega)

/-- A transfer that goes on where another has ended. -/
theorem transfer_transfer :
    transfer disk (source + first) (target + first) rest (transfer disk source target first mem) =
      transfer disk source target (first + rest) mem := by
  funext a
  unfold transfer
  by_cases later : target + first ≤ a.toNat ∧ a.toNat < target + first + rest
  · have place : source + first + (a.toNat - (target + first)) = source + (a.toNat - target) := by
      omega
    rw [if_pos later, if_pos (by omega), place]
  · rw [if_neg later]
    exact if_congr (by omega) rfl rfl

theorem transfer_inside {a : X86.Word} (inside : target ≤ a.toNat ∧ a.toNat < target + first) :
    transfer disk source target first mem a = disk (source + (a.toNat - target)) :=
  if_pos inside

theorem transfer_outside {a : X86.Word} (outside : a.toNat < target ∨ target + first ≤ a.toNat) :
    transfer disk source target first mem a = mem a :=
  if_neg (by omega)

end Floppy
