import Zeos.BuildImage
import Zeos.Floppy

/-!
# The boot sector

`read_it` of `bootsect.S` reads the system behind the boot sector, a track at a time where it can,
and does not look at what the BIOS answers.  Its variables and its stack lie in the segment that the
boot sector has moved itself to; they are not part of the memory here.
-/

namespace Zeos.Bootsect

open Floppy (Bios Disk Geometry Request)
open GuardedRun

abbrev Half := BitVec 16

/-- The segment that the boot sector runs in. -/
abbrev initseg : Half := 0x9000

/-- The segment that the system is loaded to. -/
abbrev sysseg : Half := 0x1000

/-- `SETUPSECS`, which `setup_sects` holds. -/
abbrev setupSects : BitVec 8 := 0

/-- `SEC_PISTA`, which `sectors` holds. -/
abbrev sectors : Half := 18

/-- A disk of 1.44 MB. -/
abbrev disquet : Geometry where
  sectors := 18
  heads := 2
  cylinders := 80

/-- The registers that the loop keeps, the three variables and the rest of the memory. -/
structure State where
  es : Half
  bx : Half
  /-- Sectors read of the current track. -/
  sread : Half
  head : Half
  track : Half
  mem : X86.Memory

/-- Why `read_it` does not return. -/
inductive Stop
  | die
  | running
  deriving DecidableEq

/-- `ax` at `ok2_read`: the rest of the track, or what is left of the segment if that is less. -/
def fitting (s : State) : Half :=
  let ax := sectors - s.sread
  let cx := ax <<< 9
  -- `add cx,bx`, then `jnc` and `je`
  if cx.toNat + s.bx.toNat < 2 ^ 16 ∨ cx + s.bx = 0 then ax else (0 - s.bx) >>> 9

/-- The request of `read_track`; the number of sectors is in `al`. -/
def request (s : State) (ax : Half) : Request where
  cylinder := s.track.setWidth 8
  -- `mov dh,dl`, then `and dx,#0x0100`
  head := s.head.setWidth 8 &&& 1
  sector := (s.sread + 1).setWidth 8
  count := ax.setWidth 8
  segment := s.es
  offset := s.bx

/-- The carry and `ax` with the answer of the BIOS are lost with `popa`. -/
def readTrack (bios : Bios) (s : State) (ax : Half) : State :=
  { s with mem := bios (request s ax) s.mem }

/-- The sectors that have been read are counted. -/
def count (s : State) (cx : Half) : State :=
  let ax := cx + s.sread
  if ax ≠ sectors then { s with sread := ax }
  else
    -- `ok4_read` is reached with the other head, and on the next track after the second one
    let ax := 1 - s.head
    { s with sread := 0, head := ax, track := if ax ≠ 0 then s.track else s.track + 1 }

/-- From `shl cx,#9` on: the place for the next sectors. -/
def advance (s : State) (cx : Half) : State :=
  let cx := cx <<< 9
  if cx.toNat + s.bx.toNat < 2 ^ 16 then { s with bx := s.bx + cx }
  else
    -- `add ah,#0x10`
    let ah : BitVec 8 := s.es.extractLsb' 8 8 + 0x10
    { s with es := ah ++ s.es.setWidth 8, bx := 0 }

/-- The loop is left when `es` is behind the system. -/
def loaded (syssize : Half) (s : State) : Bool := decide (syssize.toNat < (s.es - sysseg).toNat)

/-- Once through the loop, from `ok1_read` on. -/
def readOnce (bios : Bios) (s : State) : State :=
  let ax := fitting s
  advance (count (readTrack bios s ax) ax) ax

/-- `rp_read`, with a bound on the rounds. -/
def rpRead (bios : Bios) (syssize : Half) : Nat → State → Except Stop State
  | 0, _ => .error .running
  | fuel + 1, s => if loaded syssize s then .ok s else rpRead bios syssize fuel (readOnce bios s)

/-- The first state of the loop. -/
def start (mem : X86.Memory) (es : Half) : State :=
  ⟨es, 0, (setupSects + 1).setWidth 16, 0, 0, mem⟩

def readIt (bios : Bios) (syssize : Half) (fuel : Nat) (mem : X86.Memory) (es : Half) :
    Except Stop State :=
  if es &&& 0x0fff ≠ 0 then .error .die else rpRead bios syssize fuel (start mem es)

/-! ## How far the loop is -/

/-- The places in memory and on the disk after so many sectors. -/
structure Place (n : Nat) (s : State) : Prop where
  es : s.es.toNat = 0x1000 * (1 + n / 128)
  bx : s.bx.toNat = 512 * (n % 128)
  sread : s.sread.toNat < 18
  head : s.head.toNat < 2
  next : (s.track.toNat * 2 + s.head.toNat) * 18 + s.sread.toNat = 1 + n

/-- So many sectors have been read: those behind the boot sector, to the memory from `SYSSEG` on. -/
structure At (disk : Disk) (mem : X86.Memory) (n : Nat) (s : State) : Prop extends Place n s where
  mem : s.mem = Floppy.transfer disk 512 0x10000 (512 * n) mem

variable {bios : Bios} {disk : Disk} {mem : X86.Memory} {n : Nat} {s s' : State}
  {syssize x cx : Half}

theorem Place.unique {n' : Nat} (place : Place n s) (place' : Place n' s) : n = n' := by
  have next := place.next
  have next' := place'.next
  omega

theorem toNat_shift (small : x.toNat < 128) : (x <<< 9).toNat = 512 * x.toNat := by
  rw [BitVec.toNat_shiftLeft, Nat.shiftLeft_eq]
  omega

theorem next_segment (es : Half) :
    ((es.extractLsb' 8 8 + 0x10 : BitVec 8) ++ es.setWidth 8 : Half) = es + 0x1000 := by
  refine BitVec.eq_of_toNat_eq ?_
  rw [BitVec.toNat_append, BitVec.toNat_setWidth,
    ← Nat.shiftLeft_add_eq_or_of_lt (Nat.mod_lt _ (by decide)), BitVec.toNat_add,
    BitVec.extractLsb'_toNat, BitVec.toNat_add, Nat.shiftRight_eq_div_pow, Nat.shiftLeft_eq]
  show (es.toNat / 256 % 256 + 16) % 256 * 256 + es.toNat % 256 = (es.toNat + 4096) % 65536
  have bound := es.isLt
  omega

/-- A read ends with the track or with the segment. -/
theorem toNat_fitting (place : Place n s) :
    (fitting s).toNat = min (18 - s.sread.toNat) (128 - n % 128) := by
  have sread := place.sread
  have bx := place.bx
  have rest : (sectors - s.sread).toNat = 18 - s.sread.toNat :=
    BitVec.toNat_sub_of_le (BitVec.le_def.mpr (show s.sread.toNat ≤ 18 by omega))
  have bytes : ((sectors - s.sread) <<< 9).toNat = 512 * (18 - s.sread.toNat) := by
    rw [toNat_shift (by omega), rest]
  have left : ((0 - s.bx) >>> 9).toNat = (2 ^ 16 - s.bx.toNat) % 2 ^ 16 / 512 := by
    rw [BitVec.toNat_ushiftRight, Nat.shiftRight_eq_div_pow, BitVec.toNat_sub]
    rfl
  have full : (sectors - s.sread) <<< 9 + s.bx = 0 ↔
      (512 * (18 - s.sread.toNat) + s.bx.toNat) % 2 ^ 16 = 0 := by
    rw [← BitVec.toNat_inj, BitVec.toNat_add, bytes]
    rfl
  simp only [fitting, full, bytes]
  split_ifs with fits
  · rw [rest]
    omega
  · rw [left]
    omega

theorem valid_request (place : Place n s) (bound : n < 1792) :
    (request s (fitting s)).Valid disquet ∧
      (request s (fitting s)).source disquet = 512 + 512 * n ∧
      (request s (fitting s)).target = 0x10000 + 512 * n ∧
      (request s (fitting s)).size = 512 * (fitting s).toNat := by
  have fits := toNat_fitting place
  obtain ⟨es, bx, sread, head, next⟩ := place
  have cylinder : (request s (fitting s)).cylinder.toNat = s.track.toNat := by
    show (s.track.setWidth 8).toNat = s.track.toNat
    rw [BitVec.toNat_setWidth]
    omega
  have side : (request s (fitting s)).head.toNat = s.head.toNat := by
    show (s.head.setWidth 8 &&& 1).toNat = s.head.toNat
    rw [BitVec.toNat_and, BitVec.toNat_setWidth]
    show s.head.toNat % 256 &&& 1 = s.head.toNat
    rw [Nat.and_one_is_mod]
    omega
  have sector : (request s (fitting s)).sector.toNat = s.sread.toNat + 1 := by
    show ((s.sread + 1).setWidth 8).toNat = s.sread.toNat + 1
    rw [BitVec.toNat_setWidth, BitVec.toNat_add]
    show (s.sread.toNat + 1) % 65536 % 256 = s.sread.toNat + 1
    omega
  have number : (request s (fitting s)).count.toNat = (fitting s).toNat := by
    show ((fitting s).setWidth 8).toNat = (fitting s).toNat
    rw [BitVec.toNat_setWidth]
    omega
  have target : (request s (fitting s)).target = 0x10000 + 512 * n := by
    show 16 * s.es.toNat + s.bx.toNat = _
    omega
  have size : (request s (fitting s)).size = 512 * (fitting s).toNat := by
    rw [Request.size, number]
  refine ⟨⟨?_, ?_, ?_, ?_, ?_, ?_⟩, ?_, target, size⟩
  · rw [cylinder]
    show _ < 80
    omega
  · rw [side]
    exact head
  · rw [sector]
    omega
  · rw [number]
    omega
  · rw [sector, number]
    show _ ≤ 18
    omega
  · rw [target, size]
    omega
  · rw [Request.source, cylinder, side, sector]
    show 512 * ((s.track.toNat * 2 + s.head.toNat) * 18 + (s.sread.toNat + 1 - 1)) = _
    omega

/-- The place on the disk after a read. -/
theorem count_spec (place : Place n s) (bound : n < 1792) :
    (count s (fitting s)).sread.toNat < 18 ∧ (count s (fitting s)).head.toNat < 2 ∧
      ((count s (fitting s)).track.toNat * 2 + (count s (fitting s)).head.toNat) * 18 +
        (count s (fitting s)).sread.toNat = 1 + (n + (fitting s).toNat) := by
  have fits := toNat_fitting place
  obtain ⟨-, -, sread, head, next⟩ := place
  have sum : (fitting s + s.sread).toNat = (fitting s).toNat + s.sread.toNat := by
    rw [BitVec.toNat_add]
    omega
  have whole : fitting s + s.sread = sectors ↔ (fitting s).toNat + s.sread.toNat = 18 := by
    rw [← BitVec.toNat_inj, sum]
    rfl
  have other : (1 - s.head).toNat = 1 - s.head.toNat :=
    BitVec.toNat_sub_of_le (BitVec.le_def.mpr (show s.head.toNat ≤ 1 by omega))
  have second : 1 - s.head = 0 ↔ s.head.toNat = 1 := by
    rw [← BitVec.toNat_inj, other]
    show 1 - s.head.toNat = 0 ↔ _
    omega
  have track : (s.track + 1).toNat = s.track.toNat + 1 := by
    rw [BitVec.toNat_add]
    show (s.track.toNat + 1) % 65536 = s.track.toNat + 1
    omega
  rw [count]
  simp only [ne_eq, whole, second, ite_not]
  split_ifs with done last
  · refine ⟨(by decide : 0 < 18), (by rw [other]; omega), ?_⟩
    show ((s.track + 1).toNat * 2 + (1 - s.head).toNat) * 18 + 0 = _
    rw [track, other]
    omega
  · refine ⟨(by decide : 0 < 18), (by rw [other]; omega), ?_⟩
    show (s.track.toNat * 2 + (1 - s.head).toNat) * 18 + 0 = _
    rw [other]
    omega
  · show (fitting s + s.sread).toNat < 18 ∧ s.head.toNat < 2 ∧
      (s.track.toNat * 2 + s.head.toNat) * 18 + (fitting s + s.sread).toNat = _
    rw [sum]
    omega

@[simp]
theorem count_es : (count s cx).es = s.es := by
  unfold count
  dsimp only
  split_ifs <;> rfl

@[simp]
theorem count_bx : (count s cx).bx = s.bx := by
  unfold count
  dsimp only
  split_ifs <;> rfl

@[simp]
theorem count_mem : (count s cx).mem = s.mem := by
  unfold count
  dsimp only
  split_ifs <;> rfl

theorem advance_sread : (advance s cx).sread = s.sread := by
  unfold advance
  dsimp only
  split_ifs <;> rfl

theorem advance_head : (advance s cx).head = s.head := by
  unfold advance
  dsimp only
  split_ifs <;> rfl

theorem advance_track : (advance s cx).track = s.track := by
  unfold advance
  dsimp only
  split_ifs <;> rfl

theorem advance_mem : (advance s cx).mem = s.mem := by
  unfold advance
  dsimp only
  split_ifs <;> rfl

/-- The place in memory after a read that does not leave the segment. -/
theorem advance_spec (cx : Half) (es : s.es.toNat = 0x1000 * (1 + n / 128))
    (bx : s.bx.toNat = 512 * (n % 128)) (fits : n % 128 + cx.toNat ≤ 128)
    (some : cx.toNat < 128) (bound : n < 1792) :
    (advance s cx).es.toNat = 0x1000 * (1 + (n + cx.toNat) / 128) ∧
      (advance s cx).bx.toNat = 512 * ((n + cx.toNat) % 128) := by
  have bytes : (cx <<< 9).toNat = 512 * cx.toNat := toNat_shift some
  simp only [advance, bytes]
  split_ifs with below
  · constructor
    · show s.es.toNat = _
      omega
    · rw [BitVec.toNat_add, bytes]
      omega
  · constructor
    · rw [next_segment, BitVec.toNat_add]
      show (s.es.toNat + 0x1000) % 2 ^ 16 = _
      omega
    · show 0 = _
      omega

/-- Once through the loop, whatever the BIOS does. -/
theorem readOnce_place (bios : Bios) (place : Place n s) (bound : n < 1792) :
    Place (n + (fitting s).toNat) (readOnce bios s) := by
  set s₁ := readTrack bios s (fitting s) with s₁_eq
  have fits := toNat_fitting place
  have place₁ : Place n s₁ := ⟨place.es, place.bx, place.sread, place.head, place.next⟩
  have counted := count_spec place₁ bound
  have advanced := advance_spec (s := count s₁ (fitting s)) (fitting s)
    (by rw [count_es]; exact place.es) (by rw [count_bx]; exact place.bx) (by omega) (by omega)
    bound
  show Place _ (advance (count s₁ (fitting s)) (fitting s))
  refine ⟨advanced.1, advanced.2, ?_, ?_, ?_⟩
  · rw [advance_sread]
    exact counted.1
  · rw [advance_head]
    exact counted.2.1
  · rw [advance_sread, advance_head, advance_track]
    exact counted.2.2

theorem readOnce_mem : (readOnce bios s).mem = bios (request s (fitting s)) s.mem := by
  rw [readOnce, advance_mem, count_mem, readTrack]

/-- A BIOS that serves the requests has read what lies on the disk behind what has been read. -/
theorem readOnce_at (serves : bios.Serves disquet disk) (at_n : At disk mem n s)
    (bound : n < 1792) : At disk mem (n + (fitting s).toNat) (readOnce bios s) := by
  obtain ⟨valid, source, target, size⟩ := valid_request at_n.toPlace bound
  refine ⟨readOnce_place bios at_n.toPlace bound, ?_⟩
  rw [readOnce_mem, serves _ _ valid, source, target, size, at_n.mem, Floppy.transfer_transfer,
    Nat.mul_add]

/-! ## The whole loop -/

/-- The next read goes to the boot sector. -/
def Overwrites (s : State) : Prop :=
  (request s (fitting s)).target < 16 * initseg.toNat + 512 ∧
    16 * initseg.toNat < (request s (fitting s)).target + (request s (fitting s)).size

/-- The loop goes on, and does so once without a read over the boot sector. -/
def Round (bios : Bios) (syssize : Half) (s s' : State) : Prop :=
  loaded syssize s = false ∧ ¬Overwrites s ∧ s' = readOnce bios s

theorem rpRead_of_rounds (rounds : Relation.ReflTransGen (Round bios syssize) s s') :
    ∃ count, ∀ fuel, rpRead bios syssize (count + fuel) s = rpRead bios syssize fuel s' := by
  induction rounds using Relation.ReflTransGen.head_induction_on with
  | refl => exact ⟨0, fun fuel => by rw [Nat.zero_add]⟩
  | head round _ induction =>
      obtain ⟨more, _, rfl⟩ := round
      obtain ⟨count, same⟩ := induction
      refine ⟨count + 1, fun fuel => ?_⟩
      rw [Nat.add_right_comm, rpRead, more, if_neg Bool.false_ne_true]
      exact same fuel

theorem loaded_eq (place : Place n s) (bound : n < 1920) :
    loaded syssize s = decide (syssize.toNat < 0x1000 * (n / 128)) := by
  have es := place.es
  have first : sysseg.toNat = 0x1000 := rfl
  have above : (s.es - sysseg).toNat = 0x1000 * (n / 128) := by
    rw [BitVec.toNat_sub_of_le (BitVec.le_def.mpr (by omega))]
    show s.es.toNat - 0x1000 = _
    omega
  rw [loaded, above]

/-- The reads before the ninth segment end below the boot sector, the others do not. -/
theorem overwrites_iff_place (place : Place n s) (bound : n ≤ 1024) :
    Overwrites s ↔ n = 1024 := by
  have fits := toNat_fitting place
  have sread := place.sread
  obtain ⟨-, -, target, size⟩ := valid_request place (by omega)
  have itself : 16 * initseg.toNat = 0x90000 := rfl
  rw [Overwrites, target, size, itself]
  omega

theorem place_start (mem : X86.Memory) : Place 0 (start mem sysseg) :=
  ⟨rfl, rfl, (by decide : 1 < 18), (by decide : 0 < 2), rfl⟩

/-- Where the loop is after a number of rounds. -/
theorem place_of_rounds (rounds : Relation.ReflTransGen (Round bios syssize) (start mem sysseg) s) :
    ∃ n ≤ 1024, Place n s := by
  induction rounds with
  | refl => exact ⟨0, by omega, place_start mem⟩
  | tail _ round induction =>
      obtain ⟨n, within, place⟩ := induction
      obtain ⟨-, apart, rfl⟩ := round
      have fits := toNat_fitting place
      rw [overwrites_iff_place place within] at apart
      exact ⟨_, by omega, readOnce_place bios place (by omega)⟩

/-- The loop comes to the end of a segment exactly. -/
theorem exists_rounds (bios : Bios) {segments : Nat} (place : Place n s)
    (below : n ≤ 128 * segments) (wanted : 0x1000 * (segments - 1) ≤ syssize.toNat)
    (bound : segments ≤ 8) :
    ∃ s', Relation.ReflTransGen (Round bios syssize) s s' ∧ Place (128 * segments) s' := by
  induction left : 128 * segments - n using Nat.strongRecOn generalizing n s with
  | ind left induction =>
      rcases Nat.eq_or_lt_of_le below with rfl | before
      · exact ⟨s, .refl, place⟩
      · have fits := toNat_fitting place
        have sread := place.sread
        have next := readOnce_place bios place (by omega)
        have more : loaded syssize s = false := by
          rw [loaded_eq place (by omega)]
          exact decide_eq_false (by omega)
        have apart : ¬Overwrites s := by
          rw [overwrites_iff_place place (by omega)]
          omega
        obtain ⟨s', rounds, at_end⟩ := induction _ (by omega) next (by omega) rfl
        exact ⟨s', rounds.head ⟨more, apart, rfl⟩, at_end⟩

/-- As long as the boot sector is not read over, only the memory from `SYSSEG` up to it changes. -/
theorem mem_of_rounds (confined : bios.Confined)
    (rounds : Relation.ReflTransGen (Round bios syssize) (start mem sysseg) s) {a : X86.Word}
    (outside : a.toNat < 0x10000 ∨ 0x90000 ≤ a.toNat) : s.mem a = mem a := by
  induction rounds with
  | refl => rfl
  | tail rounds round induction =>
      obtain ⟨n, within, place⟩ := place_of_rounds rounds
      obtain ⟨-, apart, rfl⟩ := round
      have fits := toNat_fitting place
      rw [overwrites_iff_place place within] at apart
      obtain ⟨-, -, target, size⟩ := valid_request place (by omega)
      rw [readOnce_mem, confined _ _ _ (by omega)]
      exact induction

/-- The boot sector reads the system over itself if and only if that has 32768 units of 16 bytes or
more, and up to there its reads leave all other memory alone. -/
theorem overwrites_iff (bios : Bios) (mem : X86.Memory) (syssize : Half)
    (confined : bios.Confined) :
    ((∃ s, Relation.ReflTransGen (Round bios syssize) (start mem sysseg) s ∧
      loaded syssize s = false ∧ Overwrites s) ↔ 0x8000 ≤ syssize.toNat) ∧
    ∀ s, Relation.ReflTransGen (Round bios syssize) (start mem sysseg) s →
      ∀ a : X86.Word, a.toNat < 0x10000 ∨ 0x90000 ≤ a.toNat → s.mem a = mem a := by
  refine ⟨⟨?_, fun large => ?_⟩, fun s rounds a outside => mem_of_rounds confined rounds outside⟩
  · rintro ⟨s, rounds, more, overwrites⟩
    obtain ⟨n, within, place⟩ := place_of_rounds rounds
    obtain rfl := (overwrites_iff_place place within).mp overwrites
    rw [loaded_eq place (by decide), decide_eq_false_iff_not] at more
    omega
  · have whole : 0x1000 * (8 - 1) ≤ syssize.toNat := by omega
    obtain ⟨s, rounds, at_end⟩ :=
      exists_rounds bios (place_start mem) (Nat.zero_le (128 * 8)) whole (by decide)
    refine ⟨s, rounds, ?_, (overwrites_iff_place at_end (by decide)).mpr rfl⟩
    rw [loaded_eq at_end (by decide)]
    exact decide_eq_false (by omega)

/-- A system of half a megabyte is read over the boot sector. -/
theorem overwrites_iff_large :
    ∃ s, Relation.ReflTransGen (Round (Bios.transferring disquet fun _ => 1) 0x8000)
        (start (fun _ => 0) sysseg) s ∧
      loaded 0x8000 s = false ∧ Overwrites s :=
  (overwrites_iff _ _ _ (Bios.confined_transferring disquet fun _ => 1)).1.mpr (by decide)

/-- What has been read after a number of rounds, of which every request could be met. -/
theorem at_of_rounds (serves : bios.Serves disquet disk)
    (rounds : Relation.ReflTransGen (Round bios syssize) (start mem sysseg) s) :
    ∃ n ≤ 1024, At disk mem n s := by
  induction rounds with
  | refl => exact ⟨0, by omega, place_start mem, Floppy.transfer_zero.symm⟩
  | tail _ round induction =>
      obtain ⟨n, within, at_n⟩ := induction
      obtain ⟨-, apart, rfl⟩ := round
      have fits := toNat_fitting at_n.toPlace
      rw [overwrites_iff_place at_n.toPlace within] at apart
      exact ⟨_, by omega, readOnce_at serves at_n (by omega)⟩

/-- The system is loaded in whole segments behind `SYSSEG`, as long as they lie below the segment of
the boot sector. -/
theorem readIt_loads (serves : bios.Serves disquet disk) (mem : X86.Memory) (syssize : Half)
    (small : syssize.toNat < 0x8000) :
    ∃ fuel s, readIt bios syssize fuel mem sysseg = .ok s ∧
      s.mem = Floppy.transfer disk 512 0x10000 (0x10000 * (syssize.toNat / 0x1000 + 1)) mem := by
  have whole : 0x1000 * (syssize.toNat / 0x1000 + 1 - 1) ≤ syssize.toNat := by omega
  obtain ⟨s, rounds, at_end⟩ :=
    exists_rounds bios (place_start mem) (Nat.zero_le _) whole (by omega)
  obtain ⟨count, same⟩ := rpRead_of_rounds rounds
  have done : loaded syssize s = true := by
    rw [loaded_eq at_end (by omega)]
    exact decide_eq_true (by omega)
  refine ⟨count + 1, s, ?_, ?_⟩
  · rw [readIt, if_neg (by decide), same, rpRead, if_pos done]
  · obtain ⟨n, _, at_n⟩ := at_of_rounds serves rounds
    obtain rfl := at_n.toPlace.unique at_end
    rw [at_n.mem]
    congr 1
    omega

/-! ## From the image to the memory -/

/-- The disk begins with the image. -/
def Inserted (disk : Disk) (image : List X86.Byte) : Prop :=
  ∀ i byte, image[i]? = some byte → disk i = byte

theorem inserted_getD (image : List X86.Byte) : Inserted (fun i => image.getD i 0) image :=
  fun i byte found => by
    show image.getD i 0 = byte
    rw [List.getD_eq_getElem?_getD, found, Option.getD_some]

/-- What the boot sector finds at `syssize`. -/
def units (disk : Disk) : Half := disk 501 ++ disk 500

variable {image : List X86.Byte}

theorem units_eq (inserted : Inserted disk image) (long : 524 ≤ image.length) :
    units disk = ByteFile.half image 500 := by
  have byte : ∀ i < 524, disk i = image.getD i 0 := by
    intro i bound
    have found := List.getElem?_eq_getElem (show i < image.length by omega)
    rw [inserted _ _ found, List.getD_eq_getElem?_getD, found, Option.getD_some]
  rw [units, ByteFile.half, byte 500 (by decide), byte 501 (by decide)]

theorem loaded_image {size : Nat} (inserted : Inserted disk image)
    (short : image.length ≤ 512 + size) (bound : size ≤ 0x80000) :
    Build.Loaded (Floppy.transfer disk 512 0x10000 size mem) image := by
  intro i byte found
  have inside := (List.getElem?_eq_some_iff.mp found).1
  have place : (Build.kernelStart + BitVec.ofNat 32 i).toNat = 0x10000 + i :=
    X86.toNat_advance _ i (show 0x10000 + i < 2 ^ 32 by omega)
  rw [Floppy.transfer_inside (by omega), place, Nat.add_sub_cancel_left]
  exact inserted _ _ found

theorem length_image {boot kernel : List X86.Byte} (user : List X86.Byte)
    (sector : boot.length = 512) (large : 12 ≤ kernel.length)
    (small : kernel.length + user.length < 2 ^ 32) :
    (Build.image boot kernel user).length = 512 + kernel.length + user.length := by
  have length : (Build.files boot kernel user).length = 512 + kernel.length + user.length := by
    rw [Build.files, Build.kept_eq (by omega), Build.kept_eq (by omega), List.length_append,
      List.length_append, List.length_set, List.length_set, sector]
  rw [← length]
  exact (Build.lengths_sized _ _ (by omega)).2.2.2

variable {kernel program : List X86.Byte}

theorem loads_image {boot : List X86.Byte} (sector : boot.length = 512)
    (large : 12 ≤ kernel.length) (small : kernel.length + program.length ≤ 16 * 0x7fff)
    (serves : bios.Serves disquet disk)
    (inserted : Inserted disk (Build.image boot kernel program)) (mem : X86.Memory) :
    ∃ fuel s, readIt bios (units disk) fuel mem sysseg = .ok s ∧
      Build.Loaded s.mem (Build.image boot kernel program) ∧
      (∀ a : X86.Word, a.toNat < 0x10000 ∨ 0x90000 ≤ a.toNat → s.mem a = mem a) ∧
      ∀ s, Relation.ReflTransGen (Round bios (units disk)) (start mem sysseg) s →
        loaded (units disk) s = false → (request s (fitting s)).Valid disquet := by
  have trips : Build.RoundTrips boot kernel program _ := Build.roundTrips sector large (by omega)
  have length := length_image program sector large (by omega)
  have stored : (units disk).toNat = (kernel.length + program.length + 15) / 16 := by
    rw [units_eq inserted (by omega)]
    exact trips.units
  have below : 0x10000 * ((units disk).toNat / 0x1000 + 1) ≤ 0x80000 := by omega
  obtain ⟨fuel, s, read, whole⟩ := readIt_loads serves mem (units disk) (by omega)
  have loaded : Build.Loaded s.mem (Build.image boot kernel program) := by
    rw [whole]
    exact loaded_image inserted (by omega) (by omega)
  refine ⟨fuel, s, read, loaded, fun a outside => ?_, fun s rounds _ => ?_⟩
  · rw [whole]
    exact Floppy.transfer_outside (outside.imp_right (Nat.le_trans (Nat.add_le_add_left below _)))
  · obtain ⟨n, within, place⟩ := place_of_rounds rounds
    exact (valid_request place (by omega)).1

/-- An image that `build` has made is loaded by the boot sector, with requests that can all be met,
and no other memory is written. -/
theorem loads_of_build {env : Build.Environment} {build bootsect system user : String}
    {file : List X86.Byte} (foundBoot : env.content bootsect = some file)
    (foundKernel : env.content system = some kernel) (foundUser : env.content user = some program)
    (built : Build.main env [build, bootsect, system, user] = .ok image)
    (large : 12 ≤ kernel.length) (small : kernel.length + program.length ≤ 16 * 0x7fff)
    (serves : bios.Serves disquet disk) (inserted : Inserted disk image) (mem : X86.Memory) :
    ∃ fuel s, readIt bios (units disk) fuel mem sysseg = .ok s ∧ Build.Loaded s.mem image ∧
      (∀ a : X86.Word, a.toNat < 0x10000 ∨ 0x90000 ≤ a.toNat → s.mem a = mem a) ∧
      ∀ s, Relation.ReflTransGen (Round bios (units disk)) (start mem sysseg) s →
        loaded (units disk) s = false → (request s (fitting s)).Valid disquet := by
  obtain ⟨boot, _, _, _, same⟩ := (Build.main_eq_ok foundBoot foundKernel foundUser).mp built
  rw [same] at inserted ⊢
  exact loads_image boot.length large small serves inserted mem

theorem loads_of_build_small :
    ∃ image, Build.main (Build.sample (List.replicate 12 1) [2, 3])
      ["build", "bootsect", "system", "user"] = .ok image ∧
      ∃ fuel s, readIt (Bios.transferring disquet fun i => image.getD i 0)
        (units fun i => image.getD i 0) fuel (fun _ => 0) sysseg = .ok s ∧
        Build.Loaded s.mem image ∧
        (∀ a : X86.Word, a.toNat < 0x10000 ∨ 0x90000 ≤ a.toNat → s.mem a = 0) := by
  have built : Build.main (Build.sample (List.replicate 12 1) [2, 3])
      ["build", "bootsect", "system", "user"] = .ok _ := Build.main_sample (by decide +kernel)
  obtain ⟨fuel, s, read, loaded, kept, _⟩ := loads_of_build rfl rfl rfl built (by decide)
    (by decide) (Bios.serves_transferring disquet _) (inserted_getD _) fun _ => 0
  exact ⟨_, built, fuel, s, read, loaded, kept⟩

end Zeos.Bootsect
