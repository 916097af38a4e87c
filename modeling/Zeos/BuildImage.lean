import Zeos.ByteFile
import Zeos.Types

/-!
# The boot image

`build.c` puts the boot sector, the kernel and the user's program together and writes their sizes
over the image.  The boot sector reads the size in units of 16 bytes, and `main` of `system.c` the
two sizes in bytes.
-/

namespace Zeos.Build

open ByteFile GuardedRun

/-- Why `build` dies. -/
inductive Death
  | usage
  | unableToOpen (name : String)
  | unableToReadHeader (name : String)
  | nonMinixHeader (name : String)
  | illegalDataSegment (name : String)
  | illegalBssSegment (name : String)
  | illegalSymbolTable (name : String)
  | bootBlockSize
  | noBootFlag
  | writeCallFailed
  | unexpectedEof (name : String)
  | writeFailed
  | seekFailed
  | imageLengthFailed
  | systemLengthFailed
  | userLengthFailed
  deriving DecidableEq

/-- The files that `build` is called with, and how its output behaves. -/
structure Environment where
  /-- The content of a file that can be opened. -/
  content : String → Option (List Byte)
  /-- Writes behind this size of the output fail. -/
  room : Nat
  /-- Whether `lseek` works on the output. -/
  seekable : Bool

/-- The output, and where the next write goes to. -/
structure Output where
  bytes : List Byte
  position : Nat

def openFile (env : Environment) (name : String) : Except Death (List Byte) :=
  match env.content name with
  | some content => .ok content
  | none => .error (.unableToOpen name)

def write (env : Environment) (out : Output) (data : List Byte) (death : Death) :
    Except Death Output :=
  if out.position + data.length ≤ env.room then
    .ok ⟨overwrite out.bytes out.position data, out.position + data.length⟩
  else .error death

def lseek (env : Environment) (out : Output) (offset : Nat) : Except Death Output :=
  if env.seekable then .ok { out with position := offset } else .error .seekFailed

/-- `MINIX_HEADER_LEN`. -/
abbrev minixHeaderLen : Nat := 32

def hdr : List Byte := [0x01, 0x03, 0x10, 0x04, 0x20, 0x00, 0x00, 0x00]

/-- `minix_open`, with what is left to read. -/
def minixOpen (env : Environment) (name : String) : Except Death (List Byte) := do
  let content ← openFile env name
  let buf := content.take minixHeaderLen
  if buf.length ≠ minixHeaderLen then .error (.unableToReadHeader name)
  else if buf.take hdr.length ≠ hdr ∨ word buf (4 * 5) ≠ 0 then .error (.nonMinixHeader name)
  else if word buf (4 * 3) ≠ 0 then .error (.illegalDataSegment name)
  else if word buf (4 * 4) ≠ 0 then .error (.illegalBssSegment name)
  else if word buf (4 * 7) ≠ 0 then .error (.illegalSymbolTable name)
  else return content.drop minixHeaderLen

/-- `sizeof(buf)`. -/
abbrev bufSize : Nat := 1024

abbrev defaultMajorRoot : Byte := 0
abbrev defaultMinorRoot : Byte := 0

/-- The loops that copy a file to the output, over what is left to read of it. -/
def copyLoop (env : Environment) (name : String) (sz : Nat) (rest : List Byte) (out : Output) :
    Except Death Output :=
  if 0 < sz then
    let l := if bufSize < sz then bufSize else sz
    let buf := rest.take l
    if buf.length ≠ l then .error (.unexpectedEof name)
    else do
      let out ← write env out buf .writeFailed
      copyLoop env name (sz - l) (rest.drop l) out
  else return out
termination_by sz
decreasing_by
  simp only [bufSize]
  split <;> omega

/-- A file is copied to the output; the size that `fstat` gives is kept in 32 bits. -/
def copyFile (env : Environment) (name : String) (out : Output) : Except Death (Word × Output) := do
  let content ← openFile env name
  let sz : Word := BitVec.ofNat 32 content.length
  let out ← copyLoop env name sz.toNat content out
  return (sz, out)

/-- The byte of a number that is stored after a shift. -/
def byteAt (value : Word) (shift : Nat) : Byte := ((value >>> shift) &&& 0xff).setWidth 8

/-- A size is written over the output, with zero as its fourth byte. -/
def writeLength (env : Environment) (out : Output) (offset : Nat) (size : Word) (death : Death) :
    Except Death Output := do
  let out ← lseek env out offset
  write env out [byteAt size 0, byteAt size 8, byteAt size 16, 0] death

/-- The boot sector is checked and copied. -/
def copyBootSector (env : Environment) (name : String) : Except Death Output := do
  let rest ← minixOpen env name
  let buf := rest.take bufSize
  if buf.length ≠ 512 then .error .bootBlockSize
  else if buf[510]? ≠ some 0x55 ∨ buf[511]? ≠ some 0xaa then .error .noBootFlag
  else write env ⟨[], 0⟩ ((buf.set 508 defaultMinorRoot).set 509 defaultMajorRoot) .writeCallFailed

/-- The sizes are written, and another number behind them. -/
def writeSizes (env : Environment) (out : Output) (sysSize usrSize : Word) :
    Except Death Output := do
  let out ← lseek env out 500
  let imSize := (sysSize + usrSize + 15) / 16
  let out ← write env out [byteAt imSize 0, byteAt imSize 8] .imageLengthFailed
  let out ← writeLength env out 512 sysSize .systemLengthFailed
  let out ← writeLength env out 516 usrSize .userLengthFailed
  writeLength env out 520 0x7E1A .userLengthFailed

/-- `main`, with the output if it returns 0. -/
def main (env : Environment) (argv : List String) : Except Death (List Byte) :=
  match argv with
  | [_, bootsect, system, user] => do
      let out ← copyBootSector env bootsect
      let (sysSize, out) ← copyFile env system out
      let (usrSize, out) ← copyFile env user out
      let out ← writeSizes env out sysSize usrSize
      return out.bytes
  | _ => .error .usage

variable {env : Environment} {name : String} {rest data content : List Byte} {out out' : Output}
  {death : Death} {size : Word}

theorem byteAt_eq (value : Word) (shift : Nat) :
    byteAt value shift = value.extractLsb' shift 8 := by
  ext i bound
  simp only [byteAt, BitVec.getElem_setWidth, BitVec.getLsbD_and, BitVec.getLsbD_ushiftRight,
    BitVec.getElem_extractLsb']
  have ones : (0xff : Word).getLsbD i = true := by
    match i, bound with
    | 0, _ | 1, _ | 2, _ | 3, _ | 4, _ | 5, _ | 6, _ | 7, _ => rfl
  rw [ones, Bool.and_true]

/-- The bytes of a size that `build` stores. -/
def lengthBytes (size : Word) : List Byte := [byteAt size 0, byteAt size 8, byteAt size 16, 0]

theorem lengthBytes_eq (small : size.toNat < 2 ^ 24) : lengthBytes size = wordBytes size := by
  have last : size.extractLsb' 24 8 = 0 := by
    refine BitVec.eq_of_toNat_eq ?_
    rw [BitVec.extractLsb'_toNat, Nat.shiftRight_eq_div_pow, Nat.div_eq_of_lt small]
    rfl
  rw [lengthBytes, wordBytes, byteAt_eq, byteAt_eq, byteAt_eq, last]

/-! ## What is written -/

theorem write_eq_ok : write env out data death = .ok out' ↔
    out.position + data.length ≤ env.room ∧
      out' = ⟨overwrite out.bytes out.position data, out.position + data.length⟩ := by
  rw [write]
  split_ifs with room
  · rw [Except.ok.injEq, eq_comm, and_iff_right room]
  · exact iff_of_false (by simp) fun found => room found.1

theorem lseek_eq_ok {offset : Nat} : lseek env out offset = .ok out' ↔
    env.seekable = true ∧ out' = { out with position := offset } := by
  rw [lseek]
  split_ifs with seekable
  · rw [Except.ok.injEq, eq_comm, and_iff_right seekable]
  · exact iff_of_false (by simp) fun found => seekable found.1

theorem openFile_eq_ok : openFile env name = .ok content ↔ env.content name = some content := by
  rw [openFile]
  cases env.content name with
  | none => simp
  | some found => simp

/-- An output that has been written without a seek. -/
def Output.whole (bytes : List Byte) : Output := ⟨bytes, bytes.length⟩

theorem write_whole {bytes : List Byte} : write env (.whole bytes) data death = .ok out' ↔
    (bytes ++ data).length ≤ env.room ∧ out' = .whole (bytes ++ data) := by
  rw [write_eq_ok, Output.whole, Output.whole, overwrite_end, List.length_append]

/-- The copy loop appends what it is to copy. -/
theorem copyLoop_eq_ok {bytes : List Byte} (sz : Nat) (enough : sz ≤ rest.length)
    (room : bytes.length ≤ env.room) :
    copyLoop env name sz rest (.whole bytes) = .ok out' ↔
      (bytes ++ rest.take sz).length ≤ env.room ∧ out' = .whole (bytes ++ rest.take sz) := by
  induction sz using Nat.strongRecOn generalizing rest bytes with
  | ind sz induction =>
      rw [copyLoop]
      by_cases some : 0 < sz
      · rw [if_pos some]
        set l := if bufSize < sz then bufSize else sz with l_eq
        have inside : l ≤ sz ∧ 0 < l := by
          simp only [l_eq, bufSize]
          split <;> omega
        have length : (rest.take l).length = l := List.length_take_of_le (by omega)
        have parts : rest.take l ++ (rest.drop l).take (sz - l) = rest.take sz := by
          rw [← List.take_add, Nat.add_sub_cancel' inside.1]
        have left : sz - l ≤ (rest.drop l).length := by
          rw [List.length_drop]
          omega
        rw [if_neg (not_not.mpr length), bind_eq_ok]
        simp only [write_whole]
        constructor
        · rintro ⟨_, ⟨written, rfl⟩, copied⟩
          rw [induction _ (by omega) left written, List.append_assoc, parts] at copied
          exact copied
        · rintro ⟨fits, rfl⟩
          have written : (bytes ++ rest.take l).length ≤ env.room := by
            rw [← parts, ← List.append_assoc, List.length_append] at fits
            omega
          refine ⟨_, ⟨written, rfl⟩, (induction _ (by omega) left written).mpr ?_⟩
          rw [List.append_assoc, parts]
          exact ⟨fits, rfl⟩
      · obtain rfl : sz = 0 := by omega
        rw [if_neg some, List.take_zero, List.append_nil, and_iff_right room, pure_eq_ok,
          Except.ok.injEq, eq_comm]

/-- What is copied of a file whose size is kept in 32 bits. -/
def kept (content : List Byte) : List Byte := content.take (content.length % 2 ^ 32)

theorem copyFile_eq_ok {bytes : List Byte} (found : env.content name = some content)
    (room : bytes.length ≤ env.room) :
    copyFile env name (.whole bytes) = .ok (size, out') ↔
      (bytes ++ kept content).length ≤ env.room ∧
        size = BitVec.ofNat 32 content.length ∧ out' = .whole (bytes ++ kept content) := by
  have truncated : (BitVec.ofNat 32 content.length).toNat = content.length % 2 ^ 32 :=
    BitVec.toNat_ofNat ..
  have enough : content.length % 2 ^ 32 ≤ content.length := Nat.mod_le _ _
  have copied : ∀ out', copyLoop env name (content.length % 2 ^ 32) content (.whole bytes) =
      .ok out' ↔
      (bytes ++ kept content).length ≤ env.room ∧ out' = .whole (bytes ++ kept content) :=
    fun out' => copyLoop_eq_ok _ enough room
  rw [copyFile, openFile_eq_ok.mpr found, ok_bind]
  dsimp only
  rw [truncated, bind_eq_ok]
  simp only [copied, pure_eq_ok, Except.ok.injEq, Prod.mk.injEq]
  constructor
  · rintro ⟨_, ⟨fits, rfl⟩, rfl, rfl⟩
    exact ⟨fits, rfl, rfl⟩
  · rintro ⟨fits, rfl, rfl⟩
    exact ⟨_, ⟨fits, rfl⟩, rfl, rfl⟩

/-- The header that `minix_open` accepts. -/
structure MinixHeader (file : List Byte) : Prop where
  length : (file.take minixHeaderLen).length = minixHeaderLen
  magic : (file.take minixHeaderLen).take hdr.length = hdr
  entry : word (file.take minixHeaderLen) (4 * 5) = 0
  dataSegment : word (file.take minixHeaderLen) (4 * 3) = 0
  bssSegment : word (file.take minixHeaderLen) (4 * 4) = 0
  symbolTable : word (file.take minixHeaderLen) (4 * 7) = 0

theorem minixOpen_eq_ok (found : env.content name = some content) :
    minixOpen env name = .ok rest ↔
      MinixHeader content ∧ rest = content.drop minixHeaderLen := by
  rw [minixOpen, openFile_eq_ok.mpr found, ok_bind]
  dsimp only
  split_ifs with short foreign data bss symbols
  · exact iff_of_false (by simp) fun valid => short valid.1.length
  · exact iff_of_false (by simp) fun valid =>
      foreign.elim (absurd valid.1.magic) (absurd valid.1.entry)
  · exact iff_of_false (by simp) fun valid => data valid.1.dataSegment
  · exact iff_of_false (by simp) fun valid => bss valid.1.bssSegment
  · exact iff_of_false (by simp) fun valid => symbols valid.1.symbolTable
  · obtain ⟨magic, entry⟩ := not_or.mp foreign
    have header : MinixHeader content := ⟨not_not.mp short, not_not.mp magic, not_not.mp entry,
      not_not.mp data, not_not.mp bss, not_not.mp symbols⟩
    rw [pure_eq_ok, Except.ok.injEq, eq_comm, and_iff_right header]

/-- A file with a boot sector after the header. -/
structure BootFile (file : List Byte) : Prop where
  header : MinixHeader file
  length : (file.drop minixHeaderLen).length = 512
  flag : (file.drop minixHeaderLen)[510]? = some 0x55 ∧
    (file.drop minixHeaderLen)[511]? = some 0xaa

theorem copyBootSector_eq_ok (found : env.content name = some content) :
    copyBootSector env name = .ok out ↔ BootFile content ∧ 512 ≤ env.room ∧
      out = .whole (((content.drop minixHeaderLen).set 508 defaultMinorRoot).set 509
        defaultMajorRoot) := by
  rw [copyBootSector, bind_eq_ok]
  simp only [minixOpen_eq_ok found]
  set sector := content.drop minixHeaderLen with sector_eq
  have written : sector.length = 512 →
      (write env ⟨[], 0⟩ ((sector.set 508 defaultMinorRoot).set 509 defaultMajorRoot)
        .writeCallFailed = .ok out ↔
      512 ≤ env.room ∧
        out = .whole ((sector.set 508 defaultMinorRoot).set 509 defaultMajorRoot)) := by
    intro length
    have start : (⟨[], 0⟩ : Output) = .whole [] := rfl
    rw [start, write_whole, List.nil_append, List.length_set, List.length_set, length]
  constructor
  · rintro ⟨_, ⟨header, rfl⟩, copied⟩
    split_ifs at copied with size flag
    have length : sector.length = 512 := by
      rw [List.length_take, bufSize] at size
      omega
    have whole : sector.take bufSize = sector := List.take_of_length_le (by rw [length]; decide)
    rw [whole] at flag copied
    obtain ⟨low, high⟩ := not_or.mp flag
    obtain ⟨fits, rfl⟩ := (written length).mp copied
    exact ⟨⟨header, length, not_not.mp low, not_not.mp high⟩, fits, rfl⟩
  · rintro ⟨⟨header, length, low, high⟩, fits, rfl⟩
    rw [← sector_eq] at length low high
    have whole : sector.take bufSize = sector := List.take_of_length_le (by rw [length]; decide)
    refine ⟨sector, ⟨header, rfl⟩, ?_⟩
    rw [whole, if_neg (not_not.mpr length),
      if_neg (not_or.mpr ⟨not_not.mpr low, not_not.mpr high⟩)]
    exact (written length).mpr ⟨fits, rfl⟩

theorem writeLength_eq_ok {offset : Nat} : writeLength env out offset size death = .ok out' ↔
    env.seekable = true ∧ offset + 4 ≤ env.room ∧
      out' = ⟨overwrite out.bytes offset (lengthBytes size), offset + 4⟩ := by
  rw [writeLength, bind_eq_ok]
  simp only [lseek_eq_ok, write_eq_ok]
  constructor
  · rintro ⟨_, ⟨seekable, rfl⟩, room, rfl⟩
    exact ⟨seekable, room, rfl⟩
  · rintro ⟨seekable, room, rfl⟩
    exact ⟨_, ⟨seekable, rfl⟩, room, rfl⟩

/-- The bytes of the number of units of 16 bytes that `build` stores. -/
def unitBytes (sysSize usrSize : Word) : List Byte :=
  [byteAt ((sysSize + usrSize + 15) / 16) 0, byteAt ((sysSize + usrSize + 15) / 16) 8]

/-- An image with the sizes written over it. -/
def sized (bytes : List Byte) (sysSize usrSize : Word) : List Byte :=
  overwrite (overwrite (overwrite (overwrite bytes 500 (unitBytes sysSize usrSize))
    512 (lengthBytes sysSize)) 516 (lengthBytes usrSize)) 520 (lengthBytes 0x7E1A)

theorem writeSizes_eq_ok {sysSize usrSize : Word} :
    writeSizes env out sysSize usrSize = .ok out' ↔
      env.seekable = true ∧ 524 ≤ env.room ∧ out' = ⟨sized out.bytes sysSize usrSize, 524⟩ := by
  rw [writeSizes, bind_eq_ok]
  simp only [bind_eq_ok, lseek_eq_ok, write_eq_ok, writeLength_eq_ok]
  constructor
  · rintro ⟨_, ⟨seekable, rfl⟩, _, ⟨_, rfl⟩, _, ⟨_, _, rfl⟩, _, ⟨_, _, rfl⟩, _, room, rfl⟩
    exact ⟨seekable, room, rfl⟩
  · rintro ⟨seekable, room, rfl⟩
    exact ⟨_, ⟨seekable, rfl⟩, _, ⟨by simp only [List.length_cons, List.length_nil]; omega, rfl⟩, _,
      ⟨seekable, by omega, rfl⟩, _, ⟨seekable, by omega, rfl⟩, seekable, room, rfl⟩

/-- The three files one after the other, with the root device in the boot sector. -/
def files (boot kernel user : List Byte) : List Byte :=
  (boot.set 508 defaultMinorRoot).set 509 defaultMajorRoot ++ kept kernel ++ kept user

/-- The output of `build`. -/
def image (boot kernel user : List Byte) : List Byte :=
  sized (files boot kernel user) (BitVec.ofNat 32 kernel.length) (BitVec.ofNat 32 user.length)

/-- `build` succeeds if it finds a boot sector and can write, whatever the sizes are. -/
theorem main_eq_ok {build bootsect system user : String} {file kernel program image' : List Byte}
    (foundBoot : env.content bootsect = some file) (foundKernel : env.content system = some kernel)
    (foundUser : env.content user = some program) :
    main env [build, bootsect, system, user] = .ok image' ↔
      BootFile file ∧ env.seekable = true ∧ 524 ≤ env.room ∧
        (files (file.drop minixHeaderLen) kernel program).length ≤ env.room ∧
        image' = image (file.drop minixHeaderLen) kernel program := by
  rw [main, bind_eq_ok]
  simp only [copyBootSector_eq_ok foundBoot]
  set sector := ((file.drop minixHeaderLen).set 508 defaultMinorRoot).set 509 defaultMajorRoot
    with sector_eq
  have length : BootFile file → sector.length = 512 := fun boot => by
    rw [sector_eq, List.length_set, List.length_set, boot.length]
  constructor
  · rintro ⟨_, ⟨boot, room₁, rfl⟩, copied⟩
    rw [← length boot] at room₁
    obtain ⟨⟨_, _⟩, copiedKernel, rest⟩ := bind_eq_ok.mp copied
    obtain ⟨room₂, rfl, rfl⟩ := (copyFile_eq_ok foundKernel room₁).mp copiedKernel
    obtain ⟨⟨_, _⟩, copiedUser, rest⟩ := bind_eq_ok.mp rest
    obtain ⟨room₃, rfl, rfl⟩ := (copyFile_eq_ok foundUser room₂).mp copiedUser
    obtain ⟨_, written, result⟩ := bind_eq_ok.mp rest
    obtain ⟨seekable, room₄, rfl⟩ := writeSizes_eq_ok.mp written
    exact ⟨boot, seekable, room₄, room₃, (Except.ok.inj result).symm⟩
  · rintro ⟨boot, seekable, room, fits, same⟩
    have kernelRoom : (sector ++ kept kernel).length ≤ env.room := by
      rw [files, List.length_append, ← sector_eq] at fits
      omega
    have sectorRoom : sector.length ≤ env.room := by
      rw [List.length_append] at kernelRoom
      omega
    have copiedKernel := (copyFile_eq_ok foundKernel sectorRoom).mpr ⟨kernelRoom, rfl, rfl⟩
    have copiedUser := (copyFile_eq_ok foundUser kernelRoom).mpr ⟨fits, rfl, rfl⟩
    have written : writeSizes env (.whole (sector ++ kept kernel ++ kept program))
        (BitVec.ofNat 32 kernel.length) (BitVec.ofNat 32 program.length) = .ok ⟨image', 524⟩ :=
      writeSizes_eq_ok.mpr ⟨seekable, room, by rw [same]; rfl⟩
    exact ⟨_, ⟨boot, by omega, rfl⟩, bind_eq_ok.mpr ⟨_, copiedKernel, bind_eq_ok.mpr
      ⟨_, copiedUser, bind_eq_ok.mpr ⟨_, written, rfl⟩⟩⟩⟩

/-! ## What the boot sector and the kernel find -/

section Sized

variable {bytes : List Byte} {sysSize usrSize : Word}

/-- The sizes lie in the image. -/
theorem lengths_sized (sysSize usrSize : Word) (long : 524 ≤ bytes.length) :
    (overwrite bytes 500 (unitBytes sysSize usrSize)).length = bytes.length ∧
      (overwrite (overwrite bytes 500 (unitBytes sysSize usrSize)) 512
        (lengthBytes sysSize)).length = bytes.length ∧
      (overwrite (overwrite (overwrite bytes 500 (unitBytes sysSize usrSize)) 512
        (lengthBytes sysSize)) 516 (lengthBytes usrSize)).length = bytes.length ∧
      (sized bytes sysSize usrSize).length = bytes.length := by
  have four : ∀ size, (lengthBytes size).length = 4 := fun _ => rfl
  have two : (unitBytes sysSize usrSize).length = 2 := rfl
  have length₁ := length_overwrite rfl
    (show 500 + (unitBytes sysSize usrSize).length ≤ bytes.length by rw [two]; omega)
  have length₂ := length_overwrite length₁
    (show 512 + (lengthBytes sysSize).length ≤ _ by rw [four]; omega)
  have length₃ := length_overwrite length₂
    (show 516 + (lengthBytes usrSize).length ≤ _ by rw [four]; omega)
  exact ⟨length₁, length₂, length₃, length_overwrite length₃ (by rw [four]; omega)⟩

/-- The four parts that are written over the image are apart from each other. -/
theorem getElem?_sized (long : 524 ≤ bytes.length) (i : Nat) :
    (sized bytes sysSize usrSize)[i]? =
      if 520 ≤ i ∧ i < 524 then (lengthBytes 0x7E1A)[i - 520]?
      else if 516 ≤ i ∧ i < 520 then (lengthBytes usrSize)[i - 516]?
      else if 512 ≤ i ∧ i < 516 then (lengthBytes sysSize)[i - 512]?
      else if 500 ≤ i ∧ i < 502 then (unitBytes sysSize usrSize)[i - 500]?
      else bytes[i]? := by
  obtain ⟨length₁, length₂, length₃, _⟩ := lengths_sized sysSize usrSize long
  rw [sized, getElem?_overwrite (by omega), getElem?_overwrite (by omega),
    getElem?_overwrite (by omega), getElem?_overwrite (by omega)]
  rfl

theorem word_sized_sys (long : 524 ≤ bytes.length) (small : sysSize.toNat < 2 ^ 24) :
    word (sized bytes sysSize usrSize) 512 = sysSize := by
  refine word_eq fun i bound => ?_
  rw [getElem?_sized long, if_neg (by omega), if_neg (by omega), if_pos (by omega),
    Nat.add_sub_cancel_left, lengthBytes_eq small]

theorem word_sized_usr (long : 524 ≤ bytes.length) (small : usrSize.toNat < 2 ^ 24) :
    word (sized bytes sysSize usrSize) 516 = usrSize := by
  refine word_eq fun i bound => ?_
  rw [getElem?_sized long, if_neg (by omega), if_pos (by omega), Nat.add_sub_cancel_left,
    lengthBytes_eq small]

theorem half_sized (long : 524 ≤ bytes.length) :
    half (sized bytes sysSize usrSize) 500 = ((sysSize + usrSize + 15) / 16).setWidth 16 := by
  have low : ∀ shift, shift + 8 ≤ 16 → byteAt ((sysSize + usrSize + 15) / 16) shift =
      (((sysSize + usrSize + 15) / 16).setWidth 16).extractLsb' shift 8 := by
    intro shift bound
    rw [byteAt_eq]
    ext i below
    simp only [BitVec.getElem_extractLsb', BitVec.getLsbD_setWidth]
    rw [decide_eq_true (by omega), Bool.true_and]
  refine half_eq ?_ ?_
  · rw [getElem?_sized long, ← low 0 (by decide)]
    rfl
  · rw [getElem?_sized long, ← low 8 (by decide)]
    rfl

end Sized

/-- `KERNEL_START`, where the boot sector loads what is behind it in the image. -/
abbrev kernelStart : Word := 0x10000

/-- The image has been loaded. -/
def Loaded (mem : X86.Memory) (out : List Byte) : Prop :=
  ∀ i byte, out[512 + i]? = some byte → mem (kernelStart + BitVec.ofNat 32 i) = byte

/-- `*p_sys_size`. -/
def pSysSize (mem : X86.Memory) : Word := X86.load mem kernelStart

/-- `*p_usr_size`. -/
def pUsrSize (mem : X86.Memory) : Word := X86.load mem (kernelStart + 4)

/-- Where `build` writes over what it has copied. -/
def Altered (i : Nat) : Prop := 500 ≤ i ∧ i < 502 ∨ 508 ≤ i ∧ i < 510 ∨ 512 ≤ i ∧ i < 524

/-- The image consists of the three files, and who reads the sizes in it finds the true ones: the
boot sector the number of units of 16 bytes, the kernel the user's program behind its own bytes,
which it gives to `copy_data((void *) KERNEL_START + *p_sys_size, usr_main, *p_usr_size)`. -/
structure RoundTrips (boot kernel user out : List Byte) : Prop where
  unaltered : ∀ i, ¬Altered i → out[i]? = (boot ++ kernel ++ user)[i]?
  sysSize : (word out 512).toNat = kernel.length
  usrSize : (word out 516).toNat = user.length
  units : (half out 500).toNat = (kernel.length + user.length + 15) / 16
  source : ∀ mem, Loaded mem out → (pUsrSize mem).toInt = user.length ∧
    ∀ i byte, user[i]? = some byte → mem (kernelStart + pSysSize mem + BitVec.ofNat 32 i) = byte

theorem load_of_loaded {mem : X86.Memory} {image : List Byte} (loaded : Loaded mem image) (i : Nat)
    (inside : 512 + i + 4 ≤ image.length) :
    X86.load mem (kernelStart + BitVec.ofNat 32 i) = word image (512 + i) := by
  have byte : ∀ j < 4, mem (kernelStart + BitVec.ofNat 32 i + BitVec.ofNat 32 j) =
      image.getD (512 + i + j) 0 := by
    intro j bound
    have found := List.getElem?_eq_getElem (show 512 + (i + j) < image.length by omega)
    rw [BitVec.add_assoc, ← BitVec.ofNat_add, loaded _ _ found, List.getD_eq_getElem?_getD,
      Nat.add_assoc, found, Option.getD_some]
  have first := byte 0 (by decide)
  rw [BitVec.add_zero, Nat.add_zero] at first
  rw [word, ← byte 3 (by decide), ← byte 2 (by decide), ← byte 1 (by decide), ← first]
  rfl

/-- The kernel finds the words behind the boot sector. -/
theorem sizes_of_loaded {mem : X86.Memory} {image : List Byte} (loaded : Loaded mem image)
    (long : 524 ≤ image.length) :
    pSysSize mem = word image 512 ∧ pUsrSize mem = word image 516 := by
  have first := load_of_loaded loaded 0 (by omega)
  rw [BitVec.add_zero] at first
  exact ⟨first, load_of_loaded loaded 4 (by omega)⟩

theorem kept_eq (small : content.length < 2 ^ 32) : kept content = content := by
  rw [kept, Nat.mod_eq_of_lt small, List.take_length]

/-- The root device is the only difference before the sizes are written. -/
theorem getElem?_files {boot kernel user : List Byte} (smallKernel : kernel.length < 2 ^ 32)
    (smallUser : user.length < 2 ^ 32) {i : Nat} (apart : i ≠ 508 ∧ i ≠ 509) :
    (files boot kernel user)[i]? = (boot ++ kernel ++ user)[i]? := by
  have length :
      ((boot.set 508 defaultMinorRoot).set 509 defaultMajorRoot).length = boot.length := by
    rw [List.length_set, List.length_set]
  rw [files, kept_eq smallKernel, kept_eq smallUser, List.append_assoc, List.append_assoc]
  by_cases inside : i < boot.length
  · rw [List.getElem?_append_left (by rw [length]; exact inside),
      List.getElem?_append_left inside, List.getElem?_set_ne apart.2.symm,
      List.getElem?_set_ne apart.1.symm]
  · have behind : (boot ++ (kernel ++ user))[i]? = (kernel ++ user)[i - boot.length]? :=
      List.getElem?_append_right (by omega)
    rw [behind, ← length]
    exact List.getElem?_append_right (by omega)

theorem toNat_half_image {boot kernel user : List Byte}
    (long : 524 ≤ (files boot kernel user).length) :
    (half (image boot kernel user) 500).toNat =
      (((kernel.length + user.length) % 2 ^ 32 + 15) % 2 ^ 32 / 16) % 2 ^ 16 := by
  rw [image, half_sized long, BitVec.toNat_setWidth, BitVec.toNat_udiv, BitVec.toNat_add,
    BitVec.toNat_add, BitVec.toNat_ofNat, BitVec.toNat_ofNat, ← Nat.add_mod]
  rfl

/-- Elsewhere the image consists of the three files. -/
theorem getElem?_image {boot kernel user : List Byte} (smallKernel : kernel.length < 2 ^ 32)
    (smallUser : user.length < 2 ^ 32) (long : 524 ≤ (files boot kernel user).length) {i : Nat}
    (apart : ¬Altered i) : (image boot kernel user)[i]? = (boot ++ kernel ++ user)[i]? := by
  unfold Altered at apart
  rw [image, getElem?_sized long, if_neg (by omega), if_neg (by omega), if_neg (by omega),
    if_neg (by omega)]
  exact getElem?_files smallKernel smallUser (by omega)

theorem roundTrips {boot kernel user : List Byte} (sector : boot.length = 512)
    (large : 12 ≤ kernel.length) (fits : kernel.length + user.length ≤ 16 * 65535) :
    RoundTrips boot kernel user (image boot kernel user) := by
  have keptKernel : kept kernel = kernel := kept_eq (by omega)
  have keptUser : kept user = user := kept_eq (by omega)
  have length : (files boot kernel user).length = 512 + kernel.length + user.length := by
    rw [files, keptKernel, keptUser, List.length_append, List.length_append, List.length_set,
      List.length_set, sector]
  have long : 524 ≤ (files boot kernel user).length := by omega
  have kernelSize : (BitVec.ofNat 32 kernel.length).toNat = kernel.length := by
    rw [BitVec.toNat_ofNat]
    omega
  have userSize : (BitVec.ofNat 32 user.length).toNat = user.length := by
    rw [BitVec.toNat_ofNat]
    omega
  have sysWord : word (image boot kernel user) 512 = BitVec.ofNat 32 kernel.length :=
    word_sized_sys long (by omega)
  have usrWord : word (image boot kernel user) 516 = BitVec.ofNat 32 user.length :=
    word_sized_usr long (by omega)
  have unaltered : ∀ i, ¬Altered i →
      (image boot kernel user)[i]? = (boot ++ kernel ++ user)[i]? :=
    fun _ => getElem?_image (by omega) (by omega) long
  have loadedSizes : ∀ mem, Loaded mem (image boot kernel user) →
      pSysSize mem = BitVec.ofNat 32 kernel.length ∧
        pUsrSize mem = BitVec.ofNat 32 user.length := by
    intro mem loaded
    have total : (image boot kernel user).length = _ := (lengths_sized _ _ long).2.2.2
    rw [← sysWord, ← usrWord]
    exact sizes_of_loaded loaded (by omega)
  have positive : (BitVec.ofNat 32 user.length).toInt = user.length := by
    rw [BitVec.toInt_eq_toNat_of_lt (by omega), userSize]
  have source : ∀ mem, Loaded mem (image boot kernel user) → ∀ i byte, user[i]? = some byte →
      mem (kernelStart + pSysSize mem + BitVec.ofNat 32 i) = byte := by
    intro mem loaded i byte found
    have behind : (boot ++ kernel ++ user)[512 + (kernel.length + i)]? = user[i]? := by
      rw [List.getElem?_append_right (by rw [List.length_append]; omega), List.length_append,
        sector]
      congr 1
      omega
    have apart : ¬Altered (512 + (kernel.length + i)) := by
      unfold Altered
      omega
    rw [(loadedSizes mem loaded).1, BitVec.add_assoc, ← BitVec.ofNat_add]
    exact loaded _ _ (by rw [unaltered _ apart, behind, found])
  refine ⟨unaltered, ?_, ?_, ?_, fun mem loaded => ⟨?_, source mem loaded⟩⟩
  · rw [sysWord, kernelSize]
  · rw [usrWord, userSize]
  · rw [toNat_half_image long]
    omega
  · rw [(loadedSizes mem loaded).2, positive]

variable {build bootsect system user : String} {file kernel program image' : List Byte}

/-- An image of a kernel that has room for the sizes is sound if and only if the number of its units
of 16 bytes has two bytes; `build` does not look at that. -/
theorem roundTrips_iff (foundBoot : env.content bootsect = some file)
    (foundKernel : env.content system = some kernel) (foundUser : env.content user = some program)
    (large : 12 ≤ kernel.length)
    (built : main env [build, bootsect, system, user] = .ok image') :
    RoundTrips (file.drop minixHeaderLen) kernel program image' ↔
      kernel.length + program.length ≤ 16 * 65535 := by
  obtain ⟨boot, _, _, _, same⟩ := (main_eq_ok foundBoot foundKernel foundUser).mp built
  constructor
  · intro sound
    have units := sound.units
    have small := (half image' 500).isLt
    omega
  · intro fits
    rw [same]
    exact roundTrips boot.length large fits

/-- A boot sector without code, behind its header. -/
def emptyBoot : List Byte :=
  hdr ++ List.replicate 24 0 ++ (List.replicate 510 0 ++ [0x55, 0xaa])

/-- Three files, and an output with room for two megabytes. -/
def sample (kernel program : List Byte) : Environment where
  content name :=
    if name = "bootsect" then some emptyBoot
    else if name = "system" then some kernel
    else if name = "user" then some program
    else none
  room := 2 ^ 21
  seekable := true

theorem emptyBoot_sector : BootFile emptyBoot where
  header := ⟨by decide +kernel, by decide +kernel, by decide +kernel, by decide +kernel,
    by decide +kernel, by decide +kernel⟩
  length := by decide +kernel
  flag := by decide +kernel

theorem main_sample {build : String}
    (room : (files (emptyBoot.drop minixHeaderLen) kernel program).length ≤ 2 ^ 21) :
    main (sample kernel program) [build, "bootsect", "system", "user"] =
      .ok (image (emptyBoot.drop minixHeaderLen) kernel program) :=
  (main_eq_ok rfl rfl rfl).mpr ⟨emptyBoot_sector, rfl, (by decide : 524 ≤ 2 ^ 21), room, rfl⟩

theorem roundTrips_small :
    RoundTrips (emptyBoot.drop minixHeaderLen) (List.replicate 12 1) [2, 3]
      (image (emptyBoot.drop minixHeaderLen) (List.replicate 12 1) [2, 3]) := by
  have built : main (sample (List.replicate 12 1) [2, 3])
      ["build", "bootsect", "system", "user"] = .ok _ := main_sample (by decide +kernel)
  exact (roundTrips_iff rfl rfl rfl (by decide) built).mpr (by decide)

/-- A kernel of 65536 units, of which `build` stores none. -/
theorem not_roundTrips :
    ∃ out, main (sample (List.replicate 1048561 0) []) ["build", "bootsect", "system", "user"] =
      .ok out ∧ ¬RoundTrips (emptyBoot.drop minixHeaderLen) (List.replicate 1048561 0) [] out := by
  have kernelLength : (List.replicate 1048561 (0 : Byte)).length = 1048561 := List.length_replicate
  generalize List.replicate 1048561 (0 : Byte) = kernel at kernelLength
  have length : (files (emptyBoot.drop minixHeaderLen) kernel []).length = 1049073 := by
    rw [files, kept_eq (by omega), kept_eq (by decide), List.length_append, List.length_append,
      List.length_set, List.length_set, emptyBoot_sector.length, kernelLength, List.length_nil]
  refine ⟨_, main_sample (by omega), fun sound => ?_⟩
  have units := sound.units
  rw [toNat_half_image (by omega), kernelLength, List.length_nil] at units
  omega

end Zeos.Build
