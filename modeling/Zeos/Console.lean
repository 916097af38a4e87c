import Zeos.Pointers
import Zeos.UserRange

/-!
# Writing to the console

`write` copies a buffer of the user block by block to a buffer of its own, a block by words and the
rest of it by bytes, and prints what it has copied.
-/

namespace Zeos

open GuardedRun

namespace Memory

/-- The byte of the user at an address, through the page table. -/
def userByte (m : Memory) (row : TaskId) (address : Nat) : Byte :=
  m.ram (m.getFrame row (address / pageSize) * pageSize + address % pageSize)

/-- All pages of a range are present. -/
def PresentRange (m : Memory) (row : TaskId) (start size : Nat) : Prop :=
  ∀ i < size, m.PresentAt row (start + i)

/-- Read a byte through a pointer of the user. -/
def loadByte (m : Memory) (cr3 : TaskId) (addr : Word) : Except Fault Byte := do
  return m.ram (← m.translate cr3 addr.toNat)

end Memory

namespace Console

/-- The contents of `localbuffer`. -/
abbrev LocalBuffer := Nat → Byte

/-- A store to `localbuffer`.  Behind its end are other words of the kernel's stack. -/
def store (localBuffer : LocalBuffer) (index : Nat) (value : Byte) : Except Fault LocalBuffer :=
  if index < tamBuffer then .ok (Function.update localBuffer index value) else .error .foreign

/-- The four byte stores of a word. -/
def storeWord (localBuffer : LocalBuffer) (index : Nat) (value : Word) :
    Except Fault LocalBuffer :=
  (List.range 4).foldlM (fun localBuffer offset =>
    store localBuffer (index + offset) (value.extractLsb' (8 * offset) 8)) localBuffer

/-- The byte loop of `copy_from_user`, to `localbuffer`. -/
def copyBytes (m : Memory) (cr3 : TaskId) : Nat → Word → Nat → LocalBuffer →
    Except Fault LocalBuffer
  | 0, _, _, localBuffer => .ok localBuffer
  | size + 1, p, q, localBuffer => do
      let value ← m.loadByte cr3 p
      let localBuffer ← store localBuffer q value
      copyBytes m cr3 size (p + 1) (q + 1) localBuffer

/-- `copy_from_user` to `localbuffer`: words as long as more than four bytes are left, then bytes.
-/
def copyFromUser (m : Memory) (cr3 : TaskId) (p : Word) (q size : Nat)
    (localBuffer : LocalBuffer) : Except Fault LocalBuffer :=
  if _more : 4 < size then do
    let value ← m.loadWord cr3 p
    let localBuffer ← storeWord localBuffer q value
    copyFromUser m cr3 (p + 4) (q + 4) (size - 4) localBuffer
  else copyBytes m cr3 size p q localBuffer
termination_by size

/-- `sys_write_console`: the characters given to `printc`, and the value returned. -/
def sysWriteConsole (buffer : LocalBuffer) (size : Nat) : List Byte × Nat :=
  ((List.range size).map buffer, size)

/-- The loop of `sys_write` and the block after it: the characters printed, after those printed
already, and the number of bytes left. -/
def writeLoop (m : Memory) (cr3 : TaskId) (localBuffer : LocalBuffer) (buffer : Word)
    (bytesLeft : Nat) (printed : List Byte) : Except Fault (List Byte × Nat) :=
  if _more : tamBuffer < bytesLeft then do
    let localBuffer ← copyFromUser m cr3 buffer 0 tamBuffer localBuffer
    let console := sysWriteConsole localBuffer tamBuffer
    writeLoop m cr3 localBuffer (buffer + BitVec.ofNat 32 console.2) (bytesLeft - console.2)
      (printed ++ console.1)
  else if 0 < bytesLeft then do
    let localBuffer ← copyFromUser m cr3 buffer 0 bytesLeft localBuffer
    let console := sysWriteConsole localBuffer bytesLeft
    return (printed ++ console.1, bytesLeft - console.2)
  else return (printed, bytesLeft)
termination_by bytesLeft
decreasing_by exact Nat.sub_lt (Nat.zero_lt_of_lt _more) (Nat.succ_pos _)

/-- `sys_write`, with the first contents of its uninitialised `localbuffer`: the characters printed
and the value returned. -/
def sysWrite (s : Kernel) (localBuffer : LocalBuffer) (fd : Int) (buffer : Word) (nbytes : Int) :
    Except Fault (List Byte × Int) :=
  let ret := Kernel.checkFd fd
  if ret ≠ 0 then return ([], ret)
  else if nbytes < 0 then return ([], -EINVAL)
  else if !accessOk .read buffer (BitVec.ofInt 32 nbytes) then return ([], -EFAULT)
  else do
    let (printed, bytesLeft) ← writeLoop s.mem s.cr3 localBuffer buffer nbytes.toNat []
    return (printed, nbytes - bytesLeft)

end Console

variable {m : Memory} {row : TaskId} {addr p : Word} {address physical start size q : Nat}
  {value : Word} {byte : Byte}

/-! ## Reading -/

namespace Memory

theorem translate_eq_ok : m.translate row address = .ok physical ↔ m.PresentAt row address ∧
    physical = m.getFrame row (address / pageSize) * pageSize + address % pageSize := by
  rw [translate, frameOf, PresentAt]
  split
  · rename_i present
    rw [ok_bind, pure_eq_ok, Except.ok.injEq, eq_comm]
    exact ⟨fun same => ⟨present, same⟩, And.right⟩
  · rename_i absent
    exact iff_of_false (by simp) fun found => absent found.1

theorem loadByte_eq_ok : m.loadByte row addr = .ok byte ↔
    m.PresentAt row addr.toNat ∧ byte = m.userByte row addr.toNat := by
  rw [loadByte, bind_eq_ok]
  simp only [translate_eq_ok, pure_eq_ok, Except.ok.injEq]
  constructor
  · rintro ⟨_, ⟨present, rfl⟩, rfl⟩
    exact ⟨present, rfl⟩
  · rintro ⟨present, rfl⟩
    exact ⟨_, ⟨present, rfl⟩, rfl⟩

/-- The word of the user at an address. -/
def userWord (m : Memory) (row : TaskId) (address : Nat) : Word :=
  m.userByte row (address + 3) ++ m.userByte row (address + 2) ++ m.userByte row (address + 1) ++
    m.userByte row (address + 0)

theorem loadWord_eq_ok : m.loadWord row addr = .ok value ↔
    m.PresentRange row addr.toNat 4 ∧ value = m.userWord row addr.toNat := by
  have byte : ∀ offset result, (do return m.ram (← m.translate row (addr.toNat + offset)) :
      Except Fault Byte) = .ok result ↔ m.PresentAt row (addr.toNat + offset) ∧
        result = m.userByte row (addr.toNat + offset) := by
    intro offset result
    rw [bind_eq_ok]
    simp only [translate_eq_ok, pure_eq_ok, Except.ok.injEq]
    constructor
    · rintro ⟨_, ⟨present, rfl⟩, rfl⟩
      exact ⟨present, rfl⟩
    · rintro ⟨present, rfl⟩
      exact ⟨_, ⟨present, rfl⟩, rfl⟩
  rw [loadWord]
  constructor
  · intro loaded
    obtain ⟨b₃, third, loaded⟩ := bind_eq_ok.mp loaded
    obtain ⟨b₂, second, loaded⟩ := bind_eq_ok.mp loaded
    obtain ⟨b₁, first, loaded⟩ := bind_eq_ok.mp loaded
    obtain ⟨b₀, zeroth, loaded⟩ := bind_eq_ok.mp loaded
    rw [byte] at third second first zeroth
    refine ⟨fun offset below => ?_, ?_⟩
    · match offset, below with
      | 0, _ => exact zeroth.1
      | 1, _ => exact first.1
      | 2, _ => exact second.1
      | 3, _ => exact third.1
    · rw [← Except.ok.inj loaded, third.2, second.2, first.2, zeroth.2, userWord]
  · rintro ⟨present, rfl⟩
    have loads : ∀ offset < 4, _ := fun offset below =>
      (byte offset _).mpr ⟨present offset below, rfl⟩
    refine bind_eq_ok.mpr ⟨_, loads 3 (by decide), bind_eq_ok.mpr ⟨_, loads 2 (by decide), ?_⟩⟩
    exact bind_eq_ok.mpr ⟨_, loads 1 (by decide), bind_eq_ok.mpr ⟨_, loads 0 (by decide), rfl⟩⟩

theorem presentRange_one : m.PresentRange row start 1 ↔ m.PresentAt row start := by
  constructor
  · exact fun present => present 0 (by decide)
  · intro present i below
    rwa [Nat.lt_one_iff.mp below]

theorem presentRange_add (first : Nat) : m.PresentRange row start (first + size) ↔
    m.PresentRange row start first ∧ m.PresentRange row (start + first) size := by
  constructor
  · intro present
    refine ⟨fun i below => present i (by omega), fun i below => ?_⟩
    rw [Nat.add_assoc]
    exact present (first + i) (by omega)
  · rintro ⟨before, after⟩ i below
    by_cases early : i < first
    · exact before i early
    · have late := after (i - first) (by omega)
      rwa [show start + first + (i - first) = start + i by omega] at late

end Memory

/-! ## Copying to the local buffer -/

namespace Console

variable {localBuffer result : LocalBuffer} {index : Nat}

/-- The buffer after the bytes of a range of the user have been copied to it. -/
def copied (m : Memory) (row : TaskId) (start q size : Nat) (localBuffer : LocalBuffer) :
    LocalBuffer := fun i =>
  if q ≤ i ∧ i < q + size then m.userByte row (start + (i - q)) else localBuffer i

theorem copied_zero : copied m row start q 0 localBuffer = localBuffer := by
  funext i
  rw [copied, if_neg (by omega)]

/-- What follows a range is copied after it. -/
theorem copied_copied (first : Nat) : copied m row (start + first) (q + first) size
    (copied m row start q first localBuffer) =
      copied m row start q (first + size) localBuffer := by
  funext i
  simp only [copied]
  by_cases later : q + first ≤ i ∧ i < q + first + size
  · rw [if_pos later, if_pos (by omega), show start + first + (i - (q + first)) = start + (i - q) by
      omega]
  · rw [if_neg later]
    by_cases before : q ≤ i ∧ i < q + first
    · rw [if_pos before, if_pos (by omega)]
    · rw [if_neg before, if_neg (by omega)]

theorem store_userByte (inside : q < tamBuffer) :
    store localBuffer q (m.userByte row start) = .ok (copied m row start q 1 localBuffer) := by
  rw [store, if_pos inside]
  refine congrArg _ (funext fun i => ?_)
  rw [copied, Function.update_apply]
  by_cases same : i = q
  · subst same
    rw [if_pos rfl, if_pos (by omega), Nat.sub_self, Nat.add_zero]
  · rw [if_neg same, if_neg (by omega)]

theorem storeWord_userWord (inside : q + 4 ≤ tamBuffer) :
    storeWord localBuffer q (m.userWord row start) =
      .ok (copied m row start q 4 localBuffer) := by
  have bytes : ∀ count ≤ 4, (List.range count).foldlM (fun localBuffer offset =>
      store localBuffer (q + offset) ((m.userWord row start).extractLsb' (8 * offset) 8))
        localBuffer = .ok (copied m row start q count localBuffer) := by
    intro count bound
    induction count with
    | zero => exact congrArg Except.ok copied_zero.symm
    | succ count induction =>
        have byte : (m.userWord row start).extractLsb' (8 * count) 8 =
            m.userByte row (start + count) :=
          X86.extract_word (fun offset => m.userByte row (start + offset)) bound
        rw [List.range_succ, List.foldlM_append, induction (Nat.le_of_succ_le bound), ok_bind,
          List.foldlM_cons, byte, store_userByte (by omega), ok_bind, copied_copied]
        rfl
  exact bytes 4 le_rfl

/-- The call copies a range of the user to the buffer if all its pages are present, and faults
otherwise. -/
def Copies (m : Memory) (row : TaskId) (start q size : Nat) (localBuffer : LocalBuffer)
    (call : Except Fault LocalBuffer) : Prop :=
  ∀ result, call = .ok result ↔
    m.PresentRange row start size ∧ result = copied m row start q size localBuffer

theorem Copies.bind {first : Nat} {call : Except Fault LocalBuffer}
    {next : LocalBuffer → Except Fault LocalBuffer}
    (copies : Copies m row start q first localBuffer call)
    (continues : ∀ localBuffer,
      Copies m row (start + first) (q + first) size localBuffer (next localBuffer)) :
    Copies m row start q (first + size) localBuffer (call >>= next) := by
  intro result
  rw [bind_eq_ok, Memory.presentRange_add, ← copied_copied]
  constructor
  · rintro ⟨between, called, continued⟩
    obtain ⟨present, rfl⟩ := (copies between).mp called
    obtain ⟨rest, rfl⟩ := (continues _ result).mp continued
    exact ⟨⟨present, rest⟩, rfl⟩
  · rintro ⟨⟨present, rest⟩, rfl⟩
    exact ⟨_, (copies _).mpr ⟨present, rfl⟩, (continues _ _).mpr ⟨rest, rfl⟩⟩

theorem copies_byte (localBuffer : LocalBuffer) (inside : q < tamBuffer) :
    Copies m row p.toNat q 1 localBuffer (do store localBuffer q (← m.loadByte row p)) := by
  intro result
  rw [bind_eq_ok, Memory.presentRange_one]
  simp only [Memory.loadByte_eq_ok]
  constructor
  · rintro ⟨_, ⟨present, rfl⟩, stored⟩
    rw [store_userByte inside] at stored
    exact ⟨present, (Except.ok.inj stored).symm⟩
  · rintro ⟨present, rfl⟩
    exact ⟨_, ⟨present, rfl⟩, store_userByte inside⟩

theorem copies_word (localBuffer : LocalBuffer) (inside : q + 4 ≤ tamBuffer) :
    Copies m row p.toNat q 4 localBuffer (do storeWord localBuffer q (← m.loadWord row p)) := by
  intro result
  rw [bind_eq_ok]
  simp only [Memory.loadWord_eq_ok]
  constructor
  · rintro ⟨_, ⟨present, rfl⟩, stored⟩
    rw [storeWord_userWord inside] at stored
    exact ⟨present, (Except.ok.inj stored).symm⟩
  · rintro ⟨present, rfl⟩
    exact ⟨_, ⟨present, rfl⟩, storeWord_userWord inside⟩

theorem copies_copyBytes (size : Nat) (p : Word) (q : Nat) (localBuffer : LocalBuffer)
    (noWrap : p.toNat + size < 2 ^ 32) (inside : q + size ≤ tamBuffer) :
    Copies m row p.toNat q size localBuffer (copyBytes m row size p q localBuffer) := by
  induction size generalizing p q localBuffer with
  | zero =>
      intro result
      rw [copyBytes, copied_zero, Except.ok.injEq, eq_comm]
      exact ⟨fun same => ⟨fun i below => absurd below (Nat.not_lt_zero i), same⟩, And.right⟩
  | succ size induction =>
      have next : (p + 1).toNat = p.toNat + 1 := X86.toNat_advance p 1 (by omega)
      have rest := fun localBuffer =>
        induction (p + 1) (q + 1) localBuffer (by rw [next]; omega) (by omega)
      rw [next] at rest
      have both := (copies_byte localBuffer (by omega)).bind rest
      rw [Nat.add_comm 1 size, bind_assoc] at both
      exact both

variable (m row) in
theorem copies_copyFromUser (size : Nat) (p : Word) (q : Nat) (localBuffer : LocalBuffer)
    (noWrap : p.toNat + size < 2 ^ 32) (inside : q + size ≤ tamBuffer) :
    Copies m row p.toNat q size localBuffer (copyFromUser m row p q size localBuffer) := by
  induction size using Nat.strongRecOn generalizing p q localBuffer with
  | ind size induction =>
      rw [copyFromUser]
      split_ifs with more
      · have next : (p + 4).toNat = p.toNat + 4 := X86.toNat_advance p 4 (by omega)
        have rest := fun localBuffer => induction (size - 4) (by omega) (p + 4) (q + 4) localBuffer
          (by rw [next]; omega) (by omega)
        rw [next] at rest
        have both := (copies_word localBuffer (by omega)).bind rest
        rw [Nat.add_sub_cancel' more.le, bind_assoc] at both
        exact both
      · exact copies_copyBytes size p q localBuffer noWrap inside

/-! ## Printing -/

/-- The bytes of a range of the user. -/
def userBytes (m : Memory) (row : TaskId) (start size : Nat) : List Byte :=
  (List.range size).map fun i => m.userByte row (start + i)

theorem userBytes_add (first : Nat) : userBytes m row start (first + size) =
    userBytes m row start first ++ userBytes m row (start + first) size := by
  simp only [userBytes, List.range_add, List.map_append, List.map_map, Function.comp_def,
    Nat.add_assoc]

/-- What has been copied to the beginning of the buffer is printed. -/
theorem sysWriteConsole_copied : sysWriteConsole (copied m row start 0 size localBuffer) size =
    (userBytes m row start size, size) := by
  refine congrArg (·, size) (List.map_congr_left fun i member => ?_)
  rw [copied, if_pos (by simpa using member), Nat.sub_zero]

/-- The loop prints a range of the user if all its pages are present, and faults otherwise. -/
theorem writeLoop_eq_ok (bytesLeft : Nat) (localBuffer : LocalBuffer) (buffer : Word)
    (printed : List Byte) (noWrap : buffer.toNat + bytesLeft < 2 ^ 32)
    (result : List Byte × Nat) :
    writeLoop m row localBuffer buffer bytesLeft printed = .ok result ↔
      m.PresentRange row buffer.toNat bytesLeft ∧
        result = (printed ++ userBytes m row buffer.toNat bytesLeft, 0) := by
  induction bytesLeft using Nat.strongRecOn generalizing localBuffer buffer printed with
  | ind bytesLeft induction =>
      rw [writeLoop]
      split_ifs with more some_left
      · have copies := copies_copyFromUser m row tamBuffer buffer 0 localBuffer
          (by omega) (by omega)
        have next := X86.toNat_advance buffer tamBuffer (by omega)
        have rest := fun localBuffer printed => induction (bytesLeft - tamBuffer)
          (Nat.sub_lt (Nat.zero_lt_of_lt more) (by decide)) localBuffer
          (buffer + BitVec.ofNat 32 tamBuffer) printed (by rw [next]; omega)
        rw [next] at rest
        have both : tamBuffer + (bytesLeft - tamBuffer) = bytesLeft := Nat.add_sub_cancel' more.le
        rw [bind_eq_ok, ← both, Memory.presentRange_add, userBytes_add, ← List.append_assoc, both]
        constructor
        · rintro ⟨_, called, continued⟩
          obtain ⟨present, rfl⟩ := (copies _).mp called
          simp only [sysWriteConsole_copied] at continued
          obtain ⟨later, rfl⟩ := (rest _ _).mp continued
          exact ⟨⟨present, later⟩, rfl⟩
        · rintro ⟨⟨present, later⟩, rfl⟩
          refine ⟨_, (copies _).mpr ⟨present, rfl⟩, ?_⟩
          simp only [sysWriteConsole_copied]
          exact (rest _ _).mpr ⟨later, rfl⟩
      · have copies := copies_copyFromUser m row bytesLeft buffer 0 localBuffer
          noWrap (by omega)
        rw [bind_eq_ok]
        constructor
        · rintro ⟨_, called, printed⟩
          obtain ⟨present, rfl⟩ := (copies _).mp called
          simp only [sysWriteConsole_copied, pure_eq_ok, Nat.sub_self] at printed
          exact ⟨present, (Except.ok.inj printed).symm⟩
        · rintro ⟨present, rfl⟩
          refine ⟨_, (copies _).mpr ⟨present, rfl⟩, ?_⟩
          simp only [sysWriteConsole_copied, pure_eq_ok, Nat.sub_self]
      · obtain rfl : bytesLeft = 0 := by omega
        rw [pure_eq_ok, Except.ok.injEq, eq_comm]
        simp [userBytes, Memory.PresentRange]

/-! ## The call -/

variable {s : Kernel} {buffer nbytes : Word} {fd : Int}

/-- A range that `access_ok` accepts does not wrap around, unless it is longer than any that can be
written. -/
theorem noWrap_of_accessOk (accepted : accessOk .read buffer nbytes = true)
    (nonnegative : 0 ≤ nbytes.toInt) : buffer.toNat + nbytes.toInt.toNat < 2 ^ 32 ∧
      nbytes.toInt.toNat = nbytes.toNat := by
  obtain ⟨_, _, below⟩ := accessOk_read_iff.mp accepted
  obtain ⟨order, _, _⟩ := accessOk_read_iff.mp accepted
  have signed := BitVec.toInt_eq_toNat_cond nbytes
  have bound := nbytes.isLt
  simp only [pagLogInitData, pagLogInitCode, numPagCode, numPagData, pageSize] at below order
  split_ifs at signed <;> omega

/-- A negative number of bytes or another file descriptor is an error, and nothing is printed. -/
theorem sysWrite_rejects (rejected : fd ≠ 1 ∨ nbytes.toInt < 0) :
    ∃ error < 0, sysWrite s localBuffer fd buffer nbytes.toInt = .ok ([], error) := by
  by_cases known : fd = 1
  · subst known
    refine ⟨-EINVAL, by decide, ?_⟩
    rw [sysWrite, if_neg (by decide), if_pos (rejected.resolve_left (not_not.mpr rfl)), pure_eq_ok]
  · have error : Kernel.checkFd fd = -EBADF := if_pos known
    refine ⟨-EBADF, by decide, ?_⟩
    rw [sysWrite, error, if_pos (by decide), pure_eq_ok]

/-- A buffer that is accepted is printed as a whole if all its pages are present. -/
theorem sysWrite_eq_ok (nonnegative : 0 ≤ nbytes.toInt)
    (accepted : accessOk .read buffer nbytes = true) (result : List Byte × Int) :
    sysWrite s localBuffer 1 buffer nbytes.toInt = .ok result ↔
      s.mem.PresentRange s.cr3 buffer.toNat nbytes.toNat ∧
        result = (userBytes s.mem s.cr3 buffer.toNat nbytes.toNat, nbytes.toInt) := by
  obtain ⟨noWrap, length⟩ := noWrap_of_accessOk accepted nonnegative
  rw [sysWrite, if_neg (by decide), if_neg (Int.not_lt.mpr nonnegative), BitVec.ofInt_toInt,
    accepted, if_neg (by simp), bind_eq_ok]
  simp only [writeLoop_eq_ok _ _ _ _ noWrap]
  rw [length]
  constructor
  · rintro ⟨_, ⟨present, rfl⟩, returned⟩
    refine ⟨present, (Except.ok.inj returned).symm.trans ?_⟩
    exact congrArg (Prod.mk _) (Int.sub_zero _)
  · rintro ⟨present, rfl⟩
    refine ⟨_, ⟨present, rfl⟩, ?_⟩
    rw [pure_eq_ok]
    exact congrArg (fun value => Except.ok (_, value)) (Int.sub_zero _)

/-! ## The blocks as a whole -/

theorem copyFromUser_eq_ok (size : Nat) (noWrap : p.toNat + size < 2 ^ 32) (block : List Byte) :
    m.copyFromUser row p size = .ok block ↔
      m.PresentRange row p.toNat size ∧ block = userBytes m row p.toNat size := by
  have last : ∀ size, p.toNat + size < 2 ^ 32 → ∀ byte,
      (do return m.ram (← m.translate row (p + BitVec.ofNat 32 size).toNat)) =
        (Except.ok byte : Except Fault Byte) ↔
      m.PresentAt row (p.toNat + size) ∧ byte = m.userByte row (p.toNat + size) := by
    intro size noWrap byte
    rw [← X86.toNat_advance p size noWrap]
    exact Memory.loadByte_eq_ok
  induction size generalizing block with
  | zero =>
      rw [Memory.copyFromUser, List.range_zero, List.mapM_nil, pure_eq_ok, Except.ok.injEq, eq_comm]
      simp [userBytes, Memory.PresentRange]
  | succ size induction =>
      have before := induction (by omega)
      rw [Memory.copyFromUser] at before
      rw [Memory.copyFromUser, List.range_succ, List.mapM_append, Memory.presentRange_add,
        userBytes_add, Memory.presentRange_one, bind_eq_ok]
      simp only [before, List.mapM_cons, List.mapM_nil]
      constructor
      · rintro ⟨_, ⟨present, rfl⟩, copied⟩
        obtain ⟨bytes, one, copied⟩ := bind_eq_ok.mp copied
        obtain ⟨byte, loaded, one⟩ := bind_eq_ok.mp one
        obtain ⟨presentLast, rfl⟩ := (last size (by omega) byte).mp loaded
        obtain rfl := Except.ok.inj one
        exact ⟨⟨present, presentLast⟩, (Except.ok.inj copied).symm⟩
      · rintro ⟨⟨present, presentLast⟩, rfl⟩
        refine ⟨_, ⟨present, rfl⟩, bind_eq_ok.mpr ⟨[_], ?_, rfl⟩⟩
        exact bind_eq_ok.mpr ⟨_, (last size (by omega) _).mpr ⟨presentLast, rfl⟩, rfl⟩

theorem writeBlocks_eq_ok (bytesLeft : Nat) (buffer : Word)
    (noWrap : buffer.toNat + bytesLeft < 2 ^ 32) (printed : List Byte) :
    Kernel.writeBlocks m row buffer bytesLeft = .ok printed ↔
      m.PresentRange row buffer.toNat bytesLeft ∧
        printed = userBytes m row buffer.toNat bytesLeft := by
  induction bytesLeft using Nat.strongRecOn generalizing buffer printed with
  | ind bytesLeft induction =>
      rw [Kernel.writeBlocks]
      split_ifs with more some_left
      · have next := X86.toNat_advance buffer tamBuffer (by omega)
        have rest := induction (bytesLeft - tamBuffer)
          (Nat.sub_lt (Nat.zero_lt_of_lt more) (by decide)) (buffer + BitVec.ofNat 32 tamBuffer)
          (by rw [next]; omega)
        rw [next] at rest
        have both : tamBuffer + (bytesLeft - tamBuffer) = bytesLeft := Nat.add_sub_cancel' more.le
        rw [bind_eq_ok, ← both, Memory.presentRange_add, userBytes_add, both]
        simp only [copyFromUser_eq_ok tamBuffer (p := buffer) (by omega), bind_eq_ok, rest,
          pure_eq_ok, Except.ok.injEq]
        constructor
        · rintro ⟨block, ⟨present, block_eq⟩, rest, ⟨later, rest_eq⟩, joined⟩
          rw [block_eq, rest_eq] at joined
          exact ⟨⟨present, later⟩, joined.symm⟩
        · rintro ⟨⟨present, later⟩, joined⟩
          exact ⟨_, ⟨present, rfl⟩, _, ⟨later, rfl⟩, joined.symm⟩
      · exact copyFromUser_eq_ok bytesLeft noWrap printed
      · obtain rfl : bytesLeft = 0 := by omega
        rw [pure_eq_ok, Except.ok.injEq, eq_comm]
        simp [userBytes, Memory.PresentRange]

/-- `write` without its local buffer has the same results. -/
theorem sysWrite_iff (s : Kernel) (localBuffer : LocalBuffer) (fd : Int) (buffer nbytes : Word)
    (result : List Byte × Int) : sysWrite s localBuffer fd buffer nbytes.toInt = .ok result ↔
      s.sysWrite fd buffer nbytes.toInt = .ok result := by
  rw [sysWrite, Kernel.sysWrite]
  dsimp only
  split_ifs with unknown negative rejected
  · rfl
  · rfl
  · rfl
  · have accepted : accessOk .read buffer nbytes = true := by
      simpa [BitVec.ofInt_toInt] using rejected
    obtain ⟨noWrap, length⟩ := noWrap_of_accessOk accepted (Int.not_lt.mp negative)
    rw [bind_eq_ok, bind_eq_ok]
    simp only [writeLoop_eq_ok _ _ _ _ noWrap, writeBlocks_eq_ok _ _ noWrap]
    constructor
    · rintro ⟨_, ⟨present, rfl⟩, returned⟩
      refine ⟨_, ⟨present, rfl⟩, ?_⟩
      rw [← returned]
      exact congrArg (fun value => Except.ok (_, value)) (Int.sub_zero _).symm
    · rintro ⟨_, ⟨present, rfl⟩, returned⟩
      refine ⟨_, ⟨present, rfl⟩, ?_⟩
      rw [← returned]
      exact congrArg (fun value => Except.ok (_, value)) (Int.sub_zero _)

/-- For a file descriptor 1 and a number of bytes that is not negative, `write` prints the bytes of
an accepted buffer in order and returns their number.  Otherwise it prints nothing and returns an
error. -/
structure WritesExactly (s : Kernel) (localBuffer : LocalBuffer) (fd : Int)
    (buffer nbytes : Word) : Prop where
  prints : fd = 1 → 0 ≤ nbytes.toInt → accessOk .read buffer nbytes = true →
    sysWrite s localBuffer fd buffer nbytes.toInt =
      .ok (userBytes s.mem s.cr3 buffer.toNat nbytes.toNat, nbytes.toInt)
  rejects : fd ≠ 1 ∨ nbytes.toInt < 0 →
    ∃ error < 0, sysWrite s localBuffer fd buffer nbytes.toInt = .ok ([], error)

/-- `write` does so exactly if all pages of an accepted buffer are present. -/
theorem writesExactly_iff (s : Kernel) (localBuffer : LocalBuffer) (fd : Int)
    (buffer nbytes : Word) : WritesExactly s localBuffer fd buffer nbytes ↔
      (fd = 1 → 0 ≤ nbytes.toInt → accessOk .read buffer nbytes = true →
        ∀ i < nbytes.toNat, s.mem.PresentAt s.cr3 (buffer.toNat + i)) := by
  constructor
  · rintro ⟨prints, _⟩ rfl nonnegative accepted
    exact ((sysWrite_eq_ok nonnegative accepted _).mp (prints rfl nonnegative accepted)).1
  · intro present
    refine ⟨?_, sysWrite_rejects⟩
    rintro rfl nonnegative accepted
    exact (sysWrite_eq_ok nonnegative accepted _).mpr ⟨present rfl nonnegative accepted, rfl⟩

/-- The page behind the data pages is accepted, but not mapped. -/
theorem not_writesExactly : ¬∀ (layout : Layout) (s : Kernel) (localBuffer : LocalBuffer)
    (fd : Int) (buffer nbytes : Word), Kernel.Reachable layout Kernel.anyStep s →
      WritesExactly s localBuffer fd buffer nbytes := by
  intro writes
  obtain ⟨s, reachable, absent⟩ := Kernel.reachable_of_checkBoot Kernel.anyStep (fun _ _ => true)
    (fun s => !(sysWrite s (fun _ => 0) 1 0x11c000 4).isOk) [] (fun _ _ _ => trivial)
    (by decide +kernel)
  have prints := (writes Kernel.plainLayout s (fun _ => 0) 1 0x11c000 4 reachable).prints rfl
    (by decide) (by decide)
  rw [show (4 : Word).toInt = 4 from rfl] at prints
  rw [prints] at absent
  exact absurd absent (by simp [Except.isOk, Except.toBool])

end Console

end Zeos
