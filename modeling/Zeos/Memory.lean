import Zeos.Types

/-!
# Frames, page tables and copying

The functions of `mm.c` and `utils.c` that the system calls use.
-/

namespace Zeos

open GuardedRun

/-! ## Copying and checking user addresses -/

/-- The byte loop of `copy_data`. -/
def copyBytes : Nat → (Nat → Byte) → Nat → Nat → Nat → Byte
  | 0, ram, _, _ => ram
  | size + 1, ram, start, dest =>
      copyBytes size (Function.update ram dest (ram start)) (start + 1) (dest + 1)

/-- The four byte stores of `*q++ = *p++`, all bytes being read first. -/
def copyWord (ram : Nat → Byte) (start dest : Nat) : Nat → Byte := fun address =>
  if dest ≤ address ∧ address < dest + 4 then ram (start + (address - dest)) else ram address

/-- `copy_data`: words as long as more than four bytes are left, then bytes. -/
def copyData (ram : Nat → Byte) (start dest size : Nat) : Nat → Byte :=
  if 4 < size then copyData (copyWord ram start dest) (start + 4) (dest + 4) (size - 4)
  else copyBytes size ram start dest
termination_by size

/-- The kinds of access that `access_ok` distinguishes. -/
inductive Verify
  | read
  | write
  deriving DecidableEq

/-- The test of the default case of `access_ok`. -/
def userPages (addrIni addrFin : Word) : Bool :=
  decide (256 ≤ addrIni.toNat ∧ addrFin.toNat ≤ 256 + numPagCode + numPagData)

/-- `access_ok`.  A failed test of the write case falls through to the default case. -/
def accessOk (type : Verify) (addr size : Word) : Bool :=
  let addrIni := addr >>> 12
  let addrFin := (addr + size) >>> 12
  if addrFin.toNat < addrIni.toNat then false
  else
    match type with
    | .write =>
        decide (256 + numPagCode ≤ addrIni.toNat ∧
          addrFin.toNat ≤ 256 + numPagCode + numPagData) || userPages addrIni addrFin
    | .read => userPages addrIni addrFin

namespace Memory

/-! ## Frames -/

/-- `init_frames`. -/
def initFrames (m : Memory) : Memory :=
  { m with
    physMem := fun frame =>
      if frame < numPagKernel then 1 else if frame < totalPages then 0 else m.physMem frame }

/-- The loop of `alloc_frame` from frame `i` on, for at most `fuel` rounds. -/
def findFrame (physMem : Nat → Byte) : Nat → Nat → Option Nat
  | 0, _ => none
  | fuel + 1, i =>
      if i < totalPages then
        if physMem i = 0 then some i else findFrame physMem fuel (i + 2)
      else none

/-- `alloc_frame`: the number of a free frame, now used, or -1. -/
def allocFrame (m : Memory) : Int × Memory :=
  match findFrame m.physMem totalPages numPagKernel with
  | some frame => (frame, { m with physMem := Function.update m.physMem frame 1 })
  | none => (-1, m)

/-- `free_frame`. -/
def freeFrame (m : Memory) (frame : Nat) : Memory :=
  if numPagKernel < frame ∧ frame < totalPages then
    { m with physMem := Function.update m.physMem frame 0 }
  else m

/-! ## Page tables -/

def setEntry (m : Memory) (index : Nat) (entry : PageTableEntry) : Memory :=
  { m with pagusrTable := Function.update m.pagusrTable index entry }

/-- `set_ss_pag`. -/
def setSsPag (m : Memory) (row : TaskId) (page : Nat) (frame : Int) : Memory :=
  m.setEntry (entryIndex row page)
    { present := true, rw := true, user := true, pbaseAddr := BitVec.ofInt 20 frame }

/-- `del_ss_pag`. -/
def delSsPag (m : Memory) (row : TaskId) (page : Nat) : Memory :=
  m.setEntry (entryIndex row page) .zero

/-- `get_frame`. -/
def getFrame (m : Memory) (row : TaskId) (page : Nat) : Nat :=
  (m.pagusrTable (entryIndex row page)).pbaseAddr.toNat

/-- `init_table_pages`: the kernel pages but the first map to themselves, and the pages around the
task array are absent. -/
def initTablePages (layout : Layout) (m : Memory) : Memory :=
  { m with
    pagusrTable := fun index =>
      let page := index % totalPages
      if index < nrTasks * totalPages then
        if 1 ≤ page ∧ page < numPagKernel then
          { present := decide (page ≠ layout.protectedTasks ∧ page ≠ layout.protectedTasks + 11)
            rw := true
            user := false
            pbaseAddr := BitVec.ofNat 20 page }
        else .zero
      else m.pagusrTable index }

/-- The loop of `set_user_pages` over the code pages. -/
def setCodePages (row : TaskId) (m : Memory) : Memory :=
  (List.range numPagCode).foldl (fun m pag =>
    let (frame, m) := m.allocFrame
    m.setEntry (entryIndex row (pagLogInitCode + pag))
      { present := true, rw := false, user := true, pbaseAddr := BitVec.ofInt 20 frame }) m

/-- `set_user_pages`. -/
def setUserPages (row : TaskId) (m : Memory) : Memory :=
  (List.range numPagData).foldl (fun m pag =>
    let (frame, m) := m.allocFrame
    m.setEntry (entryIndex row (pagLogInitData + pag))
      { present := true, rw := true, user := true, pbaseAddr := BitVec.ofInt 20 frame })
    (m.setCodePages row)

/-- The loop that frees and unmaps the first `count` data pages, in `sys_exit` and in the error
path of `sys_fork`. -/
def releaseDataPages (row : TaskId) (count : Nat) (m : Memory) : Memory :=
  (List.range count).foldl (fun m i =>
    (m.freeFrame (m.getFrame row (pagLogInitData + i))).delSsPag row (pagLogInitData + i)) m

/-- The loop of `sys_fork` that gives the child its data pages from `pag` on, `remaining` of them.
Without a frame it takes all of them back and reports failure. -/
def allocDataPages (row : TaskId) : Nat → Nat → Memory → Bool × Memory
  | 0, _, m => (true, m)
  | remaining + 1, pag, m =>
      let (frame, m) := m.allocFrame
      if frame ≠ -1 then
        allocDataPages row remaining (pag + 1) (m.setSsPag row (pagLogInitData + pag) frame)
      else (false, m.releaseDataPages row pag)

/-- The loops of `sys_fork` that map the parent's kernel and code pages into the child. -/
def shareSystemAndCode (parent child : TaskId) (m : Memory) : Memory :=
  let m := (List.range numPagKernel).foldl
    (fun m pag => m.setSsPag child pag (m.getFrame parent pag)) m
  (List.range numPagCode).foldl (fun m pag =>
    m.setSsPag child (pagLogInitCode + pag) (m.getFrame parent (pagLogInitCode + pag))) m

/-- The frame behind a logical page, for an access of the kernel. -/
def frameOf (m : Memory) (row : TaskId) (page : Nat) : Except Fault Nat :=
  let entry := m.pagusrTable (entryIndex row page)
  if page < totalPages ∧ entry.present then .ok entry.pbaseAddr.toNat else .error .page

/-- `copy_data` of one page between two logical pages of the address space in use. -/
def copyPage (m : Memory) (cr3 : TaskId) (source target : Nat) : Except Fault Memory := do
  let start ← m.frameOf cr3 source
  let dest ← m.frameOf cr3 target
  return { m with ram := copyData m.ram (start * pageSize) (dest * pageSize) pageSize }

/-- One round of the copy loop of `sys_fork`: map the child's page into the parent's address space,
copy the parent's page there, and remove the mapping. -/
def copyDataPage (cr3 parent child : TaskId) (m : Memory) (pag : Nat) : Except Fault Memory := do
  let m := m.setSsPag parent (pag + numPagData) (m.getFrame child pag)
  let m ← m.copyPage cr3 pag (pag + numPagData)
  return m.delSsPag parent (pag + numPagData)

/-- The loop of `sys_fork` that copies the data pages. -/
def copyDataPages (cr3 parent child : TaskId) (m : Memory) : Except Fault Memory :=
  (List.range' (numPagKernel + numPagCode) numPagData).foldlM (copyDataPage cr3 parent child) m

/-- The search of `sys_pthread_create` for an entry without a frame, from `index` on.  It is not
bounded by the row it starts in; beyond the last row it reads other variables. -/
def findStackEntry (m : Memory) : Nat → Nat → Except Fault Nat
  | 0, _ => .error .foreign
  | fuel + 1, index =>
      if index < nrTasks * totalPages then
        if (m.pagusrTable index).pbaseAddr = 0 then .ok index else findStackEntry m fuel (index + 1)
      else .error .foreign

/-! ## User memory -/

/-- Physical address behind a linear address. -/
def translate (m : Memory) (cr3 : TaskId) (addr : Nat) : Except Fault Nat := do
  let frame ← m.frameOf cr3 (addr / pageSize)
  return frame * pageSize + addr % pageSize

/-- Read an `int` through a pointer of the user. -/
def loadWord (m : Memory) (cr3 : TaskId) (addr : Word) : Except Fault Word := do
  let byte (offset : Nat) : Except Fault Byte := do
    return m.ram (← m.translate cr3 (addr.toNat + offset))
  return (← byte 3) ++ (← byte 2) ++ (← byte 1) ++ (← byte 0)

/-- `copy_from_user`: the bytes of a block, from the address on which they start. -/
def copyFromUser (m : Memory) (cr3 : TaskId) (start : Word) (size : Nat) :
    Except Fault (List Byte) :=
  (List.range size).mapM fun i => do
    return m.ram (← m.translate cr3 (start + BitVec.ofNat 32 i).toNat)

/-- Store a byte through a pointer of the user.  Below `numPagKernel` are the variables that the
other fields stand for: the run ends there, and `Image.storeByte` goes on with what the byte
becomes. -/
def storeByte (m : Memory) (cr3 : TaskId) (addr : Nat) (value : Byte) : Except Fault Memory := do
  let physical ← m.translate cr3 addr
  if physical < numPagKernel * pageSize then .error .foreign
  else return { m with ram := Function.update m.ram physical value }

/-- Store an `int` through a pointer of the user. -/
def storeWord (m : Memory) (cr3 : TaskId) (addr : Word) (value : Word) : Except Fault Memory :=
  (List.range 4).foldlM (fun m offset =>
    m.storeByte cr3 (addr.toNat + offset) (value.extractLsb' (8 * offset) 8)) m

end Memory

end Zeos
