import Zeos.Types
import Zeos.X86

/-!
# The way of a system call

The wrappers of `user-utils.S`, the entry to the kernel in `entry.S` and the table of the services.
Addresses that the linker chooses are parameters.  The arithmetic flags are not part of a state:
conditional jumps come with the comparison before them.
-/

namespace Zeos

open X86

abbrev ENOSYS : Int := 38

/-- The services of the kernel. -/
inductive Service
  | sysNiSyscall | sysExit | sysFork | sysWrite | sysGettime | sysPthreadCreate | sysYield
  | sysGetpid
  | sysPthreadJoin | sysPthreadExit | sysMutexInit | sysMutexLock | sysMutexUnlock | sysMutexDestroy
  deriving DecidableEq

def sysCallTable : List Service :=
  [.sysNiSyscall, .sysExit, .sysFork, .sysNiSyscall, .sysWrite, .sysNiSyscall, .sysNiSyscall,
    .sysNiSyscall, .sysNiSyscall, .sysNiSyscall, .sysGettime, .sysNiSyscall, .sysPthreadCreate,
    .sysYield, .sysNiSyscall, .sysNiSyscall, .sysNiSyscall, .sysNiSyscall, .sysNiSyscall,
    .sysNiSyscall, .sysGetpid, .sysNiSyscall, .sysNiSyscall, .sysPthreadCreate, .sysPthreadJoin,
    .sysPthreadExit, .sysMutexInit, .sysMutexLock, .sysMutexUnlock, .sysMutexDestroy,
    .sysNiSyscall, .sysNiSyscall, .sysNiSyscall, .sysNiSyscall, .sysNiSyscall]

/-- `MAX_SYSCALL`. -/
def maxSyscall : Nat := sysCallTable.length

abbrev kernelDs : Word := 0x18
abbrev userCs : Word := 0x23
abbrev userDs : Word := 0x2b

/-- Addresses of a linked system, and the top of the running thread's kernel stack, which is in the
register 0x175 for `sysenter`. -/
structure Linkage where
  /-- `SYSENTER_RETURN`. -/
  sysenterReturn : Word
  /-- The instruction after `call syscall_sysenter` in the wrapper. -/
  wrapperBack : Word
  /-- The instruction after the call of the service in `system_call_handler`. -/
  handlerBack : Word
  errno : Word
  kernelStack : Word

/-- What a service does from its first instruction to the one it returns to, if it returns. -/
abbrev Services := Service → Machine → Option Machine

/-! ## The kernel's side -/

/-- `SAVE_ALL`. -/
def saveAll : List Instr :=
  Machine.pushes [.gs, .fs, .es, .ds, .eax, .ebp, .edi, .esi, .edx, .ecx, .ebx] ++
    [.mov (.imm kernelDs) .edx, .mov (.reg .edx) .ds, .mov (.reg .edx) .es]

/-- `RESTORE_ALL`. -/
def restoreAll : List Instr :=
  Machine.pops [.ebx, .ecx, .edx, .esi, .edi, .ebp, .eax, .ds, .es, .fs, .gs]

/-- `sysexit`: back to the instruction in `edx` with the stack pointer in `ecx`. -/
def sysexit (m : Machine) : Machine :=
  { m.set .esp (m.reg .ecx) with eip := m.reg .edx }

/-- The call of the service whose number is in `eax`.  The entry `MAX_SYSCALL`, which the comparison
lets through, is behind the table. -/
def callService (link : Linkage) (services : Services) (m : Machine) : Option Machine :=
  if (m.reg .eax).toInt < 0 ∨ maxSyscall < (m.reg .eax).toInt then
    some (m.set .eax (BitVec.ofInt 32 (-ENOSYS)))
  else do
    let service ← sysCallTable[(m.reg .eax).toNat]?
    m.call link.handlerBack (services service)

/-- `system_call_handler`. -/
def systemCallHandler (link : Linkage) (services : Services) (m : Machine) : Option Machine := do
  let m := Machine.run [.push (.imm userDs), .push (.reg .ebp), .push (.reg .eflags),
    .push (.imm userCs), .push (.mem (.base 4 .ebp))] m
  let m := Machine.run saveAll m
  let m ← callService link services m
  let m := Machine.run [.movTo .eax (.base 0x18 .esp)] m
  let m := Machine.run restoreAll m
  let m := Machine.run [.mov (.mem (.base 0 .esp)) .edx, .mov (.mem (.base 12 .esp)) .ecx] m
  return sysexit m

/-! ## The program's side -/

/-- `syscall_sysenter`, with the code at `SYSENTER_RETURN` to which the kernel has to come back. -/
def syscallSysenter (link : Linkage) (services : Services) (m : Machine) : Option Machine := do
  let m := Machine.run [.push (.reg .ecx), .push (.reg .edx), .push (.imm link.sysenterReturn),
    .push (.reg .ebp), .mov (.reg .esp) .ebp] m
  let m ← systemCallHandler link services (m.set .esp link.kernelStack)
  if m.eip = link.sysenterReturn then
    return (Machine.run [.pop .ebp, .pop .edx, .pop .edx, .pop .ecx] m).ret
  else none

/-- What tells the wrappers apart: the number of the service, how many arguments they pass, and
whether they look for an error in the result. -/
structure Wrapper where
  number : Word
  arguments : Nat
  checks : Bool

namespace Wrapper

/-- The code before `call syscall_sysenter`.  A wrapper that passes arguments saves `ebx`. -/
def enter (w : Wrapper) : List Instr :=
  [.push (.reg .ebp), .mov (.reg .esp) .ebp] ++
    (if w.arguments = 0 then [] else [.push (.reg .ebx)]) ++
    [.mov (.imm w.number) .eax] ++
    List.take w.arguments [.mov (.mem (.base 0x8 .ebp)) .ebx, .mov (.mem (.base 0xc .ebp)) .ecx,
      .mov (.mem (.base 0x10 .ebp)) .edx]

/-- The code from `nok` on up to `ret`. -/
def nok (link : Linkage) : List Instr :=
  [.neg .eax, .movTo .eax (.absolute link.errno), .mov (.imm (-1)) .eax, .pop .ebp]

/-- A wrapper, from its first instruction to the `ret`. -/
def call (link : Linkage) (services : Services) (w : Wrapper) (m : Machine) : Option Machine := do
  let m ← (Machine.run w.enter m).call link.wrapperBack (syscallSysenter link services)
  let m := Machine.run (if w.arguments = 0 then [] else [.pop .ebx]) m
  if w.checks ∧ (m.reg .eax).toInt < 0 then return (Machine.run (nok link) m).ret
  else return (Machine.run [.pop .ebp] m).ret

def write : Wrapper := { number := 4, arguments := 3, checks := true }
def gettime : Wrapper := { number := 10, arguments := 0, checks := false }
def getpid : Wrapper := { number := 20, arguments := 0, checks := false }
def fork : Wrapper := { number := 2, arguments := 0, checks := true }
def exit : Wrapper := { number := 1, arguments := 0, checks := false }
def yield : Wrapper := { number := 13, arguments := 0, checks := false }
def pthreadCreate : Wrapper := { number := 12, arguments := 3, checks := true }
def pthreadJoin : Wrapper := { number := 24, arguments := 2, checks := true }
def pthreadExit : Wrapper := { number := 25, arguments := 1, checks := true }
def mutexInit : Wrapper := { number := 26, arguments := 1, checks := true }
def mutexLock : Wrapper := { number := 27, arguments := 1, checks := true }
def mutexUnlock : Wrapper := { number := 28, arguments := 1, checks := true }
def mutexDestroy : Wrapper := { number := 29, arguments := 1, checks := false }

end Wrapper

/-- The wrappers, and the services they are for. -/
def wrappers : List (Wrapper × Service) :=
  [(.write, .sysWrite), (.gettime, .sysGettime), (.getpid, .sysGetpid), (.fork, .sysFork),
    (.exit, .sysExit), (.yield, .sysYield), (.pthreadCreate, .sysPthreadCreate),
    (.pthreadJoin, .sysPthreadJoin), (.pthreadExit, .sysPthreadExit), (.mutexInit, .sysMutexInit),
    (.mutexLock, .sysMutexLock), (.mutexUnlock, .sysMutexUnlock),
    (.mutexDestroy, .sysMutexDestroy)]

/-! ## What callers and services rely on -/

/-- The kernel's stack is in the system pages and has room, the frames on the user's stack are in
the user's pages, and `errno` is not in them. -/
structure Placed (link : Linkage) (w : Wrapper) (m : Machine) : Prop where
  room : 68 ≤ link.kernelStack.toNat
  system : link.kernelStack.toNat ≤ pagLogInitCode * 4096
  user : pagLogInitCode * 4096 + 28 ≤ (m.reg .esp).toNat
  arguments : (m.reg .esp).toNat + 4 * (w.arguments + 1) ≤ 2 ^ 32
  errno : link.errno.toNat + 4 ≤ 2 ^ 32
  apart : link.errno.toNat + 8 ≤ (m.reg .esp).toNat ∨ (m.reg .esp).toNat + 4 ≤ link.errno.toNat

/-- The service has been called with the arguments of the wrapper, in order. -/
def Receives (w : Wrapper) (m entered : Machine) : Prop :=
  ∀ i < w.arguments, load entered.mem (entered.reg .esp + 4 + BitVec.ofNat 32 (4 * i)) =
    load m.mem (m.reg .esp + 4 + BitVec.ofNat 32 (4 * i))

/-- The service returns to its caller.  It can overwrite its arguments, registers, and what is below
its arguments on the kernel's stack, but neither the rest of the sixteen words of the handler nor
the seven words of the wrapper below the stack pointer of the wrapper's caller and the return
address. -/
structure KeepsAbi (w : Wrapper) (m entered returned : Machine) : Prop where
  eip : returned.eip = load entered.mem (entered.reg .esp)
  esp : returned.reg .esp = entered.reg .esp + 4
  kernel : ∀ a : Word, (entered.reg .esp).toNat + 4 * (w.arguments + 1) ≤ a.toNat →
    a.toNat < (entered.reg .esp).toNat + 68 → returned.mem a = entered.mem a
  user : ∀ a : Word, (m.reg .esp).toNat ≤ a.toNat + 28 → a.toNat < (m.reg .esp).toNat + 4 →
    returned.mem a = entered.mem a

/-- The caller of the wrapper goes on behind its call, with its registers. -/
structure Transparent (m m' : Machine) : Prop where
  ebx : m'.reg .ebx = m.reg .ebx
  esi : m'.reg .esi = m.reg .esi
  edi : m'.reg .edi = m.reg .edi
  ebp : m'.reg .ebp = m.reg .ebp
  esp : m'.reg .esp = m.reg .esp + 4
  eip : m'.eip = load m.mem (m.reg .esp)

variable {m m' : Machine} {w : Wrapper} {link : Linkage} {words args : List Word} {back : Word}

/-! ## Into the kernel -/

namespace Wrapper

/-- What a wrapper saves besides `ebp`. -/
def saved (w : Wrapper) (m : Machine) : List Word := if w.arguments = 0 then [] else [m.reg .ebx]

theorem length_saved (w : Wrapper) (m : Machine) : (w.saved m).length ≤ 1 := by
  rw [saved]
  split
  · exact Nat.zero_le 1
  · exact Nat.le_refl 1

/-- The moves of the arguments to registers. -/
theorem run_loads {x y : Word} (few : args.length ≤ 3)
    (holds : Holds m.mem (m.reg .ebp) (x :: y :: args)) :
    let m' := Machine.run (List.take args.length [.mov (.mem (.base 0x8 .ebp)) .ebx,
      .mov (.mem (.base 0xc .ebp)) .ecx, .mov (.mem (.base 0x10 .ebp)) .edx]) m
    m'.mem = m.mem ∧ [m'.reg .ebx, m'.reg .ecx, m'.reg .edx].take args.length = args ∧
      (args.length = 0 → m'.reg .ebx = m.reg .ebx) ∧
      ∀ r, r ≠ .ebx → r ≠ .ecx → r ≠ .edx → m'.reg r = m.reg r := by
  match args with
  | [] => exact ⟨rfl, rfl, fun _ => rfl, fun _ _ _ _ => rfl⟩
  | [a] =>
      have first : m.operand (.mem (.base 0x8 .ebp)) = a := holds.operand (i := 2) (by simp)
      refine ⟨rfl, ?_, by simp, fun r other _ _ => ?_⟩
      · simpa [Machine.exec] using first
      · simp [Machine.exec, other]
  | [a, b] =>
      have first : m.operand (.mem (.base 0x8 .ebp)) = a := holds.operand (i := 2) (by simp)
      have second : m.operand (.mem (.base 0xc .ebp)) = b := holds.operand (i := 3) (by simp)
      refine ⟨rfl, ?_, by simp, fun r other other' _ => ?_⟩
      · simpa [Machine.exec] using ⟨first, second⟩
      · simp [Machine.exec, other, other']
  | [a, b, c] =>
      have first : m.operand (.mem (.base 0x8 .ebp)) = a := holds.operand (i := 2) (by simp)
      have second : m.operand (.mem (.base 0xc .ebp)) = b := holds.operand (i := 3) (by simp)
      have third : m.operand (.mem (.base 0x10 .ebp)) = c := holds.operand (i := 4) (by simp)
      refine ⟨rfl, ?_, by simp, fun r other other' other'' => ?_⟩
      · simpa [Machine.exec] using ⟨first, second, third⟩
      · simp [Machine.exec, other, other', other'']
  | _ :: _ :: _ :: _ :: _ => exact absurd few (by simp)

theorem grows_enter (w : Wrapper) : ∀ instr ∈ w.enter, instr.Grows := by
  intro instr member
  have saving : ∀ instr ∈ (if w.arguments = 0 then [] else [.push (.reg .ebx)] : List Instr),
      instr.Grows := by
    split <;> decide
  rw [enter, List.mem_append, List.mem_append, List.mem_append] at member
  rcases member with ((frame | save) | number) | loads
  · exact (by decide : ∀ instr ∈ [Instr.push (.reg .ebp), .mov (.reg .esp) .ebp], instr.Grows)
      _ frame
  · exact saving instr save
  · rw [List.mem_singleton.mp number]
    exact (by decide : Reg.eax ≠ .esp)
  · exact (by decide : ∀ instr ∈ [Instr.mov (.mem (.base 0x8 .ebp)) .ebx,
      .mov (.mem (.base 0xc .ebp)) .ecx, .mov (.mem (.base 0x10 .ebp)) .edx], instr.Grows) _
      (List.mem_of_mem_take loads)

theorem countP_enter (w : Wrapper) :
    w.enter.countP Instr.isPush = (w.saved m).length + 1 := by
  have loads : (List.take w.arguments [Instr.mov (.mem (.base 0x8 .ebp)) .ebx,
      .mov (.mem (.base 0xc .ebp)) .ecx, .mov (.mem (.base 0x10 .ebp)) .edx]).countP Instr.isPush =
      0 :=
    Nat.eq_zero_of_le_zero ((List.take_sublist _ _).countP_le)
  rw [enter, List.countP_append, List.countP_append, List.countP_append, loads, saved]
  split <;> rfl

/-- The state in which a wrapper calls `syscall_sysenter`. -/
structure Enters (w : Wrapper) (m m' : Machine) (back : Word) (args : List Word) : Prop where
  stack : m'.Stack (w.saved m ++ m.reg .ebp :: back :: args)
  esp : (m'.reg .esp).toNat = (m.reg .esp).toNat - 4 * ((w.saved m).length + 1)
  eax : m'.reg .eax = w.number
  arguments : [m'.reg .ebx, m'.reg .ecx, m'.reg .edx].take w.arguments = args
  ebx : w.arguments = 0 → m'.reg .ebx = m.reg .ebx
  esi : m'.reg .esi = m.reg .esi
  edi : m'.reg .edi = m.reg .edi

/-- The part before the number and the arguments. -/
theorem run_frame (stack : m.Stack (back :: args)) (room : 8 ≤ (m.reg .esp).toNat) :
    let m' := Machine.run ([.push (.reg .ebp), .mov (.reg .esp) .ebp] ++
      if w.arguments = 0 then [] else [.push (.reg .ebx)]) m
    m'.Stack (w.saved m ++ m.reg .ebp :: back :: args) ∧
      Holds m'.mem (m'.reg .ebp) (m.reg .ebp :: back :: args) ∧
      (m'.reg .esp).toNat = (m.reg .esp).toNat - 4 * ((w.saved m).length + 1) ∧
      ∀ r, r ≠ .esp → r ≠ .ebp → m'.reg r = m.reg r := by
  have esp : ((m.push (m.reg .ebp)).reg .esp).toNat = (m.reg .esp).toNat - 4 :=
    Machine.toNat_esp_push (by omega)
  have pushed := stack.push (by omega) (m.reg .ebp)
  set m₁ := (m.push (m.reg .ebp)).set .ebp ((m.push (m.reg .ebp)).reg .esp) with m₁_eq
  have sp : m₁.reg .esp = (m.push (m.reg .ebp)).reg .esp := Machine.reg_set_other (by decide)
  have bp : m₁.reg .ebp = m₁.reg .esp := Machine.reg_set_same.trans sp.symm
  have stack₁ : m₁.Stack (m.reg .ebp :: back :: args) := by
    rw [Machine.Stack, sp]
    exact pushed
  have others : ∀ r, r ≠ .esp → r ≠ .ebp → m₁.reg r = m.reg r := fun r other other' =>
    (Machine.reg_set_other other').trans (Machine.reg_push other)
  rw [← sp] at esp
  by_cases none : w.arguments = 0
  · rw [if_pos none, saved, if_pos none]
    refine ⟨stack₁, ?_, esp, others⟩
    show Holds m₁.mem (m₁.reg .ebp) _
    rw [bp]
    exact stack₁
  · rw [if_neg none, saved, if_neg none]
    have room₁ : 4 ≤ (m₁.reg .esp).toNat := by omega
    have ebx := others .ebx (by decide) (by decide)
    refine ⟨?_, ?_, ?_, fun r other other' => ?_⟩
    · rw [← ebx]
      exact stack₁.push room₁ _
    · show Holds (m₁.push (m₁.reg .ebx)).mem ((m₁.push (m₁.reg .ebx)).reg .ebp) _
      rw [Machine.reg_push (by decide), bp]
      exact Holds.push stack₁ room₁ (Nat.le_refl _) _
    · show ((m₁.push (m₁.reg .ebx)).reg .esp).toNat = _
      rw [Machine.toNat_esp_push room₁, esp, List.length_singleton]
      omega
    · exact (Machine.reg_push other).trans (others r other other')

theorem run_enter (few : w.arguments ≤ 3) (stack : m.Stack (back :: args))
    (length : args.length = w.arguments) (room : 8 ≤ (m.reg .esp).toNat) :
    w.Enters m (Machine.run w.enter m) back args := by
  obtain ⟨stack₂, frame, esp, others⟩ := run_frame (w := w) stack room
  rw [enter, Machine.run_append, Machine.run_append]
  set m₂ := Machine.run ([.push (.reg .ebp), .mov (.reg .esp) .ebp] ++
    if w.arguments = 0 then [] else [.push (.reg .ebx)]) m
  set m₃ := Machine.run [.mov (.imm w.number) .eax] m₂ with m₃_eq
  have kept : ∀ r, r ≠ .eax → m₃.reg r = m₂.reg r := fun r other => Machine.reg_set_other other
  have eax : m₃.reg .eax = w.number := Machine.reg_set_same
  have frame₃ : Holds m₃.mem (m₃.reg .ebp) (m.reg .ebp :: back :: args) := by
    rw [kept .ebp (by decide)]
    exact frame
  obtain ⟨mem, arguments, ebx, rest⟩ := run_loads (length ▸ few) frame₃
  rw [length] at mem arguments ebx rest
  set m₄ := Machine.run (List.take w.arguments [.mov (.mem (.base 0x8 .ebp)) .ebx,
    .mov (.mem (.base 0xc .ebp)) .ecx, .mov (.mem (.base 0x10 .ebp)) .edx]) m₃
  have sp : m₄.reg .esp = m₂.reg .esp :=
    (rest .esp (by decide) (by decide) (by decide)).trans (kept .esp (by decide))
  constructor
  · rw [Machine.Stack, sp, mem]
    exact stack₂
  · rw [sp]
    exact esp
  · rw [rest .eax (by decide) (by decide) (by decide), eax]
  · exact arguments
  · intro none
    rw [ebx none, kept .ebx (by decide), others .ebx (by decide) (by decide)]
  · rw [rest .esi (by decide) (by decide) (by decide), kept .esi (by decide),
      others .esi (by decide) (by decide)]
  · rw [rest .edi (by decide) (by decide) (by decide), kept .edi (by decide),
      others .edi (by decide) (by decide)]

end Wrapper

/-- `syscall_sysenter` up to `sysenter`. -/
theorem run_sysenter (link : Linkage) (stack : m.Stack words)
    (room : 16 ≤ (m.reg .esp).toNat) :
    let m' := Machine.run [.push (.reg .ecx), .push (.reg .edx), .push (.imm link.sysenterReturn),
      .push (.reg .ebp), .mov (.reg .esp) .ebp] m
    m'.Stack (m.reg .ebp :: link.sysenterReturn :: m.reg .edx :: m.reg .ecx :: words) ∧
      m'.reg .ebp = m'.reg .esp ∧ (m'.reg .esp).toNat = (m.reg .esp).toNat - 16 ∧
      ∀ r, r ≠ .esp → r ≠ .ebp → m'.reg r = m.reg r := by
  set m₁ := m.push (m.reg .ecx)
  set m₂ := m₁.push (m₁.reg .edx)
  set m₃ := m₂.push link.sysenterReturn
  set m₄ := m₃.push (m₃.reg .ebp)
  have esp₁ : (m₁.reg .esp).toNat = (m.reg .esp).toNat - 4 := Machine.toNat_esp_push (by omega)
  have esp₂ : (m₂.reg .esp).toNat = (m₁.reg .esp).toNat - 4 := Machine.toNat_esp_push (by omega)
  have esp₃ : (m₃.reg .esp).toNat = (m₂.reg .esp).toNat - 4 := Machine.toNat_esp_push (by omega)
  have esp₄ : (m₄.reg .esp).toNat = (m₃.reg .esp).toNat - 4 := Machine.toNat_esp_push (by omega)
  have regs₁ : ∀ r, r ≠ .esp → m₁.reg r = m.reg r := fun r other => Machine.reg_push other
  have regs₃ : ∀ r, r ≠ .esp → m₃.reg r = m.reg r := fun r other =>
    (Machine.reg_push other).trans ((Machine.reg_push other).trans (regs₁ r other))
  have stack₁ : m₁.Stack (m.reg .ecx :: words) := stack.push (by omega) _
  have stack₂ : m₂.Stack (m.reg .edx :: m.reg .ecx :: words) := by
    rw [← regs₁ .edx (by decide)]
    exact stack₁.push (by omega) _
  have stack₃ : m₃.Stack (link.sysenterReturn :: m.reg .edx :: m.reg .ecx :: words) :=
    stack₂.push (by omega) _
  have stack₄ :
    m₄.Stack (m.reg .ebp :: link.sysenterReturn :: m.reg .edx :: m.reg .ecx :: words) := by
    rw [← regs₃ .ebp (by decide)]
    exact stack₃.push (by omega) _
  have sp : ∀ r, r ≠ .ebp → (m₄.set .ebp (m₄.reg .esp)).reg r = m₄.reg r :=
    fun r other => Machine.reg_set_other other
  refine ⟨?_, Machine.reg_set_same.trans (sp .esp (by decide)).symm, ?_, fun r other other' => ?_⟩
  · show Holds m₄.mem ((m₄.set .ebp (m₄.reg .esp)).reg .esp) _
    rw [sp .esp (by decide)]
    exact stack₄
  · show ((m₄.set .ebp (m₄.reg .esp)).reg .esp).toNat = _
    rw [sp .esp (by decide)]
    omega
  · exact (sp r other').trans ((Machine.reg_push other).trans (regs₃ r other))

/-- The words that `system_call_handler` and `SAVE_ALL` leave on the kernel's stack. -/
def savedWords (link : Linkage) (m : Machine) : List Word :=
  [m.reg .ebx, m.reg .ecx, m.reg .edx, m.reg .esi, m.reg .edi, m.reg .ebp, m.reg .eax, m.reg .ds,
    m.reg .es, m.reg .fs, m.reg .gs, link.sysenterReturn, userCs, m.reg .eflags, m.reg .ebp, userDs]

/-- The segment registers of the kernel. -/
theorem run_segments (m : Machine) (r : Reg) (edx : r ≠ .edx) (ds : r ≠ .ds) (es : r ≠ .es) :
    (Machine.run [.mov (.imm kernelDs) .edx, .mov (.reg .edx) .ds, .mov (.reg .edx) .es] m).reg r =
      m.reg r := by
  simp [Machine.exec, edx, ds, es]

/-- `SAVE_ALL` after words have been pushed. -/
theorem run_saveAll {m₀ : Machine} (pushed : Machine.Pushed m₀ m words)
    (room : 4 * (words.length + 11) ≤ (m₀.reg .esp).toNat) :
    let m' := Machine.run saveAll m
    m'.Stack ([m₀.reg .ebx, m₀.reg .ecx, m₀.reg .edx, m₀.reg .esi, m₀.reg .edi, m₀.reg .ebp,
        m₀.reg .eax, m₀.reg .ds, m₀.reg .es, m₀.reg .fs, m₀.reg .gs] ++ words) ∧
      m'.reg .eax = m₀.reg .eax ∧
      (m'.reg .esp).toNat + 4 * (words.length + 11) = (m₀.reg .esp).toNat ∧
      ∀ a : Word, (m₀.reg .esp).toNat ≤ a.toNat → m'.mem a = m₀.mem a := by
  have saved := pushed.pushes [.gs, .fs, .es, .ds, .eax, .ebp, .edi, .esi, .edx, .ecx, .ebx]
    (by decide) room
  rw [saveAll, Machine.run_append]
  generalize Machine.run (Machine.pushes [.gs, .fs, .es, .ds, .eax, .ebp, .edi, .esi, .edx, .ecx,
    .ebx]) m = m₁ at saved ⊢
  have kept := run_segments m₁
  generalize last : Machine.run [.mov (.imm kernelDs) .edx, .mov (.reg .edx) .ds,
    .mov (.reg .edx) .es] m₁ = m₂ at kept
  have mem : m₂.mem = m₁.mem := last ▸ rfl
  have esp := saved.esp
  refine ⟨?_, ?_, ?_, ?_⟩
  · rw [Machine.Stack, kept .esp (by decide) (by decide) (by decide), mem]
    exact saved.stack
  · rw [kept .eax (by decide) (by decide) (by decide)]
    exact saved.regs .eax (by decide)
  · rw [kept .esp (by decide) (by decide) (by decide), ← esp, List.length_append,
      List.length_reverse, List.length_map]
    simp only [List.length_cons, List.length_nil]
    omega
  · rw [mem]
    exact saved.above

/-- `system_call_handler` up to the comparison of the number. -/
theorem run_handler {first : Word} (room : 64 ≤ (m.reg .esp).toNat)
    (below : (m.reg .esp).toNat ≤ (m.reg .ebp).toNat)
    (frames : Holds m.mem (m.reg .ebp) (first :: link.sysenterReturn :: words)) :
    let m' := Machine.run saveAll (Machine.run [.push (.imm userDs), .push (.reg .ebp),
      .push (.reg .eflags), .push (.imm userCs), .push (.mem (.base 4 .ebp))] m)
    m'.Stack (savedWords link m) ∧ m'.reg .eax = m.reg .eax ∧
      (m'.reg .esp).toNat + 64 = (m.reg .esp).toNat ∧
      ∀ a : Word, (m.reg .esp).toNat ≤ a.toNat → m'.mem a = m.mem a := by
  have pushed₁ := (Machine.Pushed.refl m).exec (.imm userDs) (by simp; omega) rfl
  have pushed₂ := pushed₁.exec (.reg .ebp) (by simp; omega) (pushed₁.regs .ebp (by decide))
  have pushed₃ := pushed₂.exec (.reg .eflags) (by simp; omega) (pushed₂.regs .eflags (by decide))
  have pushed₄ := pushed₃.exec (.imm userCs) (by simp; omega) rfl
  have kept := frames.congr fun a above _ => pushed₄.above a (below.trans above)
  rw [← pushed₄.regs .ebp (by decide)] at kept
  have pushed₅ := pushed₄.exec (.mem (.base 4 .ebp)) (by simp; omega)
    (kept.operand (i := 1) (by simp))
  exact run_saveAll pushed₅ (by simp; omega)

/-! ## Out of the kernel -/

/-- `system_call_handler` from `sysenter_fin` to the end of `RESTORE_ALL`. -/
theorem run_restoreAll {b c d si di bp a ds es fs gs : Word}
    (stack : m.Stack ([b, c, d, si, di, bp, a, ds, es, fs, gs] ++ words)) :
    let m' := Machine.run restoreAll (Machine.run [.movTo .eax (.base 0x18 .esp)] m)
    m'.Stack words ∧
      [Reg.ebx, .ecx, .edx, .esi, .edi, .ebp, .eax, .ds, .es, .fs, .gs].map m'.reg =
        [b, c, d, si, di, bp, m.reg .eax, ds, es, fs, gs] ∧
      ∀ x : Word, (m.reg .esp).toNat + 28 ≤ x.toNat → m'.mem x = m.mem x := by
  have inside := stack.inside
  have cell : (0x18 + m.reg .esp).toNat = (m.reg .esp).toNat + 24 := by
    rw [BitVec.add_comm]
    exact Holds.toNat_cell stack (i := 6) (by simp)
  have stored : (Machine.run [.movTo .eax (.base 0x18 .esp)] m).Stack
      ([b, c, d, si, di, bp, m.reg .eax, ds, es, fs, gs] ++ words) := by
    have result := stack.set (m.reg .eax) (i := 6) (by simp)
    rw [BitVec.add_comm] at result
    exact result
  have kept : ∀ x : Word, (m.reg .esp).toNat + 28 ≤ x.toNat →
      (Machine.run [.movTo .eax (.base 0x18 .esp)] m).mem x = m.mem x := by
    intro x above
    have limit := x.isLt
    show store m.mem (0x18 + m.reg .esp) (m.reg .eax) x = m.mem x
    exact store_other (by rw [cell]; omega) (.inr (by rw [cell]; omega))
  obtain ⟨popped, mem, regs, _⟩ :=
    Machine.run_pops [.ebx, .ecx, .edx, .esi, .edi, .ebp, .eax, .ds, .es, .fs, .gs]
      (by decide) (by decide) stored rfl
  rw [restoreAll]
  exact ⟨popped, regs, fun x above => (congrFun mem x).trans (kept x above)⟩

/-- `system_call_handler` from `sysenter_fin` on. -/
theorem run_return {b c d si di bp a ds es fs gs ip cs flags sp ss : Word}
    (stack : m.Stack [b, c, d, si, di, bp, a, ds, es, fs, gs, ip, cs, flags, sp, ss]) :
    let m' := sysexit
      (Machine.run [.mov (.mem (.base 0 .esp)) .edx, .mov (.mem (.base 12 .esp)) .ecx]
      (Machine.run restoreAll (Machine.run [.movTo .eax (.base 0x18 .esp)] m)))
    m'.eip = ip ∧ m'.reg .esp = sp ∧ m'.reg .eax = m.reg .eax ∧ m'.reg .ebx = b ∧ m'.reg .esi = si ∧
      m'.reg .edi = di ∧ ∀ x : Word, (m.reg .esp).toNat + 64 ≤ x.toNat → m'.mem x = m.mem x := by
  have saved : m.Stack
      ([b, c, d, si, di, bp, a, ds, es, fs, gs] ++ [ip, cs, flags, sp, ss]) := stack
  obtain ⟨popped, regs, mem⟩ := run_restoreAll saved
  generalize Machine.run restoreAll (Machine.run [.movTo .eax (.base 0x18 .esp)] m) = m₁
    at popped regs mem ⊢
  have eip : m₁.operand (.mem (.base 0 .esp)) = ip := Holds.operand (i := 0) popped (by simp)
  have esp : m₁.operand (.mem (.base 12 .esp)) = sp := Holds.operand (i := 3) popped (by simp)
  simp only [List.map_cons, List.map_nil, List.cons.injEq] at regs
  obtain ⟨ebx, _, _, esi, edi, _, eax, _⟩ := regs
  refine ⟨?_, ?_, ?_, ?_, ?_, ?_, fun x above => mem x (by omega)⟩
  · simpa [sysexit, Machine.exec] using eip
  · simpa [sysexit, Machine.exec] using esp
  · simpa [sysexit, Machine.exec] using eax
  · simpa [sysexit, Machine.exec] using ebx
  · simpa [sysexit, Machine.exec] using esi
  · simpa [sysexit, Machine.exec] using edi

/-- The service leaves the words above its arguments. -/
theorem KeepsAbi.stack {caller entered returned : Machine} {slots : List Word}
    (keeps : KeepsAbi w caller entered returned) (few : w.arguments ≤ 16)
    (stack : entered.Stack (back :: slots)) (length : slots.length = 16)
    (room : (entered.reg .esp).toNat + 68 < 2 ^ 32) :
    ∃ lost : List Word, lost.length = w.arguments ∧
      returned.Stack (lost ++ slots.drop w.arguments) := by
  have next : (entered.reg .esp + 4).toNat = (entered.reg .esp).toNat + 4 :=
    toNat_add _ 4 (by show _ + 4 < _; omega)
  have cells := stack.tail.drop w.arguments (by omega)
  have start : (entered.reg .esp + 4 + BitVec.ofNat 32 (4 * w.arguments)).toNat =
      (entered.reg .esp).toNat + 4 + 4 * w.arguments := by
    rw [toNat_advance _ _ (by omega), next]
  have kept := cells.congr fun a above below => keeps.kernel a (by omega) (by
    rw [List.length_drop] at below
    omega)
  refine kept.exists_append ?_ |>.imp fun lost found => ⟨found.1, ?_⟩
  · rw [List.length_drop, next]
    omega
  · rw [Machine.Stack, keeps.esp]
    exact found.2

/-- The number of a service. -/
def Names (number : Word) (service : Service) : Prop :=
  ¬(number.toInt < 0 ∨ maxSyscall < number.toInt) ∧ sysCallTable[number.toNat]? = some service

instance (number : Word) (service : Service) : Decidable (Names number service) :=
  inferInstanceAs (Decidable (_ ∧ _))

/-- `system_call_handler` calls the service and, if that returns, comes back to `SYSENTER_RETURN` on
the stack of the user, with the registers that no service owns. -/
theorem systemCallHandler_spec (w : Wrapper) (caller : Machine) {service : Service} {first : Word}
    (few : w.arguments ≤ 3) (names : Names (m.reg .eax) service) (room : 68 ≤ (m.reg .esp).toNat)
    (below : (m.reg .esp).toNat ≤ (m.reg .ebp).toNat)
    (frames : Holds m.mem (m.reg .ebp) (first :: link.sysenterReturn :: words)) :
    ∃ entered : Machine, entered.Stack (link.handlerBack :: savedWords link m) ∧
      (∀ a : Word, (m.reg .esp).toNat ≤ a.toNat → entered.mem a = m.mem a) ∧
      (∀ services, services service entered = none →
        systemCallHandler link services m = none) ∧
      ∀ services returned, services service entered = some returned →
        KeepsAbi w caller entered returned →
        ∃ m', systemCallHandler link services m = some m' ∧ m'.eip = link.sysenterReturn ∧
          m'.reg .esp = m.reg .ebp ∧ m'.reg .eax = returned.reg .eax ∧
          (w.arguments = 0 → m'.reg .ebx = m.reg .ebx) ∧ m'.reg .esi = m.reg .esi ∧
          m'.reg .edi = m.reg .edi ∧
          ∀ a : Word, (m.reg .esp).toNat ≤ a.toNat → m'.mem a = returned.mem a := by
  obtain ⟨stack, eax, esp, above⟩ := run_handler (by omega) below frames
  generalize state : Machine.run saveAll (Machine.run [.push (.imm userDs), .push (.reg .ebp),
    .push (.reg .eflags), .push (.imm userCs), .push (.mem (.base 4 .ebp))] m) = m₁
    at stack eax esp above
  have bound := (m.reg .esp).isLt
  have down : ((m₁.push link.handlerBack).reg .esp).toNat = (m₁.reg .esp).toNat - 4 :=
    Machine.toNat_esp_push (by omega)
  have called := stack.push (by omega) link.handlerBack
  refine ⟨m₁.push link.handlerBack, called, fun a high => ?_, fun services stays => ?_, ?_⟩
  · rw [Machine.mem_push (by omega) (by omega), above a high]
  · have service_eq : callService link services m₁ = none := by
      rw [callService, eax, if_neg names.1, names.2]
      show m₁.call link.handlerBack (services service) = none
      rw [Machine.call, stays]
      rfl
    rw [systemCallHandler, state]
    simp only [service_eq]
    rfl
  · intro services returned returns keeps
    have back : returned.eip = link.handlerBack := keeps.eip.trans called.head
    have sp : (returned.reg .esp).toNat + 64 = (m.reg .esp).toNat := by
      rw [keeps.esp, toNat_add _ 4 (by show _ + 4 < _; omega), down]
      show (m₁.reg .esp).toNat - 4 + 4 + 64 = _
      omega
    have service_eq : callService link services m₁ = some returned := by
      rw [callService, eax, if_neg names.1, names.2]
      show m₁.call link.handlerBack (services service) = _
      rw [Machine.call, returns]
      exact if_pos back
    obtain ⟨lost, length, kept⟩ := keeps.stack (by omega) called rfl (by omega)
    have slots : ∃ b c d, (w.arguments = 0 → b = m.reg .ebx) ∧
        returned.Stack (b :: c :: d :: (savedWords link m).drop 3) := by
      rw [← length] at kept few ⊢
      match lost with
      | [] => exact ⟨_, _, _, fun _ => rfl, kept⟩
      | [b] => exact ⟨b, _, _, by simp, kept⟩
      | [b, c] => exact ⟨b, c, _, by simp, kept⟩
      | [b, c, d] => exact ⟨b, c, d, by simp, kept⟩
      | _ :: _ :: _ :: _ :: _ => exact absurd few (by simp)
    obtain ⟨b, c, d, first, slots⟩ := slots
    obtain ⟨eip, esp', eax', ebx, esi, edi, mem⟩ := run_return slots
    rw [systemCallHandler, state]
    simp only [service_eq]
    refine ⟨_, rfl, eip, esp', eax', fun none => ebx.trans (first none), esi, edi, ?_⟩
    exact fun a high => mem a (by omega)

/-- The code at `SYSENTER_RETURN`. -/
theorem run_sysenterReturn {bp ip d c : Word}
    (stack : m.Stack (bp :: ip :: d :: c :: back :: words)) :
    let m' := (Machine.run [.pop .ebp, .pop .edx, .pop .edx, .pop .ecx] m).ret
    m'.eip = back ∧ m'.Stack words ∧ m'.reg .esp = m.reg .esp + 20 ∧ m'.reg .eax = m.reg .eax ∧
      m'.reg .ebx = m.reg .ebx ∧ m'.reg .esi = m.reg .esi ∧ m'.reg .edi = m.reg .edi := by
  obtain ⟨stack₁, _⟩ := stack.pop (r := .ebp) (by decide)
  obtain ⟨stack₂, _⟩ := stack₁.pop (r := .edx) (by decide)
  obtain ⟨stack₃, _⟩ := stack₂.pop (r := .edx) (by decide)
  obtain ⟨stack₄, _⟩ := stack₃.pop (r := .ecx) (by decide)
  obtain ⟨eip, stack₅⟩ := stack₄.ret
  have kept : ∀ r, r ≠ .esp → r ≠ .ebp → r ≠ .edx → r ≠ .ecx →
      ((((m.pop .ebp).pop .edx).pop .edx).pop .ecx).ret.reg r = m.reg r := by
    intro r esp ebp edx ecx
    rw [Machine.reg_ret esp, Machine.reg_pop ecx esp, Machine.reg_pop edx esp,
      Machine.reg_pop edx esp, Machine.reg_pop ebp esp]
  have esp : ((((m.pop .ebp).pop .edx).pop .edx).pop .ecx).ret.reg .esp = m.reg .esp + 20 := by
    rw [Machine.esp_ret, Machine.esp_pop (by decide), Machine.esp_pop (by decide),
      Machine.esp_pop (by decide), Machine.esp_pop (by decide)]
    bv_omega
  exact ⟨eip, stack₅, esp, kept .eax (by decide) (by decide) (by decide) (by decide),
    kept .ebx (by decide) (by decide) (by decide) (by decide),
    kept .esi (by decide) (by decide) (by decide) (by decide),
    kept .edi (by decide) (by decide) (by decide) (by decide)⟩

/-- `syscall_sysenter` calls the service and returns with the frames of its callers. -/
theorem syscallSysenter_spec (w : Wrapper) (caller : Machine) {service : Service}
    (few : w.arguments ≤ 3) (names : Names (m.reg .eax) service)
    (room : 68 ≤ link.kernelStack.toNat)
    (below : link.kernelStack.toNat + 16 ≤ (m.reg .esp).toNat) (stack : m.Stack (back :: words)) :
    ∃ entered : Machine, (∃ slots, entered.Stack
        (link.handlerBack :: m.reg .ebx :: m.reg .ecx :: m.reg .edx :: slots)) ∧
      (∀ a : Word, link.kernelStack.toNat ≤ a.toNat →
        a.toNat + 16 < (m.reg .esp).toNat ∨ (m.reg .esp).toNat ≤ a.toNat →
        entered.mem a = m.mem a) ∧
      (∀ services, services service entered = none → syscallSysenter link services m = none) ∧
      ∀ services returned, services service entered = some returned →
        KeepsAbi w caller entered returned →
        (∀ a : Word, (m.reg .esp).toNat ≤ a.toNat + 16 →
          a.toNat < (m.reg .esp).toNat + 4 * (words.length + 1) → returned.mem a = entered.mem a) →
        ∃ m', syscallSysenter link services m = some m' ∧ m'.eip = back ∧ m'.Stack words ∧
          m'.reg .esp = m.reg .esp + 4 ∧ m'.reg .eax = returned.reg .eax ∧
          (w.arguments = 0 → m'.reg .ebx = m.reg .ebx) ∧ m'.reg .esi = m.reg .esi ∧
          m'.reg .edi = m.reg .edi ∧
          ∀ a : Word, link.kernelStack.toNat ≤ a.toNat → m'.mem a = returned.mem a := by
  obtain ⟨stack₁, ebp₁, esp₁, regs₁⟩ := run_sysenter link stack (by omega)
  have outside₁ : ∀ a : Word, a.toNat + 16 < (m.reg .esp).toNat ∨ (m.reg .esp).toNat ≤ a.toNat →
      (Machine.run [.push (.reg .ecx), .push (.reg .edx), .push (.imm link.sysenterReturn),
        .push (.reg .ebp), .mov (.reg .esp) .ebp] m).mem a = m.mem a :=
    fun a apart => Machine.mem_run_of_grows (by simp [Instr.Grows]) (by show 16 ≤ _; omega) apart
  rw [Machine.Stack, ← ebp₁] at stack₁
  generalize state : Machine.run [.push (.reg .ecx), .push (.reg .edx),
    .push (.imm link.sysenterReturn), .push (.reg .ebp), .mov (.reg .esp) .ebp] m = m₁
    at stack₁ ebp₁ esp₁ regs₁ outside₁
  have sp : (m₁.set .esp link.kernelStack).reg .esp = link.kernelStack := Machine.reg_set_same
  have regs : ∀ r, r ≠ .esp → (m₁.set .esp link.kernelStack).reg r = m₁.reg r :=
    fun r other => Machine.reg_set_other other
  have bp := regs .ebp (by decide)
  have regs₂ : ∀ r, r ≠ .esp → r ≠ .ebp → (m₁.set .esp link.kernelStack).reg r = m.reg r :=
    fun r other other' => (regs r other).trans (regs₁ r other other')
  have mem : (m₁.set .esp link.kernelStack).mem = m₁.mem := rfl
  generalize kernel : m₁.set .esp link.kernelStack = m₂ at sp bp regs₂ mem
  rw [← mem, ← bp] at stack₁
  obtain ⟨entered, called, above, staying, returning⟩ := systemCallHandler_spec w caller few
    (by rw [regs₂ .eax (by decide) (by decide)]; exact names) (by rw [sp]; exact room)
    (by rw [sp, bp, ebp₁, esp₁]; omega) stack₁
  refine ⟨entered, ⟨(savedWords link m₂).drop 3, ?_⟩, fun a high apart => ?_,
    fun services stays => ?_, fun services returned returns keeps kept => ?_⟩
  · rw [← regs₂ .ebx (by decide) (by decide), ← regs₂ .ecx (by decide) (by decide),
      ← regs₂ .edx (by decide) (by decide)]
    exact called
  · rw [above a (by rw [sp]; exact high), mem, outside₁ a apart]
  · rw [syscallSysenter, state, kernel, staying services stays]
    rfl
  · obtain ⟨m₃, handled, eip, esp₃, eax, ebx, esi, edi, mem₃⟩ :=
      returning services returned returns keeps
    have frames : m₃.Stack
        (m.reg .ebp :: link.sysenterReturn :: m.reg .edx :: m.reg .ecx :: back :: words) := by
      rw [Machine.Stack, esp₃]
      refine stack₁.congr fun a from_bp to_end => ?_
      rw [bp, ebp₁, esp₁] at from_bp to_end
      simp only [List.length_cons] at to_end
      have high : (m₂.reg .esp).toNat ≤ a.toNat := by
        rw [sp]
        omega
      rw [mem₃ a high, kept a (by omega) (by omega), above a high]
    obtain ⟨eip', stack', esp', eax', ebx', esi', edi'⟩ := run_sysenterReturn frames
    refine ⟨_, ?_, eip', stack', ?_, eax'.trans eax, fun none => ?_, ?_, ?_, fun a high => ?_⟩
    · rw [syscallSysenter, state, kernel, handled]
      exact if_pos eip
    · rw [esp', esp₃, bp, ebp₁]
      bv_omega
    · rw [ebx', ebx none, regs₂ .ebx (by decide) (by decide)]
    · rw [esi', esi, regs₂ .esi (by decide) (by decide)]
    · rw [edi', edi, regs₂ .edi (by decide) (by decide)]
    · -- the code at `SYSENTER_RETURN` writes nothing
      exact mem₃ a (by rw [sp]; exact high)

/-! ## Back to the caller of a wrapper -/

namespace Wrapper

/-- The code between the call and the test of the result. -/
theorem run_saved {caller : Machine} (stack : m.Stack (w.saved caller ++ words))
    (ebx : w.arguments = 0 → m.reg .ebx = caller.reg .ebx) :
    let m' := Machine.run (if w.arguments = 0 then [] else [.pop .ebx]) m
    m'.Stack words ∧ m'.reg .ebx = caller.reg .ebx ∧
      m'.reg .esp = m.reg .esp + BitVec.ofNat 32 (4 * (w.saved caller).length) ∧
      ∀ r, r ≠ .ebx → r ≠ .esp → m'.reg r = m.reg r := by
  by_cases none : w.arguments = 0
  · rw [saved, if_pos none] at stack ⊢
    rw [if_pos none]
    exact ⟨stack, ebx none, (BitVec.add_zero _).symm, fun _ _ _ => rfl⟩
  · rw [saved, if_neg none] at stack ⊢
    rw [if_neg none]
    obtain ⟨popped, loaded⟩ := Machine.Stack.pop stack (r := .ebx) (by decide)
    exact ⟨popped, loaded, Machine.esp_pop (by decide), fun r other esp =>
      Machine.reg_pop other esp⟩

/-- The end of a wrapper. -/
structure Leaves (m m' : Machine) (bp back : Word) : Prop where
  eip : m'.eip = back
  ebp : m'.reg .ebp = bp
  esp : m'.reg .esp = m.reg .esp + 8
  others : ∀ r, r ≠ .esp → r ≠ .ebp → r ≠ .eax → m'.reg r = m.reg r

theorem leaves {bp : Word} (stack : m.Stack [bp, back]) :
    Leaves m (Machine.run [.pop .ebp] m).ret bp back := by
  obtain ⟨popped, loaded⟩ := Machine.Stack.pop stack (r := .ebp) (by decide)
  constructor
  · exact popped.ret.1
  · exact (Machine.reg_ret (by decide)).trans loaded
  · show (m.pop .ebp).ret.reg .esp = _
    rw [Machine.esp_ret, Machine.esp_pop (by decide), BitVec.add_assoc]
    rfl
  · intro r esp ebp _
    exact (Machine.reg_ret esp).trans (Machine.reg_pop ebp esp)

theorem leaves_nok {bp : Word} (stack : m.Stack [bp, back]) (room : link.errno.toNat + 4 ≤ 2 ^ 32)
    (apart : link.errno.toNat + 4 ≤ (m.reg .esp).toNat ∨
      (m.reg .esp).toNat + 8 ≤ link.errno.toNat) :
    Leaves m (Machine.run (nok link) m).ret bp back := by
  set m₁ := Machine.run [.neg .eax, .movTo .eax (.absolute link.errno), .mov (.imm (-1)) .eax] m
    with m₁_eq
  have kept : ∀ r, r ≠ .eax → m₁.reg r = m.reg r := fun r other =>
    (Machine.reg_set_other other).trans (Machine.reg_set_other other)
  have stack₁ : m₁.Stack [bp, back] := by
    rw [Machine.Stack, kept .esp (by decide)]
    exact stack.store room apart
  have left := leaves stack₁
  constructor
  · exact left.eip
  · exact left.ebp
  · rw [← kept .esp (by decide)]
    exact left.esp
  · intro r esp ebp eax
    rw [← kept r eax]
    exact left.others r esp ebp eax

/-- What a wrapper returns for a result of its service. -/
def result (w : Wrapper) (eax : Word) : Word := if w.checks ∧ eax.toInt < 0 then -1 else eax

/-- The code from the test of the result on. -/
def leave (w : Wrapper) (link : Linkage) (m : Machine) : Machine :=
  if w.checks ∧ (m.reg .eax).toInt < 0 then (Machine.run (nok link) m).ret
  else (Machine.run [.pop .ebp] m).ret

theorem call_eq_leave {services : Services} {caller returned : Machine}
    (called : (Machine.run w.enter caller).call link.wrapperBack (syscallSysenter link services) =
      some returned) :
    w.call link services caller = some
      (w.leave link (Machine.run (if w.arguments = 0 then [] else [.pop .ebx]) returned)) := by
  rw [call, called, leave]
  exact (apply_ite some _ _ _).symm

/-- A wrapper leaves after a test of the result, or without one. -/
theorem leaves_leave {bp : Word} (stack : m.Stack [bp, back])
    (room : link.errno.toNat + 4 ≤ 2 ^ 32)
    (apart : link.errno.toNat + 4 ≤ (m.reg .esp).toNat ∨
      (m.reg .esp).toNat + 8 ≤ link.errno.toNat) :
    Leaves m (w.leave link m) bp back := by
  rw [leave]
  split
  · exact leaves_nok stack room apart
  · exact leaves stack

end Wrapper

/-- What the proofs use of the list of the wrappers. -/
theorem of_mem_wrappers : ∀ entry ∈ wrappers,
    entry.1.arguments ≤ 3 ∧ Names entry.1.number entry.2 := by
  decide

/-- The arguments of a call of a wrapper. -/
def Wrapper.passed (w : Wrapper) (m : Machine) : List Word :=
  (List.range w.arguments).map fun i => load m.mem (m.reg .esp + 4 + BitVec.ofNat 32 (4 * i))

theorem Placed.frame (placed : Placed link w m) :
    m.Stack (load m.mem (m.reg .esp) :: w.passed m) := by
  have inside := placed.arguments
  have next : (m.reg .esp + 4).toNat ≤ (m.reg .esp).toNat + 4 := by
    rw [BitVec.toNat_add]
    exact Nat.mod_le _ _
  refine Holds.cons rfl (Holds.of_range m.mem (by omega)) ?_
  rw [Wrapper.passed, List.length_map, List.length_range]
  exact inside

/-- A service that has its arguments on the stack receives them. -/
theorem receives {entered : Machine} {b c d : Word} {slots : List Word} (few : w.arguments ≤ 3)
    (passed : List.take w.arguments [b, c, d] = w.passed m)
    (stack : entered.Stack (back :: b :: c :: d :: slots)) : Receives w m entered := by
  intro i bound
  have slot := stack.tail.word i (by simp; omega)
  have word : (w.passed m)[i]? = some (load m.mem (m.reg .esp + 4 + BitVec.ofNat 32 (4 * i))) := by
    rw [Wrapper.passed, List.getElem?_map, List.getElem?_range bound]
    rfl
  rw [← passed, List.getElem?_take_of_lt bound] at word
  rw [slot, ← Option.some_inj, ← word, ← List.getElem?_eq_getElem]
  match i, bound with
  | 0, _ => rfl
  | 1, _ => rfl
  | 2, _ => rfl
  | _ + 3, bound => omega

/-- The call in a wrapper. -/
theorem call_syscallSysenter {service : Service} (few : w.arguments ≤ 3)
    (names : Names w.number service) (placed : Placed link w m) :
    ∃ entered, Receives w m entered ∧
      (∀ a : Word, link.kernelStack.toNat ≤ a.toNat →
        a.toNat + 28 < (m.reg .esp).toNat ∨ (m.reg .esp).toNat ≤ a.toNat →
        entered.mem a = m.mem a) ∧
      (∀ services, services service entered = none →
        (Machine.run w.enter m).call link.wrapperBack (syscallSysenter link services) = none) ∧
      ∀ services returned, services service entered = some returned →
        KeepsAbi w m entered returned →
        ∃ m', (Machine.run w.enter m).call link.wrapperBack (syscallSysenter link services) =
          some m' ∧
          m'.Stack (w.saved m ++ [m.reg .ebp, load m.mem (m.reg .esp)]) ∧
          (m'.reg .esp).toNat = (m.reg .esp).toNat - 4 * ((w.saved m).length + 1) ∧
          m'.reg .eax = returned.reg .eax ∧ (w.arguments = 0 → m'.reg .ebx = m.reg .ebx) ∧
          m'.reg .esi = m.reg .esi ∧ m'.reg .edi = m.reg .edi ∧
          ∀ a : Word, link.kernelStack.toNat ≤ a.toNat → m'.mem a = returned.mem a := by
  have above := placed.user
  have under := placed.system
  have enters := Wrapper.run_enter few placed.frame (by simp [Wrapper.passed]) (by omega)
  have saved := w.length_saved m
  have count := w.countP_enter (m := m)
  have outside₁ : ∀ a : Word, a.toNat + 8 < (m.reg .esp).toNat ∨ (m.reg .esp).toNat ≤ a.toNat →
      (Machine.run w.enter m).mem a = m.mem a :=
    fun a apart => Machine.mem_run_of_grows w.grows_enter (by omega) (by omega)
  generalize entry : Machine.run w.enter m = m₁ at enters outside₁
  have esp₁ := enters.esp
  have esp₂ : ((m₁.push link.wrapperBack).reg .esp).toNat = (m₁.reg .esp).toNat - 4 :=
    Machine.toNat_esp_push (by omega)
  have regs₂ : ∀ r, r ≠ .esp → (m₁.push link.wrapperBack).reg r = m₁.reg r :=
    fun r other => Machine.reg_push other
  have frame : (m₁.push link.wrapperBack).Stack
      (link.wrapperBack :: (w.saved m ++ [m.reg .ebp, load m.mem (m.reg .esp)])) := by
    have entered := enters.stack
    rw [List.append_cons, List.append_cons _ _ (w.passed m)] at entered
    have kept : m₁.Stack _ := entered.append_left
    simpa using kept.push (by omega) link.wrapperBack
  obtain ⟨entered, ⟨slots, called⟩, outside, staying, returning⟩ := syscallSysenter_spec w m few
    (by rw [regs₂ .eax (by decide), enters.eax]; exact names) placed.room (by omega) frame
  rw [regs₂ .ebx (by decide), regs₂ .ecx (by decide), regs₂ .edx (by decide)] at called
  refine ⟨entered, receives few enters.arguments called, fun a high apart => ?_,
    fun services stays => ?_, fun services returned returns keeps => ?_⟩
  · rw [outside a high (by omega), Machine.mem_push_other (by omega) (by omega),
      outside₁ a (by omega)]
  · rw [Machine.call, staying services stays]
    rfl
  -- the four words of `syscall_sysenter`, its return address and the frame of the wrapper
  obtain ⟨m₃, call, eip, stack, esp₃, eax, ebx, esi, edi, mem⟩ :=
    returning services returned returns keeps fun a low high => keeps.user a (by omega) (by
      rw [List.length_append, List.length_cons, List.length_singleton] at high
      omega)
  refine ⟨m₃, ?_, stack, ?_, eax, fun none => ?_, ?_, ?_, mem⟩
  · rw [Machine.call, call]
    exact if_pos eip
  · rw [esp₃, Machine.esp_push, BitVec.sub_add_cancel, esp₁]
  · rw [ebx none, regs₂ .ebx (by decide), enters.ebx none]
  · rw [esi, regs₂ .esi (by decide), enters.esi]
  · rw [edi, regs₂ .edi (by decide), enters.edi]

/-- The state of a wrapper that tests the result, `ebx` restored. -/
structure Restored (link : Linkage) (w : Wrapper) (m returned m' : Machine) : Prop where
  ebx : m'.reg .ebx = m.reg .ebx
  esi : m'.reg .esi = m.reg .esi
  edi : m'.reg .edi = m.reg .edi
  eax : m'.reg .eax = returned.reg .eax
  esp : m'.reg .esp = m.reg .esp - 4
  mem : ∀ a : Word, link.kernelStack.toNat ≤ a.toNat → m'.mem a = returned.mem a
  leaves : Wrapper.Leaves m' (w.leave link m') (m.reg .ebp) (load m.mem (m.reg .esp))

/-- A wrapper up to the test of the result. -/
theorem call_leave {service : Service} (few : w.arguments ≤ 3) (names : Names w.number service)
    (placed : Placed link w m) :
    ∃ entered, Receives w m entered ∧
      (∀ a : Word, link.kernelStack.toNat ≤ a.toNat →
        a.toNat + 28 < (m.reg .esp).toNat ∨ (m.reg .esp).toNat ≤ a.toNat →
        entered.mem a = m.mem a) ∧
      (∀ services, services service entered = none → w.call link services m = none) ∧
      ∀ services returned, services service entered = some returned →
        KeepsAbi w m entered returned →
        ∃ m', w.call link services m = some (w.leave link m') ∧ Restored link w m returned m' := by
  obtain ⟨entered, received, outside, staying, returning⟩ := call_syscallSysenter few names placed
  refine ⟨entered, received, outside, fun services stays => ?_,
    fun services returned returns keeps => ?_⟩
  · rw [Wrapper.call, staying services stays]
    rfl
  obtain ⟨m₁, called, stack, esp₁, eax, ebx, esi, edi, mem⟩ :=
    returning services returned returns keeps
  have leaves := Wrapper.call_eq_leave called
  have popped_mem :
      (Machine.run (if w.arguments = 0 then [] else [.pop .ebx]) m₁).mem = m₁.mem := by
    split <;> rfl
  obtain ⟨popped, ebx₂, esp₂, regs₂⟩ := Wrapper.run_saved stack ebx
  generalize Machine.run (if w.arguments = 0 then [] else [.pop .ebx]) m₁ = m₂
    at popped ebx₂ esp₂ regs₂ leaves popped_mem
  have above := placed.user
  have apart := placed.apart
  have saved := w.length_saved m
  have down : (m₂.reg .esp).toNat = (m.reg .esp).toNat - 4 := by
    have bound := (m.reg .esp).isLt
    rw [esp₂, toNat_advance _ _ (by omega)]
    omega
  refine ⟨m₂, leaves, ebx₂, ?_, ?_, ?_, ?_, fun a high => ?_, ?_⟩
  · rw [regs₂ .esi (by decide) (by decide), esi]
  · rw [regs₂ .edi (by decide) (by decide), edi]
  · rw [regs₂ .eax (by decide) (by decide), eax]
  · bv_omega
  · rw [popped_mem, mem a high]
  · exact Wrapper.leaves_leave popped placed.errno (by omega)

theorem Wrapper.eax_leave (w : Wrapper) (link : Linkage) (m : Machine) :
    (w.leave link m).reg .eax = w.result (m.reg .eax) := by
  have popped : ∀ m : Machine, ((m.pop .ebp).ret).reg .eax = m.reg .eax := fun m =>
    (Machine.reg_ret (by decide)).trans (Machine.reg_pop (by decide) (by decide))
  rw [leave, result]
  split_ifs
  · exact (popped _).trans Machine.reg_set_same
  · exact popped m

/-- A system call is transparent to the caller of its wrapper.  The service is called in the state
`entered`: the wrapper does not return if the service does not return from there, and otherwise it
returns what the service returned. -/
theorem transparent {service : Service} (member : (w, service) ∈ wrappers)
    (placed : Placed link w m) :
    ∃ entered, Receives w m entered ∧
      (∀ services, services service entered = none → w.call link services m = none) ∧
      ∀ services returned, services service entered = some returned →
        KeepsAbi w m entered returned →
        ∃ m', w.call link services m = some m' ∧ Transparent m m' ∧
          m'.reg .eax = w.result (returned.reg .eax) := by
  obtain ⟨few, names⟩ : w.arguments ≤ 3 ∧ Names w.number service := of_mem_wrappers _ member
  obtain ⟨entered, received, _, staying, returning⟩ := call_leave few names placed
  refine ⟨entered, received, staying, fun services returned returns keeps => ?_⟩
  obtain ⟨m₁, called, restored⟩ := returning services returned returns keeps
  have left := restored.leaves
  refine ⟨_, called, ⟨?_, ?_, ?_, left.ebp, ?_, left.eip⟩, ?_⟩
  · rw [left.others .ebx (by decide) (by decide) (by decide), restored.ebx]
  · rw [left.others .esi (by decide) (by decide) (by decide), restored.esi]
  · rw [left.others .edi (by decide) (by decide) (by decide), restored.edi]
  · rw [left.esp, restored.esp]
    bv_omega
  · rw [Wrapper.eax_leave, restored.eax]

/-- A lock of a mutex that is refused, from a stack in the user's pages. -/
theorem transparent_refused :
    ∃ m', Wrapper.mutexLock.call ⟨0x100010, 0x100020, 0x10000, 0x101000, 0x20000⟩
        (fun _ m => some (m.ret.set .eax (BitVec.ofInt 32 (-22))))
          ⟨fun _ => 0x102000, 0, fun _ => 0⟩ =
        some m' ∧
      Transparent ⟨fun _ => 0x102000, 0, fun _ => 0⟩ m' ∧ m'.reg .eax = -1 := by
  have member : (Wrapper.mutexLock, Service.sysMutexLock) ∈ wrappers := by simp [wrappers]
  have placed : Placed ⟨0x100010, 0x100020, 0x10000, 0x101000, 0x20000⟩ .mutexLock
      ⟨fun _ => 0x102000, 0, fun _ => 0⟩ :=
    ⟨by decide, by decide, by decide, by decide, by decide, by decide⟩
  obtain ⟨entered, _, _, returning⟩ := transparent member placed
  obtain ⟨m', called, kept, eax⟩ := returning
    (fun _ m => some (m.ret.set .eax (BitVec.ofInt 32 (-22)))) _ rfl
    ⟨rfl, rfl, fun _ _ _ => rfl, fun _ _ _ => rfl⟩
  rw [Machine.reg_set_same] at eax
  exact ⟨m', called, kept, eax.trans (by decide)⟩

end Zeos
