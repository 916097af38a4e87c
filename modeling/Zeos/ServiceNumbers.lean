import Zeos.SystemCall

/-!
# Numbers of services

`system_call_handler` compares the number in `eax` with `MAX_SYSCALL`, the number of the entries of
`sys_call_table`, and lets this number itself pass.
-/

namespace Zeos

open X86

/-- The index of the entry through which `system_call_handler` calls. -/
def calledEntry (number : Word) : Option Nat :=
  if number.toInt < 0 ∨ maxSyscall < number.toInt then none else some number.toNat

/-- The registers that `SAVE_ALL` saves besides `eax`. -/
def savedRegs : List Reg := [.ebx, .ecx, .edx, .esi, .edi, .ebp, .ds, .es, .fs, .gs]

/-- The handler comes to the end of `RESTORE_ALL` with the saved registers as they were, and an
error in `eax`. -/
def ReturnsNosys (link : Linkage) (m : Machine) : Prop :=
  ∀ services, ∃ m', systemCallHandler link services m = some (sysexit (Machine.run
      [.mov (.mem (.base 0 .esp)) .edx, .mov (.mem (.base 12 .esp)) .ecx] m')) ∧
    m'.reg .eax = BitVec.ofInt 32 (-ENOSYS) ∧ ∀ r ∈ savedRegs, m'.reg r = m.reg r

/-- A call goes through an entry of the table, and for every number that is not one of an entry
there is no call but an error. -/
def ChecksNumber (link : Linkage) (m : Machine) : Prop :=
  (∀ i, calledEntry (m.reg .eax) = some i → i < sysCallTable.length) ∧
    ((m.reg .eax).toInt < 0 ∨ (sysCallTable.length : Int) ≤ (m.reg .eax).toInt →
      calledEntry (m.reg .eax) = none ∧ ReturnsNosys link m)

variable {link : Linkage} {services : Services} {m : Machine}

theorem callService_eq : callService link services m =
    (calledEntry (m.reg .eax)).elim (some (m.set .eax (BitVec.ofInt 32 (-ENOSYS)))) fun i =>
      sysCallTable[i]?.bind fun service => m.call link.handlerBack (services service) := by
  rw [callService, calledEntry]
  split_ifs
  · rfl
  · rfl

/-- The words on the kernel's stack when the number is compared. -/
theorem run_saved (room : 64 ≤ (m.reg .esp).toNat) :
    let m' := Machine.run saveAll (Machine.run [.push (.imm userDs), .push (.reg .ebp),
      .push (.reg .eflags), .push (.imm userCs), .push (.mem (.base 4 .ebp))] m)
    m'.reg .eax = m.reg .eax ∧ ∃ words, m'.Stack ([m.reg .ebx, m.reg .ecx, m.reg .edx,
      m.reg .esi, m.reg .edi, m.reg .ebp, m.reg .eax, m.reg .ds, m.reg .es, m.reg .fs,
      m.reg .gs] ++ words) := by
  have pushed₁ := (Machine.Pushed.refl m).exec (.imm userDs) (by simp; omega) rfl
  have pushed₂ := pushed₁.exec (.reg .ebp) (by simp; omega) rfl
  have pushed₃ := pushed₂.exec (.reg .eflags) (by simp; omega) rfl
  have pushed₄ := pushed₃.exec (.imm userCs) (by simp; omega) rfl
  have pushed₅ := pushed₄.exec (.mem (.base 4 .ebp)) (by simp; omega) rfl
  obtain ⟨stack, eax, _⟩ := run_saveAll pushed₅ (by simp; omega)
  exact ⟨eax, _, stack⟩

theorem returnsNosys (room : 64 ≤ (m.reg .esp).toNat) (rejected : calledEntry (m.reg .eax) = none) :
    ReturnsNosys link m := by
  intro services
  obtain ⟨eax, words, stack⟩ := run_saved room
  generalize state : Machine.run saveAll (Machine.run [.push (.imm userDs), .push (.reg .ebp),
    .push (.reg .eflags), .push (.imm userCs), .push (.mem (.base 4 .ebp))] m) = m₁ at eax stack
  have called : callService link services m₁ =
      some (m₁.set .eax (BitVec.ofInt 32 (-ENOSYS))) := by
    rw [callService_eq, eax, rejected]
    rfl
  have kept : (m₁.set .eax (BitVec.ofInt 32 (-ENOSYS))).Stack ([m.reg .ebx, m.reg .ecx, m.reg .edx,
      m.reg .esi, m.reg .edi, m.reg .ebp, m.reg .eax, m.reg .ds, m.reg .es, m.reg .fs,
      m.reg .gs] ++ words) := by
    rw [Machine.Stack, Machine.reg_set_other (by decide)]
    exact stack
  obtain ⟨_, regs, _⟩ := run_restoreAll kept
  generalize last : Machine.run restoreAll (Machine.run [.movTo .eax (.base 0x18 .esp)]
    (m₁.set .eax (BitVec.ofInt 32 (-ENOSYS)))) = m₂ at regs
  rw [Machine.reg_set_same] at regs
  simp only [List.map_cons, List.map_nil, List.cons.injEq] at regs
  obtain ⟨ebx, ecx, edx, esi, edi, ebp, eax', ds, es, fs, gs, _⟩ := regs
  refine ⟨m₂, ?_, eax', ?_⟩
  · rw [systemCallHandler, state]
    simp only [called, ← last]
    rfl
  · simp [savedRegs, ebx, ecx, edx, esi, edi, ebp, ds, es, fs, gs]

/-- For every number but that of the entries itself, the handler calls through an entry of the table
or returns an error. -/
theorem checksNumber_iff (link : Linkage) (m : Machine) (room : 64 ≤ (m.reg .esp).toNat) :
    ChecksNumber link m ↔ (m.reg .eax).toInt ≠ sysCallTable.length := by
  have length : sysCallTable.length = maxSyscall := rfl
  constructor
  · rintro ⟨present, _⟩ equal
    have passed : calledEntry (m.reg .eax) = some (m.reg .eax).toNat := if_neg (by omega)
    have inside := present _ passed
    have signed := BitVec.toInt_eq_toNat_cond (m.reg .eax)
    split_ifs at signed <;> omega
  · intro other
    refine ⟨fun i called => ?_, fun outside => ?_⟩
    · rw [calledEntry] at called
      split_ifs at called with rejected
      obtain rfl := Option.some.inj called
      have signed := BitVec.toInt_eq_toNat_cond (m.reg .eax)
      split_ifs at signed <;> omega
    · have rejected : calledEntry (m.reg .eax) = none := if_pos (by omega)
      exact ⟨rejected, returnsNosys room rejected⟩

/-- The number -1. -/
theorem checksNumber_iff_negative :
    ChecksNumber ⟨0, 0, 0, 0, 0⟩ ⟨fun r => if r = .eax then -1 else 0x20000, 0, fun _ => 0⟩ :=
  (checksNumber_iff _ _ (by decide)).mpr (by decide)

/-- The handler calls through the entry behind the last one. -/
theorem not_checksNumber :
    ¬∀ (link : Linkage) (m : Machine), 64 ≤ (m.reg .esp).toNat → ChecksNumber link m := by
  intro checks
  obtain ⟨present, _⟩ := checks ⟨0, 0, 0, 0, 0⟩
    ⟨fun r => if r = .eax then 35 else 0x20000, 0, fun _ => 0⟩ (by decide)
  exact absurd (present 35 rfl) (by decide)

end Zeos
