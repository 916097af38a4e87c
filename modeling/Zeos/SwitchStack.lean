import Zeos.Suspension
import Zeos.SystemCall

/-!
# Switching kernel stacks

The code of `kernel-utils.S` and `entry.S` between the call of `switch_stack` for a thread that has
not run yet and its first instruction in user mode.
-/

namespace Zeos

open X86 GuardedRun Kernel

/-- The word of `register_esp` in a `thread_struct`. -/
abbrev registerEspWord : Nat := 3

/-- The address of a word of the `thread_union` in a slot of `thread_tasks`. -/
def unionWord (threadTasks : Word) (u : ThreadSlot) (index : Nat) : Word :=
  threadTasks + BitVec.ofNat 32 (pageSize * u + 4 * index)

namespace Asm

/-- `switch_stack`, up to the instruction to which it returns on the new stack. -/
def switchStack (m : Machine) : Machine :=
  (Machine.run [.mov (.mem (.base 4 .esp)) .eax, .movTo .ebp (.base 0 .eax),
    .mov (.mem (.base 8 .esp)) .esp, .pop .ebp] m).ret

/-- `ret_from_fork`, with the frame that every function keeps. -/
def retFromFork (m : Machine) : Machine :=
  (Machine.run [.push (.reg .ebp), .mov (.reg .esp) .ebp, .mov (.imm 0) .eax, .pop .ebp] m).ret

/-- `leave` and `ret`: the end of a function with a frame. -/
def leave (m : Machine) : Machine := (Machine.run [.mov (.reg .ebp) .esp, .pop .ebp] m).ret

/-- `system_call_handler` from `sysenter_fin` on. -/
def sysenterFin (m : Machine) : Machine :=
  let m := Machine.run [.movTo .eax (.base 0x18 .esp)] m
  let m := Machine.run restoreAll m
  let m := Machine.run [.mov (.mem (.base 0 .esp)) .edx, .mov (.mem (.base 12 .esp)) .ecx] m
  sysexit m

variable {m : Machine} {words : List Word} {back first second saveSp newSp : Word}

/-- `system_call_handler` ends with `sysenter_fin`. -/
theorem systemCallHandler_eq (link : Linkage) (services : Services) (m : Machine) :
    systemCallHandler link services m =
      (callService link services (Machine.run saveAll (Machine.run [.push (.imm userDs),
        .push (.reg .ebp), .push (.reg .eflags), .push (.imm userCs),
        .push (.mem (.base 4 .ebp))] m))).map sysenterFin := by
  rw [systemCallHandler, Option.map_eq_bind]
  rfl

/-- `switch_stack` pops the frame pointer and the return address from the new stack, if it saves the
old frame pointer neither there nor in its own arguments. -/
theorem switchStack_spec (arguments : m.Stack [back, saveSp, newSp])
    (stack : Holds m.mem newSp (first :: second :: words)) (room : saveSp.toNat + 4 ≤ 2 ^ 32)
    (own : saveSp.toNat + 4 ≤ (m.reg .esp).toNat ∨ (m.reg .esp).toNat + 12 ≤ saveSp.toNat)
    (apart : saveSp.toNat + 4 ≤ newSp.toNat ∨
      newSp.toNat + 4 * (words.length + 2) ≤ saveSp.toNat) :
    (switchStack m).reg .ebp = first ∧ (switchStack m).eip = second ∧
      (switchStack m).Stack words ∧ (switchStack m).reg .esp = newSp + 8 := by
  have save : m.operand (.mem (.base 4 .esp)) = saveSp := Holds.operand (i := 1) arguments (by simp)
  set m₁ := Machine.run [.mov (.mem (.base 4 .esp)) .eax, .movTo .ebp (.base 0 .eax)] m with m₁_eq
  have mem₁ : m₁.mem = store m.mem saveSp (m.reg .ebp) := by
    rw [← save]
    simp [m₁_eq, Machine.exec, Machine.address]
  have esp₁ : m₁.reg .esp = m.reg .esp := by simp [m₁_eq, Machine.exec]
  have arguments₁ : m₁.Stack [back, saveSp, newSp] := by
    rw [Machine.Stack, esp₁, mem₁]
    exact Holds.store arguments room own
  have new : m₁.operand (.mem (.base 8 .esp)) = newSp :=
    Holds.operand (i := 2) arguments₁ (by simp)
  set m₂ := m₁.set .esp newSp with m₂_eq
  have stack₂ : m₂.Stack (first :: second :: words) := by
    rw [Machine.Stack, m₂_eq, Machine.reg_set_same, Machine.mem_set, mem₁]
    exact stack.store room apart
  obtain ⟨popped, ebp⟩ := stack₂.pop (r := .ebp) (by decide)
  obtain ⟨eip, returned⟩ := popped.ret
  have result : switchStack m = (m₂.pop .ebp).ret := by
    rw [m₂_eq, ← new]
    rfl
  rw [result]
  refine ⟨(Machine.reg_ret (by decide)).trans ebp, eip, returned, ?_⟩
  rw [Machine.esp_ret, Machine.esp_pop (by decide), m₂_eq, Machine.reg_set_same, BitVec.add_assoc]
  rfl

/-- `ret_from_fork` returns 0. -/
theorem retFromFork_spec (stack : m.Stack (back :: words)) (room : 4 ≤ (m.reg .esp).toNat) :
    (retFromFork m).eip = back ∧ (retFromFork m).Stack words ∧ (retFromFork m).reg .eax = 0 ∧
      (retFromFork m).reg .ebp = m.reg .ebp := by
  set m₁ := m.push (m.reg .ebp) with m₁_eq
  set m₂ := (m₁.set .ebp (m₁.reg .esp)).set .eax 0 with m₂_eq
  have esp : m₂.reg .esp = m₁.reg .esp := by simp [m₂_eq]
  have stack₂ : m₂.Stack (m.reg .ebp :: back :: words) := by
    rw [Machine.Stack, esp]
    exact stack.push room (m.reg .ebp)
  obtain ⟨popped, ebp⟩ := stack₂.pop (r := .ebp) (by decide)
  obtain ⟨eip, returned⟩ := popped.ret
  refine ⟨eip, returned, ?_, (Machine.reg_ret (by decide)).trans ebp⟩
  show (m₂.pop .ebp).ret.reg .eax = 0
  rw [Machine.reg_ret (by decide), Machine.reg_pop (by decide) (by decide), m₂_eq,
    Machine.reg_set_same]

/-- A function returns to its caller with the frame pointer of its caller. -/
theorem leave_spec {ebp : Word} (frame : Holds m.mem (m.reg .ebp) (ebp :: back :: words)) :
    (leave m).eip = back ∧ (leave m).reg .ebp = ebp ∧ (leave m).Stack words ∧
      (leave m).reg .eax = m.reg .eax := by
  set m₁ := m.set .esp (m.reg .ebp) with m₁_eq
  have stack₁ : m₁.Stack (ebp :: back :: words) := by
    rw [Machine.Stack, m₁_eq, Machine.reg_set_same]
    exact frame
  obtain ⟨popped, loaded⟩ := stack₁.pop (r := .ebp) (by decide)
  obtain ⟨eip, returned⟩ := popped.ret
  refine ⟨eip, (Machine.reg_ret (by decide)).trans loaded, returned, ?_⟩
  show (m₁.pop .ebp).ret.reg .eax = m.reg .eax
  rw [Machine.reg_ret (by decide), Machine.reg_pop (by decide) (by decide), m₁_eq,
    Machine.reg_set_other (by decide)]

/-- The user goes on with the registers that the kernel's stack holds, and with `eax`. -/
theorem sysenterFin_spec {b c d si di bp a ds es fs gs ip cs flags sp ss : Word}
    (stack : m.Stack [b, c, d, si, di, bp, a, ds, es, fs, gs, ip, cs, flags, sp, ss]) :
    (sysenterFin m).eip = ip ∧ (sysenterFin m).reg .esp = sp ∧
      [Reg.ebx, .ecx, .edx, .esi, .edi, .ebp, .eax, .ds, .es, .fs, .gs].map (sysenterFin m).reg =
        [b, sp, ip, si, di, bp, m.reg .eax, ds, es, fs, gs] := by
  have saved : m.Stack
      ([b, c, d, si, di, bp, a, ds, es, fs, gs] ++ [ip, cs, flags, sp, ss]) := stack
  obtain ⟨popped, regs, _⟩ := run_restoreAll saved
  rw [sysenterFin]
  generalize Machine.run restoreAll (Machine.run [.movTo .eax (.base 0x18 .esp)] m) = m₁
    at popped regs ⊢
  have eip : m₁.operand (.mem (.base 0 .esp)) = ip := Holds.operand (i := 0) popped (by simp)
  have esp : m₁.operand (.mem (.base 12 .esp)) = sp := Holds.operand (i := 3) popped (by simp)
  simp only [List.map_cons, List.map_nil, List.cons.injEq] at regs ⊢
  obtain ⟨ebx, _, _, esi, edi, ebp, eax, ds, es, fs, gs, _⟩ := regs
  simpa [sysexit, Machine.exec, ebx, esi, edi, ebp, eax, ds, es, fs, gs] using ⟨eip, esp, eip⟩

end Asm

/-! ## From the running thread to a new one -/

/-- `switch_stack` has been called in the state `s` for the thread `u`: on the stack of the running
thread, with the address of its `register_esp` and the stack pointer of `u`. -/
structure CallsSwitchStack (threadTasks : Word) (s : Kernel) (u : ThreadSlot) (m : Machine) :
    Prop where
  inside : threadTasks.toNat + pageSize * (nrThreads + 2) ≤ 2 ^ 32
  called : ∃ v back newSp, s.current = .slot v ∧
    m.Stack [back, unionWord threadTasks v registerEspWord, newSp] ∧
    (unionWord threadTasks v threadStructWords).toNat ≤ (m.reg .esp).toNat ∧
    (m.reg .esp).toNat + 12 ≤ (unionWord threadTasks v 0).toNat + pageSize ∧
    ∀ w index, (s.thread (.slot u)).registerEsp = .on (.slot w) index →
      newSp = unionWord threadTasks w index
  words : ∀ index, threadStructWords ≤ index → index < kernelStackSize →
    load m.mem (unionWord threadTasks u index) = s.stack (.slot u) index

variable {threadTasks : Word} {s : Kernel} {u : ThreadSlot} {m : Machine} {index count : Nat}

theorem toNat_unionWord (inside : threadTasks.toNat + pageSize * (nrThreads + 2) ≤ 2 ^ 32)
    (below : index < kernelStackSize) : (unionWord threadTasks u index).toNat =
      threadTasks.toNat + pageSize * u + 4 * index := by
  have slot := u.isLt
  simp only [unionWord, pageSize, nrThreads, kernelStackSize] at inside below slot ⊢
  rw [toNat_advance _ _ (by omega), Nat.add_assoc]

theorem unionWord_add (threadTasks : Word) (u : ThreadSlot) (index count : Nat) :
    unionWord threadTasks u index + BitVec.ofNat 32 (4 * count) =
      unionWord threadTasks u (index + count) := by
  rw [unionWord, unionWord, BitVec.add_assoc, ← BitVec.ofNat_add, Nat.mul_add, Nat.add_assoc]

/-- A place in one `thread_union`, moved to the same place in another one. -/
theorem unionWord_moved (threadTasks : Word) (u v : ThreadSlot) (index : Nat) :
    unionWord threadTasks v index - unionWord threadTasks v 0 + unionWord threadTasks u 0 =
      unionWord threadTasks u index := by
  have place := fun w => unionWord_add threadTasks w 0 index
  rw [Nat.zero_add] at place
  rw [← place v, ← place u, BitVec.add_comm (unionWord threadTasks v 0), BitVec.add_sub_cancel,
    BitVec.add_comm]

namespace CallsSwitchStack

theorem holds (count : Nat) (calls : CallsSwitchStack threadTasks s u m)
    (above : threadStructWords ≤ index) (below : index < kernelStackSize)
    (end_le : index + count ≤ kernelStackSize) :
    Holds m.mem (unionWord threadTasks u index)
      ((List.range' index count).map (s.stack (.slot u))) where
  inside := by
    have inside := calls.inside
    have slot := u.isLt
    rw [toNat_unionWord inside below, List.length_map, List.length_range']
    simp only [pageSize, nrThreads, kernelStackSize] at *
    omega
  word i bound := by
    rw [List.length_map, List.length_range'] at bound
    rw [List.getElem_map, List.getElem_range', Nat.one_mul, unionWord_add]
    exact calls.words _ (by omega) (by omega)

/-- The new thread goes on with the two words at its stack pointer as frame pointer and
instruction. -/
theorem switch (calls : CallsSwitchStack threadTasks s u m) (other : s.current ≠ .slot u)
    (saved : (s.thread (.slot u)).registerEsp = .on (.slot u) index)
    (above : threadStructWords ≤ index) (below : index + 2 < kernelStackSize) :
    (Asm.switchStack m).reg .ebp = s.stack (.slot u) index ∧
      (Asm.switchStack m).eip = s.stack (.slot u) (index + 1) ∧
      (Asm.switchStack m).Stack ((List.range' (index + 2) (kernelStackSize - (index + 2))).map
        (s.stack (.slot u))) ∧
      (Asm.switchStack m).reg .esp = unionWord threadTasks u (index + 2) := by
  have inside := calls.inside
  obtain ⟨v, back, newSp, current, arguments, from_struct, to_end, pointer⟩ := calls.called
  have different : (v : Nat) ≠ u := fun same => other (current.trans (by rw [Fin.ext same]))
  have holds := calls.holds (kernelStackSize - (index + 2) + 2) above (by omega) (by omega)
  rw [List.range'_succ, List.range'_succ, List.map_cons, List.map_cons] at holds
  obtain rfl := pointer u index saved
  have first := toNat_unionWord (u := v) inside
    (show threadStructWords < kernelStackSize by decide)
  have base := toNat_unionWord (u := v) inside (show 0 < kernelStackSize by decide)
  have slot := toNat_unionWord (u := v) inside
    (show registerEspWord < kernelStackSize by decide)
  have new := toNat_unionWord (u := u) inside (show index < kernelStackSize by omega)
  have bound := u.isLt
  have bound' := v.isLt
  simp only [pageSize, nrThreads, kernelStackSize, threadStructWords, registerEspWord] at *
  obtain ⟨ebp, eip, stack, esp⟩ := Asm.switchStack_spec arguments holds (by omega) (by omega) (by
    rw [List.length_map, List.length_range']
    omega)
  refine ⟨ebp, eip, stack, esp.trans ?_⟩
  exact unionWord_add threadTasks u index 2

/-- There is such a call whenever another thread runs. -/
theorem exists_of_current (inside : threadTasks.toNat + pageSize * (nrThreads + 2) ≤ 2 ^ 32)
    (aligned : threadTasks.toNat % 4 = 0) {v : ThreadSlot} (current : s.current = .slot v)
    (other : v ≠ u) : ∃ m, CallsSwitchStack threadTasks s u m := by
  obtain ⟨base, start⟩ : ∃ base, threadTasks.toNat = 4 * base :=
    ⟨threadTasks.toNat / 4, by omega⟩
  have place : ∀ (w : ThreadSlot) {index}, index < kernelStackSize →
      (unionWord threadTasks w index).toNat = 4 * (base + 1024 * w + index) := by
    intro w index below
    rw [toNat_unionWord inside below, start]
    simp only [pageSize]
    omega
  have different : (v : Nat) ≠ u := fun same => other (Fin.ext same)
  have fits : 4 * (base + 1024 * (v : Nat) + 512 + 3) ≤ 2 ^ 32 := by
    have bound : (v : Nat) < 22 := v.isLt
    simp only [pageSize, nrThreads, start] at inside
    simp only [Nat.mul_add, ← Nat.mul_assoc]
    omega
  have newSp : ∃ newSp, ∀ w index, (s.thread (.slot u)).registerEsp = .on (.slot w) index →
      newSp = unionWord threadTasks w index := by
    cases saved : (s.thread (.slot u)).registerEsp with
    | on thread index =>
        cases thread with
        | slot w => exact ⟨unionWord threadTasks w index, by simp⟩
        | image page => exact ⟨0, by simp⟩
    | null => exact ⟨0, by simp⟩
    | wild => exact ⟨0, by simp⟩
  obtain ⟨newSp, pointer⟩ := newSp
  -- the arguments are in the middle of the stack of the running thread
  obtain ⟨words, save, new, own⟩ : ∃ words : Nat → Word,
      words (base + 1024 * v + 513) = unionWord threadTasks v registerEspWord ∧
      words (base + 1024 * v + 514) = newSp ∧
      ∀ index, index < kernelStackSize →
        words (base + 1024 * u + index) = s.stack (.slot u) index := by
    refine ⟨fun i => if i = base + 1024 * v + 513 then unionWord threadTasks v registerEspWord
      else if i = base + 1024 * v + 514 then newSp
      else s.stack (.slot u) (i - (base + 1024 * u)), if_pos rfl, by simp, fun index below => ?_⟩
    have below : index < 1024 := below
    dsimp only
    rw [if_neg (by omega), if_neg (by omega), Nat.add_sub_cancel_left]
  refine ⟨⟨fun _ => unionWord threadTasks v 512, 0, memoryOf words⟩, inside,
    ⟨v, words (base + 1024 * v + 512), newSp, current, ?_, ?_, ?_, pointer⟩,
    fun index above below => ?_⟩
  · rw [← save, ← new]
    exact holds_memoryOf (place v (show 512 < kernelStackSize by decide)) fits
  · rw [place v (by decide), place v (by decide)]
    exact Nat.mul_le_mul_left 4 (Nat.add_le_add_left (by decide) _)
  · rw [place v (by decide), place v (by decide), Nat.mul_add, Nat.mul_add _ _ 0, Nat.add_assoc,
      Nat.add_assoc]
    exact Nat.add_le_add_left (by decide) _
  · have cell := place u below
    rw [load_memoryOf (cell ▸ Nat.mul_mod_right ..), cell, Nat.mul_div_cancel_left _ (by decide),
      own index below]

end CallsSwitchStack

/-- The next step is a switch from the thread in slot 1 to the suspended one in slot 2. -/
def Kernel.checkFirstSwitch (s : Kernel) (action : Action) : Bool :=
  decide (s.Suspended 2) && passes (s.perform plainLayout action) (fun _ => true) &&
    s.dispatches plainLayout action fun s₀ t =>
      decide (t = .slot 2) && decide (s₀.current = .slot 1)

theorem exists_of_checkFirstSwitch (threadTasks : Word) {s : Kernel} {action : Action}
    (inside : threadTasks.toNat + pageSize * (nrThreads + 2) ≤ 2 ^ 32)
    (aligned : threadTasks.toNat % 4 = 0) (check : s.checkFirstSwitch action = true) :
    ∃ s₀ m after result, s.Suspended 2 ∧
      s.upToSwitch plainLayout action = .ok (.inr (s₀, .slot 2)) ∧
      s.perform plainLayout action = .ok (after, result) ∧ CallsSwitchStack threadTasks s₀ 2 m := by
  rw [checkFirstSwitch, Bool.and_eq_true, Bool.and_eq_true, decide_eq_true_eq] at check
  obtain ⟨⟨suspended, completed⟩, switches⟩ := check
  obtain ⟨⟨after, result⟩, performed, _⟩ := passes_eq_true.mp completed
  obtain ⟨s₀, t, reached, here⟩ := exists_of_dispatches switches
  rw [Bool.and_eq_true, decide_eq_true_eq, decide_eq_true_eq] at here
  obtain ⟨rfl, current⟩ := here
  obtain ⟨m, calls⟩ := CallsSwitchStack.exists_of_current (s := s₀) (u := 2) inside aligned
    current (by decide)
  exact ⟨s₀, m, after, result, suspended, reached, performed, calls⟩

end Zeos
