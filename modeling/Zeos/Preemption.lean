import Zeos.TaskSwitch

/-!
# Interrupts between the threads

The clock, the keyboard and the system calls of `entry.S` on the stacks of several threads.  A
thread that is switched away finds the processor as it left it when it runs again, whatever the
others have done in between.
-/

namespace Zeos.Asm

open X86

abbrev kernelCs : Word := 0x10

/-- The privilege of the code that a thread executes outside of the handlers: all of them but the
idle thread are in user mode. -/
inductive Ring
  | user | system
  deriving DecidableEq

/-- The handlers of `entry.S`. -/
inductive Handler
  | clock | keyboard | systemCall
  deriving DecidableEq

/-- A thread is about to enter a handler. -/
structure Visit where
  ring : Ring
  handler : Handler
  machine : Machine

/-! ## In and out of the handlers -/

/-- What the processor pushes for an interrupt, the last word first. -/
def Ring.words (m : Machine) : Ring → List Word
  | .user => [m.eip, userCs, m.reg .eflags, m.reg .esp, userDs]
  | .system => [m.eip, kernelCs, m.reg .eflags]

/-- The registers when the processor begins to push: interrupts are masked, the other flags that an
interrupt gate clears are clear, and a program has been left for the stack of its thread. -/
def Ring.start (k : Unions) (m : Machine) : Ring → Machine
  | .user => (m.set .eflags (m.reg .eflags &&& ~~~0x34300)).set .esp (load m.mem k.esp0)
  | .system => m.set .eflags (m.reg .eflags &&& ~~~0x34300)

/-- An interrupt, through an interrupt gate. -/
def interrupt (k : Unions) (ring : Ring) (m : Machine) : Machine :=
  Machine.run (pushValues (ring.words m).reverse) (ring.start k m)

/-- `sysenter`, which masks interrupts and takes the stack from the register 0x175. -/
def sysenter (sysenterEsp : Word) (m : Machine) : Machine :=
  (m.set .eflags (m.reg .eflags &&& ~~~0x20200)).set .esp sysenterEsp

/-- `iret`, which changes the stack when it goes back to a program. -/
def iret (m : Machine) : Machine :=
  let m' := { m.set .eflags (load m.mem (m.reg .esp + 8)) with eip := load m.mem (m.reg .esp) }
  if load m.mem (m.reg .esp + 4) &&& 3 = 0 then m'.set .esp (m.reg .esp + 12)
  else m'.set .esp (load m.mem (m.reg .esp + 12))

/-- `EOI`, as far as it is seen in the registers: `al` is 0x20. -/
def eoi (m : Machine) : Machine := m.set .eax (m.reg .eax &&& 0xffffff00 ||| 0x20)

@[simp] theorem mem_eoi (m : Machine) : (eoi m).mem = m.mem := rfl
@[simp] theorem esp_eoi (m : Machine) : (eoi m).reg .esp = m.reg .esp :=
  Machine.reg_set_other (by decide)

/-- `clock_handler` and `keyboard_handler` up to the first instruction of their routines. -/
def handlerCall (back : Word) (m : Machine) : Machine := (eoi (Machine.run saveAll m)).push back

/-- `clock_handler` and `keyboard_handler` from the return of their routines on. -/
def handlerRet (m : Machine) : Machine := iret (Machine.run restoreAll m)

/-- `system_call_handler` up to the first instruction of a service. -/
def systemCallCall (back : Word) (m : Machine) : Machine :=
  (Machine.run saveAll (Machine.run [.push (.imm userDs), .push (.reg .ebp), .push (.reg .eflags),
    .push (.imm userCs), .push (.mem (.base 4 .ebp))] m)).push back

/-- The rest of the system: the compiled functions that the handlers call, and the instructions
behind the calls. -/
structure Program extends Unions where
  routine : Handler → Routine
  back : Handler → Word
  interrupts : ∀ handler, handler ≠ .systemCall → (routine handler).arguments = 0
  services : (routine .systemCall).arguments ≤ 3

/-- From the state of a thread to the first instruction of the routine or service. -/
def Program.enter (p : Program) (sysenterEsp : Word) (visit : Visit) : Machine :=
  match visit.handler with
  | .systemCall => systemCallCall (p.back .systemCall) (sysenter sysenterEsp visit.machine)
  | handler => handlerCall (p.back handler) (interrupt p.toUnions visit.ring visit.machine)

/-- From the return of the routine or service to the state of the thread. -/
def Handler.leave : Handler → Machine → Machine
  | .systemCall => sysenterFin
  | _ => handlerRet

/-- The registers in the order of `RESTORE_ALL`. -/
def savedRegs (m : Machine) : List Word :=
  [m.reg .ebx, m.reg .ecx, m.reg .edx, m.reg .esi, m.reg .edi, m.reg .ebp, m.reg .eax, m.reg .ds,
    m.reg .es, m.reg .fs, m.reg .gs]

/-- The state with which a thread goes on: after an interrupt it is the same, and after a system
call the one that `sysexit` makes of the registers of the program. -/
def Visit.Resumes (visit : Visit) (m' : Machine) : Prop :=
  match visit.handler with
  | .systemCall => m'.eip = load visit.machine.mem (visit.machine.reg .ebp + 4) ∧
      m'.reg .esp = visit.machine.reg .ebp ∧
      ∀ r ∈ [Reg.esi, .edi, .ebp, .ds, .es, .fs, .gs], m'.reg r = visit.machine.reg r
  | _ => m'.eip = visit.machine.eip ∧ ∀ r, m'.reg r = visit.machine.reg r

variable {p : Program} {k : Unions} {u v w : ThreadSlot} {m m' start : Machine}
  {code : List Instr} {words values : List Word} {back : Word} {ring : Ring}

/-- Words have been pushed on the stack of `start`, and nothing else has been written. -/
structure Enters (start m : Machine) (words : List Word) : Prop where
  stack : m.Stack words
  esp : (m.reg .esp).toNat + 4 * words.length = (start.reg .esp).toNat
  mem : ∀ a : Word, a.toNat < (m.reg .esp).toNat ∨ (start.reg .esp).toNat ≤ a.toNat →
    m.mem a = start.mem a

/-- A handler up to the call of its routine. -/
theorem enters_of_pushed (grows : ∀ instr ∈ code, instr.Grows)
    (count : code.countP Instr.isPush = words.length)
    (pushed : Machine.Pushed start (Machine.run code start) words)
    (room : 4 * (words.length + 12) ≤ (start.reg .esp).toNat)
    (mem : m.mem = (Machine.run saveAll (Machine.run code start)).mem)
    (esp : m.reg .esp = (Machine.run saveAll (Machine.run code start)).reg .esp) :
    Enters start (m.push back) (back :: savedRegs start ++ words) := by
  obtain ⟨stack, _, below, _⟩ := run_saveAll pushed (by omega)
  rw [← esp] at below
  have down : ((m.push back).reg .esp).toNat = (m.reg .esp).toNat - 4 :=
    Machine.toNat_esp_push (by omega)
  have stack' : m.Stack (savedRegs start ++ words) := by
    rw [Machine.Stack, esp, mem]
    exact stack
  refine ⟨stack'.push (by omega) back, ?_, fun a apart => ?_⟩
  · simp only [List.cons_append, List.length_cons, List.length_append, savedRegs, List.length_nil]
    omega
  · rw [Machine.mem_push_other (by omega) (by omega), mem, ← Machine.run_append]
    have pushes : (code ++ saveAll).countP Instr.isPush = words.length + 11 := by
      rw [List.countP_append, count]
      rfl
    refine Machine.mem_run_of_grows ?_ (by omega) (by omega)
    intro instr member
    rcases List.mem_append.mp member with first | second
    · exact grows instr first
    · exact (by decide : ∀ instr ∈ saveAll, instr.Grows) instr second

/-- What the proofs need of a visit: the processor has the stack of the thread, on which the idle
thread, interrupted where it is, has room for the handler; and programs have their stack in their
own pages when they call the system. -/
structure Visit.Fits (p : Program) (u : ThreadSlot) (visit : Visit) : Prop where
  esp0 : load visit.machine.mem p.esp0 = p.word u kernelStackSize
  idle : visit.ring = .system → visit.handler ≠ .systemCall ∧
    p.base u + 100 ≤ (visit.machine.reg .esp).toNat ∧
    (visit.machine.reg .esp).toNat ≤ p.base u + pageSize
  program : visit.handler = .systemCall →
    pageSize * pagLogInitCode ≤ (visit.machine.reg .ebp).toNat ∧
    (visit.machine.reg .ebp).toNat + 8 ≤ 2 ^ 32

/-- The words of a visit on the stack of the kernel. -/
def Visit.stackWords (visit : Visit) : List Word :=
  savedRegs visit.machine ++ match visit.handler with
    | .systemCall => [load visit.machine.mem (visit.machine.reg .ebp + 4), userCs,
        visit.machine.reg .eflags &&& ~~~0x20200, visit.machine.reg .ebp, userDs]
    | _ => visit.ring.words visit.machine

/-- An interrupt up to the call of its routine. -/
theorem enters_interrupt (room : 100 ≤ ((ring.start k m).reg .esp).toNat) :
    Enters (ring.start k m) (handlerCall back (interrupt k ring m))
      (back :: savedRegs m ++ ring.words m) := by
  have few : (ring.words m).length ≤ 5 := by
    cases ring <;> simp [Ring.words]
  have pushed : Machine.Pushed (ring.start k m) (interrupt k ring m) _ :=
    (Machine.Pushed.refl (ring.start k m)).values (by
      rw [List.length_reverse, List.length_nil]
      omega)
  rw [List.reverse_reverse, List.append_nil] at pushed
  have regs : savedRegs (ring.start k m) = savedRegs m := by
    cases ring <;> simp [savedRegs, Ring.start]
  have count := countP_pushValues (ring.words m).reverse
  rw [List.length_reverse] at count
  rw [← regs, handlerCall]
  exact enters_of_pushed (grows_pushValues _) count pushed (by omega) (mem_eoi _) (esp_eoi _)

/-- A system call up to the call of its service. -/
theorem enters_systemCall (room : 100 ≤ (m.reg .esp).toNat)
    (above : (m.reg .esp).toNat ≤ (m.reg .ebp).toNat) (inside : (m.reg .ebp).toNat + 8 ≤ 2 ^ 32) :
    Enters m (systemCallCall back m) (back :: savedRegs m ++
      [load m.mem (m.reg .ebp + 4), userCs, m.reg .eflags, m.reg .ebp, userDs]) := by
  have pushed₁ := (Machine.Pushed.refl m).exec (.imm userDs) (by simp; omega) rfl
  have pushed₂ := pushed₁.exec (.reg .ebp) (by simp; omega) (pushed₁.regs .ebp (by decide))
  have pushed₃ := pushed₂.exec (.reg .eflags) (by simp; omega) (pushed₂.regs .eflags (by decide))
  have pushed₄ := pushed₃.exec (.imm userCs) (by simp; omega) rfl
  have next : (m.reg .ebp + 4).toNat = (m.reg .ebp).toNat + 4 :=
    toNat_add _ 4 (by show _ + 4 < _; omega)
  have pushed₅ : Machine.Pushed m (Machine.run [.push (.imm userDs), .push (.reg .ebp),
      .push (.reg .eflags), .push (.imm userCs), .push (.mem (.base 4 .ebp))] m)
      [load m.mem (m.reg .ebp + 4), userCs, m.reg .eflags, m.reg .ebp, userDs] :=
    pushed₄.exec (.mem (.base 4 .ebp)) (by simp; omega) (by
      rw [Machine.operand, Machine.address, pushed₄.regs .ebp (by decide), BitVec.add_comm]
      exact load_congr (by omega) fun a from_ebp _ => pushed₄.above a (by omega))
  have grows : ∀ instr ∈ [.push (.imm userDs), .push (.reg .ebp), .push (.reg .eflags),
      .push (.imm userCs), .push (.mem (.base 4 .ebp))], Instr.Grows instr := by
    decide
  have room' : 4 * (5 + 12) ≤ (m.reg .esp).toNat := by omega
  exact enters_of_pushed grows rfl pushed₅ room' rfl rfl

theorem sysenter_spec (sysenterEsp : Word) (m : Machine) :
    (sysenter sysenterEsp m).reg .esp = sysenterEsp ∧
      (sysenter sysenterEsp m).reg .ebp = m.reg .ebp ∧
      (sysenter sysenterEsp m).reg .eflags = m.reg .eflags &&& ~~~0x20200 ∧
      savedRegs (sysenter sysenterEsp m) = savedRegs m := by
  simp [sysenter, savedRegs]

/-- A handler is entered on the stack of the thread. -/
theorem Visit.Fits.enters {visit : Visit} (fits : visit.Fits p u) :
    ∃ start, Enters start (p.enter (p.word u kernelStackSize) visit)
        (p.back visit.handler :: visit.stackWords) ∧ start.mem = visit.machine.mem ∧
      p.base u + 100 ≤ (start.reg .esp).toNat ∧ (start.reg .esp).toNat ≤ p.base u + 4096 ∧
      (visit.ring = .system → start.reg .esp = visit.machine.reg .esp) ∧
      (visit.ring = .user → start.reg .esp = p.word u kernelStackSize) := by
  obtain ⟨ring, handler, m⟩ := visit
  obtain ⟨esp0, idle, program⟩ := fits
  have top : (p.word u kernelStackSize).toNat = p.base u + 4096 := Unions.toNat_word (Nat.le_refl _)
  have page := p.base_page u
  simp only [pageSize, pagLogInitCode] at idle program
  have interrupted : ∃ start, Enters start (handlerCall (p.back handler)
        (interrupt p.toUnions ring m)) (p.back handler :: (savedRegs m ++ ring.words m)) ∧
      start.mem = m.mem ∧ p.base u + 100 ≤ (start.reg .esp).toNat ∧
      (start.reg .esp).toNat ≤ p.base u + 4096 ∧
      (ring = .system → start.reg .esp = m.reg .esp) ∧
      (ring = .user → start.reg .esp = p.word u kernelStackSize) := by
    have mem : (ring.start p.toUnions m).mem = m.mem := by
      cases ring <;> rfl
    cases ring with
    | user =>
        have esp : (Ring.user.start p.toUnions m).reg .esp = p.word u kernelStackSize := by
          rw [← esp0]
          exact Machine.reg_set_same
        rw [← esp] at top
        exact ⟨_, enters_interrupt (by omega), mem, by omega, by omega,
          fun other => absurd other (by decide), fun _ => esp⟩
    | system =>
        obtain ⟨_, room, inside⟩ := idle rfl
        have esp : (Ring.system.start p.toUnions m).reg .esp = m.reg .esp :=
          Machine.reg_set_other (by decide)
        rw [← esp] at room inside
        exact ⟨_, enters_interrupt (by omega), mem, room, inside, fun _ => esp,
          fun other => absurd other (by decide)⟩
  cases handler with
  | clock => exact interrupted
  | keyboard => exact interrupted
  | systemCall =>
      obtain ⟨above, inside⟩ := program rfl
      obtain ⟨esp, ebp, flags, regs⟩ := sysenter_spec (p.word u kernelStackSize) m
      rw [← esp] at top
      rw [← ebp] at above inside
      refine ⟨sysenter (p.word u kernelStackSize) m, ?_, rfl, by omega, by omega, fun same => ?_,
        fun _ => esp⟩
      · have entered := @enters_systemCall (sysenter (p.word u kernelStackSize) m)
          (p.back .systemCall) (by omega) (by omega) inside
        rw [regs, flags, ebp] at entered
        exact entered
      · exact absurd rfl (idle same).1

theorem esp_restoreAll (m : Machine) :
    (Machine.run restoreAll m).reg .esp = m.reg .esp + 44 := by
  simp [restoreAll, Machine.pops, Machine.exec, Machine.esp_pop, BitVec.add_assoc]

theorem iret_spec {eip cs flags : Word} (stack : m.Stack (eip :: cs :: flags :: words)) :
    (iret m).eip = eip ∧ (iret m).reg .eflags = flags ∧ (iret m).mem = m.mem ∧
      (iret m).reg .esp =
        (if cs &&& 3 = 0 then m.reg .esp + 12 else load m.mem (m.reg .esp + 12)) ∧
      ∀ r, r ≠ .esp → r ≠ .eflags → (iret m).reg r = m.reg r := by
  have ip : load m.mem (m.reg .esp) = eip := stack.head
  have code : load m.mem (m.reg .esp + 4) = cs := stack.tail.head
  have flag : load m.mem (m.reg .esp + 8) = flags := by
    have loaded := stack.tail.tail.head
    rwa [BitVec.add_assoc] at loaded
  rw [iret, ip, code, flag]
  by_cases same : cs &&& 3 = 0
  · simp only [if_pos same]
    exact ⟨rfl, by simp, rfl, by simp, fun r other other' => by simp [other, other']⟩
  · simp only [if_neg same]
    exact ⟨rfl, by simp, rfl, by simp, fun r other other' => by simp [other, other']⟩

/-- The handler of an interrupt gives everything back. -/
theorem handlerRet_spec (stack : m'.Stack (savedRegs m ++ ring.words m))
    (esp : ring = .system → m'.reg .esp + 56 = m.reg .esp) :
    (handlerRet m').eip = m.eip ∧ (∀ r, (handlerRet m').reg r = m.reg r) ∧
      (handlerRet m').mem = m'.mem := by
  obtain ⟨popped, mem, regs, _⟩ :=
    Machine.run_pops [.ebx, .ecx, .edx, .esi, .edi, .ebp, .eax, .ds, .es, .fs, .gs]
      (by decide) (by decide) stack rfl
  have sp := esp_restoreAll m'
  rw [← restoreAll] at popped mem regs
  rw [handlerRet]
  generalize Machine.run restoreAll m' = m₁ at popped mem regs sp ⊢
  have returns : (iret m₁).eip = m.eip ∧ (iret m₁).reg .eflags = m.reg .eflags ∧
      (iret m₁).mem = m₁.mem ∧ (iret m₁).reg .esp = m.reg .esp ∧
      ∀ r, r ≠ .esp → r ≠ .eflags → (iret m₁).reg r = m₁.reg r := by
    cases ring with
    | user =>
        have user : load m₁.mem (m₁.reg .esp + 12) = m.reg .esp := by
          have loaded := popped.tail.tail.tail.head
          rwa [BitVec.add_assoc, BitVec.add_assoc] at loaded
        obtain ⟨eip, flags, mem, esp, others⟩ := iret_spec popped
        exact ⟨eip, flags, mem, esp.trans user, others⟩
    | system =>
        obtain ⟨eip, flags, mem, sp', others⟩ := iret_spec popped
        refine ⟨eip, flags, mem, sp'.trans ?_, others⟩
        show m₁.reg .esp + 12 = _
        rw [sp, BitVec.add_assoc]
        exact esp rfl
  obtain ⟨eip, flags, mem', esp', others⟩ := returns
  simp only [savedRegs, List.map_cons, List.map_nil, List.cons.injEq] at regs
  obtain ⟨ebx, ecx, edx, esi, edi, ebp, eax, ds, es, fs, gs, _⟩ := regs
  refine ⟨eip, fun r => ?_, mem'.trans mem⟩
  cases r with
  | esp => exact esp'
  | eflags => exact flags
  | _ =>
      rw [others _ (by decide) (by decide)]
      assumption

theorem mem_sysenterFin (m : Machine) :
    (sysenterFin m).mem = store m.mem (0x18 + m.reg .esp) (m.reg .eax) := rfl

theorem Visit.length_stackWords (visit : Visit) :
    visit.stackWords.length = 14 ∨ visit.stackWords.length = 16 := by
  obtain ⟨ring, handler, m⟩ := visit
  cases handler <;> cases ring <;> simp [stackWords, savedRegs, Ring.words]

/-- At most three of the words have been lost. -/
theorem exists_three {lost : List Word} (few : lost.length ≤ 3) (x y z : Word)
    (rest : List Word) : ∃ b c d, lost ++ (x :: y :: z :: rest).drop lost.length =
      b :: c :: d :: rest := by
  match lost, few with
  | [], _ => exact ⟨x, y, z, rfl⟩
  | [b], _ => exact ⟨b, y, z, rfl⟩
  | [b, c], _ => exact ⟨b, c, z, rfl⟩
  | [b, c, d], _ => exact ⟨b, c, d, rfl⟩
  | _ :: _ :: _ :: _ :: _, few => exact absurd few (by simp)

/-- A handler goes back to the thread when its routine has returned, and writes to nothing but the
stack of the thread. -/
theorem Visit.Fits.leaves {visit : Visit} (fits : visit.Fits p u)
    (returned : Returned (p.routine visit.handler).arguments
      (p.enter (p.word u kernelStackSize) visit) m') :
    m'.eip = p.back visit.handler ∧ visit.Resumes (visit.handler.leave m') ∧
      ∀ a : Word, ¬p.Within u a → (visit.handler.leave m').mem a = m'.mem a := by
  obtain ⟨start, entered, _, low, high, idle, _⟩ := fits.enters
  have page := p.base_page u
  have length := visit.length_stackWords
  have esp := entered.esp
  rw [List.length_cons] at esp
  have few : (p.routine visit.handler).arguments ≤ 3 := by
    by_cases service : visit.handler = .systemCall
    · rw [service]
      exact p.services
    · rw [p.interrupts _ service]
      omega
  have within : ∀ a : Word, ((p.enter (p.word u kernelStackSize) visit).reg .esp).toNat ≤ a.toNat →
      a.toNat < ((p.enter (p.word u kernelStackSize) visit).reg .esp).toNat +
        4 * (visit.stackWords.length + 1) → p.Within u a := by
    intro a above below
    simp only [Unions.Within, pageSize]
    omega
  obtain ⟨back, lost, count, stack⟩ := returned.stack entered.stack (by omega)
    (fun a above below => (within a above below).samePage
      (within _ (Nat.le_refl _) (by omega))) (by omega)
  refine ⟨back, ?_⟩
  have next := returned.esp
  have up : (m'.reg .esp).toNat =
      ((p.enter (p.word u kernelStackSize) visit).reg .esp).toNat + 4 := by
    rw [next]
    exact toNat_add _ 4 (by show _ + 4 < _; omega)
  obtain ⟨ring, handler, m⟩ := visit
  have system : ring = .system → handler ≠ .systemCall → m'.reg .esp + 56 = m.reg .esp := by
    intro same other
    have words : (Visit.stackWords ⟨ring, handler, m⟩).length = 14 := by
      cases handler with
      | systemCall => exact absurd rfl other
      | _ => simp [Visit.stackWords, savedRegs, same, Ring.words]
    have top := idle same
    rw [words] at esp
    rw [next]
    bv_omega
  have interrupted : handler ≠ .systemCall →
      m'.Stack (lost ++ (savedRegs m ++ ring.words m).drop (p.routine handler).arguments) →
      ((handlerRet m').eip = m.eip ∧ ∀ r, (handlerRet m').reg r = m.reg r) ∧
        ∀ a : Word, ¬p.Within u a → (handlerRet m').mem a = m'.mem a := by
    intro other stack
    have none := p.interrupts handler other
    rw [none] at stack
    rw [List.length_eq_zero_iff.mp (count.trans none)] at stack
    obtain ⟨eip, regs, mem⟩ := handlerRet_spec stack fun same => system same other
    exact ⟨⟨eip, regs⟩, fun a _ => congrFun mem a⟩
  cases handler with
  | clock => exact interrupted (by decide) stack
  | keyboard => exact interrupted (by decide) stack
  | systemCall =>
      rw [← count] at stack
      obtain ⟨b, c, d, lost_eq⟩ := exists_three (by omega : lost.length ≤ 3) (m.reg .ebx)
        (m.reg .ecx) (m.reg .edx) ([m.reg .esi, m.reg .edi, m.reg .ebp, m.reg .eax, m.reg .ds,
          m.reg .es, m.reg .fs, m.reg .gs] ++ [load m.mem (m.reg .ebp + 4), userCs,
          m.reg .eflags &&& ~~~0x20200, m.reg .ebp, userDs])
      have stack' : m'.Stack [b, c, d, m.reg .esi, m.reg .edi, m.reg .ebp, m.reg .eax, m.reg .ds,
          m.reg .es, m.reg .fs, m.reg .gs, load m.mem (m.reg .ebp + 4), userCs,
          m.reg .eflags &&& ~~~0x20200, m.reg .ebp, userDs] := lost_eq ▸ stack
      obtain ⟨eip, esp', regs⟩ := sysenterFin_spec stack'
      simp only [List.map_cons, List.map_nil, List.cons.injEq] at regs
      obtain ⟨_, _, _, esi, edi, ebp, _, ds, es, fs, gs, _⟩ := regs
      refine ⟨⟨eip, esp', ?_⟩, fun a outside => ?_⟩
      · simp only [List.forall_mem_cons]
        exact ⟨esi, edi, ebp, ds, es, fs, gs, by simp⟩
      · show (sysenterFin m').mem a = _
        have cell : (0x18 + m'.reg .esp).toNat = (m'.reg .esp).toNat + 24 := by
          bv_omega
        simp only [Unions.Within, pageSize] at outside
        rw [mem_sysenterFin]
        exact store_other (by omega) (by omega)

/-! ## Several threads on one processor -/

/-- The state between two handlers.  The register 0x175 has the stack for `sysenter`.  Of the
threads that have been switched away, `waiting` has the state in which they entered the handler. -/
structure Cpu where
  machine : Machine
  running : ThreadSlot
  ring : Ring
  sysenterEsp : Word
  waiting : ThreadSlot → Option Visit

inductive Event
  | work
  | serve (handler : Handler)
  | switch (handler : Handler) (new : ThreadSlot)
  | free (thread : ThreadSlot)

namespace Cpu

def visit (s : Cpu) (handler : Handler) : Visit := ⟨s.ring, handler, s.machine⟩

def enter (p : Program) (s : Cpu) (handler : Handler) : Machine :=
  p.enter s.sysenterEsp (s.visit handler)

/-- The running thread has been switched away for another one, which does not wait any more. -/
def leaves (s : Cpu) (handler : Handler) (new : ThreadSlot) : ThreadSlot → Option Visit :=
  Function.update (Function.update s.waiting s.running (some (s.visit handler))) new none

/-- The idle thread does not call the system, and programs do it with a frame in their own pages. -/
structure Admits (s : Cpu) (handler : Handler) : Prop where
  idle : s.ring = .system → handler ≠ .systemCall
  program : handler = .systemCall → pageSize * pagLogInitCode ≤ (s.machine.reg .ebp).toNat ∧
    (s.machine.reg .ebp).toNat + 8 ≤ 2 ^ 32

/-- Memory in which the waiting threads but one have what belongs to them. -/
def Spares (p : Program) (waiting : ThreadSlot → Option Visit) (u : ThreadSlot)
    (mem mem' : X86.Memory) : Prop :=
  ∀ w, w ≠ u → waiting w ≠ none → p.Keeps w mem mem'

/-- In a handler the running thread calls `task_switch` in `m₁`, and `switch_stack` is called in
`m₂`. -/
structure Switches (p : Program) (s : Cpu) (handler : Handler) (new : ThreadSlot)
    (m₁ m₂ : Machine) : Prop where
  admits : s.Admits handler
  calls : (p.routine handler).Calls (s.enter p handler) m₁
  spares : Spares p s.waiting s.running (s.enter p handler).mem m₁.mem
  taskSwitch : CallsTaskSwitch p.toUnions s.running new m₁
  inner : InnerTaskSwitch p.toUnions (taskSwitchCall p.taskBack m₁) m₂

end Cpu

/-- What happens on the processor.  A program writes to its own pages only, and the idle thread
keeps its stack.  A handler comes back to the thread that it interrupted, or switches to one that
waits, or to one that has not run yet, whose way from the kernel is left open.  The stacks of the
threads that wait are not written by others, as long as they have not been freed. -/
inductive Step (p : Program) : Cpu → Event → Cpu → Prop
  | work {s : Cpu} {m' : Machine}
      (system : ∀ a : Word, a.toNat < pageSize * pagLogInitCode → m'.mem a = s.machine.mem a)
      (idle : s.ring = .system → m'.reg .esp = s.machine.reg .esp) :
      Step p s .work { s with machine := m' }
  | serve {s : Cpu} {handler : Handler} {m₁ : Machine} (admits : s.Admits handler)
      (returns : (p.routine handler).Returns (s.enter p handler) m₁)
      (spares : Cpu.Spares p s.waiting s.running (s.enter p handler).mem m₁.mem)
      (esp0 : load m₁.mem p.esp0 = load (s.enter p handler).mem p.esp0) :
      Step p s (.serve handler) { s with machine := handler.leave m₁ }
  | resume {s : Cpu} {handler : Handler} {v : ThreadSlot} {m₁ m₂ m₃ : Machine} {visit : Visit}
      (switches : s.Switches p handler v m₁ m₂) (waits : s.waiting v = some visit)
      (goesOn : (p.routine visit.handler).GoesOn (taskSwitchRet (switchStack m₂)) m₃)
      (spares : Cpu.Spares p (s.leaves handler v) v (taskSwitchRet (switchStack m₂)).mem m₃.mem)
      (esp0 : load m₃.mem p.esp0 = load (taskSwitchRet (switchStack m₂)).mem p.esp0) :
      Step p s (.switch handler v)
        { machine := visit.handler.leave m₃
          running := v
          ring := visit.ring
          sysenterEsp := p.word v kernelStackSize
          waiting := s.leaves handler v }
  | begin {s : Cpu} {handler : Handler} {v : ThreadSlot} {m₁ m₂ m₃ : Machine} {ring : Ring}
      (switches : s.Switches p handler v m₁ m₂) (fresh : s.waiting v = none)
      (spares : Cpu.Spares p (s.leaves handler v) v (switchStack m₂).mem m₃.mem)
      (esp0 : load m₃.mem p.esp0 = load (switchStack m₂).mem p.esp0)
      (idle : ring = .system → p.base v + 100 ≤ (m₃.reg .esp).toNat ∧
        (m₃.reg .esp).toNat ≤ p.base v + pageSize) :
      Step p s (.switch handler v)
        { machine := m₃
          running := v
          ring := ring
          sysenterEsp := p.word v kernelStackSize
          waiting := s.leaves handler v }
  | free {s : Cpu} (w : ThreadSlot) :
      Step p s (.free w) { s with waiting := Function.update s.waiting w none }

inductive Run (p : Program) : Cpu → List Event → Cpu → Prop
  | nil (s : Cpu) : Run p s [] s
  | cons {s s₁ s₂ : Cpu} {event : Event} {events : List Event} (step : Step p s event s₁)
      (run : Run p s₁ events s₂) : Run p s (event :: events) s₂

/-- `init_task1` has made `tss.esp0` and the register 0x175 point to the stack of the first thread,
and no other thread has run. -/
structure Cpu.Starts (p : Program) (s : Cpu) : Prop where
  esp0 : load s.machine.mem p.esp0 = p.word s.running kernelStackSize
  sysenter : s.sysenterEsp = p.word s.running kernelStackSize
  ring : s.ring = .user
  waiting : ∀ w, s.waiting w = none

/-! ## The invariant -/

/-- A thread waits in the middle of its handler. -/
structure Waits (p : Program) (u : ThreadSlot) (visit : Visit) (mem : X86.Memory) : Prop where
  fits : visit.Fits p u
  away : ∃ m₁, (p.routine visit.handler).Calls (p.enter (p.word u kernelStackSize) visit) m₁ ∧
    SwitchedAway p.toUnions u m₁ mem

/-- The processor enters the kernel on the stack of the running thread, and the other threads wait
in their handlers. -/
structure Cpu.Sound (p : Program) (s : Cpu) : Prop where
  esp0 : load s.machine.mem p.esp0 = p.word s.running kernelStackSize
  sysenter : s.sysenterEsp = p.word s.running kernelStackSize
  idle : s.ring = .system → p.base s.running + 100 ≤ (s.machine.reg .esp).toNat ∧
    (s.machine.reg .esp).toNat ≤ p.base s.running + pageSize
  running : s.waiting s.running = none
  waiting : ∀ w visit, s.waiting w = some visit → Waits p w visit s.machine.mem

variable {s s' s₁ s₂ : Cpu} {handler : Handler} {visit : Visit} {m₁ m₂ m₃ : Machine}
  {mem mem' : X86.Memory} {event : Event} {events : List Event}

theorem Waits.keeps (waits : Waits p u visit mem) (keeps : p.Keeps u mem mem') :
    Waits p u visit mem' := by
  obtain ⟨m₁, calls, away⟩ := waits.away
  exact ⟨waits.fits, m₁, calls, away.keeps keeps⟩

theorem Cpu.Starts.sound (starts : s.Starts p) : s.Sound p where
  esp0 := starts.esp0
  sysenter := starts.sysenter
  idle same := absurd (starts.ring.symm.trans same) (by decide)
  running := starts.waiting _
  waiting w visit waits := absurd ((starts.waiting w).symm.trans waits) (by simp)

/-- Memory that is the same outside of the page of one thread. -/
theorem keeps_of_other (different : w ≠ u)
    (same : ∀ a : Word, ¬p.Within u a → mem' a = mem a) : p.Keeps w mem mem' :=
  fun a owns => same a (Unions.not_within different owns.within)

theorem load_esp0 (same : ∀ a : Word, ¬p.Within u a → mem' a = mem a) :
    load mem' p.esp0 = load mem p.esp0 := by
  have apart := p.esp0_apart u
  have system := p.esp0_system
  simp only [pageSize, pagLogInitCode] at system
  refine load_congr (by omega) fun a above below => same a ?_
  simp only [Unions.Within, pageSize]
  omega

/-- A handler is entered without a write to other pages than the one of the thread. -/
theorem Visit.Fits.mem_enter (fits : visit.Fits p u) (a : Word) (outside : ¬p.Within u a) :
    (p.enter (p.word u kernelStackSize) visit).mem a = visit.machine.mem a := by
  obtain ⟨start, entered, mem, low, high, _, _⟩ := fits.enters
  have length := visit.length_stackWords
  have esp := entered.esp
  rw [List.length_cons] at esp
  simp only [Unions.Within, pageSize] at outside
  rw [← mem]
  exact entered.mem a (by omega)

namespace Cpu

theorem Sound.fits (sound : s.Sound p) (admits : s.Admits handler) :
    (s.visit handler).Fits p s.running where
  esp0 := sound.esp0
  idle same := ⟨admits.idle same, sound.idle same⟩
  program := admits.program

theorem Sound.enter_eq (sound : s.Sound p) (handler : Handler) :
    s.enter p handler = p.enter (p.word s.running kernelStackSize) (s.visit handler) := by
  rw [enter, sound.sysenter]

theorem Sound.ne_running (sound : s.Sound p) (waits : s.waiting w = some visit) :
    w ≠ s.running := by
  rintro rfl
  exact absurd (sound.running.symm.trans waits) (by simp)

/-- A handler that comes back leaves the thread as it found it. -/
theorem Sound.served (sound : s.Sound p) (admits : s.Admits handler)
    (returns : (p.routine handler).Returns (s.enter p handler) m₁) :
    m₁.eip = p.back handler ∧ (s.visit handler).Resumes (handler.leave m₁) ∧
      ∀ a : Word, ¬p.Within s.running a → (handler.leave m₁).mem a = m₁.mem a := by
  rw [sound.enter_eq] at returns
  exact (sound.fits admits).leaves ((p.routine handler).returned returns)

/-- The stack pointer of the idle thread when it goes on. -/
theorem idle_resumes (fits : visit.Fits p v) (resumes : visit.Resumes m')
    (same : visit.ring = .system) : p.base v + 100 ≤ (m'.reg .esp).toNat ∧
      (m'.reg .esp).toNat ≤ p.base v + pageSize := by
  obtain ⟨ring, handler, m⟩ := visit
  have esp : m'.reg .esp = m.reg .esp := by
    cases handler with
    | systemCall => exact absurd rfl (fits.idle same).1
    | _ => exact resumes.2 .esp
  rw [esp]
  exact (fits.idle same).2

theorem Sound.serve (sound : s.Sound p) (admits : s.Admits handler)
    (returns : (p.routine handler).Returns (s.enter p handler) m₁)
    (spares : Spares p s.waiting s.running (s.enter p handler).mem m₁.mem)
    (esp0 : load m₁.mem p.esp0 = load (s.enter p handler).mem p.esp0) :
    Sound p { s with machine := handler.leave m₁ } := by
  obtain ⟨_, resumes, mem⟩ := sound.served admits returns
  have enters := (sound.fits admits).mem_enter
  rw [← sound.enter_eq] at enters
  refine ⟨?_, sound.sysenter, idle_resumes (sound.fits admits) resumes, sound.running,
    fun w visit waits => ?_⟩
  · show load (handler.leave m₁).mem p.esp0 = _
    rw [load_esp0 mem, esp0, load_esp0 enters]
    exact sound.esp0
  · have different := sound.ne_running waits
    have present : s.waiting w ≠ none := Option.ne_none_iff_exists'.mpr ⟨visit, waits⟩
    exact (sound.waiting w visit waits).keeps (((keeps_of_other different enters).trans
      (spares w different present)).trans (keeps_of_other different mem))

/-- What waits when `switch_stack` is called, and when it has changed the stack. -/
theorem Sound.others (sound : s.Sound p) (switches : s.Switches p handler v m₁ m₂)
    (waits : s.waiting w = some visit) :
    Waits p w visit m₁.mem ∧ Waits p w visit (switchStack m₂).mem := by
  have different := sound.ne_running waits
  have present : s.waiting w ≠ none := Option.ne_none_iff_exists'.mpr ⟨visit, waits⟩
  have enters := (sound.fits switches.admits).mem_enter
  rw [← sound.enter_eq] at enters
  have calling := (sound.waiting w visit waits).keeps
    ((keeps_of_other different enters).trans (switches.spares w different present))
  exact ⟨calling, calling.keeps fun a owns =>
    (switches.taskSwitch.others switches.inner different owns.within).2⟩

/-- The running thread waits when another one has the processor. -/
theorem Sound.left (sound : s.Sound p) (switches : s.Switches p handler v m₁ m₂) :
    Waits p s.running (s.visit handler) (switchStack m₂).mem where
  fits := sound.fits switches.admits
  away := by
    have calls := switches.calls
    rw [sound.enter_eq] at calls
    exact ⟨m₁, calls, switches.taskSwitch.away switches.inner⟩

/-- What waits after a switch. -/
theorem Sound.leaves (sound : s.Sound p) (switches : s.Switches p handler v m₁ m₂)
    (spares : Spares p (s.leaves handler v) v (switchStack m₂).mem mem)
    (waits : s.leaves handler v w = some visit) : w ≠ v ∧ Waits p w visit mem := by
  have present : s.leaves handler v w ≠ none := Option.ne_none_iff_exists'.mpr ⟨visit, waits⟩
  have other : w ≠ v := by
    rintro rfl
    exact present (Function.update_self ..)
  refine ⟨other, ?_⟩
  have keeps := spares w other present
  rw [Cpu.leaves, Function.update_of_ne other] at waits
  by_cases same : w = s.running
  · subst same
    rw [Function.update_self] at waits
    exact Option.some.inj waits ▸ (sound.left switches).keeps keeps
  · rw [Function.update_of_ne same] at waits
    exact (sound.others switches waits).2.keeps keeps

/-- The thread to which the processor is switched goes on behind its call of `task_switch`, and
finds the state in which it entered the handler. -/
theorem Sound.resumes (sound : s.Sound p) (switches : s.Switches p handler v m₁ m₂)
    (waits : s.waiting v = some visit)
    (goesOn : (p.routine visit.handler).GoesOn (taskSwitchRet (switchStack m₂)) m₃) :
    visit.Fits p v ∧ (switchStack m₂).eip = p.taskBack ∧ m₃.eip = p.back visit.handler ∧
      visit.Resumes (visit.handler.leave m₃) ∧
      (∀ a : Word, ¬p.Within v a → (visit.handler.leave m₃).mem a = m₃.mem a) ∧
      (taskSwitchRet (switchStack m₂)).mem = (switchStack m₂).mem := by
  obtain ⟨fits, m₀, calls, away⟩ := (sound.others switches waits).1
  obtain ⟨eip, returned, mem⟩ := switches.taskSwitch.comesBack switches.inner away
  obtain ⟨back, resumes, outside⟩ :=
    fits.leaves ((p.routine visit.handler).goesOn calls returned goesOn)
  exact ⟨fits, eip, back, resumes, outside, mem⟩

end Cpu

/-- Every step keeps the invariant. -/
theorem Step.sound (step : Step p s event s') (sound : s.Sound p) : s'.Sound p := by
  cases step with
  | work system idle =>
      refine ⟨?_, sound.sysenter, fun same => ?_, sound.running, fun w visit waits => ?_⟩
      · have inside := p.esp0_system
        simp only [pageSize, pagLogInitCode] at inside system
        exact (load_congr (by omega) fun a _ _ => system a (by omega)).trans sound.esp0
      · rw [idle same]
        exact sound.idle same
      · refine (sound.waiting w visit waits).keeps fun a owns => system a ?_
        have page := p.base_page w
        have within := owns.within.2
        simp only [pageSize, pagLogInitCode] at within ⊢
        omega
  | serve admits returns spares esp0 => exact sound.serve admits returns spares esp0
  | resume switches waits goesOn spares esp0 =>
      obtain ⟨fits, _, _, resumes, outside, mem⟩ := sound.resumes switches waits goesOn
      rw [mem] at spares esp0
      refine ⟨?_, rfl, Cpu.idle_resumes fits resumes, Function.update_self ..,
        fun w visit' other => ?_⟩
      · rw [load_esp0 outside, esp0]
        exact switches.taskSwitch.esp0 switches.inner
      · obtain ⟨different, waits'⟩ := sound.leaves switches spares other
        exact waits'.keeps (keeps_of_other different outside)
  | begin switches fresh spares esp0 idle =>
      refine ⟨?_, rfl, idle, Function.update_self .., fun w visit' other => ?_⟩
      · exact esp0.trans (switches.taskSwitch.esp0 switches.inner)
      · exact (sound.leaves switches spares other).2
  | free w =>
      refine ⟨sound.esp0, sound.sysenter, sound.idle, ?_, fun w' visit waits => ?_⟩
      · exact (Function.update_apply ..).trans (by rw [sound.running, ite_self])
      · have other : w' ≠ w := by
          rintro rfl
          exact absurd waits (by simp)
        exact sound.waiting w' visit ((Function.update_of_ne other ..).symm.trans waits)

theorem Run.sound (run : Run p s events s') (sound : s.Sound p) : s'.Sound p := by
  induction run with
  | nil => exact sound
  | cons step _ induction => exact induction (step.sound sound)

/-- Neither a switch to the thread nor its end. -/
def Event.Spares (u : ThreadSlot) : Event → Prop
  | .switch _ new => new ≠ u
  | .free thread => thread ≠ u
  | .work | .serve _ => True

/-- A thread waits until the processor is switched to it or it is freed. -/
theorem Step.waiting (step : Step p s event s') (sound : s.Sound p)
    (waits : s.waiting u = some visit) (spares : event.Spares u) : s'.waiting u = some visit := by
  have different := sound.ne_running waits
  cases step with
  | work => exact waits
  | serve => exact waits
  | resume | begin =>
      show Cpu.leaves _ _ _ u = some visit
      rw [Cpu.leaves, Function.update_of_ne (Ne.symm spares), Function.update_of_ne different]
      exact waits
  | free w => exact (Function.update_of_ne (Ne.symm spares) ..).trans waits

theorem Run.waiting (run : Run p s events s') (sound : s.Sound p) (waits : s.waiting u = some visit)
    (spares : ∀ event ∈ events, event.Spares u) : s'.waiting u = some visit := by
  induction run with
  | nil => exact waits
  | cons step _ induction =>
      obtain ⟨first, rest⟩ := List.forall_mem_cons.mp spares
      exact induction (step.sound sound) (step.waiting sound waits first) rest

/-- The thread that is switched away waits. -/
theorem Step.waiting_left (step : Step p s (.switch handler v) s') :
    s'.waiting s.running = some (s.visit handler) := by
  have leaves : ∀ {m₁ m₂}, s.Switches p handler v m₁ m₂ →
      s.leaves handler v s.running = some (s.visit handler) := by
    intro m₁ m₂ switches
    rw [Cpu.leaves, Function.update_of_ne switches.taskSwitch.other, Function.update_self]
  cases step with
  | resume switches => exact leaves switches
  | begin switches => exact leaves switches

/-- A thread that waits finds the state in which it entered its handler. -/
theorem Step.resumes (step : Step p s (.switch handler v) s') (sound : s.Sound p)
    (waits : s.waiting v = some visit) : s'.running = v ∧ s'.ring = visit.ring ∧
      visit.Resumes s'.machine := by
  cases step with
  | resume switches waits' goesOn =>
      obtain rfl := Option.some.inj (waits'.symm.trans waits)
      exact ⟨rfl, rfl, (sound.resumes switches waits goesOn).2.2.2.1⟩
  | begin _ fresh => exact absurd (fresh.symm.trans waits) (by simp)

/-- In every run a thread that is switched away in a handler, and to which the processor is switched
back after any steps of the others, goes on as from a handler that came back at once: after an
interrupt with all of its registers. -/
theorem goes_on (p : Program) (s₀ s₁ s₂ s₃ s₄ : Cpu) (before others : List Event)
    (handler handler' : Handler) (v : ThreadSlot) (starts : s₀.Starts p)
    (run : Run p s₀ before s₁) (away : Step p s₁ (.switch handler v) s₂)
    (run' : Run p s₂ others s₃) (spares : ∀ event ∈ others, event.Spares s₁.running)
    (back : Step p s₃ (.switch handler' s₁.running) s₄) :
    s₄.running = s₁.running ∧ s₄.ring = s₁.ring ∧
      (Visit.mk s₁.ring handler s₁.machine).Resumes s₄.machine := by
  have sound₁ := run.sound starts.sound
  have sound₂ := away.sound sound₁
  have waits := run'.waiting sound₂ away.waiting_left spares
  exact back.resumes (run'.sound sound₂) waits

/-- In every run a handler that comes back to the thread that it interrupted, without a switch, does
so with the state that it found: after an interrupt with all of the registers. -/
theorem served_unchanged (p : Program) (s₀ s₁ s₂ : Cpu) (before : List Event) (handler : Handler)
    (starts : s₀.Starts p) (run : Run p s₀ before s₁) (step : Step p s₁ (.serve handler) s₂) :
    s₂.running = s₁.running ∧ (Visit.mk s₁.ring handler s₁.machine).Resumes s₂.machine := by
  have sound := run.sound starts.sound
  cases step with
  | serve admits returns => exact ⟨rfl, (sound.served admits returns).2.1⟩

/-! ## A system with two threads -/

/-- A call of `task_switch` in the plainest code. -/
theorem calling_pushes (new back : Word) (room : 8 ≤ (m.reg .esp).toNat % 4096) :
    Calling 0 m ((m.push new).push back) ∧
      (((m.push new).push back).reg .esp).toNat = (m.reg .esp).toNat - 8 ∧
      ∀ a : Word, a.toNat + 8 < (m.reg .esp).toNat ∨ (m.reg .esp).toNat ≤ a.toNat →
        ((m.push new).push back).mem a = m.mem a := by
  have down : ((m.push new).reg .esp).toNat = (m.reg .esp).toNat - 4 :=
    Machine.toNat_esp_push (by omega)
  have down' : (((m.push new).push back).reg .esp).toNat = ((m.push new).reg .esp).toNat - 4 :=
    Machine.toNat_esp_push (by omega)
  have mem : ∀ a : Word, a.toNat + 8 < (m.reg .esp).toNat ∨ (m.reg .esp).toNat ≤ a.toNat →
      ((m.push new).push back).mem a = m.mem a := fun a apart =>
    (Machine.mem_push_other (by omega) (by omega)).trans
      (Machine.mem_push_other (by omega) (by omega))
  refine ⟨⟨by omega, ?_, fun a above _ => mem a (by omega)⟩, by omega, mem⟩
  rw [SamePage]
  omega

theorem returned_ret (m : Machine) : Returned 0 m m.ret :=
  ⟨rfl, Machine.esp_ret, Machine.reg_ret (by decide), Machine.reg_ret (by decide),
    Machine.reg_ret (by decide), Machine.reg_ret (by decide), fun _ _ _ => rfl⟩

/-- After the call the argument is popped. -/
theorem returned_pushes {m₂ : Machine} {new back : Word}
    (room : 8 ≤ (m.reg .esp).toNat % 4096) (inside : (m.reg .esp).toNat % 4096 + 4 ≤ 4096)
    (returned : Returned 1 ((m.push new).push back) m₂) :
    Returned 0 m (m₂.set .esp (m₂.reg .esp + 4)).ret := by
  obtain ⟨calling, down, mem⟩ := calling_pushes new back room
  have regs : ∀ r, r ≠ .esp → ((m.push new).push back).reg r = m.reg r := fun r other =>
    (Machine.reg_push other).trans (Machine.reg_push other)
  generalize (m.push new).push back = m₁ at returned calling down mem regs
  have esp : m₂.reg .esp + 4 = m.reg .esp := by
    rw [returned.esp]
    bv_omega
  have above : ∀ a : Word, (m.reg .esp).toNat ≤ a.toNat → SamePage a (m.reg .esp) →
      m₂.mem a = m.mem a := fun a from_esp same =>
    (returned.above a (by omega) (same.trans calling.page.symm)).trans (mem a (.inr from_esp))
  have kept : ∀ r, r ≠ .esp → ((m₂.set .esp (m₂.reg .esp + 4)).ret).reg r = m₂.reg r :=
    fun r other => (Machine.reg_ret other).trans (Machine.reg_set_other other)
  constructor
  · show load m₂.mem ((m₂.set .esp (m₂.reg .esp + 4)).reg .esp) = _
    rw [Machine.reg_set_same, esp]
    refine load_congr (by omega) fun a from_esp to_end => above a from_esp ?_
    rw [SamePage]
    omega
  · rw [Machine.esp_ret, Machine.reg_set_same, esp]
  · rw [kept .ebx (by decide), returned.ebx, regs .ebx (by decide)]
  · rw [kept .esi (by decide), returned.esi, regs .esi (by decide)]
  · rw [kept .edi (by decide), returned.edi, regs .edi (by decide)]
  · rw [kept .ebp (by decide), returned.ebp, regs .ebp (by decide)]
  · exact fun a from_end same => above a (by omega) same

/-- The code of a function that does nothing but call `task_switch`, or return. -/
def switchOnce : Routine where
  arguments := 0
  Returns m m' := m' = m.ret
  Calls m m₁ := 8 ≤ (m.reg .esp).toNat % 4096 ∧ (m.reg .esp).toNat % 4096 + 4 ≤ 4096 ∧
    ∃ new, m₁ = (m.push new).push 0x13000
  GoesOn m₂ m' := m' = (m₂.set .esp (m₂.reg .esp + 4)).ret
  returned := by
    rintro m _ rfl
    exact returned_ret m
  calling := by
    rintro m _ ⟨room, _, new, rfl⟩
    exact (calling_pushes new _ room).1
  goesOn := by
    rintro m _ m₂ _ ⟨room, inside, new, rfl⟩ returned rfl
    exact returned_pushes room inside returned

/-- A small system with the `thread_union`s at 0x20000. -/
def plainProgram : Program where
  threadTasks := 0x20000
  esp0 := 0x10004
  taskBack := 0x11000
  aligned := by decide
  system := by decide
  esp0_system := by decide
  apart := by decide
  routine := fun _ => switchOnce
  back := fun _ => 0x12000
  interrupts := fun _ _ => rfl
  services := by decide

/-- A thread in user mode can always be interrupted for another one. -/
theorem Cpu.Sound.exists_switches (sound : s.Sound plainProgram) (user : s.ring = .user)
    (other : s.running ≠ v) : ∃ m₁ m₂, s.Switches plainProgram .clock v m₁ m₂ := by
  have admits : s.Admits .clock := ⟨fun _ => by decide, fun same => absurd same (by decide)⟩
  have fits := sound.fits admits
  obtain ⟨start, entered, _, low, high, _, top⟩ := fits.enters
  have page := plainProgram.base_page s.running
  have end_page : (plainProgram.word s.running kernelStackSize).toNat =
      plainProgram.base s.running + 4096 := Unions.toNat_word (Nat.le_refl _)
  have length := (s.visit .clock).length_stackWords
  have esp := entered.esp
  rw [top user, end_page, List.length_cons] at esp
  have stack := entered.stack
  rw [← sound.enter_eq] at esp stack
  obtain ⟨_, down, mem⟩ := calling_pushes (m := s.enter plainProgram .clock)
    (plainProgram.word v 0) 0x13000 (by omega)
  have pushed := (stack.push (by omega) (plainProgram.word v 0)).push (by
    rw [Machine.toNat_esp_push (by omega)]
    omega) 0x13000
  have called : (((s.enter plainProgram .clock).push (plainProgram.word v 0)).push 0x13000).Stack
      ([0x13000, plainProgram.word v 0] ++ _) := pushed
  have taskSwitch : CallsTaskSwitch plainProgram.toUnions s.running v
      (((s.enter plainProgram .clock).push (plainProgram.word v 0)).push 0x13000) := by
    refine ⟨⟨0x13000, Holds.append_left called⟩, other, ?_, ?_⟩
    all_goals
      simp only [threadStructWords, pageSize]
      omega
  obtain ⟨_, entered_esp, within, _⟩ := taskSwitch.enters
  refine ⟨_, _, admits, ⟨by omega, by omega, _, rfl⟩, fun w different _ => ?_, taskSwitch,
    innerTaskSwitch_spec within ?_⟩
  · refine keeps_of_other different fun a outside => mem a ?_
    simp only [Unions.Within, pageSize] at outside
    omega
  · simp only [threadStructWords]
    omega

/-- A thread in user mode is interrupted for one that has not run yet. -/
theorem Cpu.Sound.exists_begin (sound : s.Sound plainProgram) (user : s.ring = .user)
    (other : s.running ≠ v) (fresh : s.waiting v = none) :
    ∃ s', Step plainProgram s (.switch .clock v) s' ∧ s'.running = v ∧ s'.ring = .user := by
  obtain ⟨m₁, m₂, switches⟩ := sound.exists_switches user other
  refine ⟨⟨⟨fun _ => 0, 0x100000, (switchStack m₂).mem⟩, v, .user, _, _⟩,
    .begin switches fresh (fun _ _ _ _ _ => rfl) rfl (fun same => absurd same (by decide)), rfl,
    rfl⟩

/-- A thread in user mode is interrupted for one that waits. -/
theorem Cpu.Sound.exists_resume (sound : s.Sound plainProgram) (user : s.ring = .user)
    (other : s.running ≠ v) (waits : s.waiting v = some visit) :
    ∃ s', Step plainProgram s (.switch .clock v) s' := by
  obtain ⟨m₁, m₂, switches⟩ := sound.exists_switches user other
  have goesOn : ∀ m, (plainProgram.routine visit.handler).GoesOn m
      (m.set .esp (m.reg .esp + 4)).ret := fun _ => rfl
  have mem : ∀ m : Machine, (m.set .esp (m.reg .esp + 4)).ret.mem = m.mem := fun _ => rfl
  exact ⟨_, .resume switches waits (goesOn _) (fun _ _ _ a _ => congrFun (mem _) a)
    (congrArg (fun mem => load mem plainProgram.esp0) (mem _))⟩

/-- The first thread runs, and `tss.esp0` points to its stack. -/
def plainStart : Cpu where
  machine := ⟨fun _ => 0, 0x100000, memoryOf fun index => if index = 0x4001 then 0x22000 else 0⟩
  running := 1
  ring := .user
  sysenterEsp := 0x22000
  waiting := fun _ => none

theorem plainStart_starts : plainStart.Starts plainProgram where
  esp0 := load_memoryOf (by decide)
  sysenter := by decide
  ring := rfl
  waiting _ := rfl

/-- The first thread is interrupted by the clock for the second one, which is interrupted at once
for the first one. -/
theorem goes_on_clock : ∃ s₁ s₂, Step plainProgram plainStart (.switch .clock 2) s₁ ∧
    Step plainProgram s₁ (.switch .clock 1) s₂ ∧
    (Visit.mk .user .clock plainStart.machine).Resumes s₂.machine := by
  have sound := plainStart_starts.sound
  obtain ⟨s₁, away, running, user⟩ := sound.exists_begin (v := 2) rfl (by decide) rfl
  obtain ⟨s₂, back⟩ := (away.sound sound).exists_resume user (by rw [running]; decide)
    away.waiting_left
  exact ⟨s₁, s₂, away, back, (goes_on plainProgram plainStart plainStart s₁ s₁ s₂ [] [] .clock
    .clock 2 plainStart_starts (.nil _) away (.nil _) (by simp) back).2.2⟩

/-- The keyboard interrupts the first thread. -/
theorem served_unchanged_keyboard : ∃ s₁, Step plainProgram plainStart (.serve .keyboard) s₁ ∧
    (Visit.mk .user .keyboard plainStart.machine).Resumes s₁.machine := by
  have step : Step plainProgram plainStart (.serve .keyboard) _ :=
    .serve ⟨fun _ => by decide, fun same => absurd same (by decide)⟩ rfl
      (fun _ _ _ _ _ => rfl) rfl
  exact ⟨_, step, (served_unchanged plainProgram plainStart plainStart _ [] .keyboard
    plainStart_starts (.nil _) step).2⟩

end Zeos.Asm
