import Zeos.CallingConvention
import Zeos.SwitchStack

/-!
# Leaving the processor and coming back

`task_switch` saves the registers that `inner_task_switch` does not give back, since this ends on
another stack.  A thread that called `task_switch` comes back from it when another thread switches
to it, as from every other function.
-/

namespace Zeos.Asm

open X86

/-- Addresses of a linked system.  The `thread_union`s are in pages of the kernel, and `tss` is not
in them. -/
structure Unions where
  threadTasks : Word
  /-- The field `esp0` of `tss`. -/
  esp0 : Word
  /-- The instruction after `call inner_task_switch`. -/
  taskBack : Word
  aligned : threadTasks.toNat % pageSize = 0
  system : threadTasks.toNat + pageSize * (nrThreads + 2) ≤ pageSize * pagLogInitCode
  esp0_system : esp0.toNat + 4 ≤ pageSize * pagLogInitCode
  apart : esp0.toNat + 4 ≤ threadTasks.toNat ∨
    threadTasks.toNat + pageSize * (nrThreads + 2) ≤ esp0.toNat

/-- `current_t`, for the address of its local variable. -/
def currentT (retValue : Word) : Word := retValue &&& 0xfffff000

theorem toNat_currentT (retValue : Word) :
    (currentT retValue).toNat = retValue.toNat / 4096 * 4096 :=
  X86.toNat_pageMask retValue

namespace Unions

def base (k : Unions) (u : ThreadSlot) : Nat := k.threadTasks.toNat + pageSize * u

def word (k : Unions) (u : ThreadSlot) (index : Nat) : Word := unionWord k.threadTasks u index

/-- Addresses in the `thread_union` of a thread. -/
def Within (k : Unions) (u : ThreadSlot) (a : Word) : Prop :=
  k.base u ≤ a.toNat ∧ a.toNat < k.base u + pageSize

/-- Addresses that belong to a thread while it does not run: `register_esp` and the stack. -/
def Owns (k : Unions) (u : ThreadSlot) (a : Word) : Prop :=
  (k.base u + 4 * registerEspWord ≤ a.toNat ∧ a.toNat < k.base u + 4 * (registerEspWord + 1)) ∨
    (k.base u + 4 * threadStructWords ≤ a.toNat ∧ a.toNat < k.base u + pageSize)

def Keeps (k : Unions) (u : ThreadSlot) (mem mem' : X86.Memory) : Prop :=
  ∀ a, k.Owns u a → mem' a = mem a

variable {k : Unions} {u v : ThreadSlot} {a b : Word} {mem mem' mem'' : X86.Memory} {index : Nat}

theorem Keeps.trans (first : k.Keeps u mem mem') (second : k.Keeps u mem' mem'') :
    k.Keeps u mem mem'' := fun a owns => (second a owns).trans (first a owns)

theorem base_page (k : Unions) (u : ThreadSlot) :
    k.base u % 4096 = 0 ∧ k.base u + 4096 ≤ 0x100000 := by
  have slot := u.isLt
  have aligned := k.aligned
  have system := k.system
  simp only [base, pageSize, nrThreads, pagLogInitCode] at *
  omega

theorem base_apart (k : Unions) (different : u ≠ v) :
    k.base u + 4096 ≤ k.base v ∨ k.base v + 4096 ≤ k.base u := by
  have differ : (u : Nat) ≠ v := fun same => different (Fin.ext same)
  simp only [base, pageSize]
  omega

theorem esp0_apart (k : Unions) (u : ThreadSlot) :
    k.esp0.toNat + 4 ≤ k.base u ∨ k.base u + 4096 ≤ k.esp0.toNat := by
  have slot := u.isLt
  have apart := k.apart
  simp only [base, pageSize, nrThreads] at *
  omega

theorem toNat_word (below : index ≤ kernelStackSize) :
    (k.word u index).toNat = k.base u + 4 * index := by
  have slot := u.isLt
  have system := k.system
  simp only [base, pageSize, nrThreads, pagLogInitCode, kernelStackSize] at *
  rw [word, unionWord, toNat_advance _ _ (by simp only [pageSize]; omega), Nat.add_assoc]

theorem Within.samePage (within : k.Within u a) (within' : k.Within u b) : SamePage a b := by
  have page := k.base_page u
  obtain ⟨from_base, to_end⟩ := within
  obtain ⟨from_base', to_end'⟩ := within'
  simp only [pageSize] at to_end to_end'
  rw [SamePage]
  omega

theorem Within.of_samePage (within : k.Within u b) (same : SamePage a b) : k.Within u a := by
  have page := k.base_page u
  obtain ⟨from_base, to_end⟩ := within
  rw [SamePage] at same
  simp only [Within, pageSize] at to_end ⊢
  omega

theorem Within.currentT (within : k.Within u a) : currentT a = k.word u 0 := by
  have page := k.base_page u
  obtain ⟨from_base, to_end⟩ := within
  simp only [pageSize] at to_end
  refine BitVec.eq_of_toNat_eq ?_
  rw [toNat_currentT, toNat_word (Nat.zero_le _)]
  omega

theorem Owns.within (owns : k.Owns u a) : k.Within u a := by
  simp only [Owns, Within, pageSize, registerEspWord, threadStructWords] at *
  omega

theorem not_within (different : u ≠ v) (within : k.Within u a) : ¬k.Within v a := by
  have apart := k.base_apart different
  simp only [Within, pageSize] at *
  omega

end Unions

variable {k : Unions} {u v : ThreadSlot} {m m' m₁ : Machine} {mem mem' : X86.Memory}
  {words : List Word} {back new saveSp newSp : Word}

/-! ## The code of `task_switch` -/

/-- `task_switch` up to the first instruction of `inner_task_switch`. -/
def taskSwitchCall (taskBack : Word) (m : Machine) : Machine :=
  (Machine.run [.push (.reg .ebp), .mov (.reg .esp) .ebp, .push (.reg .esi), .push (.reg .edi),
    .push (.reg .ebx), .push (.mem (.base 8 .ebp))] m).push taskBack

/-- `task_switch` from the return of `inner_task_switch` on. -/
def taskSwitchRet (m : Machine) : Machine :=
  (Machine.run (Machine.pops [.ebx, .edi, .esi, .ebp]) (m.set .esp (m.reg .esp + 4))).ret

/-- `task_switch` writes to its own frame only. -/
theorem mem_taskSwitchCall (taskBack : Word) {a : Word} (room : 24 ≤ (m.reg .esp).toNat)
    (apart : a.toNat + 24 < (m.reg .esp).toNat ∨ (m.reg .esp).toNat ≤ a.toNat) :
    (taskSwitchCall taskBack m).mem a = m.mem a := by
  have grows : ∀ instr ∈ [.push (.reg .ebp), .mov (.reg .esp) .ebp, .push (.reg .esi),
      .push (.reg .edi), .push (.reg .ebx), .push (.mem (.base 8 .ebp)), .push (.imm taskBack)],
      Instr.Grows instr := by
    simp [Instr.Grows]
  exact Machine.mem_run_of_grows grows room apart

theorem taskSwitchCall_spec (taskBack : Word) (stack : m.Stack [back, new])
    (room : 24 ≤ (m.reg .esp).toNat) :
    (taskSwitchCall taskBack m).Stack
        [taskBack, new, m.reg .ebx, m.reg .edi, m.reg .esi, m.reg .ebp, back, new] ∧
      ((taskSwitchCall taskBack m).reg .esp).toNat + 24 = (m.reg .esp).toNat := by
  set m₁ := (m.push (m.reg .ebp)).set .ebp ((m.push (m.reg .ebp)).reg .esp) with m₁_eq
  have regs₁ : ∀ r, r ≠ .esp → r ≠ .ebp → m₁.reg r = m.reg r := fun r other other' =>
    (Machine.reg_set_other other').trans (Machine.reg_push other)
  have sp₁ : m₁.reg .esp = (m.push (m.reg .ebp)).reg .esp := Machine.reg_set_other (by decide)
  have bp₁ : m₁.reg .ebp = m₁.reg .esp := Machine.reg_set_same.trans sp₁.symm
  have esp₁ : (m₁.reg .esp).toNat = (m.reg .esp).toNat - 4 := by
    rw [sp₁]
    exact Machine.toNat_esp_push (by omega)
  have stack₁ : m₁.Stack [m.reg .ebp, back, new] := by
    rw [Machine.Stack, sp₁]
    exact stack.push (by omega) _
  set m₂ := m₁.push (m₁.reg .esi)
  set m₃ := m₂.push (m₂.reg .edi)
  set m₄ := m₃.push (m₃.reg .ebx)
  have esp₂ : (m₂.reg .esp).toNat = (m₁.reg .esp).toNat - 4 := Machine.toNat_esp_push (by omega)
  have esp₃ : (m₃.reg .esp).toNat = (m₂.reg .esp).toNat - 4 := Machine.toNat_esp_push (by omega)
  have esp₄ : (m₄.reg .esp).toNat = (m₃.reg .esp).toNat - 4 := Machine.toNat_esp_push (by omega)
  have regs₄ : ∀ r, r ≠ .esp → m₄.reg r = m₁.reg r := fun r other =>
    (Machine.reg_push other).trans ((Machine.reg_push other).trans (Machine.reg_push other))
  have esi : m₁.reg .esi = m.reg .esi := regs₁ .esi (by decide) (by decide)
  have edi : m₂.reg .edi = m.reg .edi :=
    (Machine.reg_push (by decide)).trans (regs₁ .edi (by decide) (by decide))
  have ebx : m₃.reg .ebx = m.reg .ebx := (Machine.reg_push (by decide)).trans
    ((Machine.reg_push (by decide)).trans (regs₁ .ebx (by decide) (by decide)))
  have stack₂ : m₂.Stack _ := stack₁.push (by omega) (m₁.reg .esi)
  have stack₃ : m₃.Stack _ := Machine.Stack.push stack₂ (by omega) (m₂.reg .edi)
  have stack₄ : m₄.Stack _ := Machine.Stack.push stack₃ (by omega) (m₃.reg .ebx)
  -- `8(%ebp)` is the argument of `task_switch`
  have frame₂ : Holds m₂.mem (m₁.reg .esp) [m.reg .ebp, back, new] :=
    Holds.push stack₁ (by omega) (Nat.le_refl _) _
  have frame₃ : Holds m₃.mem (m₁.reg .esp) [m.reg .ebp, back, new] :=
    frame₂.push (by omega) (by omega) _
  have frame : Holds m₄.mem (m₄.reg .ebp) [m.reg .ebp, back, new] := by
    rw [regs₄ .ebp (by decide), bp₁]
    exact frame₃.push (by omega) (by omega) _
  have argument : m₄.operand (.mem (.base 8 .ebp)) = new := frame.operand (i := 2) (by simp)
  set m₅ := m₄.push (m₄.operand (.mem (.base 8 .ebp)))
  have esp₅ : (m₅.reg .esp).toNat = (m₄.reg .esp).toNat - 4 := Machine.toNat_esp_push (by omega)
  have stack₅ : m₅.Stack _ :=
    Machine.Stack.push stack₄ (by omega) (m₄.operand (.mem (.base 8 .ebp)))
  rw [argument, ebx, edi, esi] at stack₅
  refine ⟨stack₅.push (by omega) taskBack, ?_⟩
  have esp₆ : ((m₅.push taskBack).reg .esp).toNat = (m₅.reg .esp).toNat - 4 :=
    Machine.toNat_esp_push (by omega)
  show ((m₅.push taskBack).reg .esp).toNat + 24 = _
  omega

/-- `task_switch` gives back the registers that it saved, and returns. -/
theorem taskSwitchRet_spec {argument ebx edi esi ebp : Word}
    (stack : m.Stack [argument, ebx, edi, esi, ebp, back]) :
    (taskSwitchRet m).eip = back ∧ (taskSwitchRet m).reg .ebx = ebx ∧
      (taskSwitchRet m).reg .edi = edi ∧ (taskSwitchRet m).reg .esi = esi ∧
      (taskSwitchRet m).reg .ebp = ebp ∧ (taskSwitchRet m).mem = m.mem := by
  have stack₁ : (m.set .esp (m.reg .esp + 4)).Stack ([ebx, edi, esi, ebp] ++ [back]) := by
    rw [Machine.Stack, Machine.reg_set_same]
    exact stack.tail
  obtain ⟨popped, mem, regs, _⟩ :=
    Machine.run_pops [.ebx, .edi, .esi, .ebp] (by decide) (by decide) stack₁ rfl
  rw [taskSwitchRet]
  generalize Machine.run (Machine.pops [.ebx, .edi, .esi, .ebp]) (m.set .esp (m.reg .esp + 4)) = m₁
    at popped mem regs ⊢
  simp only [List.map_cons, List.map_nil, List.cons.injEq] at regs
  obtain ⟨ebx, edi, esi, ebp, _⟩ := regs
  exact ⟨popped.ret.1, (Machine.reg_ret (by decide)).trans ebx,
    (Machine.reg_ret (by decide)).trans edi, (Machine.reg_ret (by decide)).trans esi,
    (Machine.reg_ret (by decide)).trans ebp, mem⟩

theorem esp_taskSwitchRet (m : Machine) : (taskSwitchRet m).reg .esp = m.reg .esp + 24 := by
  rw [taskSwitchRet, Machine.esp_ret]
  simp [Machine.pops, Machine.exec, Machine.esp_pop, BitVec.add_assoc]

theorem mem_switchStack (arguments : m.Stack [back, saveSp, newSp]) :
    (switchStack m).mem = store m.mem saveSp (m.reg .ebp) := by
  have save : m.operand (.mem (.base 4 .esp)) = saveSp := Holds.operand (i := 1) arguments (by simp)
  rw [← save]
  simp [switchStack, Machine.exec, Machine.ret, Machine.address]

/-! ## Between two calls of `task_switch` -/

/-- `inner_task_switch` was entered in `m` and calls `switch_stack` in `m'`.  It has a frame, for
which there is room, and writes to the stack below its own return address, to `tss.esp0` and, as it
changes the directory, to the pages of the user. -/
structure InnerTaskSwitch (k : Unions) (m m' : Machine) : Prop where
  ebp : m'.reg .ebp = m.reg .esp - 4
  frame : load m'.mem (m.reg .esp - 4) = m.reg .ebp
  arguments : ∃ back retValue : Word, SamePage retValue (m.reg .esp) ∧
    m'.Stack [back, currentT retValue + 12, load m.mem (load m.mem (m.reg .esp + 4) + 12)]
  below : (m'.reg .esp).toNat + 16 ≤ (m.reg .esp).toNat
  page : SamePage (m'.reg .esp) (m.reg .esp)
  room : 4 * threadStructWords ≤ (m'.reg .esp).toNat % pageSize
  esp0 : load m'.mem k.esp0 = load m.mem (m.reg .esp + 4) + 4096
  mem : ∀ a : Word, a.toNat < pageSize * pagLogInitCode →
    a.toNat < k.esp0.toNat ∨ k.esp0.toNat + 4 ≤ a.toNat →
    ¬(a.toNat < (m.reg .esp).toNat ∧ SamePage a (m.reg .esp)) → m'.mem a = m.mem a

/-- The thread called `task_switch` in `m` and another one runs: its `register_esp` points to the
frame of `inner_task_switch`, above which its stack is as it was. -/
structure SwitchedAway (k : Unions) (u : ThreadSlot) (m : Machine) (mem : X86.Memory) : Prop where
  saved : load mem (k.word u registerEspWord) = m.reg .esp - 28
  frame : ∃ bp argument, Holds mem (m.reg .esp - 28) [bp, k.taskBack, argument, m.reg .ebx,
    m.reg .edi, m.reg .esi, m.reg .ebp, load m.mem (m.reg .esp)]
  room : k.base u + 4 * threadStructWords + 28 ≤ (m.reg .esp).toNat
  inside : (m.reg .esp).toNat + 8 ≤ k.base u + pageSize
  above : ∀ a : Word, (m.reg .esp).toNat ≤ a.toNat → k.Within u a → mem a = m.mem a

/-- Nothing else than the bytes that belong to the thread matters. -/
theorem SwitchedAway.keeps (away : SwitchedAway k u m mem) (keeps : k.Keeps u mem mem') :
    SwitchedAway k u m mem' := by
  have page := k.base_page u
  have slot : (k.word u registerEspWord).toNat = k.base u + 12 := Unions.toNat_word (by decide)
  have room := away.room
  have inside := away.inside
  obtain ⟨bp, argument, frame⟩ := away.frame
  simp only [threadStructWords, pageSize] at room inside
  have down : (m.reg .esp - 28).toNat = (m.reg .esp).toNat - 28 :=
    Machine.toNat_down (k := 7) (by omega)
  refine ⟨?_, ⟨bp, argument, frame.congr fun a from_esp to_end => keeps a (.inr ?_)⟩, away.room,
    away.inside, fun a from_esp within => (keeps a (.inr ?_)).trans (away.above a from_esp within)⟩
  · rw [← away.saved]
    refine load_congr (by omega) fun a from_slot to_end => keeps a (.inl ?_)
    simp only [registerEspWord]
    omega
  · simp only [List.length_cons, List.length_nil, threadStructWords, pageSize] at *
    omega
  · simp only [Unions.Within, threadStructWords, pageSize] at *
    omega

/-- The thread `u` calls `task_switch` for `v`, with room for the frames on its stack. -/
structure CallsTaskSwitch (k : Unions) (u v : ThreadSlot) (m : Machine) : Prop where
  stack : ∃ back, m.Stack [back, k.word v 0]
  other : u ≠ v
  room : k.base u + 4 * threadStructWords + 64 ≤ (m.reg .esp).toNat
  inside : (m.reg .esp).toNat + 8 ≤ k.base u + pageSize

namespace CallsTaskSwitch

/-- `inner_task_switch` is called on the same stack, with the same argument. -/
theorem enters (calls : CallsTaskSwitch k u v m) :
    (taskSwitchCall k.taskBack m).Stack [k.taskBack, k.word v 0, m.reg .ebx, m.reg .edi,
        m.reg .esi, m.reg .ebp, load m.mem (m.reg .esp), k.word v 0] ∧
      ((taskSwitchCall k.taskBack m).reg .esp).toNat + 24 = (m.reg .esp).toNat ∧
      k.Within u ((taskSwitchCall k.taskBack m).reg .esp) ∧
      ∀ a : Word, (m.reg .esp).toNat ≤ a.toNat ∨ ¬k.Within u a →
        (taskSwitchCall k.taskBack m).mem a = m.mem a := by
  obtain ⟨back, stack⟩ := calls.stack
  have room := calls.room
  have inside := calls.inside
  have entered := taskSwitchCall_spec k.taskBack stack (by omega)
  rw [← stack.head] at entered
  refine ⟨entered.1, entered.2, ?_, fun a apart => ?_⟩
  · have esp := entered.2
    simp only [Unions.Within, threadStructWords, pageSize] at *
    omega
  · refine mem_taskSwitchCall _ (by omega) ?_
    simp only [Unions.Within, threadStructWords, pageSize] at *
    omega

/-- `switch_stack` gets the address of the running thread's `register_esp` and the value of the new
thread's. -/
theorem arguments (calls : CallsTaskSwitch k u v m)
    (inner : InnerTaskSwitch k (taskSwitchCall k.taskBack m) m') :
    ∃ back, m'.Stack [back, k.word u registerEspWord, load m.mem (k.word v registerEspWord)] := by
  obtain ⟨stack, esp, within, mem⟩ := calls.enters
  obtain ⟨back, retValue, same, arguments⟩ := inner.arguments
  have here : k.Within u retValue := within.of_samePage same
  have words : ∀ w : ThreadSlot, k.word w 0 + 12 = k.word w registerEspWord := fun w =>
    unionWord_add k.threadTasks w 0 3
  have slot : (k.word v registerEspWord).toNat = k.base v + 12 := Unions.toNat_word (by decide)
  have page := k.base_page v
  rw [here.currentT, stack.tail.head, words, words] at arguments
  refine ⟨back, ?_⟩
  rw [← load_congr (by omega) fun a above below => mem a (.inr
    (Unions.not_within calls.other.symm ?_))]
  · exact arguments
  · simp only [Unions.Within, pageSize]
    omega

/-- The thread waits where it called `task_switch`. -/
theorem away (calls : CallsTaskSwitch k u v m)
    (inner : InnerTaskSwitch k (taskSwitchCall k.taskBack m) m') :
    SwitchedAway k u m (switchStack m').mem := by
  obtain ⟨stack, esp, within, mem⟩ := calls.enters
  obtain ⟨_, arguments⟩ := calls.arguments inner
  have room := calls.room
  have inside := calls.inside
  have page := k.base_page u
  have esp0 := k.esp0_apart u
  have slot : (k.word u registerEspWord).toNat = k.base u + 12 := Unions.toNat_word (by decide)
  have frame_esp : (taskSwitchCall k.taskBack m).reg .esp - 4 = m.reg .esp - 28 := by
    bv_omega
  have next : m.reg .esp - 28 + 4 = (taskSwitchCall k.taskBack m).reg .esp := by
    bv_omega
  have down : (m.reg .esp - 28).toNat = (m.reg .esp).toNat - 28 :=
    Machine.toNat_down (k := 7) (by omega)
  simp only [threadStructWords, pageSize] at room inside
  have stored : ∀ a : Word, k.base u + 16 ≤ a.toNat → k.Within u a →
      (switchStack m').mem a = m'.mem a := fun a above _ => by
    rw [mem_switchStack arguments]
    exact store_other (by omega) (.inr (by omega))
  have kept : ∀ a : Word, ((taskSwitchCall k.taskBack m).reg .esp).toNat ≤ a.toNat →
      k.Within u a → (switchStack m').mem a = (taskSwitchCall k.taskBack m).mem a := by
    intro a above inside'
    rw [stored a (by omega) inside']
    simp only [Unions.Within, pageSize] at inside'
    exact inner.mem a (by simp only [pageSize, pagLogInitCode]; omega) (by omega) (by omega)
  have loaded : load (switchStack m').mem (m.reg .esp - 28) =
      (taskSwitchCall k.taskBack m).reg .ebp := by
    rw [← inner.frame, frame_esp]
    refine load_congr (by omega) fun a above below => stored a (by omega) ?_
    simp only [Unions.Within, pageSize]
    omega
  have rest : Holds (switchStack m').mem (m.reg .esp - 28 + 4) [k.taskBack, k.word v 0,
      m.reg .ebx, m.reg .edi, m.reg .esi, m.reg .ebp, load m.mem (m.reg .esp)] := by
    have frame : (taskSwitchCall k.taskBack m).Stack ([k.taskBack, k.word v 0, m.reg .ebx,
        m.reg .edi, m.reg .esi, m.reg .ebp, load m.mem (m.reg .esp)] ++ [k.word v 0]) := stack
    rw [next]
    refine (Holds.append_left frame).congr fun a above below => ?_
    simp only [List.length_cons, List.length_nil] at below
    refine kept a above ?_
    simp only [Unions.Within, pageSize]
    omega
  constructor
  · rw [mem_switchStack arguments, load_store_same, inner.ebp, frame_esp]
  · refine ⟨_, k.word v 0, .cons loaded rest ?_⟩
    simp only [List.length_cons, List.length_nil]
    omega
  · simp only [threadStructWords]
    omega
  · simp only [pageSize]
    omega
  · exact fun a above inside' => (kept a (by omega) inside').trans (mem a (.inl above))

/-- The switch writes to the `thread_union` of the running thread only. -/
theorem others {w : ThreadSlot} {a : Word} (calls : CallsTaskSwitch k u v m)
    (inner : InnerTaskSwitch k (taskSwitchCall k.taskBack m) m') (different : w ≠ u)
    (inside : k.Within w a) : m'.mem a = m.mem a ∧ (switchStack m').mem a = m.mem a := by
  obtain ⟨_, _, within, mem⟩ := calls.enters
  obtain ⟨_, arguments⟩ := calls.arguments inner
  have slot : (k.word u registerEspWord).toNat = k.base u + 12 := Unions.toNat_word (by decide)
  have page := k.base_page u
  have page' := k.base_page w
  have apart := k.base_apart different
  have esp0 := k.esp0_apart w
  have outside := Unions.not_within different inside
  have kept : m'.mem a = m.mem a := by
    rw [← mem a (.inr outside)]
    obtain ⟨from_base, to_end⟩ := inside
    simp only [pageSize] at to_end
    refine inner.mem a (by simp only [pageSize, pagLogInitCode]; omega) (by omega) ?_
    exact fun below => outside (within.of_samePage below.2)
  refine ⟨kept, ?_⟩
  obtain ⟨from_base, to_end⟩ := inside
  simp only [pageSize] at to_end
  rw [mem_switchStack arguments, ← kept]
  exact store_other (by omega) (by omega)

/-- The processor will enter the kernel on the stack of the new thread. -/
theorem esp0 (calls : CallsTaskSwitch k u v m)
    (inner : InnerTaskSwitch k (taskSwitchCall k.taskBack m) m') :
    load (switchStack m').mem k.esp0 = k.word v kernelStackSize := by
  obtain ⟨stack, _, _, _⟩ := calls.enters
  obtain ⟨_, arguments⟩ := calls.arguments inner
  have slot : (k.word u registerEspWord).toNat = k.base u + 12 := Unions.toNat_word (by decide)
  have page := k.base_page u
  have apart := k.esp0_apart u
  have system := k.esp0_system
  simp only [pageSize, pagLogInitCode] at system
  have top : k.word v 0 + 4096 = k.word v kernelStackSize :=
    unionWord_add k.threadTasks v 0 kernelStackSize
  rw [← top, ← stack.tail.head, ← inner.esp0, mem_switchStack arguments]
  exact load_congr (by omega) fun a above below => store_other (by omega) (by omega)

/-- The new thread comes back from its own call of `task_switch`. -/
theorem comesBack {m₀ : Machine} (calls : CallsTaskSwitch k u v m)
    (inner : InnerTaskSwitch k (taskSwitchCall k.taskBack m) m')
    (away : SwitchedAway k v m₀ m.mem) :
    (switchStack m').eip = k.taskBack ∧ Returned 1 m₀ (taskSwitchRet (switchStack m')) ∧
      (taskSwitchRet (switchStack m')).mem = (switchStack m').mem := by
  obtain ⟨_, arguments⟩ := calls.arguments inner
  obtain ⟨bp, argument, frame⟩ := away.frame
  have page := k.base_page u
  have page' := k.base_page v
  have apart := k.base_apart calls.other
  have room := away.room
  have inside := away.inside
  have slot : (k.word u registerEspWord).toNat = k.base u + 12 := Unions.toNat_word (by decide)
  have down : (m₀.reg .esp - 28).toNat = (m₀.reg .esp).toNat - 28 :=
    Machine.toNat_down (k := 7) (by omega)
  simp only [threadStructWords, pageSize] at room inside
  have within : k.Within v (m₀.reg .esp) := by
    simp only [Unions.Within, pageSize]
    omega
  have frame' : Holds m'.mem (m₀.reg .esp - 28) _ := frame.congr fun a above below => by
    simp only [List.length_cons, List.length_nil] at below
    refine (calls.others inner calls.other.symm ?_).1
    simp only [Unions.Within, pageSize]
    omega
  rw [away.saved] at arguments
  have above_struct : k.base u + 16 ≤ (m'.reg .esp).toNat := by
    obtain ⟨_, _, entered, _⟩ := calls.enters
    have here := entered.of_samePage inner.page
    have free := inner.room
    simp only [Unions.Within, threadStructWords, pageSize] at here free
    omega
  obtain ⟨_, eip, stack, esp⟩ := switchStack_spec arguments frame' (by omega) (by omega) (by
    simp only [List.length_cons, List.length_nil]
    omega)
  obtain ⟨back, ebx, edi, esi, ebp, mem⟩ := taskSwitchRet_spec stack
  refine ⟨eip, ⟨back, ?_, ebx, esi, edi, ebp, fun a above same => ?_⟩, mem⟩
  · rw [esp_taskSwitchRet, esp]
    bv_omega
  · have inside' := within.of_samePage same
    rw [mem, (calls.others inner calls.other.symm inside').2]
    exact away.above a (by omega) inside'

end CallsTaskSwitch

/-- The frame of `inner_task_switch`, and `tss.esp0`. -/
def innerFrame (k : Unions) (m : Machine) : Machine :=
  let framed := (m.push (m.reg .ebp)).set .ebp (m.reg .esp - 4)
  { framed with mem := store framed.mem k.esp0 (load m.mem (m.reg .esp + 4) + 4096) }

/-- `inner_task_switch` in the plainest code, with the local variable of `current_t` right below its
frame. -/
def innerTaskSwitch (k : Unions) (m : Machine) : Machine :=
  Machine.run (pushValues [load m.mem (load m.mem (m.reg .esp + 4) + 12),
    currentT (m.reg .esp - 8) + 12, 0]) (innerFrame k m)

theorem innerTaskSwitch_spec (within : k.Within u (m.reg .esp))
    (room : k.base u + 4 * threadStructWords + 16 ≤ (m.reg .esp).toNat) :
    InnerTaskSwitch k m (innerTaskSwitch k m) := by
  have page := k.base_page u
  have apart := k.esp0_apart u
  have system := k.esp0_system
  simp only [Unions.Within, threadStructWords, pageSize, pagLogInitCode] at within room system
  have down : (m.reg .esp - 4).toNat = (m.reg .esp).toNat - 4 :=
    Machine.toNat_down (k := 1) (by omega)
  have down' : (m.reg .esp - 8).toNat = (m.reg .esp).toNat - 8 :=
    Machine.toNat_down (k := 2) (by omega)
  have sp : (innerFrame k m).reg .esp = m.reg .esp - 4 := by simp [innerFrame]
  have bp : (innerFrame k m).reg .ebp = m.reg .esp - 4 := by simp [innerFrame]
  have framed : ∀ a : Word, (a.toNat + 4 < (m.reg .esp).toNat ∨ (m.reg .esp).toNat ≤ a.toNat) →
      (a.toNat < k.esp0.toNat ∨ k.esp0.toNat + 4 ≤ a.toNat) →
      (innerFrame k m).mem a = m.mem a := by
    intro a outside other
    show store (m.push (m.reg .ebp)).mem _ _ a = _
    rw [store_other (by omega) other]
    exact Machine.mem_push_other (by omega) outside
  have saved : load (innerFrame k m).mem (m.reg .esp - 4) = m.reg .ebp := by
    have stored : load (m.push (m.reg .ebp)).mem (m.reg .esp - 4) = m.reg .ebp := load_store_same
    rw [← stored]
    exact load_congr (by omega) fun a above below => store_other (by omega) (by omega)
  have task : load (innerFrame k m).mem k.esp0 = load m.mem (m.reg .esp + 4) + 4096 :=
    load_store_same
  -- the three words of the call of `switch_stack`
  have pushed : Machine.Pushed (innerFrame k m) (innerTaskSwitch k m) _ :=
    (Machine.Pushed.refl (innerFrame k m)).values (by
      rw [sp]
      simp only [List.length_cons, List.length_nil]
      omega)
  have esp := pushed.esp
  have outside : ∀ a : Word, a.toNat + 16 < (m.reg .esp).toNat ∨
      (m.reg .esp).toNat ≤ a.toNat + 4 → (innerTaskSwitch k m).mem a = (innerFrame k m).mem a := by
    intro a apart
    refine Machine.mem_run_of_grows (grows_pushValues _) ?_ ?_
    all_goals
      rw [countP_pushValues, sp]
      simp only [List.length_cons, List.length_nil]
      omega
  rw [sp, down] at esp
  simp only [List.length_append, List.length_reverse, List.length_cons, List.length_nil] at esp
  constructor
  · rw [pushed.regs .ebp (by decide), bp]
  · rw [← saved]
    exact load_congr (by omega) fun a above below => outside a (by omega)
  · refine ⟨0, m.reg .esp - 8, ?_, pushed.stack⟩
    rw [SamePage]
    omega
  · omega
  · rw [SamePage]
    omega
  · simp only [threadStructWords, pageSize]
    omega
  · rw [← task]
    exact load_congr (by omega) fun a above below => outside a (by omega)
  · intro a _ other unframed
    rw [SamePage] at unframed
    rw [outside a (by omega), framed a (by omega) other]

end Zeos.Asm
