import Zeos.KernelImage
import Zeos.SwitchStack

/-!
# Two returns from `fork`

The parent returns from `sys_fork`, the child from `ret_from_fork`, both to `system_call_handler`
and from there to the user.
-/

namespace Zeos

open X86 GuardedRun Kernel

/-- The end of `sys_fork` in the parent: the frame and what is above it are as they were when the
stack was copied, and `eax` has the result. -/
structure LeavesFork (stack : Nat → Word) (value : Int) (m : Machine) : Prop where
  frame : Holds m.mem (m.reg .ebp)
    ((List.range' syscallFrame (kernelStackSize - syscallFrame)).map stack)
  eax : m.reg .eax = BitVec.ofInt 32 value

/-- The child, from the call of `switch_stack` on, pops the frame pointer of `sys_fork`, returns to
`ret_from_fork` and from there to where the parent returns; the user finds the same registers in
both but for `eax`. -/
structure ReturnsTwice (layout : Layout) (stack : Nat → Word) (pid : Word)
    (child parent : Machine) : Prop where
  ebp : (Asm.switchStack child).reg .ebp = stack syscallFrame
  eip : (Asm.switchStack child).eip = layout.retFromFork
  childBack : (Asm.retFromFork (Asm.switchStack child)).eip = stack (syscallFrame + 1)
  parentBack : (Asm.leave parent).eip = stack (syscallFrame + 1)
  userEip : (Asm.sysenterFin (Asm.retFromFork (Asm.switchStack child))).eip =
    (Asm.sysenterFin (Asm.leave parent)).eip
  userRegs : ∀ r, r ≠ .eax → r ≠ .eflags →
    (Asm.sysenterFin (Asm.retFromFork (Asm.switchStack child))).reg r =
      (Asm.sysenterFin (Asm.leave parent)).reg r
  childEax : (Asm.sysenterFin (Asm.retFromFork (Asm.switchStack child))).reg .eax = 0
  parentEax : (Asm.sysenterFin (Asm.leave parent)).reg .eax = pid

namespace Image

variable {image : Image} {guard : Kernel → Action → Prop} {u : ThreadSlot} {s s₀ : Kernel}

/-- The address of `thread_tasks`. -/
def threadTasksBase (image : Image) : Word := BitVec.ofNat 32 (pageSize * image.threadTasks)

/-- The first switch to a thread after the state `s` calls `switch_stack` in the state `s₀`.  The
steps up to there, and that of the switch, meet the guard. -/
def FirstSwitch (image : Image) (guard : Kernel → Action → Prop) (u : ThreadSlot)
    (s s₀ : Kernel) : Prop :=
  ∃ before action after result,
    Reaches image.step (fun state action => state.Suspended u ∧ guard state action) s before ∧
    before.Suspended u ∧ guard before action ∧
    before.upToSwitch image.layout action = .ok (.inr (s₀, .slot u)) ∧
    image.perform before action = .ok (after, result)

theorem FirstSwitch.spared (switches : image.FirstSwitch (Sparing guard) u s s₀) :
    s.FirstSwitch image.layout u s₀ := by
  obtain ⟨before, action, after, result, reaches, suspended, spares, reached, performed⟩ := switches
  rw [image.perform_eq spares.2] at performed
  exact ⟨before, action, after, result, reaches.congr fun admitted =>
    ⟨(image.step_eq admitted.2.2).symm, admitted.1⟩, suspended, reached, performed⟩

end Image

variable {layout : Layout} {stack : Nat → Word} {threadTasks pid : Word} {s₀ : Kernel}
  {u : ThreadSlot} {m m' child parent : Machine} {words : List Word}

/-- The same words on the kernel's stack lead to the same registers of the user but for `eax`. -/
theorem sameUser (saved : m.Stack ((List.range' (syscallFrame + 2) 16).map stack))
    (saved' : m'.Stack ((List.range' (syscallFrame + 2) 16).map stack)) :
    (Asm.sysenterFin m').eip = (Asm.sysenterFin m).eip ∧
      (∀ r, r ≠ .eax → r ≠ .eflags → (Asm.sysenterFin m').reg r = (Asm.sysenterFin m).reg r) ∧
      (Asm.sysenterFin m').reg .eax = m'.reg .eax ∧ (Asm.sysenterFin m).reg .eax = m.reg .eax := by
  obtain ⟨eip, esp, regs⟩ := Asm.sysenterFin_spec saved
  obtain ⟨eip', esp', regs'⟩ := Asm.sysenterFin_spec saved'
  simp only [List.map_cons, List.map_nil, List.cons.injEq] at regs regs'
  refine ⟨eip'.trans eip.symm, fun r notEax notFlags => ?_, regs'.2.2.2.2.2.2.1,
    regs.2.2.2.2.2.2.1⟩
  cases r with
  | eax => exact absurd rfl notEax
  | eflags => exact absurd rfl notFlags
  | esp => exact esp'.trans esp.symm
  | _ => simp only [regs, regs']

theorem childStack_above {index : Nat} (above : syscallFrame < index) :
    layout.childStack stack index = stack index := by
  rw [Layout.childStack, Function.update_of_ne (by omega), Function.update_of_ne (by omega)]

/-- The words of a child's stack that differ from its parent's are in its `thread_union` above the
`thread_struct`. -/
theorem childStack_inside {index : Nat} (written : layout.childStack stack index ≠ stack index) :
    threadStructWords ≤ index ∧ index < kernelStackSize := by
  by_contra outside
  refine written ?_
  rw [Layout.childStack, Function.update_of_ne, Function.update_of_ne]
  · rintro rfl
    exact outside (by decide)
  · rintro rfl
    exact outside (by decide)

/-- Both returns, if `switch_stack` is called for a thread with the stack of a child. -/
theorem CallsSwitchStack.returnsTwice (calls : CallsSwitchStack threadTasks s₀ u child)
    (other : s₀.current ≠ .slot u)
    (saved : (s₀.thread (.slot u)).registerEsp = .on (.slot u) (syscallFrame - 1))
    (copied : s₀.stack (.slot u) = layout.childStack stack)
    (leaves : LeavesFork stack pid.toInt parent) : ReturnsTwice layout stack pid child parent := by
  obtain ⟨ebp, eip, switched, esp⟩ := calls.switch other saved (by decide) (by decide)
  have above : (List.range' (syscallFrame + 1) 17).map (layout.childStack stack) =
      (List.range' (syscallFrame + 1) 17).map stack :=
    List.map_congr_left fun index member => childStack_above (by
      have lower := (List.mem_range'_1.mp member).1
      omega)
  rw [copied] at ebp eip switched
  have switched : (Asm.switchStack child).Stack
    ((List.range' (syscallFrame + 1) 17).map stack) := above ▸ switched
  have inside := calls.inside
  have room : 4 ≤ ((Asm.switchStack child).reg .esp).toNat := by
    rw [esp, toNat_unionWord inside (by decide)]
    omega
  obtain ⟨childBack, childSaved, childEax, _⟩ := Asm.retFromFork_spec switched room
  obtain ⟨parentBack, _, parentSaved, parentEax⟩ := Asm.leave_spec leaves.frame
  obtain ⟨userEip, userRegs, eax, eax'⟩ := sameUser parentSaved childSaved
  refine ⟨ebp.trans ?_, eip.trans ?_, childBack, parentBack, userEip, userRegs,
    eax.trans childEax, ?_⟩
  · exact Function.update_self ..
  · rw [Layout.childStack, Function.update_of_ne (by decide)]
    exact Function.update_self ..
  · rw [eax', parentEax, leaves.eax, BitVec.ofInt_toInt]

/-- In every run that spares the frames of the kernel a successful `fork` returns twice, with the
same registers but for `eax`.  It writes no other kernel stack than that of the new thread, and
there two words in place of those that it has copied. -/
theorem returnsTwice_of_fork (image : Image) (s s₁ : Kernel) (stack : Nat → Word) (result : Result)
    (reachable : image.Reachable (Sparing anyStep) s)
    (performed : image.perform s (.fork stack) = .ok (s₁, result))
    (forked : s₁.globalPID = s.globalPID + 1) :
    ∃ u p, s.firstFree image.layout = some (.slot u) ∧ (s₁.thread (.slot u)).p = .slot p ∧
      result = .returns (s₁.task p).pid.toInt ∧
      (∀ x, x ≠ .slot u → s₁.stack x = (s.enterWith stack).stack x) ∧
      (∀ index, s₁.stack (.slot u) index ≠ stack index →
        threadStructWords ≤ index ∧ index < kernelStackSize) ∧
      (∀ v, unionWord image.threadTasksBase v syscallFrame -
        unionWord image.threadTasksBase v 0 + unionWord image.threadTasksBase u 0 =
          unionWord image.threadTasksBase u syscallFrame) ∧
      ∀ s₀ child parent, image.FirstSwitch (Sparing anyStep) u s₁ s₀ →
        CallsSwitchStack image.threadTasksBase s₀ u child →
        LeavesFork stack (s₁.task p).pid.toInt parent →
        ReturnsTwice image.layout stack (s₁.task p).pid child parent := by
  have performed : s.perform image.layout (.fork stack) = .ok (s₁, result) := performed
  obtain ⟨others, made⟩ := stack_sysFork image.layout (s.enterWith stack) _ performed
  obtain ⟨u, p, first, value, process, pid, saved, copied⟩ := made forked
  have own : (s.enterWith stack).stack (s.enterWith stack).current = stack :=
    Function.update_self ..
  have reachable₁ : Kernel.Reachable image.layout anyStep s₁ :=
    reachable.spared.step (bind_eq_ok.mpr ⟨_, performed, rfl⟩)
  rw [own] at copied
  refine ⟨u, p, first, process, ?_, fun x other => others x fun taken => other ?_,
    fun index written => ?_, fun v => unionWord_moved _ u v syscallFrame,
    fun s₀ child parent switches calls leaves => ?_⟩
  · rw [pid]
    exact value
  · exact (Option.some.inj (first.symm.trans taken)).symm
  · rw [show s₁.stack (.slot u) = _ from copied] at written
    exact childStack_inside written
  · obtain ⟨kept, kept', other⟩ := switches.spared.kept reachable₁
    exact calls.returnsTwice other (kept'.trans saved) (kept.trans copied) leaves

/-- The parent leaves `sys_fork` on a stack whose words are their indices. -/
theorem leavesFork_indices (pid : Word) :
    LeavesFork (fun index => BitVec.ofNat 32 index) pid.toInt
      ⟨fun r => if r = .ebp then 4 * 1006 else pid, 0,
        memoryOf fun index => BitVec.ofNat 32 index⟩ :=
  ⟨holds_memoryOf rfl (by decide), (BitVec.ofInt_toInt ..).symm⟩

/-- The first process forks and exits, and its child runs. -/
theorem returnsTwice_of_fork_exit :
    ∃ s s₁ result s₀ child parent pid, plainImage.Reachable (Sparing anyStep) s ∧
      plainImage.perform s (.fork fun index => BitVec.ofNat 32 index) = .ok (s₁, result) ∧
      plainImage.FirstSwitch (Sparing anyStep) 2 s₁ s₀ ∧
      CallsSwitchStack plainImage.threadTasksBase s₀ 2 child ∧
      LeavesFork (fun index => BitVec.ofNat 32 index) (BitVec.toInt pid) parent ∧
      ReturnsTwice plainLayout (fun index => BitVec.ofNat 32 index) pid child parent := by
  obtain ⟨s, reachable, goal⟩ := spared_of_checkBoot anyStep (fun _ _ => true)
    (fun s => passes (plainImage.perform s (.fork fun index => BitVec.ofNat 32 index)) fun next =>
      decide (next.1.globalPID = s.globalPID + 1) &&
        decide (s.firstFree plainLayout = some (.slot 2)) && next.1.checkFirstSwitch .exit)
    [] (fun _ _ _ => trivial) (by decide +kernel)
  obtain ⟨⟨s₁, result⟩, performed, goal⟩ := passes_eq_true.mp goal
  simp only [Bool.and_eq_true, decide_eq_true_eq] at goal
  obtain ⟨⟨forked, first⟩, switches⟩ := goal
  obtain ⟨s₀, child, after, result', suspended, reached, switched, calls⟩ :=
    exists_of_checkFirstSwitch plainImage.threadTasksBase (by decide) (by decide) switches
  have switch : plainImage.FirstSwitch (Sparing anyStep) 2 s₁ s₀ := ⟨s₁, .exit, after, result',
    Relation.ReflTransGen.refl, suspended, ⟨trivial, trivial⟩, reached, switched⟩
  obtain ⟨u, p, first', _, _, _, _, _, returns⟩ := returnsTwice_of_fork plainImage s s₁ _
    result reachable performed forked
  obtain rfl : u = 2 := ThreadPtr.slot.inj (Option.some.inj (first'.symm.trans first))
  have leaves := leavesFork_indices (s₁.task p).pid
  exact ⟨s, s₁, result, s₀, child, _, _, reachable, performed, switch, calls, leaves,
    returns s₀ child _ switch calls leaves⟩

/-- The first process forks and then creates a thread whose number, two, is stored to the word of
the child's kernel stack that holds `ret_from_fork`: the child goes on at address two. -/
theorem not_returnsTwice_id :
    ¬∀ (image : Image) s s₁ stack result u p s₀ child parent, image.Reachable anyStep s →
      image.perform s (.fork stack) = .ok (s₁, result) → s₁.globalPID = s.globalPID + 1 →
      s.firstFree image.layout = some (.slot u) → (s₁.thread (.slot u)).p = .slot p →
      image.FirstSwitch anyStep u s₁ s₀ → CallsSwitchStack image.threadTasksBase s₀ u child →
      LeavesFork stack (s₁.task p).pid.toInt parent →
      ReturnsTwice image.layout stack (s₁.task p).pid child parent := by
  intro returns
  obtain ⟨s, reachable, goal⟩ := reachable_of_checkImage anyStep (fun _ _ => true)
    (fun s => passes (plainImage.perform s (.fork fun index => BitVec.ofNat 32 index)) fun next =>
      decide (next.1.globalPID = s.globalPID + 1) &&
        decide (s.firstFree plainLayout = some (.slot 2)) &&
        decide ((next.1.thread (.slot 2)).p = .slot 2) && decide (next.1.Suspended 2) &&
        passes (plainImage.step next.1 (.pthreadCreate (fun _ => 0) 0x32fb8 0x100000)) fun before =>
          before.checkFirstSwitch .exit &&
            before.dispatches plainLayout .exit fun s₀ _ =>
              decide ((s₀.thread (.slot 2)).registerEsp = .on (.slot 2) (syscallFrame - 1) ∧
                s₀.current = .slot 1 ∧ s₀.stack (.slot 2) syscallFrame = 2))
    [] (fun _ _ _ => trivial) (by decide +kernel)
  obtain ⟨⟨s₁, result⟩, performed, goal⟩ := passes_eq_true.mp goal
  simp only [Bool.and_eq_true, decide_eq_true_eq] at goal
  obtain ⟨⟨⟨⟨forked, first⟩, process⟩, suspended₁⟩, goal⟩ := goal
  obtain ⟨before, created, goal⟩ := passes_eq_true.mp goal
  obtain ⟨switches, goal⟩ := Bool.and_eq_true_iff.mp goal
  obtain ⟨s₀, child, after, result', suspended, reached, switched, calls⟩ :=
    exists_of_checkFirstSwitch plainImage.threadTasksBase (by decide) (by decide) switches
  obtain ⟨s₀', t, reached', goal⟩ := exists_of_dispatches goal
  obtain ⟨rfl, rfl⟩ : s₀ = s₀' ∧ .slot 2 = t := by simpa using reached.symm.trans reached'
  obtain ⟨saved, current, stored⟩ := of_decide_eq_true goal
  have switch : plainImage.FirstSwitch anyStep 2 s₁ s₀ := ⟨before, .exit, after, result',
    Relation.ReflTransGen.single ⟨_, ⟨suspended₁, trivial⟩, created⟩, suspended, trivial, reached,
    switched⟩
  have returned := returns plainImage s s₁ _ result 2 2 s₀ child _ reachable performed forked first
    process switch calls (leavesFork_indices (s₁.task 2).pid)
  obtain ⟨_, eip, _⟩ := calls.switch (by rw [current]; decide) saved (by decide) (by decide)
  have same := returned.eip.symm.trans (eip.trans stored)
  exact absurd same (by decide)

end Zeos
