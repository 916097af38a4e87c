import Zeos.SwitchStack

/-!
# The first instruction of a created thread

`pthread_create` leaves the start routine and the end of the new stack page in the words that
`system_call_handler` loads for `sysexit`.  The stack pointer is then behind the page, and the
argument is nowhere.
-/

namespace Zeos

open X86 GuardedRun Kernel

/-- User mode after `switch_stack` to a new thread, if this returns to `system_call_handler`. -/
def Asm.userStart (handlerBack : Word) (m : Machine) : Option Machine :=
  if (switchStack m).eip = handlerBack then some (sysenterFin (switchStack m)) else none

/-- A thread starts in its routine, with the stack pointer in its stack page and its argument in a
mapped word at 4(%esp). -/
def StartsThread (handlerBack : Word) (s : Kernel) (page : StackPage) (startRoutine arg : Word)
    (m : Machine) : Prop :=
  ∃ user, Asm.userStart handlerBack m = some user ∧ user.eip = startRoutine ∧
    (user.reg .esp).toNat / pageSize = page.page ∧
    s.mem.loadWord page.process (user.reg .esp + 4) = .ok arg

variable {stack : Nat → Word} {threadTasks handlerBack startRoutine arg : Word} {s₀ : Kernel}
  {page : StackPage} {u : ThreadSlot} {m user : Machine}

/-- The stack pointer is the first address after the stack page. -/
theorem StackPage.logAdress_outside (page : StackPage) :
    page.logAdress.toNat / pageSize ≠ page.page := by
  rw [logAdress, BitVec.toNat_ofNat]
  simp only [pageSize]
  omega

/-- A created thread starts in its routine, with a stack pointer behind its stack page. -/
theorem CallsSwitchStack.userStart (calls : CallsSwitchStack threadTasks s₀ u m)
    (other : s₀.current ≠ .slot u)
    (saved : (s₀.thread (.slot u)).registerEsp = .on (.slot u) syscallFrame)
    (copied : s₀.stack (.slot u) = startStack stack startRoutine page.logAdress)
    (direct : stack (syscallFrame + 1) = handlerBack) :
    ∃ user, Asm.userStart handlerBack m = some user ∧ user.eip = startRoutine ∧
      user.reg .esp = page.logAdress := by
  obtain ⟨_, eip, switched, _⟩ := calls.switch other saved (by decide) (by decide)
  rw [copied] at eip switched
  have back : (Asm.switchStack m).eip = handlerBack := by
    rw [eip, ← direct, startStack, Function.update_of_ne (by decide),
      Function.update_of_ne (by decide), Function.update_of_ne (by decide)]
  obtain ⟨start, esp, _⟩ := Asm.sysenterFin_spec switched
  refine ⟨_, if_pos back, start.trans ?_, esp.trans ?_⟩
  · rw [startStack, Function.update_of_ne (by decide)]
    exact Function.update_self ..
  · exact Function.update_self ..

theorem CallsSwitchStack.not_startsThread (calls : CallsSwitchStack threadTasks s₀ u m)
    (other : s₀.current ≠ .slot u)
    (saved : (s₀.thread (.slot u)).registerEsp = .on (.slot u) syscallFrame)
    (copied : s₀.stack (.slot u) = startStack stack startRoutine page.logAdress)
    (direct : stack (syscallFrame + 1) = handlerBack) :
    ¬StartsThread handlerBack s₀ page startRoutine arg m := by
  rintro ⟨user, started, _, inside, _⟩
  obtain ⟨user', started', _, esp⟩ := calls.userStart other saved copied direct
  obtain rfl : user' = user := Option.some.inj (started'.symm.trans started)
  exact page.logAdress_outside (esp ▸ inside)

/-- What the first switch to a created thread finds. -/
theorem firstSwitch_created {layout : Layout} {s s₁ : Kernel} {id : Word}
    (reachable : Reachable layout anyStep s)
    (performed : s.perform layout (.pthreadCreate stack id startRoutine) = .ok (s₁, .returns 0)) :
    ∃ u page, s.firstFree layout = some (.slot u) ∧ s.newStack = some page ∧
      ∀ s₀, s₁.FirstSwitch layout u s₀ → s₀.current ≠ .slot u ∧
        (s₀.thread (.slot u)).registerEsp = .on (.slot u) syscallFrame ∧
        s₀.stack (.slot u) = startStack stack startRoutine page.logAdress := by
  obtain ⟨_, made⟩ := stack_sysPthreadCreate layout (s.enterWith stack) reachable.ownDirectories id
    startRoutine _ performed
  obtain ⟨u, page, first, search, saved, copied⟩ := made rfl
  have own : (s.enterWith stack).stack (s.enterWith stack).current = stack :=
    Function.update_self ..
  have reachable₁ : Reachable layout anyStep s₁ :=
    reachable.step (bind_eq_ok.mpr ⟨_, performed, rfl⟩)
  rw [own] at copied
  refine ⟨u, page, first, search, fun s₀ switches => ?_⟩
  obtain ⟨kept, kept', other⟩ := switches.kept reachable₁
  exact ⟨other, kept'.trans saved, kept.trans copied⟩

/-- In every run a thread made by `pthread_create` starts in its routine with the stack pointer
behind its stack page, and so not with its argument in its stack page. -/
theorem not_startsThread_of_created (layout : Layout) (threadTasks handlerBack : Word)
    (s s₁ : Kernel) (stack : Nat → Word) (id startRoutine arg : Word)
    (reachable : Reachable layout anyStep s)
    (performed : s.perform layout (.pthreadCreate stack id startRoutine) = .ok (s₁, .returns 0))
    (direct : stack (syscallFrame + 1) = handlerBack) :
    ∃ u page, s.firstFree layout = some (.slot u) ∧ s.newStack = some page ∧
      ∀ s₀ m, s₁.FirstSwitch layout u s₀ → CallsSwitchStack threadTasks s₀ u m →
        (∃ user, Asm.userStart handlerBack m = some user ∧ user.eip = startRoutine ∧
          user.reg .esp = page.logAdress) ∧
        ¬StartsThread handlerBack s₀ page startRoutine arg m := by
  obtain ⟨u, page, first, search, context⟩ := firstSwitch_created reachable performed
  refine ⟨u, page, first, search, fun s₀ m switches calls => ?_⟩
  obtain ⟨other, saved, copied⟩ := context s₀ switches
  exact ⟨calls.userStart other saved copied direct,
    calls.not_startsThread other saved copied direct⟩

/-- The first process creates a thread and yields to it. -/
theorem exists_created : ∃ s s₁ s₀ m, Reachable plainLayout anyStep s ∧
    s.perform plainLayout (.pthreadCreate (fun _ => 0) 0x108000 0x100000) =
      .ok (s₁, .returns 0) ∧
    s.firstFree plainLayout = some (.slot 2) ∧ s₁.FirstSwitch plainLayout 2 s₀ ∧
    CallsSwitchStack 0x20000 s₀ 2 m := by
  obtain ⟨s, s₁, result, reachable, performed, goal⟩ := performed_of_checkBoot anyStep
    (fun _ _ => true) (.pthreadCreate (fun _ => 0) 0x108000 0x100000)
    (fun s s₁ result => decide (result = .returns 0) &&
      decide (s.firstFree plainLayout = some (.slot 2)) && s₁.checkFirstSwitch .yield)
    [] (fun _ _ _ => trivial) (by decide +kernel)
  simp only [Bool.and_eq_true, decide_eq_true_eq] at goal
  obtain ⟨⟨rfl, first⟩, switches⟩ := goal
  obtain ⟨s₀, m, after, result, suspended, reached, switched, calls⟩ :=
    exists_of_checkFirstSwitch 0x20000 (by decide) (by decide) switches
  exact ⟨s, s₁, s₀, m, reachable, performed, first, ⟨s₁, .yield, after, result,
    Relation.ReflTransGen.refl, suspended, reached, switched⟩, calls⟩

theorem not_startsThread_of_created_yield : ∃ s s₁ s₀ m page, Reachable plainLayout anyStep s ∧
    s.perform plainLayout (.pthreadCreate (fun _ => 0) 0x108000 0x100000) =
      .ok (s₁, .returns 0) ∧
    s₁.FirstSwitch plainLayout 2 s₀ ∧ CallsSwitchStack 0x20000 s₀ 2 m ∧
    ¬StartsThread 0 s₀ page 0x100000 7 m := by
  obtain ⟨s, s₁, s₀, m, reachable, performed, first, switches, calls⟩ := exists_created
  obtain ⟨u, page, first', _, starts⟩ := not_startsThread_of_created plainLayout 0x20000 0 s s₁
    (fun _ => 0) 0x108000 0x100000 7 reachable performed rfl
  obtain rfl : u = 2 := ThreadPtr.slot.inj (Option.some.inj (first'.symm.trans first))
  exact ⟨s, s₁, s₀, m, page, reachable, performed, switches, calls, (starts s₀ m switches calls).2⟩

/-- The first process creates a thread with the argument 7. -/
theorem not_forall_startsThread :
    ¬∀ layout threadTasks handlerBack s s₁ stack id startRoutine arg,
      Reachable layout anyStep s →
      s.perform layout (.pthreadCreate stack id startRoutine) = .ok (s₁, .returns 0) →
      stack (syscallFrame + 1) = handlerBack →
      ∃ u page, s.firstFree layout = some (.slot u) ∧ s.newStack = some page ∧
        ∀ s₀ m, s₁.FirstSwitch layout u s₀ → CallsSwitchStack threadTasks s₀ u m →
          StartsThread handlerBack s₀ page startRoutine arg m := by
  intro starts
  obtain ⟨s, s₁, s₀, m, reachable, performed, taken, switches, calls⟩ := exists_created
  obtain ⟨u, page, first, search, started⟩ := starts plainLayout 0x20000 0 s s₁ (fun _ => 0)
    0x108000 0x100000 7 reachable performed rfl
  obtain ⟨u', page', first', search', context⟩ := firstSwitch_created reachable performed
  obtain rfl : u = 2 := ThreadPtr.slot.inj (Option.some.inj (first.symm.trans taken))
  obtain rfl : u' = 2 := ThreadPtr.slot.inj (Option.some.inj (first'.symm.trans taken))
  obtain rfl : page' = page := Option.some.inj (search'.symm.trans search)
  obtain ⟨other, saved, copied⟩ := context s₀ switches
  exact calls.not_startsThread other saved copied rfl (started s₀ m switches calls)

end Zeos
