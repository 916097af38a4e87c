import Zeos.SystemCall

/-!
# How the wrappers report errors

A wrapper that tests the result of its service jumps to `nok` when it is negative; one of the nine
wrappers of services that can fail does not test it.
-/

namespace Zeos

open X86

/-- The wrappers of the system calls that can fail, and their services. -/
def fallible : List (Wrapper × Service) :=
  [(.write, .sysWrite), (.fork, .sysFork), (.pthreadCreate, .sysPthreadCreate),
    (.pthreadJoin, .sysPthreadJoin), (.pthreadExit, .sysPthreadExit), (.mutexInit, .sysMutexInit),
    (.mutexLock, .sysMutexLock), (.mutexUnlock, .sysMutexUnlock),
    (.mutexDestroy, .sysMutexDestroy)]

/-- The variable `errno` is in the user's pages, and not where a wrapper and `syscall_sysenter` push
words. -/
structure ErrnoApart (link : Linkage) (w : Wrapper) (m : Machine) : Prop
    extends Placed link w m where
  errnoUser : pagLogInitCode * 4096 ≤ link.errno.toNat
  unpushed : link.errno.toNat + 32 ≤ (m.reg .esp).toNat ∨ (m.reg .esp).toNat + 4 ≤ link.errno.toNat

/-- The convention of the wrappers, for a call in the state `m` whose service returns in the state
`returned`: the result goes to the caller if it is not negative, else -1, and then `errno` has the
negated result. -/
structure ReportsError (link : Linkage) (m returned m' : Machine) : Prop where
  esp : m'.reg .esp = m.reg .esp + 4
  eip : m'.eip = load m.mem (m.reg .esp)
  ebp : m'.reg .ebp = m.reg .ebp
  success : 0 ≤ (returned.reg .eax).toInt →
    m'.reg .eax = returned.reg .eax ∧ load m'.mem link.errno = load returned.mem link.errno
  failure : (returned.reg .eax).toInt < 0 →
    m'.reg .eax = -1 ∧ load m'.mem link.errno = -returned.reg .eax

variable {m m' returned : Machine} {w : Wrapper} {link : Linkage} {service : Service}

namespace Wrapper

theorem eax_ret_pop : ((m.pop .ebp).ret).reg .eax = m.reg .eax :=
  (Machine.reg_ret (by decide)).trans (Machine.reg_pop (by decide) (by decide))

theorem leave_failure (link : Linkage) (negative : (m.reg .eax).toInt < 0) (checks : w.checks) :
    (w.leave link m).reg .eax = -1 ∧ load (w.leave link m).mem link.errno = -m.reg .eax := by
  rw [leave, if_pos ⟨checks, negative⟩]
  refine ⟨eax_ret_pop.trans Machine.reg_set_same, ?_⟩
  show load (store m.mem link.errno ((m.set .eax (-m.reg .eax)).reg .eax)) link.errno = _
  rw [load_store_same, Machine.reg_set_same]

theorem leave_success (link : Linkage) (passes : ¬(w.checks ∧ (m.reg .eax).toInt < 0)) :
    (w.leave link m).reg .eax = m.reg .eax ∧ (w.leave link m).mem = m.mem := by
  rw [leave, if_neg passes]
  exact ⟨eax_ret_pop, rfl⟩

end Wrapper

/-- Passing the result on and leaving `errno` alone is the convention for a success, and for one
error if `errno` has it already. -/
theorem reportsError_passed (esp : m'.reg .esp = m.reg .esp + 4)
    (eip : m'.eip = load m.mem (m.reg .esp)) (ebp : m'.reg .ebp = m.reg .ebp)
    (eax : m'.reg .eax = returned.reg .eax)
    (errno : load m'.mem link.errno = load returned.mem link.errno) :
    ReportsError link m returned m' ↔ 0 ≤ (returned.reg .eax).toInt ∨
      returned.reg .eax = -1 ∧ load returned.mem link.errno = 1 := by
  constructor
  · intro reports
    by_cases negative : (returned.reg .eax).toInt < 0
    · obtain ⟨minus, negated⟩ := reports.failure negative
      have result : returned.reg .eax = -1 := eax.symm.trans minus
      exact .inr ⟨result, by rw [← errno, negated, result]; rfl⟩
    · exact .inl (Int.not_lt.mp negative)
  · intro holds
    refine ⟨esp, eip, ebp, fun _ => ⟨eax, errno⟩, fun negative => ?_⟩
    rcases holds with success | ⟨result, one⟩
    · exact absurd negative (Int.not_lt.mpr success)
    · rw [eax, errno, result]
      exact ⟨rfl, one⟩

/-- The one wrapper without a test is that of `mutex_destroy`. -/
theorem of_mem_fallible : ∀ entry ∈ fallible,
    entry.1.arguments ≤ 3 ∧ Names entry.1.number entry.2 ∧
      (entry.1.checks = true ↔ entry.2 ≠ .sysMutexDestroy) := by
  decide

/-- The wrappers report every error by the convention, except that the one of `mutex_destroy` passes
the negative result on: it meets the convention if this is what the caller would have got. -/
theorem reportsError_iff (member : (w, service) ∈ fallible) (placed : ErrnoApart link w m) :
    ∃ entered, Receives w m entered ∧ load entered.mem link.errno = load m.mem link.errno ∧
      ∀ services returned, services service entered = some returned →
        KeepsAbi w m entered returned →
        ∃ m', w.call link services m = some m' ∧
          (ReportsError link m returned m' ↔
            service ≠ .sysMutexDestroy ∨ 0 ≤ (returned.reg .eax).toInt ∨
              returned.reg .eax = -1 ∧ load returned.mem link.errno = 1) := by
  obtain ⟨few, names, tests⟩ := of_mem_fallible _ member
  have user : link.kernelStack.toNat ≤ link.errno.toNat := placed.system.trans placed.errnoUser
  have unpushed := placed.unpushed
  obtain ⟨entered, received, outside, _, returning⟩ := call_leave few names placed.toPlaced
  refine ⟨entered, received, load_congr placed.errno fun a low high =>
    outside a (user.trans low) (by omega), fun services returned returns keeps => ?_⟩
  obtain ⟨m₁, called, restored⟩ := returning services returned returns keeps
  refine ⟨_, called, ?_⟩
  have left := restored.leaves
  have errno₁ : load m₁.mem link.errno = load returned.mem link.errno :=
    load_congr placed.errno fun a low _ => restored.mem a (user.trans low)
  have eax₁ := restored.eax
  have esp : (w.leave link m₁).reg .esp = m.reg .esp + 4 := by
    rw [left.esp, restored.esp]
    bv_omega
  by_cases taken : w.checks ∧ (m₁.reg .eax).toInt < 0
  · obtain ⟨eax, errno⟩ := Wrapper.leave_failure link taken.2 taken.1
    rw [eax₁] at errno taken
    refine iff_of_true ⟨esp, left.eip, left.ebp, fun success => ?_, fun _ => ⟨eax, errno⟩⟩
      (.inl (tests.mp taken.1))
    exact absurd taken.2 (Int.not_lt.mpr success)
  · obtain ⟨eax, mem⟩ := Wrapper.leave_success link taken
    rw [eax₁] at eax taken
    rw [← mem] at errno₁
    rw [reportsError_passed esp left.eip left.ebp eax errno₁]
    refine ⟨Or.inr, fun holds => ?_⟩
    rcases holds with other | holds
    · exact .inl (Int.not_lt.mp fun negative => taken ⟨tests.mpr other, negative⟩)
    · exact holds

/-- Services that refuse everything. -/
def refusing (error : Int) : Services := fun _ m => some (m.ret.set .eax (BitVec.ofInt 32 (-error)))

/-- The error of a lock gets to `errno`. -/
theorem reportsError_refused :
    ∃ returned m', returned.reg .eax = BitVec.ofInt 32 (-EINVAL) ∧
      Wrapper.mutexLock.call ⟨0x100010, 0x100020, 0x10000, 0x101000, 0x20000⟩ (refusing EINVAL)
        ⟨fun _ => 0x102000, 0, fun _ => 0⟩ = some m' ∧
      ReportsError ⟨0x100010, 0x100020, 0x10000, 0x101000, 0x20000⟩
        ⟨fun _ => 0x102000, 0, fun _ => 0⟩ returned m' := by
  have placed : ErrnoApart ⟨0x100010, 0x100020, 0x10000, 0x101000, 0x20000⟩ .mutexLock
      ⟨fun _ => 0x102000, 0, fun _ => 0⟩ :=
    ⟨⟨by decide, by decide, by decide, by decide, by decide, by decide⟩, by decide, by decide⟩
  have member : (Wrapper.mutexLock, Service.sysMutexLock) ∈ fallible := by simp [fallible]
  obtain ⟨entered, _, _, returning⟩ := reportsError_iff member placed
  obtain ⟨m', called, reports⟩ :=
    returning (refusing EINVAL) _ rfl ⟨rfl, rfl, fun _ _ _ => rfl, fun _ _ _ => rfl⟩
  exact ⟨_, m', rfl, called, reports.mpr (.inl (by decide))⟩

/-- The error of a `mutex_destroy` gets to its caller instead. -/
theorem not_reportsError :
    ErrnoApart ⟨0x100010, 0x100020, 0x10000, 0x101000, 0x20000⟩ .mutexDestroy
        ⟨fun _ => 0x102000, 0, fun _ => 0⟩ ∧
      (∀ entered returned, refusing EINVAL .sysMutexDestroy entered = some returned →
        KeepsAbi .mutexDestroy ⟨fun _ => 0x102000, 0, fun _ => 0⟩ entered returned ∧
          returned.reg .eax = BitVec.ofInt 32 (-EINVAL)) ∧
      ∃ m', Wrapper.mutexDestroy.call ⟨0x100010, 0x100020, 0x10000, 0x101000, 0x20000⟩
          (refusing EINVAL) ⟨fun _ => 0x102000, 0, fun _ => 0⟩ = some m' ∧
        ∀ returned, returned.reg .eax = BitVec.ofInt 32 (-EINVAL) →
          ¬ReportsError ⟨0x100010, 0x100020, 0x10000, 0x101000, 0x20000⟩
            ⟨fun _ => 0x102000, 0, fun _ => 0⟩ returned m' := by
  refine ⟨⟨⟨by decide, by decide, by decide, by decide, by decide, by decide⟩, by decide,
    by decide⟩, fun entered returned returns => ?_, ?_⟩
  · obtain rfl := Option.some.inj returns
    exact ⟨⟨rfl, rfl, fun _ _ _ => rfl, fun _ _ _ => rfl⟩, rfl⟩
  · have passed : (Wrapper.mutexDestroy.call ⟨0x100010, 0x100020, 0x10000, 0x101000, 0x20000⟩
        (refusing EINVAL) ⟨fun _ => 0x102000, 0, fun _ => 0⟩).map (·.reg .eax) =
        some (BitVec.ofInt 32 (-EINVAL)) := by
      decide +kernel
    obtain ⟨m', called, eax⟩ := Option.map_eq_some_iff.mp passed
    refine ⟨m', called, fun returned result reports => ?_⟩
    have minus := (reports.failure (by rw [result]; decide)).1
    rw [eax] at minus
    exact absurd minus (by decide)

end Zeos
