import Zeos.Frame
import Zeos.KernelImage
import Zeos.Observation
import Zeos.Resumption

/-!
# Threads that initialise and destroy a mutex

A history of the threads whose `mutex_init` succeeded last.  A `thread_struct` is used for one
thread after the other, and `mutex_destroy` compares no more than the numbers of the threads.
-/

namespace Zeos

open GuardedRun Kernel

/-- A thread that has initialised a mutex: which use of which `thread_struct`, and its number. -/
structure Initialiser where
  thread : ThreadPtr
  life : Nat
  tid : Word
  deriving DecidableEq

/-- How often each `thread_struct` has been taken for a thread, and the last initialiser of each
mutex. -/
structure Initialisations where
  life : ThreadPtr → Nat
  initialiser : MutexId → Option Initialiser

namespace Initialisations

/-- No thread has been made and no mutex initialised. -/
def start : Initialisations := ⟨fun _ => 0, fun _ => none⟩

/-- The running thread, as an initialiser. -/
def caller (history : Initialisations) (s : Kernel) : Initialiser :=
  ⟨s.current, history.life s.current, (s.thread s.current).tid⟩

end Initialisations

/-- `fork` and `pthread_create` begin another use of the first free `thread_struct`, and a
`mutex_init` that returns 0 makes its caller the initialiser. -/
def recordInitialisers (layout : Layout) (history : Initialisations) (s : Kernel) (action : Action)
    (_ : Kernel) (result : Result) : Initialisations where
  life t :=
    if action.Makes ∧ s.firstFree layout = some t then history.life t + 1 else history.life t
  initialiser m :=
    match action with
    | .mutexInit n =>
        if mutexIndex n = some m ∧ result = .returns 0 then some (history.caller s)
        else history.initialiser m
    | _ => history.initialiser m

variable {layout : Layout} {s s' : Kernel} {history : Initialisations} {action : Action}
  {result : Result} {n : Int}

/-- A mutex with an owner has the number of its initialiser. -/
def Numbered (s : Kernel) (history : Initialisations) : Prop :=
  ∀ m, (s.mutexVector m).owner ≠ 0 →
    ∃ i, history.initialiser m = some i ∧ (s.mutexVector m).owner = i.tid

/-- A `mutex_init` that returns 0 leaves its caller's number in the mutex. -/
theorem Kernel.sysMutexInit_owner (s : Kernel) (n : Int) :
    Ensures (fun next => next.2 = .returns 0 → ∀ m, mutexIndex n = some m →
      (next.1.mutexVector m).owner = (s.thread s.current).tid) (s.sysMutexInit n) := by
  unfold sysMutexInit
  split
  · exact .ok fun done => absurd (Result.returns.inj done) (by decide)
  · rename_i m accepted
    split
    · exact .ok fun done => absurd (Result.returns.inj done) (by decide)
    · unfold initListHead
      rw [bind_assoc]
      refine Ensures.skip fun heap => .ok fun _ m' accepted' => ?_
      obtain rfl := Option.some.inj (accepted.symm.trans accepted')
      simp [setMutex]

theorem Numbered.perform (numbered : Numbered s history)
    (performed : s.perform layout action = .ok (s', result)) :
    Numbered s' (recordInitialisers layout history s action s' result) := by
  intro m owned
  cases action with
  | mutexInit n =>
      have caller := s.sysMutexInit_owner n _ performed
      rcases (s.sysMutexInit_cases n _ performed).2 with
        ⟨refused, kept⟩ | ⟨done, m', accepted, _, others⟩
      · dsimp only at refused kept
        rw [kept] at owned ⊢
        simpa [recordInitialisers, refused] using numbered m owned
      · dsimp only at caller done others
        by_cases same : m = m'
        · subst same
          exact ⟨history.caller s, by simp [recordInitialisers, accepted, done],
            caller done m accepted⟩
        · have different : mutexIndex n ≠ some m := fun equal =>
            same (Option.some.inj (equal.symm.trans accepted))
          rw [others m same] at owned ⊢
          simpa [recordInitialisers, different] using numbered m owned
  | mutexDestroy n =>
      rcases sysMutexDestroy_cases layout s n _ performed with
        ⟨_, kept⟩ | ⟨_, m', _, cleared, released, framed, _, _, others⟩
      · dsimp only at kept
        rw [kept] at owned ⊢
        exact numbered m owned
      · dsimp only at cleared others
        have different : m ≠ m' := by
          rintro rfl
          exact owned cleared
        rw [others m different, framed.owner] at owned ⊢
        exact numbered m owned
  | _ =>
      have retained := retained_perform layout s _ id _ performed
      dsimp only at retained
      rw [retained.owner] at owned ⊢
      exact numbered m owned

/-- In every run a mutex with an owner has the number of the thread that initialised it last. -/
theorem Kernel.ReachableWith.numbered {state : Kernel × Initialisations}
    (reachable : ReachableWith layout (recordInitialisers layout) .start (fun _ _ => True) state) :
    Numbered state.1 state.2 := by
  obtain ⟨start, booting, reaches⟩ := reachable
  obtain ⟨heap, boots, _⟩ := boot_eq layout
  obtain rfl : booted layout heap = start := Except.ok.inj (boots.symm.trans booting)
  refine reaches.invariant (fun state => Numbered state.1 state.2) ?_
    fun _ owned => absurd rfl owned
  rintro ⟨s, history⟩ _ action numbered _ stepped
  obtain ⟨s', result, performed, rfl⟩ := recordStep_eq_ok.mp stepped
  exact numbered.perform performed

end Zeos
