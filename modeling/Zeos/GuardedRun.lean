import Mathlib.Logic.Relation

/-!
# Runs of a system with faults

A system has a deterministic step function that may fault.  A guard restricts which action may be
taken in which state; the runs that keep to it are the reflexive-transitive closure of the guarded
steps.
-/

namespace GuardedRun

variable {σ α ε : Type}

@[simp]
theorem ok_bind {β γ : Type} (value : β) (next : β → Except ε γ) :
    (Except.ok value >>= next) = next value := rfl

@[simp]
theorem error_bind {β γ : Type} (fault : ε) (next : β → Except ε γ) :
    (Except.error fault >>= next) = Except.error fault := rfl

@[simp]
theorem pure_eq_ok {β : Type} (value : β) : (pure value : Except ε β) = .ok value := rfl

/-- A sequence that succeeds has a first part that succeeds. -/
theorem bind_eq_ok {β γ : Type} {first : Except ε β} {next : β → Except ε γ} {result : γ} :
    (first >>= next) = .ok result ↔ ∃ value, first = .ok value ∧ next value = .ok result := by
  cases first with
  | error fault => simp
  | ok value => simp

/-- Sequences that go on alike after every result of their first part. -/
theorem bind_congr_ok {β γ : Type} {first : Except ε β} {next next' : β → Except ε γ}
    (same : ∀ value, first = .ok value → next value = next' value) :
    (first >>= next) = (first >>= next') := by
  cases first with
  | error fault => rfl
  | ok value => exact same value rfl

/-- Only the given faults can happen. -/
def Raises {β : Type} (allowed : ε → Prop) (result : Except ε β) : Prop :=
  ∀ fault, result = .error fault → allowed fault

namespace Raises

variable {β γ : Type} {allowed : ε → Prop}

theorem ok (value : β) : Raises allowed (Except.ok value : Except ε β) := by
  intro fault equal
  exact absurd equal (by simp)

theorem error {fault : ε} (holds : allowed fault) :
    Raises allowed (Except.error fault : Except ε β) := by
  intro fault' equal
  rw [Except.error.injEq] at equal
  exact equal ▸ holds

theorem bind {first : Except ε β} {next : β → Except ε γ} (raises : Raises allowed first)
    (continued : ∀ value, first = .ok value → Raises allowed (next value)) :
    Raises allowed (first >>= next) := by
  cases first with
  | error fault => exact error (raises fault rfl)
  | ok value => exact continued value rfl

theorem foldlM {next : γ → β → Except ε γ} (each : ∀ state item, Raises allowed (next state item))
    (items : List β) (state : γ) : Raises allowed (items.foldlM next state) := by
  induction items generalizing state with
  | nil => exact ok state
  | cons item items induction =>
      rw [List.foldlM_cons]
      exact (each state item).bind fun value _ => induction value

end Raises

/-- Every result has a property. -/
def Ensures {β : Type} (post : β → Prop) (result : Except ε β) : Prop :=
  ∀ value, result = .ok value → post value

namespace Ensures

variable {β γ : Type} {post : β → Prop} {after : γ → Prop}

theorem ok {value : β} (holds : post value) : Ensures post (Except.ok value : Except ε β) := by
  intro value' equal
  rw [Except.ok.injEq] at equal
  exact equal ▸ holds

theorem error (fault : ε) : Ensures post (Except.error fault) := by
  intro value equal
  exact absurd equal (by simp)

/-- A sequence of steps is verified part by part. -/
theorem bind {first : Except ε β} {next : β → Except ε γ} (ensures : Ensures post first)
    (continued : ∀ value, post value → Ensures after (next value)) :
    Ensures after (first >>= next) := by
  cases first with
  | error fault => exact error fault
  | ok value => exact continued value (ensures value rfl)

/-- A part of which nothing is asked. -/
theorem skip {first : Except ε β} {next : β → Except ε γ}
    (continued : ∀ value, Ensures after (next value)) : Ensures after (first >>= next) := by
  cases first with
  | error fault => exact error fault
  | ok value => exact continued value

theorem mono {weaker : β → Prop} {result : Except ε β} (ensures : Ensures post result)
    (weaken : ∀ value, post value → weaker value) : Ensures weaker result :=
  fun value equal => weaken value (ensures value equal)

theorem foldlM {next : γ → β → Except ε γ} (each : ∀ state item, after state →
    Ensures after (next state item)) (items : List β) {state : γ} (initial : after state) :
    Ensures after (items.foldlM next state) := by
  induction items generalizing state with
  | nil => exact ok initial
  | cons item items induction =>
      rw [List.foldlM_cons]
      exact (each state item initial).bind fun value holds => induction holds

/-- The computation that led to a result is remembered. -/
theorem traced {result : Except ε β} (ensures : Ensures post result) :
    Ensures (fun value => post value ∧ result = .ok value) result :=
  fun value equal => ⟨ensures value equal, equal⟩

end Ensures

/-- Two computations raise the same fault or have related results. -/
def Lockstep {β γ : Type} (related : β → γ → Prop) : Except ε β → Except ε γ → Prop
  | .ok value, .ok value' => related value value'
  | .error fault, .error fault' => fault = fault'
  | _, _ => False

namespace Lockstep

variable {β γ β' γ' : Type} {related : β → γ → Prop} {after : β' → γ' → Prop}
  {first : Except ε β} {first' : Except ε γ}

/-- Sequences of steps are compared part by part. -/
theorem bind {next : β → Except ε β'} {next' : γ → Except ε γ'}
    (lockstep : Lockstep related first first')
    (continued : ∀ value value', related value value' →
      Lockstep after (next value) (next' value')) :
    Lockstep after (first >>= next) (first' >>= next') := by
  cases first with
  | error fault =>
      cases first' with
      | error fault' => exact lockstep
      | ok value' => exact lockstep.elim
  | ok value =>
      cases first' with
      | error fault' => exact lockstep.elim
      | ok value' => exact continued value value' lockstep

/-- A part that is the same in both. -/
theorem same {part : Except ε β} {next : β → Except ε β'} {next' : β → Except ε γ'}
    (continued : ∀ value, Lockstep after (next value) (next' value)) :
    Lockstep after (part >>= next) (part >>= next') := by
  cases part with
  | error fault => exact rfl
  | ok value => exact continued value

/-- What a computation ensures the other one ensures of a related result. -/
theorem ensures {post : γ → Prop} (lockstep : Lockstep related first first')
    (ensured : Ensures post first') :
    Ensures (fun value => ∃ value', related value value' ∧ post value') first := by
  rintro value rfl
  cases first' with
  | error fault => exact lockstep.elim
  | ok value' => exact ⟨value', lockstep, ensured value' rfl⟩

end Lockstep

/-- A step that does not fault and whose action the guard admits. -/
def Step (step : σ → α → Except ε σ) (guard : σ → α → Prop) (before after : σ) : Prop :=
  ∃ action, guard before action ∧ step before action = .ok after

/-- The states at the end of a run all of whose steps meet the guard. -/
def Reaches (step : σ → α → Except ε σ) (guard : σ → α → Prop) : σ → σ → Prop :=
  Relation.ReflTransGen (Step step guard)

namespace Reaches

variable {step : σ → α → Except ε σ} {guard : σ → α → Prop} {start final : σ}

/-- What a guarded step preserves holds at the end of every guarded run. -/
theorem invariant (reach : Reaches step guard start final) (holds : σ → Prop)
    (preserved : ∀ {before after action}, holds before → guard before action →
      step before action = .ok after → holds after) (initial : holds start) : holds final := by
  induction reach with
  | refl => exact initial
  | tail _ taken induction =>
      obtain ⟨action, admitted, result⟩ := taken
      exact preserved induction admitted result

/-- A weaker guard admits more runs. -/
theorem mono {weaker : σ → α → Prop} (weaken : ∀ {state action}, guard state action →
    weaker state action) (reach : Reaches step guard start final) :
    Reaches step weaker start final := by
  induction reach with
  | refl => exact Relation.ReflTransGen.refl
  | tail _ taken induction =>
      obtain ⟨action, admitted, result⟩ := taken
      exact induction.tail ⟨action, weaken admitted, result⟩

/-- Where the guard admits only steps that another system takes as well, a run is one of that
system. -/
theorem congr {step' : σ → α → Except ε σ} {guard' : σ → α → Prop}
    (same : ∀ {state action}, guard state action →
      step' state action = step state action ∧ guard' state action)
    (reach : Reaches step guard start final) : Reaches step' guard' start final := by
  induction reach with
  | refl => exact Relation.ReflTransGen.refl
  | tail _ taken induction =>
      obtain ⟨action, admitted, result⟩ := taken
      obtain ⟨equal, admitted'⟩ := same admitted
      exact induction.tail ⟨action, admitted', equal.trans result⟩

end Reaches

/-- A step of a system together with what a history records of it. -/
def recordStep {γ ρ : Type} (perform : σ → α → Except ε (σ × ρ))
    (record : γ → σ → α → σ → ρ → γ) (state : σ × γ) (action : α) : Except ε (σ × γ) := do
  let next ← perform state.1 action
  return (next.1, record state.2 state.1 action next.1 next.2)

theorem recordStep_congr {γ ρ : Type} {perform perform' : σ → α → Except ε (σ × ρ)}
    {record : γ → σ → α → σ → ρ → γ} {state : σ × γ} {action : α}
    (same : perform' state.1 action = perform state.1 action) :
    recordStep perform' record state action = recordStep perform record state action := by
  rw [recordStep, recordStep, same]

theorem recordStep_eq_ok {γ ρ : Type} {perform : σ → α → Except ε (σ × ρ)}
    {record : γ → σ → α → σ → ρ → γ} {state final : σ × γ} {action : α} :
    recordStep perform record state action = .ok final ↔ ∃ next result,
      perform state.1 action = .ok (next, result) ∧
        final = (next, record state.2 state.1 action next result) := by
  rw [recordStep, bind_eq_ok]
  constructor
  · rintro ⟨⟨next, result⟩, performed, equal⟩
    exact ⟨next, result, performed, (Except.ok.inj equal).symm⟩
  · rintro ⟨next, result, performed, rfl⟩
    exact ⟨_, performed, rfl⟩

/-- A computation succeeds with a value that passes a test. -/
def passes {β : Type} (result : Except ε β) (test : β → Bool) : Bool :=
  match result with
  | .ok value => test value
  | .error _ => false

theorem passes_eq_true {β : Type} {result : Except ε β} {test : β → Bool} :
    passes result test = true ↔ ∃ value, result = .ok value ∧ test value = true := by
  cases result with
  | error fault => simp [passes]
  | ok value => simp [passes]

/-- Take the actions of a list as long as the test allows them, and then test the last state. -/
def checkRun (step : σ → α → Except ε σ) (allowed : σ → α → Bool) (goal : σ → Bool) :
    σ → List α → Bool
  | state, [] => goal state
  | state, action :: actions =>
      allowed state action &&
        match step state action with
        | .ok next => checkRun step allowed goal next actions
        | .error _ => false

/-- A list of actions that passes its tests is a run. -/
theorem reaches_of_checkRun {step : σ → α → Except ε σ} {guard : σ → α → Prop}
    {allowed : σ → α → Bool} {goal : σ → Bool}
    (admits : ∀ state action, allowed state action = true → guard state action)
    {start : σ} {actions : List α} (check : checkRun step allowed goal start actions = true) :
    ∃ final, Reaches step guard start final ∧ goal final = true := by
  induction actions generalizing start with
  | nil => exact ⟨start, Relation.ReflTransGen.refl, check⟩
  | cons action actions induction =>
      rw [checkRun, Bool.and_eq_true] at check
      obtain ⟨admitted, rest⟩ := check
      cases result : step start action with
      | error fault =>
          rw [result] at rest
          exact absurd rest (by simp)
      | ok next =>
          rw [result] at rest
          obtain ⟨final, reaches, met⟩ := induction rest
          have first : Step step guard start next := ⟨action, admits start action admitted, result⟩
          exact ⟨final, Relation.ReflTransGen.head first reaches, met⟩

end GuardedRun
