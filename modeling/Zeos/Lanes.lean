import Mathlib.Data.List.Nodup
import Mathlib.Logic.Function.Basic

/-!
# Items waiting in lanes

A scheduler keeps its items in several queues.  `Separate` says that an item waits at most once in
at most one of them.  Appending an absent item and removing one preserve this, and the membership
laws below say what else they do.
-/

/-- What waits in each queue, first to last. -/
abbrev Lanes (κ α : Type) := κ → List α

namespace Lanes

variable {κ α : Type}

/-- An item that waits nowhere. -/
def Absent (lanes : Lanes κ α) (item : α) : Prop := ∀ lane, item ∉ lanes lane

/-- No item waits twice. -/
structure Separate (lanes : Lanes κ α) : Prop where
  /-- Not twice in one lane. -/
  nodup : ∀ lane, (lanes lane).Nodup
  /-- Not in two lanes. -/
  unique : ∀ {lane lane' item}, item ∈ lanes lane → item ∈ lanes lane' → lane = lane'

/-- Append an item to a lane. -/
def push [DecidableEq κ] (lanes : Lanes κ α) (lane : κ) (item : α) : Lanes κ α :=
  Function.update lanes lane (lanes lane ++ [item])

/-- Take an item out of wherever it waits. -/
def remove [DecidableEq α] (lanes : Lanes κ α) (item : α) : Lanes κ α :=
  fun lane => (lanes lane).erase item

/-- Append all items of a lane to another lane. -/
def drain [DecidableEq κ] (lanes : Lanes κ α) (source target : κ) : Lanes κ α :=
  Function.update (Function.update lanes target (lanes target ++ lanes source)) source []

/-- Drop all items of a lane. -/
def clear [DecidableEq κ] (lanes : Lanes κ α) (lane : κ) : Lanes κ α :=
  Function.update lanes lane []

section Push

variable [DecidableEq κ] {lanes : Lanes κ α} {lane other : κ} {item another : α}

@[simp]
theorem push_same : lanes.push lane item lane = lanes lane ++ [item] := by simp [push]

@[simp]
theorem push_other (different : other ≠ lane) : lanes.push lane item other = lanes other := by
  simp [push, different]

@[simp, grind =]
theorem mem_push : another ∈ lanes.push lane item other ↔
    another ∈ lanes other ∨ other = lane ∧ another = item := by
  by_cases same : other = lane
  · subst same
    simp
  · simp [same]

@[simp, grind =]
theorem absent_push : (lanes.push lane item).Absent another ↔
    lanes.Absent another ∧ another ≠ item := by
  simp only [Absent, mem_push, not_or, forall_and]
  apply and_congr_right
  intro _
  constructor
  · intro other same
    exact other lane ⟨rfl, same⟩
  · intro different other same
    exact different same.2

theorem Separate.push (separate : lanes.Separate) (absent : lanes.Absent item) :
    (lanes.push lane item).Separate where
  nodup other := by
    by_cases same : other = lane
    · subst same
      rw [push_same, List.nodup_append]
      refine ⟨separate.nodup other, by simp, ?_⟩
      intro waiting member last last_eq same
      rw [List.mem_singleton] at last_eq
      exact absent other (by rwa [same, last_eq] at member)
    · rw [push_other same]
      exact separate.nodup other
  unique left right := by
    rw [mem_push] at left right
    rcases left with left | ⟨rfl, rfl⟩
    · rcases right with right | ⟨rfl, rfl⟩
      · exact separate.unique left right
      · exact absurd left (absent _)
    · rcases right with right | ⟨rfl, _⟩
      · exact absurd right (absent _)
      · rfl

end Push

section Remove

variable [DecidableEq α] {lanes : Lanes κ α} {lane other : κ} {item another : α}

@[simp, grind =>]
theorem Separate.mem_remove (separate : lanes.Separate) :
    another ∈ lanes.remove item lane ↔ another ≠ item ∧ another ∈ lanes lane :=
  (separate.nodup lane).mem_erase_iff

theorem mem_of_mem_remove (member : another ∈ lanes.remove item lane) : another ∈ lanes lane :=
  List.mem_of_mem_erase member

theorem remove_of_not_mem (outside : item ∉ lanes lane) : lanes.remove item lane = lanes lane :=
  List.erase_of_not_mem outside

theorem Separate.remove (separate : lanes.Separate) : (lanes.remove item).Separate where
  nodup lane := (separate.nodup lane).erase item
  unique left right := separate.unique (mem_of_mem_remove left) (mem_of_mem_remove right)

theorem Separate.absent_remove (separate : lanes.Separate) :
    (lanes.remove item).Absent another ↔ lanes.Absent another ∨ another = item := by
  by_cases same : another = item
  · subst same
    simp [Absent, separate.mem_remove]
  · simp [Absent, separate.mem_remove, same]

theorem Absent.remove_eq (absent : lanes.Absent item) : lanes.remove item = lanes :=
  funext fun lane => List.erase_of_not_mem (absent lane)

theorem Separate.remove_other (separate : lanes.Separate) (member : item ∈ lanes lane)
    (different : other ≠ lane) : lanes.remove item other = lanes other :=
  List.erase_of_not_mem fun inside => different (separate.unique inside member)

theorem remove_first {rest : List α} (first : lanes lane = item :: rest) :
    lanes.remove item lane = rest := by
  rw [remove, first, List.erase_cons_head]

theorem Separate.remove_eq [DecidableEq κ] (separate : lanes.Separate)
    (member : item ∈ lanes lane) :
    lanes.remove item = Function.update lanes lane ((lanes lane).erase item) := by
  funext other
  by_cases same : other = lane
  · subst same
    rw [Function.update_self]
    rfl
  · rw [separate.remove_other member same, Function.update_of_ne same]

/-- The first item of a lane, put back at the end of it. -/
theorem Separate.push_remove_first [DecidableEq κ] (separate : lanes.Separate) {rest : List α}
    (first : lanes lane = item :: rest) :
    (lanes.remove item).push lane item = Function.update lanes lane (rest ++ [item]) := by
  have member : item ∈ lanes lane := by simp [first]
  funext other
  by_cases same : other = lane
  · subst same
    rw [push_same, remove_first first, Function.update_self]
  · rw [push_other same, separate.remove_other member same, Function.update_of_ne same]

/-- An item that has been put somewhere else is taken out of there. -/
theorem Separate.remove_push_remove [DecidableEq κ] (separate : lanes.Separate) :
    ((lanes.remove item).push lane item).remove item = lanes.remove item := by
  have absent : item ∉ lanes.remove item lane := fun inside =>
    (separate.mem_remove.mp inside).1 rfl
  funext other
  by_cases same : other = lane
  · subst same
    show (((lanes.remove item).push other item) other).erase item = _
    rw [push_same, List.erase_append_right _ absent]
    simp
  · show (((lanes.remove item).push lane item) other).erase item = _
    rw [push_other same]
    exact List.erase_of_not_mem fun inside => (separate.mem_remove.mp inside).1 rfl

end Remove

section Drain

variable [DecidableEq κ] {lanes : Lanes κ α} {source target other : κ} {item : α}

@[simp]
theorem drain_source : lanes.drain source target source = [] := by simp [drain]

theorem drain_target (different : source ≠ target) :
    lanes.drain source target target = lanes target ++ lanes source := by
  simp [drain, Ne.symm different]

theorem drain_other (not_source : other ≠ source) (not_target : other ≠ target) :
    lanes.drain source target other = lanes other := by
  simp [drain, not_source, not_target]

@[grind =]
theorem mem_drain (different : source ≠ target) : item ∈ lanes.drain source target other ↔
    other ≠ source ∧ (item ∈ lanes other ∨ other = target ∧ item ∈ lanes source) := by
  by_cases not_source : other = source
  · subst not_source
    simp
  · by_cases not_target : other = target
    · subst not_target
      simp [drain_target different, not_source]
    · simp [drain_other not_source not_target, not_source, not_target]

theorem Separate.drain (separate : lanes.Separate) (different : source ≠ target) :
    (lanes.drain source target).Separate where
  nodup other := by
    by_cases not_source : other = source
    · subst not_source
      simp
    · by_cases not_target : other = target
      · subst not_target
        rw [drain_target different, List.nodup_append]
        refine ⟨separate.nodup _, separate.nodup _, ?_⟩
        rintro left left_member right right_member rfl
        exact different (separate.unique right_member left_member)
      · rw [drain_other not_source not_target]
        exact separate.nodup other
  unique left right := by
    rw [mem_drain different] at left right
    obtain ⟨not_source, left | ⟨rfl, left⟩⟩ := left
    · obtain ⟨not_source', right | ⟨rfl, right⟩⟩ := right
      · exact separate.unique left right
      · exact absurd (separate.unique left right) not_source
    · obtain ⟨not_source', right | ⟨rfl, right⟩⟩ := right
      · exact absurd (separate.unique right left) not_source'
      · rfl

theorem absent_drain (different : source ≠ target) :
    (lanes.drain source target).Absent item ↔ lanes.Absent item := by
  constructor
  · intro absent other member
    by_cases not_source : other = source
    · subst not_source
      exact absent target ((mem_drain different).mpr ⟨Ne.symm different, .inr ⟨rfl, member⟩⟩)
    · exact absent other ((mem_drain different).mpr ⟨not_source, .inl member⟩)
  · intro absent other member
    rcases ((mem_drain different).mp member).2 with member | ⟨_, member⟩
    · exact absent other member
    · exact absent source member

/-- Draining a lane takes its items in turn. -/
theorem Separate.drain_cons [DecidableEq α] (separate : lanes.Separate) {rest : List α}
    (different : source ≠ target) (first : lanes source = item :: rest) :
    ((lanes.remove item).push target item).drain source target = lanes.drain source target := by
  have member : item ∈ lanes source := by simp [first]
  have shorter : (lanes.remove item).push target item source = rest := by
    rw [push_other different, remove_first first]
  funext other
  by_cases not_source : other = source
  · subst not_source
    simp
  · by_cases not_target : other = target
    · subst not_target
      rw [drain_target different, drain_target different, shorter, push_same,
        separate.remove_other member not_source, first, List.append_assoc, List.singleton_append]
    · rw [drain_other not_source not_target, drain_other not_source not_target,
        push_other not_target, separate.remove_other member not_source]

theorem drain_empty (empty : lanes source = []) : lanes.drain source target = lanes := by
  funext other
  by_cases not_source : other = source
  · subst not_source
    rw [drain_source, empty]
  · by_cases not_target : other = target
    · subst not_target
      rw [drain_target (Ne.symm not_source), empty, List.append_nil]
    · rw [drain_other not_source not_target]

end Drain

section Clear

variable [DecidableEq κ] {lanes : Lanes κ α} {lane other : κ} {item : α}

@[simp, grind =]
theorem mem_clear : item ∈ lanes.clear lane other ↔ other ≠ lane ∧ item ∈ lanes other := by
  by_cases same : other = lane
  · subst same
    simp [clear]
  · simp [clear, same]

theorem Separate.clear (separate : lanes.Separate) : (lanes.clear lane).Separate where
  nodup other := by
    by_cases same : other = lane
    · subst same
      simp [Lanes.clear]
    · simpa [Lanes.clear, same] using separate.nodup other
  unique left right := separate.unique (mem_clear.mp left).2 (mem_clear.mp right).2

end Clear

end Lanes
