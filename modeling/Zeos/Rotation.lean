import Mathlib.Data.List.Rotate

/-!
# Serving in rotation

A round of items is served from its front, and who has been served goes to its end.
-/

namespace Rotation

variable {α : Type} {round served now rest : List α} {item : α}

/-- A sequence goes through a round again and again, from its beginning on. -/
def Cyclic (round served : List α) : Prop :=
  ∀ i, i < served.length → served[i]? = round[i % round.length]?

/-- What has been served of a round, and what the round has become by that. -/
structure Turning (round served now : List α) : Prop where
  cyclic : Cyclic round served
  now : now = round.rotate served.length

namespace Turning

theorem start (round : List α) : Turning round [] round where
  cyclic i short := absurd short (by simp)
  now := by simp

/-- The first one is served. -/
theorem serve (turning : Turning round served (item :: rest)) :
    Turning round (served ++ [item]) (rest ++ [item]) where
  cyclic i short := by
    rw [List.length_append, List.length_singleton] at short
    by_cases before : i < served.length
    · rw [List.getElem?_append_left before]
      exact turning.cyclic i before
    · have last : i = served.length := by omega
      have nonempty : 0 < round.length := by
        rw [← List.length_rotate round served.length, ← turning.now]
        simp
      have first := List.getElem?_rotate (n := served.length) nonempty
      rw [← turning.now, List.getElem?_cons_zero, Nat.zero_add] at first
      rw [last, List.getElem?_append_right (le_refl _), Nat.sub_self, List.getElem?_cons_zero,
        first]
  now := by
    rw [List.length_append, List.length_singleton, ← List.rotate_rotate, ← turning.now,
      List.rotate_cons_succ, List.rotate_zero]

/-- Nobody joins or leaves a round. -/
theorem perm (turning : Turning round served now) : now.Perm round :=
  turning.now ▸ List.rotate_perm round _

end Turning

namespace Cyclic

/-- Who comes in the round after `k` others is served before anybody is a second time. -/
theorem mem {k : Nat} (cyclic : Cyclic round served) (here : round[k]? = some item)
    (enough : k < served.length) : item ∈ served := by
  have short : k < round.length := (List.getElem?_eq_some_iff.mp here).1
  have turn := cyclic k enough
  rw [Nat.mod_eq_of_lt short, here] at turn
  exact List.mem_of_getElem? turn

/-- The first round, and what comes after it. -/
theorem split (cyclic : Cyclic round served) (enough : round.length ≤ served.length) :
    served = round ++ served.drop round.length ∧ Cyclic round (served.drop round.length) := by
  have first : served.take round.length = round := by
    refine List.ext_getElem? fun i => ?_
    rw [List.getElem?_take]
    split_ifs with short
    · rw [cyclic i (by omega), Nat.mod_eq_of_lt short]
    · exact (List.getElem?_eq_none (Nat.le_of_not_lt short)).symm
  constructor
  · calc
      served = served.take round.length ++ served.drop round.length :=
        (List.take_append_drop _ _).symm
      _ = round ++ served.drop round.length := by rw [first]
  · intro i short
    rw [List.length_drop] at short
    rw [List.getElem?_drop, cyclic _ (by omega), Nat.add_mod_left]

/-- Everybody is served once in each round. -/
theorem le_count [DecidableEq α] {rounds : Nat} (cyclic : Cyclic round served)
    (member : item ∈ round) (enough : rounds * round.length ≤ served.length) :
    rounds ≤ served.count item := by
  induction rounds generalizing served with
  | zero => exact Nat.zero_le _
  | succ rounds induction =>
      rw [Nat.succ_mul] at enough
      obtain ⟨first, later⟩ := cyclic.split (by omega)
      have once : 1 ≤ round.count item := List.count_pos_iff.mpr member
      have others := induction later (by rw [List.length_drop]; omega)
      rw [first, List.count_append]
      omega

end Cyclic

/-! ## The length of turns -/

variable {start longest ticks left left' turns k : Nat}

/-- After the first turn none has been given more than the longest time, of which something is left
for the current one. -/
structure Paced (start longest ticks left turns : Nat) : Prop where
  positive : 0 < left
  bounded : ticks + left ≤ start + longest * turns

namespace Paced

theorem begin (positive : 0 < start) : Paced start longest 0 start 0 := ⟨positive, by omega⟩

/-- Time passes. -/
theorem tick (paced : Paced start longest ticks left turns) (next : left' + 1 = left)
    (positive : 0 < left') : Paced start longest (ticks + 1) left' turns := by
  have bounded := paced.bounded
  exact ⟨positive, by omega⟩

/-- The next turn begins before the end of the current one. -/
theorem yield (paced : Paced start longest ticks left turns) (short : left' ≤ longest)
    (positive : 0 < left') : Paced start longest ticks left' (turns + 1) := by
  have bounded := paced.bounded
  refine ⟨positive, ?_⟩
  rw [Nat.mul_succ]
  omega

/-- The next turn begins with the end of the current one. -/
theorem serve (paced : Paced start longest ticks 1 turns) (short : left' ≤ longest)
    (positive : 0 < left') : Paced start longest (ticks + 1) left' (turns + 1) := by
  have bounded := paced.bounded
  refine ⟨positive, ?_⟩
  rw [Nat.mul_succ]
  omega

/-- So many turns have begun after the time of that many. -/
theorem lt_turns (paced : Paced start longest ticks left turns)
    (enough : start + longest * k ≤ ticks) : k < turns := by
  obtain ⟨positive, bounded⟩ := paced
  exact Nat.lt_of_mul_lt_mul_left (a := longest) (by omega)

end Paced

end Rotation
