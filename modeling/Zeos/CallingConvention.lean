import Zeos.X86

/-!
# The calling convention

What a function gives back to its caller.  A function can also be left in the middle, in a call
that comes back only after the processor has worked on other stacks.  The pages of the stacks are
4 kB.
-/

namespace X86

theorem toNat_pageMask (a : Word) : (a &&& 0xfffff000).toNat = a.toNat / 4096 * 4096 := by
  have mask : ∀ i : Fin 32, (0xfffff000 : Word).getLsbD i = decide (12 ≤ i.val) := by decide
  have shifts : a &&& (0xfffff000 : Word) = a >>> 12 <<< 12 := by
    refine BitVec.eq_of_getLsbD_eq fun i bound => ?_
    have bit := mask ⟨i, bound⟩
    rw [BitVec.getLsbD_and, BitVec.getLsbD_shiftLeft, BitVec.getLsbD_ushiftRight, bit]
    by_cases high : 12 ≤ i
    · simp [bound, high, show ¬i < 12 by omega]
    · simp [high, show i < 12 by omega]
  have bound := a.isLt
  rw [shifts, BitVec.toNat_shiftLeft, BitVec.toNat_ushiftRight, Nat.shiftLeft_eq,
    Nat.shiftRight_eq_div_pow]
  omega

def SamePage (a b : Word) : Prop := a.toNat / 4096 = b.toNat / 4096

/-- The function that was entered in `m` has returned in `m'`.  Its arguments can have changed, but
not what is above them in the page of the stack. -/
structure Returned (arguments : Nat) (m m' : Machine) : Prop where
  eip : m'.eip = load m.mem (m.reg .esp)
  esp : m'.reg .esp = m.reg .esp + 4
  ebx : m'.reg .ebx = m.reg .ebx
  esi : m'.reg .esi = m.reg .esi
  edi : m'.reg .edi = m.reg .edi
  ebp : m'.reg .ebp = m.reg .ebp
  above : ∀ a : Word, (m.reg .esp).toNat + 4 * (arguments + 1) ≤ a.toNat →
    SamePage a (m.reg .esp) → m'.mem a = m.mem a

/-- In a function that was entered in `m` another one with one argument is entered in `m₁`. -/
structure Calling (arguments : Nat) (m m₁ : Machine) : Prop where
  below : (m₁.reg .esp).toNat + 8 ≤ (m.reg .esp).toNat
  page : SamePage (m₁.reg .esp) (m.reg .esp)
  above : ∀ a : Word, (m.reg .esp).toNat + 4 * (arguments + 1) ≤ a.toNat →
    SamePage a (m.reg .esp) → m₁.mem a = m.mem a

/-- Compiled code of a function in which another one can be called: from its entry to its return or
to the entry of the other function, and from the return of the other function to its own. -/
structure Routine where
  arguments : Nat
  Returns : Machine → Machine → Prop
  Calls : Machine → Machine → Prop
  GoesOn : Machine → Machine → Prop
  returned : ∀ {m m'}, Returns m m' → Returned arguments m m'
  calling : ∀ {m m₁}, Calls m m₁ → Calling arguments m m₁
  goesOn : ∀ {m m₁ m₂ m'}, Calls m m₁ → Returned 1 m₁ m₂ → GoesOn m₂ m' → Returned arguments m m'

variable {m m' : Machine} {back : Word} {words : List Word} {arguments : Nat}

/-- The words above the arguments are on top of the stack after these. -/
theorem Returned.stack (returned : Returned arguments m m') (stack : m.Stack (back :: words))
    (few : arguments ≤ words.length)
    (page : ∀ a : Word, (m.reg .esp).toNat ≤ a.toNat →
      a.toNat < (m.reg .esp).toNat + 4 * (words.length + 1) → SamePage a (m.reg .esp))
    (room : (m.reg .esp).toNat + 4 * (words.length + 1) < 2 ^ 32) :
    m'.eip = back ∧ ∃ lost : List Word, lost.length = arguments ∧
      m'.Stack (lost ++ words.drop arguments) := by
  refine ⟨returned.eip.trans stack.head, ?_⟩
  have next : (m.reg .esp + 4).toNat = (m.reg .esp).toNat + 4 :=
    toNat_add _ 4 (by show _ + 4 < _; omega)
  have cells := stack.tail.drop arguments few
  have start : (m.reg .esp + 4 + BitVec.ofNat 32 (4 * arguments)).toNat =
      (m.reg .esp).toNat + 4 + 4 * arguments := by
    rw [toNat_advance _ _ (by omega), next]
  have kept : Holds m'.mem _ (words.drop arguments) := cells.congr fun a above below => by
    rw [List.length_drop] at below
    exact returned.above a (by omega) (page a (by omega) (by omega))
  refine kept.exists_append ?_ |>.imp fun lost found => ⟨found.1, ?_⟩
  · rw [List.length_drop, next]
    omega
  · rw [Machine.Stack, returned.esp]
    exact found.2

/-! ## Pushing values -/

/-- Pushing values that are not in registers. -/
def pushValues (values : List Word) : List Instr := values.map fun value => .push (.imm value)

theorem grows_pushValues (values : List Word) : ∀ instr ∈ pushValues values, instr.Grows := by
  intro instr member
  obtain ⟨value, _, rfl⟩ := List.mem_map.mp member
  exact trivial

theorem countP_pushValues (values : List Word) :
    (pushValues values).countP Instr.isPush = values.length := by
  rw [pushValues, List.countP_map]
  exact List.countP_eq_length.mpr fun _ _ => rfl

theorem Machine.Pushed.values {start : Machine} {values : List Word}
    (pushed : Machine.Pushed start m words)
    (room : 4 * (words.length + values.length) ≤ (start.reg .esp).toNat) :
    Machine.Pushed start (Machine.run (pushValues values) m) (values.reverse ++ words) := by
  induction values generalizing m words with
  | nil => exact pushed
  | cons value values induction =>
      rw [List.length_cons] at room
      have next := pushed.push (by omega) value
      rw [List.reverse_cons, List.append_assoc]
      refine induction next ?_
      rw [List.singleton_append, List.length_cons]
      omega

end X86
