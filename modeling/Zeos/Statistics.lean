import Mathlib.Data.BitVec
import Mathlib.Tactic.Ring
import Zeos.Types
import Zeos.X86

/-!
# Accounting of ticks

The division of the time-stamp counter in `utils.c`, which takes two divisions of 64 by 32 bits, and
the statistics of `p_stats.c` that are made from it.
-/

namespace X86

/-! ## Long division -/

/-- A digit of a quotient. -/
theorem digit_lt {radix high low divisor : Nat} (below : high < divisor) (digit : low < radix) :
    (radix * high + low) / divisor < radix := by
  rw [Nat.div_lt_iff_lt_mul (Nat.zero_lt_of_lt below)]
  calc
    radix * high + low < radix * high + radix := Nat.add_lt_add_left digit _
    _ = radix * (high + 1) := (Nat.mul_succ radix high).symm
    _ ≤ radix * divisor := Nat.mul_le_mul_left radix below

/-- Two steps of a division: the first digit, then its remainder with the second one. -/
theorem div_steps (radix high low : Nat) {divisor : Nat} (positive : 0 < divisor) :
    (radix * high + low) / divisor =
        radix * (high / divisor) + (radix * (high % divisor) + low) / divisor ∧
      (radix * high + low) % divisor = (radix * (high % divisor) + low) % divisor := by
  have split : radix * high + low =
      divisor * (radix * (high / divisor)) + (radix * (high % divisor) + low) := by
    calc
      radix * high + low
        = radix * (divisor * (high / divisor) + high % divisor) + low := by
          rw [Nat.div_add_mod]
      _ = divisor * (radix * (high / divisor)) + (radix * (high % divisor) + low) := by ring
  constructor
  · rw [split, Nat.mul_add_div positive]
  · rw [split, Nat.mul_add_mod]

/-- `divl`: the quotient and the remainder of a number in two registers, unless the quotient does
not fit in one. -/
def divl (high low divisor : Word) : Option (Word × Word) :=
  let n := 2 ^ 32 * high.toNat + low.toNat
  if divisor = 0 ∨ 2 ^ 32 ≤ n / divisor.toNat then none
  else some (BitVec.ofNat 32 (n / divisor.toNat), BitVec.ofNat 32 (n % divisor.toNat))

/-- A division is possible if the higher half is below the divisor. -/
theorem divl_eq {high low divisor : Word} (below : high.toNat < divisor.toNat) :
    divl high low divisor =
      some (BitVec.ofNat 32 ((2 ^ 32 * high.toNat + low.toNat) / divisor.toNat),
        BitVec.ofNat 32 ((2 ^ 32 * high.toNat + low.toNat) % divisor.toNat)) := by
  have small := digit_lt below low.isLt
  rw [divl, if_neg]
  rintro (rfl | large)
  · exact absurd below (Nat.not_lt_zero _)
  · exact absurd small (Nat.not_lt_of_le large)

end X86

namespace Zeos.PStats

open X86 (divl)

/-! ## Ticks -/

abbrev Long := BitVec 64

/-- `do_div`, with the quotient that it leaves in `n` and the remainder that it returns. -/
def doDiv (n : Long) (base : Word) : Option (Long × Word) := do
  let low : Word := n.setWidth 32
  let high : Word := n.extractLsb' 32 32
  let upper := if high ≠ 0 then high % base else high
  let high := if high ≠ 0 then high / base else high
  let (low, mod) ← divl upper low base
  return (high ++ low, mod)

/-- `CYCLESPERTICK`. -/
abbrev cyclesPerTick : Word := 109000

/-- `get_ticks`, with the value that `rdtsc` gives. -/
def getTicks (tsc : Long) : Option Word := do
  let (ticks, _) ← doDiv tsc cyclesPerTick
  return ticks.setWidth 32

variable {n : Long} {base : Word}

/-- The two divisions give the exact quotient and remainder. -/
theorem doDiv_eq (positive : 0 < base.toNat) : doDiv n base =
    some (BitVec.ofNat 64 (n.toNat / base.toNat), BitVec.ofNat 32 (n.toNat % base.toNat)) := by
  set low : Word := n.setWidth 32 with low_eq
  set high : Word := n.extractLsb' 32 32 with high_eq
  have bound := n.isLt
  have whole : n.toNat = 2 ^ 32 * high.toNat + low.toNat := by
    rw [low_eq, high_eq, BitVec.toNat_setWidth, BitVec.extractLsb'_toNat,
      Nat.shiftRight_eq_div_pow]
    omega
  -- without a higher half both results are those of the division by the base
  have upper_eq : (if high ≠ 0 then high % base else high) = high % base := by
    split_ifs with zero
    · rfl
    · rw [not_not.mp zero]
      exact BitVec.zero_umod.symm
  have high_div : (if high ≠ 0 then high / base else high) = high / base := by
    split_ifs with zero
    · rfl
    · rw [not_not.mp zero]
      exact BitVec.zero_udiv.symm
  have upper : (high % base).toNat = high.toNat % base.toNat := BitVec.toNat_umod
  have below : (high % base).toNat < base.toNat := by
    rw [upper]
    exact Nat.mod_lt _ positive
  obtain ⟨quotient, remainder⟩ := X86.div_steps (2 ^ 32) high.toNat low.toNat positive
  have digit := X86.digit_lt (Nat.mod_lt high.toNat positive) low.isLt
  have joined : (high / base ++ BitVec.ofNat 32
      ((2 ^ 32 * (high.toNat % base.toNat) + low.toNat) / base.toNat) : Long) =
      BitVec.ofNat 64 ((2 ^ 32 * high.toNat + low.toNat) / base.toNat) := by
    refine BitVec.eq_of_toNat_eq ?_
    have small : (2 ^ 32 * high.toNat + low.toNat) / base.toNat < 2 ^ 64 :=
      Nat.lt_of_le_of_lt (Nat.div_le_self _ _) (whole ▸ bound)
    rw [BitVec.toNat_append, BitVec.toNat_ofNat, BitVec.toNat_ofNat, Nat.mod_eq_of_lt digit,
      Nat.mod_eq_of_lt small, quotient, ← Nat.shiftLeft_add_eq_or_of_lt digit,
      Nat.shiftLeft_eq, BitVec.toNat_udiv, Nat.mul_comm]
  rw [doDiv]
  dsimp only
  rw [← low_eq, ← high_eq, upper_eq, high_div, X86.divl_eq below, upper, whole, ← joined,
    remainder]
  rfl

theorem getTicks_eq (tsc : Long) :
    getTicks tsc = some (BitVec.ofNat 32 (tsc.toNat / 109000)) := by
  have small : tsc.toNat / 109000 < 2 ^ 64 := Nat.lt_of_le_of_lt (Nat.div_le_self _ _) tsc.isLt
  rw [getTicks, doDiv_eq (by decide)]
  refine congrArg some (BitVec.eq_of_toNat_eq ?_)
  show (BitVec.setWidth 32 (BitVec.ofNat 64 (tsc.toNat / 109000))).toNat = _
  rw [BitVec.toNat_setWidth, BitVec.toNat_ofNat, BitVec.toNat_ofNat, Nat.mod_eq_of_lt small]

/-! ## Statistics -/

/-- `struct stats`. -/
structure Stats where
  userTicks : Word
  systemTicks : Word
  blockedTicks : Word
  readyTicks : Word
  elapsedTotalTicks : Word
  totalTrans : Word
  remainingTicks : Word

/-- `init_stats`, with the two values that `rdtsc` gives. -/
def initStats (first second : Long) : Option Stats := do
  return {
    userTicks := 0
    systemTicks := 0
    blockedTicks := 0
    readyTicks := 0
    elapsedTotalTicks := ← getTicks first
    totalTrans := 0
    remainingTicks := ← getTicks second }

/-- `update_stats`: the new values behind both pointers. -/
def updateStats (v elapsed : Word) (tsc : Long) : Option (Word × Word) := do
  let currentTicks ← getTicks tsc
  return (v + (currentTicks - elapsed), currentTicks)

/-- The counters that time is accounted to. -/
inductive Counter
  | user
  | system
  | blocked
  | ready
  deriving DecidableEq

def Stats.get (s : Stats) : Counter → Word
  | .user => s.userTicks
  | .system => s.systemTicks
  | .blocked => s.blockedTicks
  | .ready => s.readyTicks

def Stats.set (s : Stats) (value : Word) : Counter → Stats
  | .user => { s with userTicks := value }
  | .system => { s with systemTicks := value }
  | .blocked => { s with blockedTicks := value }
  | .ready => { s with readyTicks := value }

/-- `update_stats(&s->…, &s->elapsed_total_ticks)`. -/
def Stats.update (s : Stats) (call : Counter × Long) : Option Stats := do
  let (v, elapsed) ← updateStats (s.get call.1) s.elapsedTotalTicks call.2
  return { s.set v call.1 with elapsedTotalTicks := elapsed }

/-- The time in all four counters. -/
def Stats.accounted (s : Stats) : Word :=
  s.userTicks + s.systemTicks + s.blockedTicks + s.readyTicks

variable {s s' : Stats}

theorem accounted_set (value : Word) (counter : Counter) :
    (s.set value counter).accounted = s.accounted + (value - s.get counter) := by
  cases counter <;> simp only [Stats.set, Stats.accounted, Stats.get] <;> ring

/-- A call moves the time since the last one to its counter. -/
theorem update_eq (s : Stats) (call : Counter × Long) : ∃ s', s.update call = some s' ∧
    s'.elapsedTotalTicks = BitVec.ofNat 32 (call.2.toNat / 109000) ∧
      s'.accounted - s'.elapsedTotalTicks = s.accounted - s.elapsedTotalTicks := by
  refine ⟨_, by rw [Stats.update, updateStats, getTicks_eq]; rfl, rfl, ?_⟩
  set ticks := BitVec.ofNat 32 (call.2.toNat / 109000)
  have total := accounted_set (s := s) (s.get call.1 + (ticks - s.elapsedTotalTicks)) call.1
  show (s.set _ call.1).accounted - ticks = _
  rw [total]
  ring

/-- The time of the last call, or of the start. -/
def last (start : Long) (calls : List (Counter × Long)) : Long :=
  (calls.getLast?.map Prod.snd).getD start

theorem foldlM_update (calls : List (Counter × Long)) {start : Long}
    (elapsed : s.elapsedTotalTicks = BitVec.ofNat 32 (start.toNat / 109000)) :
    ∃ s', calls.foldlM Stats.update s = some s' ∧
      s'.elapsedTotalTicks = BitVec.ofNat 32 ((last start calls).toNat / 109000) ∧
      s'.accounted - s'.elapsedTotalTicks = s.accounted - s.elapsedTotalTicks := by
  induction calls generalizing s start with
  | nil => exact ⟨s, rfl, elapsed, rfl⟩
  | cons call calls induction =>
      obtain ⟨s₁, updated, elapsed₁, same₁⟩ := update_eq s call
      obtain ⟨s', folded, elapsed', same'⟩ := induction elapsed₁
      refine ⟨s', ?_, ?_, same'.trans same₁⟩
      · rw [List.foldlM_cons, updated]
        exact folded
      · rw [elapsed', last, last, List.getLast?_cons, Option.map_some, Option.getD_some]
        cases calls.getLast? <;> rfl

/-- Whatever counters are updated, and in whichever order, all the ticks since the start are in one
of them: no division fails, and neither the rounding of single intervals nor an overflow of the
counters loses or adds one. -/
theorem ticks_accounted (first second : Long) (calls : List (Counter × Long)) :
    ∃ s s', initStats first second = some s ∧ calls.foldlM Stats.update s = some s' ∧
      (s'.accounted.toNat : Int) =
        (((last first calls).toNat / 109000 : Nat) - (first.toNat / 109000 : Nat)) % 2 ^ 32 := by
  obtain ⟨s', folded, elapsed, same⟩ := foldlM_update calls
    (s := ⟨0, 0, 0, 0, BitVec.ofNat 32 (first.toNat / 109000), 0,
      BitVec.ofNat 32 (second.toNat / 109000)⟩) (rfl : _ = BitVec.ofNat 32 (first.toNat / 109000))
  refine ⟨_, s', by rw [initStats, getTicks_eq, getTicks_eq]; rfl, folded, ?_⟩
  have total : s'.accounted = BitVec.ofNat 32 ((last first calls).toNat / 109000) -
      BitVec.ofNat 32 (first.toNat / 109000) := by
    rw [← elapsed]
    exact (sub_eq_iff_eq_add.mp same).trans (by simp only [Stats.accounted]; ring)
  rw [total, BitVec.toNat_sub, BitVec.toNat_ofNat, BitVec.toNat_ofNat]
  omega

end Zeos.PStats
