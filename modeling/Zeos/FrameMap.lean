import Zeos.Pages

/-!
# The map of frames

`alloc_frame` gives out the lowest free frame at an even distance from the first one above the
kernel.  `free_frame` takes back all frames but this first one, which its test leaves out.
-/

namespace Zeos

namespace Memory

/-- A free frame of those that `alloc_frame` gives out. -/
def Allocatable (physMem : Nat → Byte) (f : Nat) : Prop :=
  ∃ k, f = numPagKernel + 2 * k ∧ f < totalPages ∧ physMem f = 0

/-- `alloc_frame` marks and returns the lowest free frame, and without one it returns -1 and changes
nothing. -/
structure AllocatesLowest (m : Memory) : Prop where
  lowest : ∀ f, Allocatable m.physMem f → (∀ g, Allocatable m.physMem g → f ≤ g) →
    m.allocFrame = ((f : Int), { m with physMem := Function.update m.physMem f 1 })
  full : m.allocFrame.1 = -1 ↔ ∀ f, ¬Allocatable m.physMem f
  unchanged : m.allocFrame.1 = -1 → m.allocFrame.2 = m

/-- The states after `init_frames`, calls of `alloc_frame` and calls of `free_frame` on allocated
frames, with the frames that are allocated. -/
inductive Managed : Memory → List Nat → Prop
  | init (m : Memory) : Managed m.initFrames []
  | alloc {m : Memory} {held : List Nat} {f : Nat} (managed : Managed m held)
      (returned : m.allocFrame.1 = f) : Managed m.allocFrame.2 (f :: held)
  | full {m : Memory} {held : List Nat} (managed : Managed m held)
      (returned : m.allocFrame.1 = -1) : Managed m.allocFrame.2 held
  | free {m : Memory} {held : List Nat} {f : Nat} (managed : Managed m held)
      (allocated : f ∈ held) : Managed (m.freeFrame f) (held.erase f)

variable {m : Memory} {held : List Nat} {f : Nat}

theorem allocatable_iff {physMem : Nat → Byte} :
    Allocatable physMem f ↔ f ∈ freeFrames physMem := by
  have sizes := pageConstants
  rw [mem_freeFrames, Allocatable]
  constructor
  · rintro ⟨k, rfl, below, free⟩
    exact ⟨by omega, free⟩
  · rintro ⟨bounds, free⟩
    exact ⟨(f - numPagKernel) / 2, by omega, bounds.2.1, free⟩

/-- The first of the free frames is the lowest one. -/
theorem le_of_mem_freeFrames {physMem : Nat → Byte} {rest : List Nat} {g : Nat}
    (first : freeFrames physMem = f :: rest) (member : g ∈ freeFrames physMem) : f ≤ g := by
  have sorted : (freeFrames physMem).Pairwise (· < ·) :=
    (List.pairwise_lt_range' 2).filter _
  rw [first] at sorted member
  rcases List.mem_cons.mp member with rfl | later
  · exact le_rfl
  · exact ((List.pairwise_cons.mp sorted).1 g later).le

theorem allocatesLowest (m : Memory) : m.AllocatesLowest := by
  cases free : freeFrames m.physMem with
  | nil =>
      have returned := allocFrame_nil free
      have none : ∀ f, ¬Allocatable m.physMem f := by
        intro f
        rw [allocatable_iff, free]
        exact List.not_mem_nil
      refine ⟨fun f free_f => absurd free_f (none f), ?_, fun _ => by rw [returned]⟩
      rw [returned]
      exact iff_of_true rfl none
  | cons f rest =>
      have returned := allocFrame_cons free
      have first : Allocatable m.physMem f := by
        rw [allocatable_iff, free]
        exact List.mem_cons_self
      have nonnegative : m.allocFrame.1 ≠ -1 := by
        rw [returned]
        show (f : Int) ≠ -1
        omega
      refine ⟨fun g free_g lowest => ?_, ?_, fun minus => absurd minus nonnegative⟩
      · have below := le_of_mem_freeFrames free (allocatable_iff.mp free_g)
        obtain rfl : g = f := (lowest f first).antisymm below
        exact returned
      · exact iff_of_false nonnegative fun none => none f first

theorem allocFrame_of_returned (returned : m.allocFrame.1 = (f : Int)) :
    m.allocFrame.2 = { m with physMem := Function.update m.physMem f 1 } ∧
      f ∈ freeFrames m.physMem := by
  cases free : freeFrames m.physMem with
  | nil =>
      rw [allocFrame_nil free] at returned
      have minus : (-1 : Int) = f := returned
      omega
  | cons g rest =>
      rw [allocFrame_cons free] at returned ⊢
      obtain rfl : g = f := Int.ofNat.inj returned
      exact ⟨rfl, List.mem_cons_self⟩

/-- The allocated frames are different ones of the even frames, and used. -/
theorem Managed.used (managed : Managed m held) : held.Nodup ∧
    ∀ f ∈ held, (numPagKernel ≤ f ∧ f < totalPages ∧ f % 2 = 0) ∧ m.physMem f = 1 := by
  induction managed with
  | init m => exact ⟨List.nodup_nil, fun f member => absurd member List.not_mem_nil⟩
  | @alloc m held f managed returned induction =>
      obtain ⟨nodup, used⟩ := induction
      obtain ⟨after, taken⟩ := allocFrame_of_returned returned
      obtain ⟨bounds, free⟩ := mem_freeFrames.mp taken
      have fresh : f ∉ held := fun member => by
        have marked := (used f member).2
        rw [free] at marked
        exact absurd marked (by decide)
      rw [after]
      refine ⟨List.nodup_cons.mpr ⟨fresh, nodup⟩, fun g member => ?_⟩
      rcases List.mem_cons.mp member with rfl | before
      · exact ⟨bounds, Function.update_self ..⟩
      · have other : g ≠ f := fun same => fresh (same ▸ before)
        exact ⟨(used g before).1, (Function.update_of_ne other ..).trans (used g before).2⟩
  | @full m held managed returned induction =>
      rw [(allocatesLowest m).unchanged returned]
      exact induction
  | @free m held f managed allocated induction =>
      obtain ⟨nodup, used⟩ := induction
      refine ⟨nodup.erase f, fun g member => ?_⟩
      obtain ⟨other, before⟩ := (List.Nodup.mem_erase_iff nodup).mp member
      refine ⟨(used g before).1, ?_⟩
      rw [freeFrame]
      split_ifs
      · exact (Function.update_of_ne other ..).trans (used g before).2
      · exact (used g before).2

/-- `free_frame` undoes `alloc_frame` unless the frame is the first one. -/
theorem freeFrame_allocFrame_iff (returned : m.allocFrame.1 = (f : Int)) :
    (m.allocFrame.2.freeFrame f).physMem = m.physMem ↔ f ≠ numPagKernel := by
  obtain ⟨after, taken⟩ := allocFrame_of_returned returned
  obtain ⟨⟨above, below, _⟩, free⟩ := mem_freeFrames.mp taken
  rw [after, freeFrame]
  split_ifs with managed
  · refine iff_of_true ?_ managed.1.ne'
    show Function.update (Function.update m.physMem f 1) f 0 = m.physMem
    rw [Function.update_idem, ← free, Function.update_eq_self]
  · refine iff_of_false (fun same => ?_) fun other => managed ⟨by omega, below⟩
    have used : Function.update m.physMem f (1 : Byte) f = m.physMem f := congrFun same f
    rw [Function.update_self, free] at used
    exact absurd used (by decide)

/-- `free_frame` makes an allocated frame free again unless it is the first one. -/
theorem allocatable_freeFrame_iff (managed : Managed m held) (allocated : f ∈ held) :
    Allocatable (m.freeFrame f).physMem f ↔ f ≠ numPagKernel := by
  obtain ⟨bounds, used⟩ := managed.used.2 f allocated
  rw [allocatable_iff, mem_freeFrames, freeFrame]
  split_ifs with inside
  · exact iff_of_true ⟨bounds, Function.update_self ..⟩ inside.1.ne'
  · refine iff_of_false (fun free => ?_) fun other => inside ⟨by omega, bounds.2.1⟩
    rw [used] at free
    exact absurd free.2 (by decide)

/-- In every state that the allocator reaches, `alloc_frame` takes the lowest free frame, and
`free_frame` takes back exactly the frames that are not the first one above the kernel. -/
theorem frames_iff (m : Memory) (held : List Nat) (managed : Managed m held) : m.AllocatesLowest ∧
    ∀ f : Nat, (m.allocFrame.1 = f →
        ((m.allocFrame.2.freeFrame f).physMem = m.physMem ↔ f ≠ numPagKernel)) ∧
      (f ∈ held → (Allocatable (m.freeFrame f).physMem f ↔ f ≠ numPagKernel)) :=
  ⟨allocatesLowest m, fun _ => ⟨freeFrame_allocFrame_iff, allocatable_freeFrame_iff managed⟩⟩

/-- The second frame that is given out. -/
theorem frames_iff_second : ∃ m held, Managed m held ∧ 258 ∈ held ∧ m.AllocatesLowest ∧
    Allocatable (m.freeFrame 258).physMem 258 := by
  have start := Managed.init ⟨fun _ => 0, fun _ => .zero, fun _ => 0⟩
  have managed := (start.alloc (f := 256) (by decide)).alloc (f := 258) (by decide)
  obtain ⟨lowest, laws⟩ := frames_iff _ _ managed
  exact ⟨_, _, managed, List.mem_cons_self, lowest,
    ((laws 258).2 List.mem_cons_self).mpr (by decide)⟩

/-- The first frame that is given out cannot be taken back. -/
theorem not_frames : ¬∀ m held, Managed m held → m.AllocatesLowest ∧
    ∀ f : Nat, (m.allocFrame.1 = f → (m.allocFrame.2.freeFrame f).physMem = m.physMem) ∧
      (f ∈ held → Allocatable (m.freeFrame f).physMem f) := by
  intro frames
  obtain ⟨_, laws⟩ := frames _ _ (Managed.init ⟨fun _ => 0, fun _ => .zero, fun _ => 0⟩)
  have same := (laws 256).1 (by decide)
  exact absurd (congrFun same 256) (by decide)

end Memory

end Zeos
