import Zeos.Types

/-!
# Lists as sequences

The functions of `list.c` on a heap with any number of lists, and the sequences that the lists stand
for.  A call is permitted when its node is in no list, for an insertion, or in one, for a removal.
-/

namespace Zeos.Lists

open IntrusiveList

/-- The calls that change lists. -/
inductive Operation (α : Type)
  | listAdd (new head : α)
  | listAddTail (new head : α)
  | listDel (entry : α)

/-- The sequences of lists, by their heads. -/
abbrev Sequences (α : Type) := α → Option (List α)

/-- A node is in one of the lists. -/
def Member {α : Type} (lists : Sequences α) (node : α) : Prop :=
  ∃ head members, lists head = some members ∧ node ∈ members

variable {α ε : Type} [DecidableEq α]

namespace Operation

/-- The call. -/
def call (access : α → Except ε Unit) (null : α) (heap : Heap α) : Operation α → Except ε (Heap α)
  | .listAdd new head => IntrusiveList.listAdd access heap new head
  | .listAddTail new head => IntrusiveList.listAddTail access heap new head
  | .listDel entry => IntrusiveList.listDel access null heap entry

/-- What the call does to the sequences. -/
def act (lists : Sequences α) : Operation α → Sequences α
  | .listAdd new head => Function.update lists head ((lists head).map (new :: ·))
  | .listAddTail new head => Function.update lists head ((lists head).map (· ++ [new]))
  | .listDel entry => fun head => (lists head).map (·.erase entry)

omit [DecidableEq α] in
/-- What the call does to the set of all members. -/
def account (linked : α → Prop) : Operation α → α → Prop
  | .listAdd new _ | .listAddTail new _ => fun node => node = new ∨ linked node
  | .listDel entry => fun node => node ≠ entry ∧ linked node

/-- The node that is inserted or removed. -/
def node : Operation α → α
  | .listAdd new _ | .listAddTail new _ => new
  | .listDel entry => entry

/-- The list that a call changes. -/
def Changes (lists : Sequences α) (head : α) : Operation α → Prop
  | .listAdd _ target | .listAddTail _ target => head = target
  | .listDel entry => ∃ members, lists head = some members ∧ entry ∈ members

/-- What a call relies on. -/
def Permitted (valid : α → Prop) (lists : Sequences α) : Operation α → Prop
  | .listAdd new head | .listAddTail new head =>
      (∃ members, lists head = some members) ∧ ¬Owned lists new ∧ valid new
  | .listDel entry => Member lists entry

end Operation

/-- Every call of a sequence is permitted after the ones before it. -/
def AllPermitted (valid : α → Prop) (lists : Sequences α) : List (Operation α) → Prop
  | [] => True
  | op :: ops => op.Permitted valid lists ∧ AllPermitted valid (op.act lists) ops

/-- A sequence of calls. -/
def calls (access : α → Except ε Unit) (null : α) (heap : Heap α) (ops : List (Operation α)) :
    Except ε (Heap α) :=
  ops.foldlM (fun heap op => op.call access null heap) heap

/-- What the functions that read a list find. -/
structure Reads (heap : Heap α) (head : α) (members : List α) : Prop where
  next : ∀ fuel, members.length ≤ fuel → nodes fuel heap head = members
  prev : ∀ fuel, members.length ≤ fuel → nodes fuel (mirror heap) head = members.reverse
  first : listFirst heap head = members.headD head
  empty : listEmpty heap head = members.isEmpty

/-- Disjoint circular lists without repetition, which are read as the sequences. -/
structure Represents (valid : α → Prop) (heap : Heap α) (lists : Sequences α) : Prop where
  family : Family valid heap lists
  reads : ∀ {head members}, lists head = some members → Reads heap head members

/-- A call has done to the heap what it is to do to the sequences, and all else is as before. -/
structure Refines (valid : α → Prop) (null : α) (lists : Sequences α) (op : Operation α)
    (heap heap' : Heap α) : Prop where
  represents : Represents valid heap' (op.act lists)
  others : ∀ head, ¬op.Changes lists head → op.act lists head = lists head
  unchanged : ∀ node, node ≠ op.node →
    (∀ head members, lists head = some members → op.Changes lists head → node ∉ head :: members) →
    heap' node = heap node
  unlinked : ∀ entry, op = .listDel entry → heap' entry = ⟨null, null⟩

variable {access : α → Except ε Unit} {valid : α → Prop} {null : α} {heap : Heap α}
  {lists : Sequences α} {op : Operation α} {ops : List (Operation α)}

theorem Represents.of_family (family : Family valid heap lists) : Represents valid heap lists where
  family := family
  reads found := by
    have ring := family.ring found
    refine ⟨fun _ enough => ring.nodes_eq enough, fun _ enough => ?_, ring.listFirst,
      ring.listEmpty⟩
    exact ring.mirror.nodes_eq (by rw [List.length_reverse]; exact enough)

/-! ## One call -/

theorem act_other (op : Operation α) {head : α} (other : ¬op.Changes lists head) :
    op.act lists head = lists head := by
  cases op with
  | listAdd new target => exact Function.update_of_ne other _ _
  | listAddTail new target => exact Function.update_of_ne other _ _
  | listDel entry =>
      show (lists head).map (·.erase entry) = _
      cases found : lists head with
      | none => rfl
      | some members =>
          have absent : entry ∉ members := fun member => other ⟨members, found, member⟩
          exact congrArg some (List.erase_of_not_mem absent)

theorem act_listAdd {new head : α} {members : List α} (found : lists head = some members) :
    (Operation.listAdd new head).act lists =
      Function.update lists head (some (new :: members)) := by
  rw [Operation.act, found]
  rfl

theorem act_listAddTail {new head : α} {members : List α} (found : lists head = some members) :
    (Operation.listAddTail new head).act lists =
      Function.update lists head (some (members ++ [new])) := by
  rw [Operation.act, found]
  rfl

/-- An entry is removed from the one list that has it. -/
theorem act_listDel (family : Family valid heap lists) {entry head : α} {members : List α}
    (found : lists head = some members) (member : entry ∈ members) :
    (Operation.listDel entry).act lists =
      Function.update lists head (some (members.erase entry)) := by
  funext other
  by_cases here : other = head
  · rw [here, Function.update_self]
    show (lists head).map (·.erase entry) = _
    rw [found]
    rfl
  · rw [Function.update_of_ne here]
    refine act_other _ ?_
    rintro ⟨members', found', member'⟩
    exact family.disjoint found' found here (List.mem_cons_of_mem other member')
      (List.mem_cons_of_mem head member)

/-- A call changes nodes of one list only, and its own node. -/
theorem Refines.of_family {heap' : Heap α} {head : α} {members : List α}
    (found : lists head = some members) (changes : op.Changes lists head)
    (family' : Family valid heap' (op.act lists))
    (same : ∀ node, node ≠ op.node → node ∉ head :: members → heap' node = heap node)
    (unlinked : ∀ entry, op = .listDel entry → heap' entry = ⟨null, null⟩) :
    Refines valid null lists op heap heap' where
  represents := .of_family family'
  others := fun _ => act_other op
  unchanged node other outside := same node other (outside head members found changes)
  unlinked := unlinked

/-- A permitted call does to the lists what it is to do to their sequences. -/
theorem refines (granted : ∀ node, valid node → access node = .ok ())
    (family : Family valid heap lists) (permitted : op.Permitted valid lists) :
    ∃ heap', op.call access null heap = .ok heap' ∧ Refines valid null lists op heap heap' := by
  cases op with
  | listAdd new head =>
      obtain ⟨⟨members, found⟩, fresh, valid_new⟩ := permitted
      obtain ⟨heap', called, family', same⟩ := family.listAdd granted found new fresh valid_new
      rw [← act_listAdd found] at family'
      exact ⟨heap', called, .of_family found rfl family' same nofun⟩
  | listAddTail new head =>
      obtain ⟨⟨members, found⟩, fresh, valid_new⟩ := permitted
      obtain ⟨heap', called, family', same⟩ := family.listAddTail granted found new fresh valid_new
      rw [← act_listAddTail found] at family'
      exact ⟨heap', called, .of_family found rfl family' same nofun⟩
  | listDel entry =>
      obtain ⟨head, members, found, member⟩ := permitted
      obtain ⟨heap', called, family', unlinked, same⟩ :=
        family.listDel granted null found entry member
      rw [← act_listDel family found member] at family'
      refine ⟨heap', called, .of_family found ⟨members, found, member⟩ family'
        (fun node _ outside => same node outside) fun _ removed => ?_⟩
      rw [← Operation.listDel.inj removed]
      exact unlinked

/-! ## Sequences of calls -/

/-- The heads stay the same ones. -/
theorem isSome_act (op : Operation α) (head : α) :
    (op.act lists head).isSome = (lists head).isSome := by
  have updated : ∀ (target : α) (change : List α → List α),
      (Function.update lists target ((lists target).map change) head).isSome =
        (lists head).isSome := by
    intro target change
    rw [Function.update_apply]
    split_ifs with same
    · rw [same, Option.isSome_map]
    · rfl
  cases op with
  | listAdd new target => exact updated target _
  | listAddTail new target => exact updated target _
  | listDel entry => exact Option.isSome_map

/-- A member is in the list of a head or in another one. -/
theorem member_update (lists : Sequences α) (head : α) (members : List α) (node : α) :
    Member (Function.update lists head (some members)) node ↔
      node ∈ members ∨
        ∃ other others, other ≠ head ∧ lists other = some others ∧ node ∈ others := by
  constructor
  · rintro ⟨other, others, found, member⟩
    rw [Function.update_apply] at found
    split_ifs at found with same
    · exact .inl (Option.some.inj found ▸ member)
    · exact .inr ⟨other, others, same, found, member⟩
  · rintro (member | ⟨other, others, different, found, member⟩)
    · exact ⟨head, members, Function.update_self .., member⟩
    · exact ⟨other, others, (Function.update_of_ne different ..).trans found, member⟩

theorem member_iff {head : α} {members : List α} (found : lists head = some members) (node : α) :
    Member lists node ↔
      node ∈ members ∨
        ∃ other others, other ≠ head ∧ lists other = some others ∧ node ∈ others := by
  have same : Function.update lists head (some members) = lists := by
    rw [← found, Function.update_eq_self]
  rw [← member_update, same]

/-- A call inserts or removes its node and no other one. -/
theorem member_act (family : Family valid heap lists) (permitted : op.Permitted valid lists)
    (node : α) : Member (op.act lists) node ↔ op.account (Member lists) node := by
  cases op with
  | listAdd new head =>
      obtain ⟨⟨members, found⟩, _⟩ := permitted
      rw [act_listAdd found, member_update, List.mem_cons, or_assoc, ← member_iff found]
      rfl
  | listAddTail new head =>
      obtain ⟨⟨members, found⟩, _⟩ := permitted
      rw [act_listAddTail found, member_update, List.mem_append, List.mem_singleton,
        @or_comm _ (node = new), or_assoc, ← member_iff found]
      rfl
  | listDel entry =>
      obtain ⟨head, members, found, member⟩ := permitted
      have nodup := (List.nodup_cons.mp (family.ring found).nodup).2
      have apart : ∀ other others, other ≠ head → lists other = some others → node ∈ others →
          node ≠ entry := by
        rintro other others different found' member' rfl
        exact family.disjoint found' found different (List.mem_cons_of_mem other member')
          (List.mem_cons_of_mem head member)
      show _ ↔ node ≠ entry ∧ Member lists node
      rw [act_listDel family found member, member_update, nodup.mem_erase_iff, member_iff found,
        and_or_left]
      refine or_congr_right (and_iff_right_of_imp ?_).symm
      rintro ⟨other, others, different, found', member'⟩
      exact apart other others different found' member'

/-- A permitted sequence of calls keeps all lists apart and well formed, and leaves exactly the
nodes in them that have been inserted and not removed. -/
theorem represents_calls (granted : ∀ node, valid node → access node = .ok ())
    (family : Family valid heap lists) (permitted : AllPermitted valid lists ops) :
    ∃ heap', calls access null heap ops = .ok heap' ∧
      Represents valid heap' (ops.foldl Operation.act lists) ∧
      (∀ head, (ops.foldl Operation.act lists head).isSome = (lists head).isSome) ∧
      ∀ node, Member (ops.foldl Operation.act lists) node ↔
        ops.foldl Operation.account (Member lists) node := by
  induction ops generalizing heap lists with
  | nil => exact ⟨heap, rfl, .of_family family, fun _ => rfl, fun _ => Iff.rfl⟩
  | cons op ops induction =>
      obtain ⟨first, rest⟩ := permitted
      obtain ⟨heap₁, called, refined⟩ : ∃ heap₁, op.call access null heap = .ok heap₁ ∧
          Refines valid null lists op heap heap₁ := refines granted family first
      obtain ⟨heap', finished, represents, heads, members⟩ :=
        induction refined.represents.family rest
      have accounted : Member (op.act lists) = op.account (Member lists) :=
        funext fun node => propext (member_act family first node)
      refine ⟨heap', ?_, represents, fun head => ?_, fun node => ?_⟩
      · rw [calls, List.foldlM_cons, called]
        exact finished
      · rw [List.foldl_cons, heads, isSome_act]
      · rw [List.foldl_cons, List.foldl_cons, members, accounted]

/-- The functions on lists refine their sequences, and so does every permitted sequence of calls. -/
theorem refines_sequences (granted : ∀ node, valid node → access node = .ok ())
    (family : Family valid heap lists) :
    Represents valid heap lists ∧
      (∀ op : Operation α, op.Permitted valid lists →
        ∃ heap', op.call access null heap = .ok heap' ∧ Refines valid null lists op heap heap') ∧
      ∀ ops : List (Operation α), AllPermitted valid lists ops →
        ∃ heap', calls access null heap ops = .ok heap' ∧
          Represents valid heap' (ops.foldl Operation.act lists) ∧
          (∀ head, (ops.foldl Operation.act lists head).isSome = (lists head).isSome) ∧
          ∀ node, Member (ops.foldl Operation.act lists) node ↔
            ops.foldl Operation.account (Member lists) node :=
  ⟨.of_family family, fun _ permitted => refines granted family permitted,
    fun _ permitted => represents_calls granted family permitted⟩

/-- From an empty list at `0`: a node is inserted, another one behind it, and the first removed. -/
theorem refines_sequences_three :
    ∃ heap', calls (fun _ => (.ok () : Except Fault Unit)) 9 (fun node : ℕ => ⟨node, node⟩)
        [.listAdd 5 0, .listAddTail 7 0, .listDel 5] = .ok heap' ∧ Reads heap' 0 [7] := by
  let lists : List ℕ → Sequences ℕ := fun members head => if head = 0 then some members else none
  have only : ∀ {members head found}, lists members head = some found →
      head = 0 ∧ members = found := by
    intro members head found here
    simpa [lists] using here
  have family : Family (fun _ => True) (fun node => ⟨node, node⟩) (lists []) := by
    refine ⟨fun found => ?_, fun found found' different => ?_, fun _ _ _ => trivial⟩
    · obtain ⟨rfl, rfl⟩ := only found
      exact ring_nil_iff.mpr ⟨rfl, rfl⟩
    · exact absurd ((only found).1.trans (only found').1.symm) different
  have fresh : ∀ {members node}, node ∉ 0 :: members → ¬Owned (lists members) node := by
    rintro members node outside ⟨head, found, here, member⟩
    obtain ⟨rfl, rfl⟩ := only here
    exact outside member
  have act : ∀ members change, Function.update (lists members) 0 ((lists members 0).map change) =
      lists (change members) := by
    intro members change
    funext head
    by_cases here : head = 0
    · simp [here, lists]
    · simp [here, lists]
  have first : (Operation.listAdd 5 0).act (lists []) = lists [5] := act [] _
  have second : (Operation.listAddTail 7 0).act (lists [5]) = lists [5, 7] := act [5] _
  have permitted : AllPermitted (fun _ => True) (lists [])
      [.listAdd 5 0, .listAddTail 7 0, .listDel 5] := by
    refine ⟨⟨⟨[], rfl⟩, fresh (by decide), trivial⟩, ?_⟩
    rw [first]
    refine ⟨⟨⟨[5], rfl⟩, fresh (by decide), trivial⟩, ?_⟩
    rw [second]
    exact ⟨⟨0, [5, 7], rfl, by decide⟩, trivial⟩
  obtain ⟨heap', called, represents, _⟩ :=
    (refines_sequences (fun _ _ => rfl) family).2.2 _ permitted
  refine ⟨heap', called, represents.reads ?_⟩
  simp only [List.foldl_cons, first, second]
  rfl

/-! ## The lists of the kernel -/

section Kernel

variable {valid : Node → Prop} {lists : Sequences Node} {s : Kernel}

theorem kernel_listAddTail (granted : ∀ node, valid node → s.access node = .ok ())
    (family : Family valid s.heap lists) {new head : Node}
    (permitted : (Operation.listAddTail new head).Permitted valid lists) :
    ∃ heap, s.listAddTail new head = .ok { s with heap } ∧
      Refines valid .null lists (.listAddTail new head) s.heap heap := by
  obtain ⟨heap, called, refined⟩ : ∃ heap, IntrusiveList.listAddTail s.access s.heap new head =
      .ok heap ∧ Refines valid .null lists (.listAddTail new head) s.heap heap :=
    refines granted family permitted
  refine ⟨heap, ?_, refined⟩
  rw [Kernel.listAddTail, called]
  rfl

theorem kernel_listDel (granted : ∀ node, valid node → s.access node = .ok ())
    (family : Family valid s.heap lists) {entry : Node}
    (permitted : (Operation.listDel entry).Permitted valid lists) :
    ∃ heap, s.listDel entry = .ok { s with heap } ∧
      Refines valid .null lists (.listDel entry) s.heap heap := by
  obtain ⟨heap, called, refined⟩ : ∃ heap, IntrusiveList.listDel s.access .null s.heap entry =
      .ok heap ∧ Refines valid .null lists (.listDel entry) s.heap heap :=
    refines granted family permitted
  refine ⟨heap, ?_, refined⟩
  rw [Kernel.listDel, called]
  rfl

end Kernel

end Zeos.Lists
