import Mathlib.Data.List.Chain
import Mathlib.Data.List.Nodup
import Mathlib.Logic.Function.Basic

/-!
# Circular doubly linked lists with embedded nodes

The list nodes of a heap are addressed by an arbitrary type.  An access may fault, so every
operation runs in `Except`.  `Ring` says that a head and a sequence of nodes form one circular
list, and `Family` says this of several pairwise disjoint lists at once; the operations are proved
to change exactly the sequence they are meant to change.
-/

namespace IntrusiveList

/-- The two words of a list node. -/
@[ext]
structure Links (α : Type) where
  /-- Successor in the ring. -/
  next : α
  /-- Predecessor in the ring. -/
  prev : α
  deriving DecidableEq

/-- The node contents of a memory. -/
abbrev Heap (α : Type) := α → Links α

section Operations

variable {α ε : Type} [DecidableEq α]

/-- Store the `next` word of a node. -/
def setNext (heap : Heap α) (node value : α) : Heap α :=
  Function.update heap node { heap node with next := value }

/-- Store the `prev` word of a node. -/
def setPrev (heap : Heap α) (node value : α) : Heap α :=
  Function.update heap node { heap node with prev := value }

variable (access : α → Except ε Unit)

/-- `INIT_LIST_HEAD`: an empty ring. -/
def initListHead (heap : Heap α) (list : α) : Except ε (Heap α) := do
  access list
  return setPrev (setNext heap list list) list list

/-- `__list_add`: insert between two known consecutive entries. -/
def listAddBetween (heap : Heap α) (new prev next : α) : Except ε (Heap α) := do
  access next
  let heap := setPrev heap next new
  access new
  let heap := setNext heap new next
  let heap := setPrev heap new prev
  access prev
  return setNext heap prev new

/-- `list_add`: insert after the head. -/
def listAdd (heap : Heap α) (new head : α) : Except ε (Heap α) := do
  access head
  listAddBetween access heap new head (heap head).next

/-- `list_add_tail`: insert before the head. -/
def listAddTail (heap : Heap α) (new head : α) : Except ε (Heap α) := do
  access head
  listAddBetween access heap new (heap head).prev head

/-- `__list_del`: make two entries point to each other. -/
def listDelBetween (heap : Heap α) (prev next : α) : Except ε (Heap α) := do
  access next
  let heap := setPrev heap next prev
  access prev
  return setNext heap prev next

/-- `list_del`: unlink an entry and store the null pointer in both of its words. -/
def listDel (null : α) (heap : Heap α) (entry : α) : Except ε (Heap α) := do
  access entry
  let heap ← listDelBetween access heap (heap entry).prev (heap entry).next
  return setPrev (setNext heap entry null) entry null

/-- `list_first`: the successor of the head, which is the head itself for an empty list. -/
def listFirst (heap : Heap α) (head : α) : α := (heap head).next

/-- `list_empty`. -/
def listEmpty (heap : Heap α) (head : α) : Bool := (heap head).next = head

/-- The nodes met by following `next` from the head until the head is met again, giving up after
`fuel` nodes. -/
def walk (heap : Heap α) (head : α) : Nat → α → List α
  | 0, _ => []
  | fuel + 1, node => if node = head then [] else node :: walk heap head fuel (heap node).next

/-- The nodes of the list at `head`, as a traversal finds them. -/
def nodes (fuel : Nat) (heap : Heap α) (head : α) : List α :=
  walk heap head fuel (heap head).next

end Operations

/-! ## Field updates -/

section Updates

variable {α : Type} [DecidableEq α] (heap : Heap α) (node other value : α)

theorem setNext_apply : setNext heap node value other =
    if other = node then { heap node with next := value } else heap other := by
  simp [setNext, Function.update_apply]

theorem setPrev_apply : setPrev heap node value other =
    if other = node then { heap node with prev := value } else heap other := by
  simp [setPrev, Function.update_apply]

end Updates

/-! ## Rings -/

section Ring

variable {α : Type}

/-- Two nodes point to each other as neighbours. -/
def Linked (heap : Heap α) (left right : α) : Prop :=
  (heap left).next = right ∧ (heap right).prev = left

/-- `head` and `members`, in this order, form a circular list. -/
structure Ring (heap : Heap α) (head : α) (members : List α) : Prop where
  /-- Neighbours around the ring point to each other. -/
  linked : (head :: members ++ [head]).IsChain (Linked heap)
  /-- No node occurs twice. -/
  nodup : (head :: members).Nodup

/-- A chain only reads `next` of every node but the last and `prev` of every node but the
first. -/
theorem chain_transport {heap heap' : Heap α} (front : List α) (last : α)
    (next_eq : ∀ node ∈ front, (heap' node).next = (heap node).next)
    (prev_eq : ∀ node ∈ (front ++ [last]).tail, (heap' node).prev = (heap node).prev)
    (chain : (front ++ [last]).IsChain (Linked heap)) :
    (front ++ [last]).IsChain (Linked heap') := by
  induction front with
  | nil => simp
  | cons first rest induction =>
      have tail_prev : ∀ node ∈ (rest ++ [last]).tail,
          (heap' node).prev = (heap node).prev := fun node member =>
        prev_eq node (List.mem_of_mem_tail member)
      have tail_chain := induction
        (fun node member => next_eq node (List.mem_cons_of_mem _ member))
        tail_prev chain.tail
      rw [List.cons_append, List.isChain_cons] at chain ⊢
      refine ⟨fun node member => ?_, tail_chain⟩
      obtain ⟨forward, backward⟩ := chain.1 node member
      refine ⟨(next_eq first List.mem_cons_self).trans forward, ?_⟩
      exact (prev_eq node (List.mem_of_mem_head? member)).trans backward

/-- A ring is untouched by changes to other nodes. -/
theorem Ring.frame {heap heap' : Heap α} {head : α} {members : List α}
    (ring : Ring heap head members)
    (same : ∀ node ∈ head :: members, heap' node = heap node) : Ring heap' head members where
  linked := by
    refine chain_transport (head :: members) head ?_ ?_ ring.linked
    · intro node member
      rw [same node member]
    · intro node member
      rw [same node (by simpa [or_comm] using member)]
  nodup := ring.nodup

/-- The head of an empty ring points to itself. -/
theorem ring_nil_iff {heap : Heap α} {head : α} :
    Ring heap head [] ↔ (heap head).next = head ∧ (heap head).prev = head := by
  constructor
  · intro ring
    simpa [Linked] using ring.linked
  · intro linked
    exact ⟨by simpa [Linked] using linked, by simp⟩

theorem Ring.next_head {heap : Heap α} {head : α} {members : List α}
    (ring : Ring heap head members) : (heap head).next = members.headD head := by
  have linked := ring.linked
  cases members with
  | nil => exact (ring_nil_iff.mp ring).1
  | cons first rest =>
      rw [List.cons_append, List.cons_append, List.isChain_cons_cons] at linked
      exact linked.1.1

theorem Ring.prev_head {heap : Heap α} {head : α} {front : List α} {last : α}
    {members : List α} (ring : Ring heap head members) (split : head :: members = front ++ [last]) :
    (heap head).prev = last := by
  have linked := ring.linked
  rw [split, List.append_assoc, List.singleton_append, List.isChain_append_cons_cons] at linked
  exact linked.2.1.2

/-- Every list ends somewhere: the head together with the members has a last node. -/
theorem exists_front_last (head : α) (members : List α) :
    ∃ front last, head :: members = front ++ [last] := by
  refine ⟨(head :: members).dropLast, (head :: members).getLast (by simp), ?_⟩
  exact (List.dropLast_append_getLast (by simp)).symm

theorem Ring.nodup_rotate {heap : Heap α} {head : α} {members : List α}
    (ring : Ring heap head members) : (members ++ [head]).Nodup :=
  (List.perm_append_singleton head members).nodup_iff.mpr ring.nodup

end Ring

/-! ## Insertion and removal -/

section Edits

variable {α : Type} [DecidableEq α]

/-- The heap after an insertion between `prev` and `next`. -/
def insertBetween (heap : Heap α) (new prev next : α) : Heap α :=
  setNext (setPrev (setNext (setPrev heap next new) new next) new prev) prev new

theorem insertBetween_next (heap : Heap α) (new prev next node : α) :
    (insertBetween heap new prev next node).next =
      if node = prev then new else if node = new then next else (heap node).next := by
  simp only [insertBetween, setNext_apply, setPrev_apply]
  grind

theorem insertBetween_prev (heap : Heap α) (new prev next node : α) :
    (insertBetween heap new prev next node).prev =
      if node = new then prev else if node = next then new else (heap node).prev := by
  simp only [insertBetween, setNext_apply, setPrev_apply]
  grind

theorem insertBetween_frame (heap : Heap α) {new prev next node : α} (not_new : node ≠ new)
    (not_prev : node ≠ prev) (not_next : node ≠ next) :
    insertBetween heap new prev next node = heap node := by
  ext
  · rw [insertBetween_next, if_neg not_prev, if_neg not_new]
  · rw [insertBetween_prev, if_neg not_new, if_neg not_next]

/-- The heap after unlinking `entry`, whose neighbours are `prev` and `next`. -/
def removeBetween (null : α) (heap : Heap α) (entry prev next : α) : Heap α :=
  setPrev (setNext (setNext (setPrev heap next prev) prev next) entry null) entry null

theorem removeBetween_next (null : α) (heap : Heap α) (entry prev next node : α) :
    (removeBetween null heap entry prev next node).next =
      if node = entry then null else if node = prev then next else (heap node).next := by
  simp only [removeBetween, setNext_apply, setPrev_apply]
  grind

theorem removeBetween_prev (null : α) (heap : Heap α) (entry prev next node : α) :
    (removeBetween null heap entry prev next node).prev =
      if node = entry then null else if node = next then prev else (heap node).prev := by
  simp only [removeBetween, setNext_apply, setPrev_apply]
  grind

theorem removeBetween_frame (null : α) (heap : Heap α) {entry prev next node : α}
    (not_entry : node ≠ entry) (not_prev : node ≠ prev) (not_next : node ≠ next) :
    removeBetween null heap entry prev next node = heap node := by
  ext
  · rw [removeBetween_next, if_neg not_entry, if_neg not_prev]
  · rw [removeBetween_prev, if_neg not_entry, if_neg not_next]

/-- Insertion between two neighbours of a chain that repeats at most its two ends. -/
theorem chain_insert {heap : Heap α} (front back : List α) {left right : α} (new : α)
    (chain : (front ++ left :: right :: back).IsChain (Linked heap))
    (nodup_sources : (front ++ left :: (right :: back).dropLast).Nodup)
    (nodup_targets : ((front ++ [left]).tail ++ right :: back).Nodup)
    (fresh : new ∉ front ++ left :: right :: back) :
    (front ++ left :: new :: right :: back).IsChain
      (Linked (insertBetween heap new left right)) := by
  simp only [List.mem_append, List.mem_cons, not_or] at fresh
  obtain ⟨fresh_front, fresh_left, fresh_right, fresh_back⟩ := fresh
  rw [List.isChain_append_cons_cons] at chain ⊢
  rw [List.isChain_cons_cons]
  obtain ⟨chain_front, -, chain_back⟩ := chain
  refine ⟨?_, ⟨?_, ?_⟩, ⟨?_, ?_⟩, ?_⟩
  · refine chain_transport front left ?_ ?_ chain_front
    · intro node member
      have not_left : node ≠ left := by
        rintro rfl
        exact (List.nodup_append.mp nodup_sources).2.2 node member node (by simp) rfl
      rw [insertBetween_next, if_neg not_left, if_neg (by rintro rfl; exact fresh_front member)]
    · intro node member
      have not_right : node ≠ right := by
        rintro rfl
        exact (List.nodup_append.mp nodup_targets).2.2 node member node (by simp) rfl
      have not_new : node ≠ new := by
        rintro rfl
        have member := List.mem_of_mem_tail member
        simp only [List.mem_append, List.mem_singleton] at member
        exact member.elim fresh_front (fun same => fresh_left same)
      rw [insertBetween_prev, if_neg not_new, if_neg not_right]
  · rw [insertBetween_next, if_pos rfl]
  · rw [insertBetween_prev, if_pos rfl]
  · rw [insertBetween_next, if_neg fresh_left, if_pos rfl]
  · rw [insertBetween_prev, if_neg (Ne.symm fresh_right), if_pos rfl]
  · obtain ⟨inner, last, split⟩ := exists_front_last right back
    rw [split] at chain_back ⊢
    refine chain_transport inner last ?_ ?_ chain_back
    · intro node member
      have inner_eq : (right :: back).dropLast = inner := by rw [split]; simp
      have not_left : node ≠ left := by
        rintro rfl
        rw [inner_eq] at nodup_sources
        have := (List.nodup_append.mp nodup_sources).2.1
        exact (List.nodup_cons.mp this).1 member
      have not_new : node ≠ new := by
        rintro rfl
        have member : node ∈ right :: back := by
          rw [split]
          exact List.mem_append_left _ member
        exact (List.mem_cons.mp member).elim (fun same => fresh_right same) fresh_back
      rw [insertBetween_next, if_neg not_left, if_neg not_new]
    · rw [← split]
      intro node member
      have not_right : node ≠ right := by
        rintro rfl
        have := (List.nodup_append.mp nodup_targets).2.1
        exact (List.nodup_cons.mp this).1 member
      have not_new : node ≠ new := by
        rintro rfl
        exact fresh_back member
      rw [insertBetween_prev, if_neg not_new, if_neg not_right]

/-- Unlinking an inner node of a chain that repeats at most its two ends. -/
theorem chain_remove {null : α} {heap : Heap α} {front back : List α} {left right entry : α}
    (chain : (front ++ left :: entry :: right :: back).IsChain (Linked heap))
    (nodup_sources : (front ++ left :: entry :: (right :: back).dropLast).Nodup)
    (nodup_targets : ((front ++ [left]).tail ++ entry :: right :: back).Nodup) :
    (front ++ left :: right :: back).IsChain
      (Linked (removeBetween null heap entry left right)) := by
  rw [List.isChain_append_cons_cons] at chain ⊢
  rw [List.isChain_cons_cons] at chain
  obtain ⟨chain_front, -, -, chain_back⟩ := chain
  have sources := List.nodup_append.mp nodup_sources
  have targets := List.nodup_append.mp nodup_targets
  have left_ne : left ≠ entry := by
    have := sources.2.1
    simp only [List.nodup_cons, List.mem_cons, not_or] at this
    exact this.1.1
  have right_ne : right ≠ entry := by
    have := targets.2.1
    simp only [List.nodup_cons, List.mem_cons, not_or] at this
    exact fun same => this.1.1 same.symm
  refine ⟨?_, ⟨?_, ?_⟩, ?_⟩
  · refine chain_transport front left ?_ ?_ chain_front
    · intro node member
      rw [removeBetween_next, if_neg (sources.2.2 node member entry (by simp)),
        if_neg (sources.2.2 node member left (by simp))]
    · intro node member
      rw [removeBetween_prev, if_neg (targets.2.2 node member entry (by simp)),
        if_neg (targets.2.2 node member right (by simp))]
  · rw [removeBetween_next, if_neg left_ne, if_pos rfl]
  · rw [removeBetween_prev, if_neg right_ne, if_pos rfl]
  · obtain ⟨inner, last, split⟩ := exists_front_last right back
    have inner_eq : (right :: back).dropLast = inner := by rw [split]; simp
    rw [split] at chain_back ⊢
    refine chain_transport inner last ?_ ?_ chain_back
    · intro node member
      have nodup := sources.2.1
      rw [inner_eq, List.nodup_cons, List.nodup_cons, List.mem_cons, not_or] at nodup
      have not_entry : node ≠ entry := by
        rintro rfl
        exact nodup.2.1 member
      have not_left : node ≠ left := by
        rintro rfl
        exact nodup.1.2 member
      rw [removeBetween_next, if_neg not_entry, if_neg not_left]
    · rw [← split]
      intro node member
      have nodup := targets.2.1
      rw [List.nodup_cons, List.nodup_cons, List.mem_cons, not_or] at nodup
      have not_entry : node ≠ entry := by
        rintro rfl
        exact nodup.1.2 member
      have not_right : node ≠ right := by
        rintro rfl
        exact nodup.2.1 member
      rw [removeBetween_prev, if_neg not_entry, if_neg not_right]

/-- Appending a fresh node to a ring. -/
theorem Ring.append {heap : Heap α} {head new : α} {members : List α}
    (ring : Ring heap head members) (fresh : new ∉ head :: members) :
    Ring (insertBetween heap new (heap head).prev head) head (members ++ [new]) := by
  obtain ⟨front, last, split⟩ := exists_front_last head members
  rw [ring.prev_head split]
  have chain := ring.linked
  rw [split, List.append_assoc, List.singleton_append] at chain
  have fresh_around : new ∉ front ++ last :: head :: [] := by
    intro member
    have around : new ∈ front ++ [last] ∨ new = head := by simpa [or_assoc] using member
    rw [← split] at around
    exact fresh (around.elim id fun same => same ▸ List.mem_cons_self)
  constructor
  · have inserted := chain_insert front [] new chain
      (by simpa using split ▸ ring.nodup)
      (by simpa [← split] using ring.nodup_rotate)
      fresh_around
    have shape : head :: (members ++ [new]) ++ [head] = front ++ last :: new :: [head] := by
      rw [← List.cons_append, split]
      simp
    rw [shape]
    exact inserted
  · rw [← List.cons_append, List.nodup_append_comm, List.singleton_append, List.nodup_cons]
    exact ⟨fresh, ring.nodup⟩

/-- Pushing a fresh node in front of a ring. -/
theorem Ring.push {heap : Heap α} {head new : α} {members : List α}
    (ring : Ring heap head members) (fresh : new ∉ head :: members) :
    Ring (insertBetween heap new head (heap head).next) head (new :: members) := by
  have nodup : (head :: new :: members).Nodup := by
    have := ring.nodup
    simp_all [eq_comm]
  refine ⟨?_, nodup⟩
  rw [ring.next_head]
  have chain := ring.linked
  cases members with
  | nil =>
      exact chain_insert [] [] new chain (by simp) (by simp) (by simp_all)
  | cons first rest =>
      have sources : (first :: (rest ++ [head])).dropLast = first :: rest := by
        rw [← List.cons_append, List.dropLast_concat]
      exact chain_insert [] (rest ++ [head]) new chain
        (by simpa [sources] using ring.nodup) (by simpa using ring.nodup_rotate) (by simp_all)

/-- The neighbours of a member, and the ring without it. -/
theorem Ring.remove (null : α) {heap : Heap α} {head entry : α} {front back : List α}
    (ring : Ring heap head (front ++ entry :: back)) :
    (heap entry).prev ∈ head :: front ∧ (heap entry).next ∈ back ++ [head] ∧
      Ring (removeBetween null heap entry (heap entry).prev (heap entry).next) head
        (front ++ back) := by
  obtain ⟨inner, left, split_front⟩ := exists_front_last head front
  obtain ⟨right, outer, split_back⟩ : ∃ right outer, back ++ [head] = right :: outer := by
    cases back with
    | nil => exact ⟨head, [], rfl⟩
    | cons first rest => exact ⟨first, rest ++ [head], rfl⟩
  have shape : head :: (front ++ entry :: back) ++ [head] =
      inner ++ left :: entry :: right :: outer := by
    rw [← split_back, ← List.cons_append, split_front]
    simp
  have shape_without : head :: (front ++ back) ++ [head] = inner ++ left :: right :: outer := by
    rw [← split_back, ← List.cons_append, split_front]
    simp
  have chain := ring.linked
  rw [shape] at chain
  have around := chain
  rw [List.isChain_append_cons_cons, List.isChain_cons_cons] at around
  obtain ⟨-, ⟨-, prev_eq⟩, ⟨next_eq, -⟩, -⟩ := around
  refine ⟨?_, ?_, ?_, ?_⟩
  · rw [prev_eq, split_front]
    simp
  · rw [next_eq, split_back]
    simp
  · rw [prev_eq, next_eq, shape_without]
    refine chain_remove chain ?_ ?_
    · have sources : inner ++ left :: entry :: (right :: outer).dropLast =
          head :: (front ++ entry :: back) := by
        rw [← split_back, ← List.cons_append, split_front]
        simp
      rw [sources]
      exact ring.nodup
    · have targets : (inner ++ [left]).tail ++ entry :: right :: outer =
          front ++ entry :: back ++ [head] := by
        rw [← split_back, ← split_front]
        simp
      rw [targets]
      exact ring.nodup_rotate
  · have := ring.nodup
    rw [← List.cons_append] at this ⊢
    exact (this.sublist (by simp))

end Edits

/-! ## Families of disjoint rings -/

section Family

variable {α : Type}

/-- A node that is the head or a member of one of the lists. -/
def Owned (lists : α → Option (List α)) (node : α) : Prop :=
  ∃ head members, lists head = some members ∧ node ∈ head :: members

/-- Every head with a sequence carries that sequence as a ring, and no node belongs to two
rings. -/
structure Family (valid : α → Prop) (heap : Heap α) (lists : α → Option (List α)) : Prop where
  /-- Each list is a ring. -/
  ring : ∀ {head members}, lists head = some members → Ring heap head members
  /-- Two lists share no node. -/
  disjoint : ∀ {head head' members members'}, lists head = some members →
    lists head' = some members' → head ≠ head' → (head :: members).Disjoint (head' :: members')
  /-- The nodes of every list may be accessed. -/
  valid : ∀ {head members}, lists head = some members → ∀ node ∈ head :: members, valid node

namespace Family

variable {valid : α → Prop} {heap heap' : Heap α} {lists : α → Option (List α)}

/-- A family is untouched by changes to nodes it does not own. -/
theorem frame (family : Family valid heap lists)
    (same : ∀ node, Owned lists node → heap' node = heap node) : Family valid heap' lists where
  ring found := (family.ring found).frame fun node member => same node ⟨_, _, found, member⟩
  disjoint := family.disjoint
  valid := family.valid

/-- A node is in the list of at most one head. -/
theorem head_unique (family : Family valid heap lists) {head head' : α}
    {members members' : List α} (found : lists head = some members)
    (found' : lists head' = some members') {node : α} (member : node ∈ head :: members)
    (member' : node ∈ head' :: members') : head = head' := by
  by_contra different
  exact family.disjoint found found' different member member'

variable [DecidableEq α]

theorem update_of_ring (family : Family valid heap lists) {head : α} {members : List α}
    (ring : Ring heap' head members)
    (valid_new : ∀ node ∈ head :: members, valid node)
    (separate : ∀ {head' members'}, lists head' = some members' → head ≠ head' →
      (head :: members).Disjoint (head' :: members'))
    (same : ∀ {head' members'}, lists head' = some members' → head ≠ head' →
      ∀ node ∈ head' :: members', heap' node = heap node) :
    Family valid heap' (Function.update lists head (some members)) := by
  have cases_of : ∀ {head' members'},
      Function.update lists head (some members) head' = some members' →
        (head' = head ∧ members' = members) ∨ (head ≠ head' ∧ lists head' = some members') := by
    intro head' members' found
    by_cases here : head' = head
    · subst here
      exact .inl ⟨rfl, by simpa using found.symm⟩
    · exact .inr ⟨Ne.symm here, by simpa [here] using found⟩
  constructor
  · intro head' members' found
    rcases cases_of found with ⟨rfl, rfl⟩ | ⟨different, found⟩
    · exact ring
    · exact (family.ring found).frame (same found different)
  · intro left right leftMembers rightMembers left_found right_found different
    rcases cases_of left_found with ⟨left_eq, rfl⟩ | ⟨left_ne, left_old⟩
    · rcases cases_of right_found with ⟨right_eq, rfl⟩ | ⟨right_ne, right_old⟩
      · exact absurd (left_eq.trans right_eq.symm) different
      · exact left_eq ▸ separate right_old right_ne
    · rcases cases_of right_found with ⟨right_eq, rfl⟩ | ⟨right_ne, right_old⟩
      · exact right_eq ▸ List.disjoint_comm.mp (separate left_old left_ne)
      · exact family.disjoint left_old right_old different
  · intro head' members' found
    rcases cases_of found with ⟨rfl, rfl⟩ | ⟨_, found⟩
    · exact valid_new
    · exact family.valid found

end Family

end Family

/-! ## The operations on a family -/

section Operations

variable {α ε : Type} [DecidableEq α] {access : α → Except ε Unit} {valid : α → Prop}
  {heap : Heap α} {lists : α → Option (List α)}
  (granted : ∀ node, valid node → access node = .ok ())

include granted

/-- A fresh node is inserted between two nodes of one list. -/
theorem Family.insert (family : Family valid heap lists) {head new prev next : α}
    {members members' : List α} (found : lists head = some members) (fresh : ¬Owned lists new)
    (valid_new : valid new) (prev_member : prev ∈ head :: members)
    (next_member : next ∈ head :: members)
    (ring : Ring (insertBetween heap new prev next) head members')
    (only : ∀ node ∈ head :: members', node ∈ head :: members ∨ node = new) :
    listAddBetween access heap new prev next = .ok (insertBetween heap new prev next) ∧
      Family valid (insertBetween heap new prev next)
        (Function.update lists head (some members')) ∧
      ∀ node, node ≠ new → node ∉ head :: members →
        insertBetween heap new prev next node = heap node := by
  have unchanged : ∀ node, node ≠ new → node ∉ head :: members →
      insertBetween heap new prev next node = heap node := by
    intro node not_new outside
    refine insertBetween_frame heap not_new ?_ ?_
    · rintro rfl
      exact outside prev_member
    · rintro rfl
      exact outside next_member
  refine ⟨?_, ?_, unchanged⟩
  · simp only [listAddBetween, granted next (family.valid found next next_member),
      granted new valid_new, granted prev (family.valid found prev prev_member)]
    rfl
  · refine family.update_of_ring ring ?_ ?_ ?_
    · intro node member
      rcases only node member with member | rfl
      · exact family.valid found node member
      · exact valid_new
    · intro head' members' found' different node member member'
      rcases only node member with member | rfl
      · exact family.disjoint found found' different member member'
      · exact fresh ⟨_, _, found', member'⟩
    · intro head' members' found' different node member'
      refine unchanged node ?_ ?_
      · rintro rfl
        exact fresh ⟨_, _, found', member'⟩
      · intro member
        exact family.disjoint found found' different member member'

/-- `list_add_tail` appends a fresh node to the list of the head. -/
theorem Family.listAddTail (family : Family valid heap lists) {head : α} {members : List α}
    (found : lists head = some members) (new : α) (fresh : ¬Owned lists new)
    (valid_new : valid new) :
    ∃ heap', IntrusiveList.listAddTail access heap new head = .ok heap' ∧
      Family valid heap' (Function.update lists head (some (members ++ [new]))) ∧
      ∀ node, node ≠ new → node ∉ head :: members → heap' node = heap node := by
  have ring := family.ring found
  have not_member : new ∉ head :: members := fun member => fresh ⟨_, _, found, member⟩
  obtain ⟨front, last, split⟩ := exists_front_last head members
  have prev_member : (heap head).prev ∈ head :: members := by
    rw [ring.prev_head split, split]
    simp
  have only : ∀ node ∈ head :: (members ++ [new]), node ∈ head :: members ∨ node = new := by
    intro node member
    rwa [← List.cons_append, List.mem_append, List.mem_singleton] at member
  obtain ⟨inserted, family', unchanged⟩ := family.insert granted found fresh valid_new prev_member
    List.mem_cons_self (ring.append not_member) only
  refine ⟨_, ?_, family', unchanged⟩
  simp only [IntrusiveList.listAddTail, granted head (family.valid found head (by simp))]
  exact inserted

/-- `list_add` pushes a fresh node in front of the list of the head. -/
theorem Family.listAdd (family : Family valid heap lists) {head : α} {members : List α}
    (found : lists head = some members) (new : α) (fresh : ¬Owned lists new)
    (valid_new : valid new) :
    ∃ heap', IntrusiveList.listAdd access heap new head = .ok heap' ∧
      Family valid heap' (Function.update lists head (some (new :: members))) ∧
      ∀ node, node ≠ new → node ∉ head :: members → heap' node = heap node := by
  have ring := family.ring found
  have not_member : new ∉ head :: members := fun member => fresh ⟨_, _, found, member⟩
  have next_member : (heap head).next ∈ head :: members := by
    rw [ring.next_head]
    cases members <;> simp
  have only : ∀ node ∈ head :: new :: members, node ∈ head :: members ∨ node = new := by
    intro node member
    simp only [List.mem_cons] at member ⊢
    tauto
  obtain ⟨inserted, family', unchanged⟩ := family.insert granted found fresh valid_new
    List.mem_cons_self next_member (ring.push not_member) only
  refine ⟨_, ?_, family', unchanged⟩
  simp only [IntrusiveList.listAdd, granted head (family.valid found head (by simp))]
  exact inserted

/-- `list_del` removes exactly the entry from its list and nulls its words. -/
theorem Family.listDel (null : α) (family : Family valid heap lists) {head : α}
    {members : List α} (found : lists head = some members) (entry : α) (member : entry ∈ members) :
    ∃ heap', IntrusiveList.listDel access null heap entry = .ok heap' ∧
      Family valid heap' (Function.update lists head (some (members.erase entry))) ∧
      heap' entry = ⟨null, null⟩ ∧
      ∀ node, node ∉ head :: members → heap' node = heap node := by
  obtain ⟨front, back, rfl⟩ := List.append_of_mem member
  have ring := family.ring found
  obtain ⟨prev_member, next_member, removed⟩ := ring.remove null
  have not_front : entry ∉ front := fun inside =>
    (List.nodup_append.mp (List.nodup_cons.mp ring.nodup).2).2.2 entry inside entry (by simp) rfl
  have prev_owned : (heap entry).prev ∈ head :: (front ++ entry :: back) := by
    simp only [List.mem_cons, List.mem_append] at prev_member ⊢
    tauto
  have next_owned : (heap entry).next ∈ head :: (front ++ entry :: back) := by
    simp only [List.mem_append, List.mem_cons] at next_member ⊢
    tauto
  have unchanged : ∀ node, node ∉ head :: (front ++ entry :: back) →
      removeBetween null heap entry (heap entry).prev (heap entry).next node = heap node := by
    intro node outside
    refine removeBetween_frame null heap ?_ ?_ ?_
    · rintro rfl
      exact outside (by simp)
    · rintro rfl
      exact outside prev_owned
    · rintro rfl
      exact outside next_owned
  refine ⟨removeBetween null heap entry (heap entry).prev (heap entry).next, ?_, ?_, ?_,
    unchanged⟩
  · simp only [IntrusiveList.listDel, listDelBetween,
      granted entry (family.valid found entry (by simp)),
      granted _ (family.valid found _ prev_owned), granted _ (family.valid found _ next_owned)]
    rfl
  · rw [List.erase_append_right _ not_front, List.erase_cons_head]
    have sub : ∀ {node}, node ∈ head :: (front ++ back) →
        node ∈ head :: (front ++ entry :: back) := by
      intro node inside
      simp only [List.mem_cons, List.mem_append] at inside ⊢
      tauto
    refine family.update_of_ring removed ?_ ?_ ?_
    · intro node inside
      exact family.valid found node (sub inside)
    · intro head' members' found' different node inside inside'
      exact family.disjoint found found' different (sub inside) inside'
    · intro head' members' found' different node inside'
      exact unchanged node fun inside => family.disjoint found found' different inside inside'
  · ext
    · rw [removeBetween_next, if_pos rfl]
    · rw [removeBetween_prev, if_pos rfl]

/-- `INIT_LIST_HEAD` gives a node that is a member of no other list an empty list. -/
theorem Family.initListHead (family : Family valid heap lists) {head : α} (valid_head : valid head)
    (separate : ∀ {head' members'}, lists head' = some members' → head ≠ head' →
      head ∉ head' :: members') :
    ∃ heap', IntrusiveList.initListHead access heap head = .ok heap' ∧
      Family valid heap' (Function.update lists head (some [])) ∧
      ∀ node, node ≠ head → heap' node = heap node := by
  have unchanged : ∀ node, node ≠ head →
      setPrev (setNext heap head head) head head node = heap node := by
    intro node different
    rw [setPrev_apply, if_neg different, setNext_apply, if_neg different]
  refine ⟨setPrev (setNext heap head head) head head, ?_, ?_, unchanged⟩
  · simp only [IntrusiveList.initListHead, granted head valid_head]
    rfl
  · refine family.update_of_ring ?_ ?_ ?_ ?_
    · rw [ring_nil_iff]
      simp [setPrev_apply, setNext_apply]
    · simpa using valid_head
    · intro head' members' found' different node member member'
      rw [List.mem_singleton] at member
      subst member
      exact separate found' different member'
    · intro head' members' found' different node member'
      refine unchanged node ?_
      rintro rfl
      exact separate found' different member'

end Operations

/-! ## Reading a list -/

section Reading

variable {α : Type} [DecidableEq α] {heap : Heap α} {head : α} {members : List α}

omit [DecidableEq α] in
theorem Ring.listFirst (ring : Ring heap head members) :
    IntrusiveList.listFirst heap head = members.headD head := ring.next_head

theorem Ring.listEmpty (ring : Ring heap head members) :
    IntrusiveList.listEmpty heap head = members.isEmpty := by
  have nodup := ring.nodup
  rw [IntrusiveList.listEmpty, ring.next_head]
  cases members with
  | nil => simp
  | cons first rest =>
      have different : first ≠ head := by
        rintro rfl
        simp at nodup
      simp [different]

theorem walk_eq {fuel : Nat} (before : α)
    (chain : (before :: members ++ [head]).IsChain (Linked heap))
    (outside : head ∉ members) (enough : members.length ≤ fuel) :
    walk heap head fuel (heap before).next = members := by
  induction members generalizing before fuel with
  | nil =>
      have next_eq : (heap before).next = head := by
        simpa [Linked] using (List.isChain_cons_cons.mp chain).1.1
      cases fuel <;> simp [walk, next_eq]
  | cons first rest induction =>
      rw [List.cons_append, List.cons_append, List.isChain_cons_cons] at chain
      rw [List.mem_cons, not_or] at outside
      obtain ⟨smaller, rfl⟩ : ∃ smaller, fuel = smaller + 1 :=
        Nat.exists_eq_succ_of_ne_zero (by simp only [List.length_cons] at enough; omega)
      rw [chain.1.1, walk, if_neg (Ne.symm outside.1)]
      rw [induction first chain.2 outside.2 (by simpa using enough)]

/-- A traversal with enough fuel finds the members of the ring in order. -/
theorem Ring.nodes_eq (ring : Ring heap head members) {fuel : Nat}
    (enough : members.length ≤ fuel) : nodes fuel heap head = members :=
  walk_eq head ring.linked (List.nodup_cons.mp ring.nodup).1 enough

/-- The heap with both words of every node exchanged. -/
def mirror (heap : Heap α) : Heap α := fun node => ⟨(heap node).prev, (heap node).next⟩

omit [DecidableEq α] in
/-- Following `prev`, a ring has its members in reverse order. -/
theorem Ring.mirror (ring : Ring heap head members) :
    Ring (IntrusiveList.mirror heap) head members.reverse where
  linked := by
    have shape : head :: members.reverse ++ [head] = (head :: members ++ [head]).reverse := by
      simp
    rw [shape, List.isChain_reverse]
    exact ring.linked.imp fun _ _ linked => linked.symm
  nodup := by
    rw [List.nodup_cons, List.mem_reverse, List.nodup_reverse]
    exact List.nodup_cons.mp ring.nodup

end Reading

end IntrusiveList
