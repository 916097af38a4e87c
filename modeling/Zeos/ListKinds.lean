import Zeos.IntrusiveList
import Zeos.GuardedRun

/-!
# Lists of different kinds in one heap

The nodes of a heap are of several kinds, or of none, such as the null pointer.  When every link
leads to a node of the same kind or of none, an operation on nodes of one kind leaves the nodes of
the others alone, and does not depend on them.
-/

namespace IntrusiveList

open GuardedRun

variable {α κ ε : Type} (kind : α → Option κ)

/-- A node of a kind, or of none. -/
def Leads (k : κ) (node : α) : Prop := kind node = some k ∨ kind node = none

/-- Every link leads to a node of the same kind, or of none. -/
def Apart (heap : Heap α) : Prop :=
  ∀ node k, kind node = some k → Leads kind k (heap node).next ∧ Leads kind k (heap node).prev

/-- Two heaps differ in nodes of one kind only. -/
def AgreeOff (k : κ) (heap heap' : Heap α) : Prop :=
  ∀ node, kind node ≠ some k → heap' node = heap node

variable {kind} {k other : κ} {heap heap' : Heap α}

theorem Leads.ne {node : α} (leads : Leads kind k node) (different : k ≠ other) :
    kind node ≠ some other := by
  rcases leads with same | none
  · rw [same]
    simpa using different
  · rw [none]
    simp

variable [DecidableEq α] {access : α → Except ε Unit} {null new head entry list : α}

/-! ## Results -/

theorem eq_of_listAddTail (added : listAddTail access heap new head = .ok heap') :
    heap' = insertBetween heap new (heap head).prev head := by
  obtain ⟨_, _, added⟩ := bind_eq_ok.mp added
  obtain ⟨_, _, added⟩ := bind_eq_ok.mp added
  obtain ⟨_, _, added⟩ := bind_eq_ok.mp added
  obtain ⟨_, _, added⟩ := bind_eq_ok.mp added
  exact (Except.ok.inj added).symm

theorem eq_of_listDel (deleted : listDel access null heap entry = .ok heap') :
    heap' = removeBetween null heap entry (heap entry).prev (heap entry).next := by
  obtain ⟨_, _, deleted⟩ := bind_eq_ok.mp deleted
  obtain ⟨between, removed, deleted⟩ := bind_eq_ok.mp deleted
  obtain ⟨_, _, removed⟩ := bind_eq_ok.mp removed
  obtain ⟨_, _, removed⟩ := bind_eq_ok.mp removed
  rw [← Except.ok.inj deleted, ← Except.ok.inj removed]
  rfl

theorem eq_of_initListHead (initialised : initListHead access heap list = .ok heap') :
    heap' = Function.update heap list ⟨list, list⟩ := by
  obtain ⟨_, _, initialised⟩ := bind_eq_ok.mp initialised
  rw [← Except.ok.inj initialised]
  simp [setPrev, setNext]

/-! ## Empty lists -/

/-- A list to which a node is added is not empty after that, unless it is no ring. -/
theorem next_ne_of_insert (other : new ≠ head)
    (ring : (heap head).next = head → (heap head).prev = head) :
    (insertBetween heap new (heap head).prev head head).next ≠ head := by
  rw [insertBetween_next, if_neg (Ne.symm other)]
  split
  · exact other
  · rename_i apart
    exact fun alone => apart (ring alone).symm

/-- No list becomes empty when a node is added to another one. -/
theorem next_ne_of_insert_other {prev next : α} (other : new ≠ list)
    (nonempty : (heap list).next ≠ list) : (insertBetween heap new prev next list).next ≠ list := by
  rw [insertBetween_next, if_neg (Ne.symm other)]
  split
  · exact other
  · exact nonempty

/-- A list that becomes empty when a node is removed is a ring then. -/
theorem prev_eq_of_remove {prev next : α} (other : entry ≠ head)
    (nonempty : (heap head).next ≠ head) :
    (removeBetween null heap entry prev next head).next = head →
      (removeBetween null heap entry prev next head).prev = head := by
  rw [removeBetween_next, removeBetween_prev, if_neg (Ne.symm other), if_neg (Ne.symm other)]
  split
  · rename_i before
    intro after
    rw [if_pos after.symm, before]
  · exact fun alone => absurd alone nonempty

/-! ## One kind at a time -/

/-- An insertion between nodes of one kind keeps the kinds apart and the other nodes alone. -/
theorem Apart.insertBetween {prev next : α} (apart : Apart kind heap) (new_kind : kind new = some k)
    (next_kind : kind next = some k) (prev_kind : Leads kind k prev) :
    Apart kind (insertBetween heap new prev next) ∧ ∀ node j, kind node = some j → j ≠ k →
      insertBetween heap new prev next node = heap node := by
  constructor
  · intro node j node_kind
    rw [insertBetween_next, insertBetween_prev]
    obtain ⟨next_leads, prev_leads⟩ := apart node j node_kind
    constructor
    · split
      · rename_i same
        subst same
        rcases prev_kind with same | none
        · obtain rfl : k = j := Option.some.inj (same.symm.trans node_kind)
          exact .inl new_kind
        · exact absurd (none.symm.trans node_kind) (by simp)
      · split
        · rename_i same
          subst same
          obtain rfl : k = j := Option.some.inj (new_kind.symm.trans node_kind)
          exact .inl next_kind
        · exact next_leads
    · split
      · rename_i same
        subst same
        obtain rfl : k = j := Option.some.inj (new_kind.symm.trans node_kind)
        exact prev_kind
      · split
        · rename_i same
          subst same
          obtain rfl : k = j := Option.some.inj (next_kind.symm.trans node_kind)
          exact .inl new_kind
        · exact prev_leads
  · intro node j node_kind different
    have other : ∀ {x}, Leads kind k x → node ≠ x := by
      rintro x leads rfl
      exact leads.ne (Ne.symm different) node_kind
    exact insertBetween_frame heap (other (.inl new_kind)) (other prev_kind)
      (other (.inl next_kind))

theorem Apart.removeBetween {prev next : α} (apart : Apart kind heap)
    (entry_kind : kind entry = some k) (null_kind : kind null = none)
    (prev_kind : Leads kind k prev) (next_kind : Leads kind k next) :
    Apart kind (removeBetween null heap entry prev next) ∧ ∀ node j, kind node = some j → j ≠ k →
      removeBetween null heap entry prev next node = heap node := by
  constructor
  · intro node j node_kind
    rw [removeBetween_next, removeBetween_prev]
    obtain ⟨next_leads, prev_leads⟩ := apart node j node_kind
    have same_kind : ∀ {x}, Leads kind k x → node = x → k = j := by
      rintro x leads rfl
      rcases leads with same | none
      · exact Option.some.inj (same.symm.trans node_kind)
      · exact absurd (none.symm.trans node_kind) (by simp)
    constructor
    · split
      · exact .inr null_kind
      · split
        · rename_i same
          exact same_kind prev_kind same ▸ next_kind
        · exact next_leads
    · split
      · exact .inr null_kind
      · split
        · rename_i same
          exact same_kind next_kind same ▸ prev_kind
        · exact prev_leads
  · intro node j node_kind different
    have other : ∀ {x}, Leads kind k x → node ≠ x := by
      rintro x leads rfl
      exact leads.ne (Ne.symm different) node_kind
    exact removeBetween_frame null heap (other (.inl entry_kind)) (other prev_kind)
      (other next_kind)

theorem Apart.listAddTail (apart : Apart kind heap) (new_kind : kind new = some k)
    (head_kind : kind head = some k) :
    Ensures (fun heap' => Apart kind heap' ∧ ∀ node j, kind node = some j → j ≠ k →
      heap' node = heap node) (listAddTail access heap new head) := by
  intro heap' added
  rw [eq_of_listAddTail added]
  exact apart.insertBetween new_kind head_kind (apart head k head_kind).2

theorem Apart.listDel (apart : Apart kind heap) (entry_kind : kind entry = some k)
    (null_kind : kind null = none) :
    Ensures (fun heap' => Apart kind heap' ∧ ∀ node j, kind node = some j → j ≠ k →
      heap' node = heap node) (listDel access null heap entry) := by
  intro heap' deleted
  rw [eq_of_listDel deleted]
  obtain ⟨next_leads, prev_leads⟩ := apart entry k entry_kind
  exact apart.removeBetween entry_kind null_kind prev_leads next_leads

theorem Apart.initListHead (apart : Apart kind heap) (list_kind : kind list = some k) :
    Ensures (fun heap' => Apart kind heap' ∧ ∀ node j, kind node = some j → j ≠ k →
      heap' node = heap node) (initListHead access heap list) := by
  intro heap' initialised
  rw [eq_of_initListHead initialised]
  constructor
  · intro node j node_kind
    by_cases same : node = list
    · subst same
      simp only [Function.update_self]
      exact ⟨.inl node_kind, .inl node_kind⟩
    · rw [Function.update_of_ne same]
      exact apart node j node_kind
  · rintro node j node_kind different
    refine Function.update_of_ne ?_ _ _
    rintro rfl
    exact different (Option.some.inj (node_kind.symm.trans list_kind))

/-! ## In two heaps at once -/

/-- What an operation on nodes of one kind does is the same whatever the nodes of another kind
are. -/
theorem AgreeOff.listAddTail (agree : AgreeOff kind k heap heap') (apart : Apart kind heap)
    (new_kind : kind new = some other) (head_kind : kind head = some other)
    (different : other ≠ k) :
    Lockstep (fun after after' => AgreeOff kind k after after' ∧ Apart kind after ∧
        ∀ node, kind node = some k → after node = heap node)
      (listAddTail access heap new head) (listAddTail access heap' new head) := by
  have head_eq : heap' head = heap head := agree head (Leads.ne (.inl head_kind) different)
  unfold IntrusiveList.listAddTail listAddBetween
  rw [head_eq]
  refine .same fun _ => .same fun _ => .same fun _ => .same fun _ => ?_
  obtain ⟨kept, same⟩ := apart.insertBetween new_kind head_kind (apart head other head_kind).2
  refine ⟨fun node node_kind => ?_, kept, fun node node_kind =>
    same node k node_kind (Ne.symm different)⟩
  show insertBetween heap' _ _ _ node = insertBetween heap _ _ _ node
  ext
  · rw [insertBetween_next, insertBetween_next, agree node node_kind]
  · rw [insertBetween_prev, insertBetween_prev, agree node node_kind]

theorem AgreeOff.listDel (agree : AgreeOff kind k heap heap') (apart : Apart kind heap)
    (entry_kind : kind entry = some other) (null_kind : kind null = none) (different : other ≠ k) :
    Lockstep (fun after after' => AgreeOff kind k after after' ∧ Apart kind after ∧
        ∀ node, kind node = some k → after node = heap node)
      (listDel access null heap entry) (listDel access null heap' entry) := by
  have entry_eq : heap' entry = heap entry := agree entry (Leads.ne (.inl entry_kind) different)
  obtain ⟨next_leads, prev_leads⟩ := apart entry other entry_kind
  unfold IntrusiveList.listDel listDelBetween
  rw [entry_eq]
  simp only [bind_assoc]
  refine .same fun _ => .same fun _ => .same fun _ => ?_
  obtain ⟨kept, same⟩ := apart.removeBetween entry_kind null_kind prev_leads next_leads
  refine ⟨fun node node_kind => ?_, kept, fun node node_kind =>
    same node k node_kind (Ne.symm different)⟩
  show removeBetween null heap' _ _ _ node = removeBetween null heap _ _ _ node
  ext
  · rw [removeBetween_next, removeBetween_next, agree node node_kind]
  · rw [removeBetween_prev, removeBetween_prev, agree node node_kind]

theorem AgreeOff.initListHead (agree : AgreeOff kind k heap heap') (apart : Apart kind heap)
    (list_kind : kind list = some other) (different : other ≠ k) :
    Lockstep (fun after after' => AgreeOff kind k after after' ∧ Apart kind after ∧
        ∀ node, kind node = some k → after node = heap node)
      (initListHead access heap list) (initListHead access heap' list) := by
  have apart' : Ensures _ (IntrusiveList.initListHead access heap list) :=
    apart.initListHead list_kind
  unfold IntrusiveList.initListHead at apart' ⊢
  cases granted : access list with
  | error fault => exact rfl
  | ok value =>
      obtain ⟨kept, same⟩ := apart' _ (by rw [granted]; rfl)
      refine ⟨fun node node_kind => ?_, kept, fun node node_kind =>
        same node k node_kind (Ne.symm different)⟩
      by_cases same : node = list
      · subst same
        simp [setPrev_apply, setNext_apply]
      · simp [setPrev_apply, setNext_apply, same, agree node node_kind]

end IntrusiveList
