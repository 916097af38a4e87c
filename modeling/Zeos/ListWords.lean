import Zeos.GuardedRun
import Zeos.IntrusiveList
import Zeos.X86

/-!
# Lists in words of memory

The list functions on the two words that a node has in memory.  Where they succeed on a heap of
nodes, the words follow the heap: they have the addresses of the neighbours.
-/

namespace ListWords

open X86 (Word Memory load store)
open IntrusiveList GuardedRun

/-! ## The functions on words -/

def initListHead (list : Word) (mem : Memory) : Memory :=
  store (store mem list list) (list + 4) list

def listAddBetween (new prev next : Word) (mem : Memory) : Memory :=
  let mem := store mem (next + 4) new
  let mem := store mem new next
  let mem := store mem (new + 4) prev
  store mem prev new

def listAdd (new head : Word) (mem : Memory) : Memory :=
  listAddBetween new head (load mem head) mem

def listAddTail (new head : Word) (mem : Memory) : Memory :=
  listAddBetween new (load mem (head + 4)) head mem

def listDelBetween (prev next : Word) (mem : Memory) : Memory :=
  store (store mem (next + 4) prev) prev next

def listDel (entry : Word) (mem : Memory) : Memory :=
  let mem := listDelBetween (load mem (entry + 4)) (load mem entry) mem
  store (store mem entry 0) (entry + 4) 0

def listFirst (head : Word) (mem : Memory) : Word := load mem head

def listEmpty (head : Word) (mem : Memory) : Bool := load mem head = head

/-- A call of a function that changes lists. -/
inductive Call (α : Type)
  | initListHead (list : α)
  | listAdd (new head : α)
  | listAddTail (new head : α)
  | listDel (entry : α)

namespace Call

variable {α β ε : Type}

def map (f : α → β) : Call α → Call β
  | initListHead list => initListHead (f list)
  | listAdd new head => listAdd (f new) (f head)
  | listAddTail new head => listAddTail (f new) (f head)
  | listDel entry => listDel (f entry)

def onWords (mem : Memory) : Call Word → Memory
  | initListHead list => ListWords.initListHead list mem
  | listAdd new head => ListWords.listAdd new head mem
  | listAddTail new head => ListWords.listAddTail new head mem
  | listDel entry => ListWords.listDel entry mem

def onHeap [DecidableEq α] (access : α → Except ε Unit) (null : α) (heap : Heap α) :
    Call α → Except ε (Heap α)
  | initListHead list => IntrusiveList.initListHead access heap list
  | listAdd new head => IntrusiveList.listAdd access heap new head
  | listAddTail new head => IntrusiveList.listAddTail access heap new head
  | listDel entry => IntrusiveList.listDel access null heap entry

end Call

/-! ## Places -/

/-- Where the nodes are.  Not every pointer is known, and not every known one leads to a node in
memory, but nodes in memory have their bytes for themselves. -/
structure Places (α : Type) where
  address : α → Word
  Known : α → Prop
  Stored : α → Prop
  known : ∀ {a}, Stored a → Known a
  inside : ∀ {a}, Stored a → (address a).toNat + 8 ≤ 2 ^ 32
  apart : ∀ {a b}, Stored a → Stored b → a ≠ b →
    (address a).toNat + 8 ≤ (address b).toNat ∨ (address b).toNat + 8 ≤ (address a).toNat
  distinct : ∀ {a b}, Known a → Known b → address a = address b → a = b

namespace Places

variable {α : Type} {places : Places α} {rest mem : Memory} {heap heap' : Heap α} {a b null : α}
  {value w : Word}

/-- A word is a pointer to a node. -/
def Points (places : Places α) (w : Word) (a : α) : Prop := places.Known a → w = places.address a

theorem points_address (places : Places α) (a : α) : places.Points (places.address a) a :=
  fun _ => rfl

/-- A byte of a node. -/
def Covers (places : Places α) (a : α) (byte : Word) : Prop :=
  (places.address a).toNat ≤ byte.toNat ∧ byte.toNat < (places.address a).toNat + 8

/-- Memory has the nodes of a heap, and beside them what is given. -/
structure Stands (places : Places α) (rest mem : Memory) (heap : Heap α) : Prop where
  next : ∀ {a}, places.Stored a → places.Points (load mem (places.address a)) (heap a).next
  prev : ∀ {a}, places.Stored a → places.Points (load mem (places.address a + 4)) (heap a).prev
  beside : ∀ byte, (∀ a, places.Stored a → ¬places.Covers a byte) → mem byte = rest byte

theorem toNat_prev (places : Places α) (stored : places.Stored a) :
    (places.address a + 4).toNat = (places.address a).toNat + 4 := by
  have inside := places.inside stored
  exact X86.toNat_add _ 4 (by show _ + 4 < _; omega)

theorem load_other {x y : Word} (inside : x.toNat + 4 ≤ 2 ^ 32) (inside' : y.toNat + 4 ≤ 2 ^ 32)
    (apart : x.toNat + 4 ≤ y.toNat ∨ y.toNat + 4 ≤ x.toNat) :
    load (store mem y w) x = load mem x :=
  X86.load_congr inside fun _ above below => X86.store_other inside' (by omega)

/-- A store to one word of a node reaches no word of another one. -/
theorem load_store (mem : Memory) (w : Word) (stored : places.Stored a)
    (stored' : places.Stored b) (different : b ≠ a)
    {offset offset' : Nat} (first : offset = 0 ∨ offset = 4) (second : offset' = 0 ∨ offset' = 4) :
    load (store mem (places.address a + BitVec.ofNat 32 offset) w)
        (places.address b + BitVec.ofNat 32 offset') =
      load mem (places.address b + BitVec.ofNat 32 offset') := by
  have inside := places.inside stored
  have inside' := places.inside stored'
  have place := X86.toNat_advance (places.address a) offset (by omega)
  have place' := X86.toNat_advance (places.address b) offset' (by omega)
  have apart := places.apart stored' stored different
  exact load_other (by omega) (by omega) (by omega)

/-- A store to a word of a node is not beside the nodes. -/
theorem store_beside (mem : Memory) (w : Word) (stored : places.Stored a) {offset : Nat}
    (small : offset ≤ 4) {byte : Word}
    (outside : ∀ a, places.Stored a → ¬places.Covers a byte) :
    store mem (places.address a + BitVec.ofNat 32 offset) w byte = mem byte := by
  have inside := places.inside stored
  have place := X86.toNat_advance (places.address a) offset (by omega)
  have apart := outside a stored
  rw [Covers] at apart
  exact X86.store_other (by omega) (by omega)

theorem add_ofNat_zero (x : Word) : x + BitVec.ofNat 32 0 = x := BitVec.add_zero x

variable [DecidableEq α]

theorem Stands.setNext (stands : places.Stands rest mem heap) (stored : places.Stored a)
    (points : places.Points w b) :
    places.Stands rest (store mem (places.address a) w) (IntrusiveList.setNext heap a b) where
  next {c} stored' := by
    rw [setNext_apply]
    by_cases same : c = a
    · rw [if_pos same, same, X86.load_store_same]
      exact points
    · have kept := load_store mem w stored stored' same (.inl rfl) (.inl rfl)
      rw [add_ofNat_zero, add_ofNat_zero] at kept
      rw [if_neg same, kept]
      exact stands.next stored'
  prev {c} stored' := by
    have kept : load (store mem (places.address a) w) (places.address c + 4) =
        load mem (places.address c + 4) := by
      by_cases same : c = a
      · have inside := places.inside stored
        have place := places.toNat_prev stored
        subst same
        exact load_other (by omega) (by omega) (by omega)
      · have other := load_store mem w stored stored' same (.inl rfl) (.inr rfl)
        rwa [add_ofNat_zero] at other
    have field : (IntrusiveList.setNext heap a b c).prev = (heap c).prev := by
      rw [setNext_apply]
      split_ifs with same
      · rw [same]
      · rfl
    rw [kept, field]
    exact stands.prev stored'
  beside byte outside := by
    have kept := store_beside mem w stored (Nat.zero_le 4) outside
    rw [add_ofNat_zero] at kept
    exact kept.trans (stands.beside byte outside)

theorem Stands.setPrev (stands : places.Stands rest mem heap) (stored : places.Stored a)
    (points : places.Points w b) :
    places.Stands rest (store mem (places.address a + 4) w) (IntrusiveList.setPrev heap a b) where
  next {c} stored' := by
    have kept : load (store mem (places.address a + 4) w) (places.address c) =
        load mem (places.address c) := by
      by_cases same : c = a
      · have inside := places.inside stored
        have place := places.toNat_prev stored
        subst same
        exact load_other (by omega) (by omega) (by omega)
      · have other := load_store mem w stored stored' same (.inr rfl) (.inl rfl)
        rwa [add_ofNat_zero] at other
    have field : (IntrusiveList.setPrev heap a b c).next = (heap c).next := by
      rw [setPrev_apply]
      split_ifs with same
      · rw [same]
      · rfl
    rw [kept, field]
    exact stands.next stored'
  prev {c} stored' := by
    rw [setPrev_apply]
    by_cases same : c = a
    · rw [if_pos same, same, X86.load_store_same]
      exact points
    · have kept : load (store mem (places.address a + 4) w) (places.address c + 4) = _ :=
        load_store mem w stored stored' same (.inr rfl) (.inr rfl)
      rw [if_neg same, kept]
      exact stands.prev stored'
  beside byte outside :=
    (store_beside _ _ stored (Nat.le_refl 4) outside).trans (stands.beside byte outside)

/-! ## The functions follow the heap -/

variable {ε : Type} {access : α → Except ε Unit} {new head prev next entry list : α}

theorem Stands.initListHead (stands : places.Stands rest mem heap)
    (stored : ∀ {a}, access a = .ok () → places.Stored a)
    (run : IntrusiveList.initListHead access heap list = .ok heap') :
    places.Stands rest (ListWords.initListHead (places.address list) mem) heap' := by
  obtain ⟨_, accessed, result⟩ := bind_eq_ok.mp run
  obtain rfl := Except.ok.inj result
  have inList := stored accessed
  exact (stands.setNext inList (places.points_address list)).setPrev inList
    (places.points_address list)

theorem Stands.listAddBetween (stands : places.Stands rest mem heap)
    (stored : ∀ {a}, access a = .ok () → places.Stored a)
    (run : IntrusiveList.listAddBetween access heap new prev next = .ok heap') :
    places.Stored prev ∧ places.Stored next ∧ places.Stands rest (ListWords.listAddBetween
      (places.address new) (places.address prev) (places.address next) mem) heap' := by
  obtain ⟨_, accessed, run⟩ := bind_eq_ok.mp run
  obtain ⟨_, accessed', run⟩ := bind_eq_ok.mp run
  obtain ⟨_, accessed'', result⟩ := bind_eq_ok.mp run
  obtain rfl := Except.ok.inj result
  have first := stands.setPrev (stored accessed) (places.points_address new)
  have second := first.setNext (stored accessed') (places.points_address next)
  have third := second.setPrev (stored accessed') (places.points_address prev)
  exact ⟨stored accessed'', stored accessed,
    third.setNext (stored accessed'') (places.points_address new)⟩

theorem Stands.listAdd (stands : places.Stands rest mem heap)
    (stored : ∀ {a}, access a = .ok () → places.Stored a)
    (run : IntrusiveList.listAdd access heap new head = .ok heap') :
    places.Stands rest (ListWords.listAdd (places.address new) (places.address head) mem)
      heap' := by
  obtain ⟨_, accessed, run⟩ := bind_eq_ok.mp run
  obtain ⟨_, second, follows⟩ := stands.listAddBetween stored run
  rw [ListWords.listAdd, stands.next (stored accessed) (places.known second)]
  exact follows

theorem Stands.listAddTail (stands : places.Stands rest mem heap)
    (stored : ∀ {a}, access a = .ok () → places.Stored a)
    (run : IntrusiveList.listAddTail access heap new head = .ok heap') :
    places.Stands rest (ListWords.listAddTail (places.address new) (places.address head) mem)
      heap' := by
  obtain ⟨_, accessed, run⟩ := bind_eq_ok.mp run
  obtain ⟨last, _, follows⟩ := stands.listAddBetween stored run
  rw [ListWords.listAddTail, stands.prev (stored accessed) (places.known last)]
  exact follows

theorem Stands.listDelBetween (stands : places.Stands rest mem heap)
    (stored : ∀ {a}, access a = .ok () → places.Stored a)
    (run : IntrusiveList.listDelBetween access heap prev next = .ok heap') :
    places.Stored prev ∧ places.Stored next ∧ places.Stands rest (ListWords.listDelBetween
      (places.address prev) (places.address next) mem) heap' := by
  obtain ⟨_, accessed, run⟩ := bind_eq_ok.mp run
  obtain ⟨_, accessed', result⟩ := bind_eq_ok.mp run
  obtain rfl := Except.ok.inj result
  have first := stands.setPrev (stored accessed) (places.points_address prev)
  exact ⟨stored accessed', stored accessed,
    first.setNext (stored accessed') (places.points_address next)⟩

theorem Stands.listDel (stands : places.Stands rest mem heap)
    (stored : ∀ {a}, access a = .ok () → places.Stored a) (null_address : places.address null = 0)
    (run : IntrusiveList.listDel access null heap entry = .ok heap') :
    places.Stands rest (ListWords.listDel (places.address entry) mem) heap' := by
  obtain ⟨_, accessed, run⟩ := bind_eq_ok.mp run
  obtain ⟨between, unlinked, result⟩ := bind_eq_ok.mp run
  obtain rfl := Except.ok.inj result
  obtain ⟨before, behind, follows⟩ := stands.listDelBetween stored unlinked
  have isNull : places.Points 0 null := fun _ => null_address.symm
  rw [ListWords.listDel, stands.prev (stored accessed) (places.known before),
    stands.next (stored accessed) (places.known behind)]
  exact (follows.setNext (stored accessed) isNull).setPrev (stored accessed) isNull

/-- Calls that succeed on the heap do the same to the words. -/
theorem Stands.run (stands : places.Stands rest mem heap)
    (stored : ∀ {a}, access a = .ok () → places.Stored a) (null_address : places.address null = 0)
    (calls : List (Call α)) (run : calls.foldlM (Call.onHeap access null) heap = .ok heap') :
    places.Stands rest ((calls.map (Call.map places.address)).foldl Call.onWords mem) heap' := by
  induction calls generalizing mem heap with
  | nil =>
      obtain rfl := Except.ok.inj run
      exact stands
  | cons call calls induction =>
      rw [List.foldlM_cons] at run
      obtain ⟨between, first, others⟩ := bind_eq_ok.mp run
      rw [List.map_cons, List.foldl_cons]
      refine induction ?_ others
      cases call with
      | initListHead list => exact stands.initListHead stored first
      | listAdd new head => exact stands.listAdd stored first
      | listAddTail new head => exact stands.listAddTail stored first
      | listDel entry => exact stands.listDel stored null_address first

theorem Stands.listEmpty_eq (stands : places.Stands rest mem heap) (stored : places.Stored head)
    (known : places.Known (heap head).next) :
    ListWords.listEmpty (places.address head) mem = IntrusiveList.listEmpty heap head := by
  rw [ListWords.listEmpty, IntrusiveList.listEmpty, stands.next stored known, Bool.eq_iff_iff,
    decide_eq_true_eq, decide_eq_true_eq]
  exact ⟨places.distinct known (places.known stored), congrArg places.address⟩

/-! ## Memory for a heap -/

open Classical in
/-- The bytes of the nodes, and beside them what is given. -/
noncomputable def memoryOf (places : Places α) (rest : Memory) (heap : Heap α) : Memory :=
  fun byte =>
    if found : ∃ a, places.Stored a ∧ places.Covers a byte then
      let links := heap found.choose
      let offset := byte.toNat - (places.address found.choose).toNat
      if offset < 4 then (places.address links.next).extractLsb' (8 * offset) 8
      else (places.address links.prev).extractLsb' (8 * (offset - 4)) 8
    else rest byte

theorem memoryOf_node (rest : Memory) (heap : Heap α) (stored : places.Stored a) {offset : Nat}
    (small : offset < 8) :
    places.memoryOf rest heap (places.address a + BitVec.ofNat 32 offset) =
      if offset < 4 then (places.address (heap a).next).extractLsb' (8 * offset) 8
      else (places.address (heap a).prev).extractLsb' (8 * (offset - 4)) 8 := by
  have inside := places.inside stored
  have place := X86.toNat_advance (places.address a) offset (by omega)
  have covers : places.Covers a (places.address a + BitVec.ofNat 32 offset) := by
    rw [Covers]
    omega
  have found : ∃ a', places.Stored a' ∧
      places.Covers a' (places.address a + BitVec.ofNat 32 offset) := ⟨a, stored, covers⟩
  have chosen : found.choose = a := by
    obtain ⟨stored', covers'⟩ := found.choose_spec
    by_contra different
    have apart := places.apart stored' stored different
    rw [Covers] at covers covers'
    omega
  rw [memoryOf, dif_pos found]
  dsimp only
  rw [chosen, place, Nat.add_sub_cancel_left]

theorem load_of_bytes {x : Word}
    (bytes : ∀ k < 4, mem (x + BitVec.ofNat 32 k) = w.extractLsb' (8 * k) 8) :
    load mem x = w := by
  have first := bytes 0 (by decide)
  have second : mem (x + 1) = w.extractLsb' 8 8 := bytes 1 (by decide)
  have third : mem (x + 2) = w.extractLsb' 16 8 := bytes 2 (by decide)
  have last : mem (x + 3) = w.extractLsb' 24 8 := bytes 3 (by decide)
  rw [add_ofNat_zero] at first
  rw [load, first, second, third, last]
  exact X86.bytes_word w

/-- Every heap is found in some memory. -/
theorem stands_memoryOf (rest : Memory) (heap : Heap α) :
    places.Stands rest (places.memoryOf rest heap) heap where
  next {a} stored _ := by
    refine load_of_bytes fun k small => ?_
    rw [memoryOf_node rest heap stored (by omega), if_pos small]
  prev {a} stored _ := by
    have behind : ∀ k : Nat, places.address a + 4 + BitVec.ofNat 32 k =
        places.address a + BitVec.ofNat 32 (4 + k) := fun k => by
      rw [BitVec.ofNat_add, ← BitVec.add_assoc]
      rfl
    refine load_of_bytes fun k small => ?_
    rw [behind, memoryOf_node rest heap stored (by omega), if_neg (by omega),
      Nat.add_sub_cancel_left]
  beside byte outside := by
    rw [memoryOf, dif_neg]
    rintro ⟨a, stored, covers⟩
    exact outside a stored covers

end Places

end ListWords
