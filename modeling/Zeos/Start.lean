import Zeos.Steps

/-!
# The state after boot

Boot succeeds, and its state is consistent.  The heads of the queues are initialised one after the
other, so during boot the heap represents the queues whose heads have been initialised so far.
-/

namespace Zeos

open IntrusiveList GuardedRun Kernel

/-! ## Lists during boot -/

open Classical in
/-- The lists whose heads have been initialised. -/
noncomputable def Queues.listsAt (q : Queues) (heads : Set Node) (node : Node) :
    Option (List Node) :=
  if node ∈ heads then q.lists node else none

/-- The list heads outside of mutexes. -/
def Node.Head : Node → Prop
  | .freequeue | .readyqueue | .freeThreadqueue | .ready _ | .blocked _ => True
  | _ => False

/-- The heap during boot. -/
structure Setup (heap : Heap Node) (heads : Set Node) (q : Queues) : Prop where
  family : Family Node.Valid heap (q.listsAt heads)
  heads : ∀ node ∈ heads, node.Head
  /-- No list head in a mutex has been touched. -/
  mutex : ∀ index, heap (.mutex index) = ⟨.null, .null⟩
  image : ∀ page, heap (.thread (.image page)) = ⟨.wild, .wild⟩

namespace Setup

variable {s : Kernel} {heads : Set Node} {q : Queues}

theorem listsAt_of_mem {head : Node} (inside : head ∈ heads) :
    q.listsAt heads head = q.lists head := by
  rw [Queues.listsAt, if_pos inside]

theorem of_listsAt {head : Node} {members : List Node}
    (found : q.listsAt heads head = some members) : head ∈ heads ∧ q.lists head = some members := by
  by_cases inside : head ∈ heads
  · exact ⟨inside, by rwa [Queues.listsAt, if_pos inside] at found⟩
  · rw [Queues.listsAt, if_neg inside] at found
    exact absurd found (by simp)

/-- The node of a process or thread that waits nowhere is in no list. -/
theorem not_owned {node : Node} (setup : Setup s.heap heads q) (not_head : ¬node.Head)
    (outside : ∀ head members, q.lists head = some members → node ∉ members) :
    ¬Owned (q.listsAt heads) node := by
  rintro ⟨head, members, found, member⟩
  obtain ⟨inside, found⟩ := of_listsAt found
  rcases List.mem_cons.mp member with rfl | member
  · exact not_head (setup.heads node inside)
  · exact outside head members found member

/-- Initialise one more list head. -/
theorem initListHead (setup : Setup s.heap heads q) (node : Node) (head : node.Head)
    (fresh : node ∉ heads) (empty : q.lists node = some []) :
    ∃ heap, s.initListHead node = .ok { s with heap } ∧ Setup heap (insert node heads) q := by
  have valid : node.Valid := by
    constructor <;> rintro rfl <;> exact head
  have separate : ∀ {head' members'}, q.listsAt heads head' = some members' → node ≠ head' →
      node ∉ head' :: members' := by
    intro head' members' found different member
    have inner : node ∈ members' := (List.mem_cons.mp member).resolve_left different
    rcases Queues.lists_eq_some (of_listsAt found).2 with ⟨queue, rfl, rfl⟩ | ⟨queue, _, rfl, rfl⟩
    · obtain ⟨process, _, rfl⟩ := List.mem_map.mp inner
      exact head
    · obtain ⟨thread, _, rfl⟩ := List.mem_map.mp inner
      exact head
  obtain ⟨heap, result, family, same⟩ := Family.initListHead s.access_valid setup.family
    valid separate
  have lists_eq : Function.update (q.listsAt heads) node (some []) =
      q.listsAt (insert node heads) := by
    funext other
    by_cases here : other = node
    · subst here
      rw [Function.update_self, listsAt_of_mem (Set.mem_insert _ _), empty]
    · rw [Function.update_of_ne here]
      by_cases inside : other ∈ heads
      · rw [listsAt_of_mem inside, listsAt_of_mem (Set.mem_insert_of_mem _ inside)]
      · have outside : other ∉ insert node heads := fun member =>
          (Set.mem_insert_iff.mp member).elim here inside
        rw [Queues.listsAt, if_neg inside, Queues.listsAt, if_neg outside]
  rw [lists_eq] at family
  refine ⟨heap, by rw [Kernel.initListHead, result]; rfl, family, ?_, ?_, ?_⟩
  · intro other member
    rcases Set.mem_insert_iff.mp member with rfl | member
    · exact head
    · exact setup.heads other member
  · intro index
    rw [same _ (by rintro rfl; exact head), setup.mutex]
  · intro page
    rw [same _ (by rintro rfl; exact head), setup.image]

/-- Append a process that waits nowhere. -/
theorem pushProcess (setup : Setup s.heap heads q) (queue : ProcessQueue)
    (ready : queue.node ∈ heads) {process : TaskId} (absent : q.processes.Absent process) :
    ∃ heap, s.listAddTail (.task process) queue.node = .ok { s with heap } ∧
      Setup heap heads (q.pushProcess queue process) := by
  have fresh : ¬Owned (q.listsAt heads) (.task process) := by
    refine setup.not_owned id fun head members found member => ?_
    rcases Queues.lists_eq_some found with ⟨queue, rfl, rfl⟩ | ⟨queue, _, rfl, rfl⟩
    · exact absent queue (by simpa using member)
    · simp at member
  obtain ⟨heap, result, family, same⟩ := Family.listAddTail s.access_valid setup.family
    ((listsAt_of_mem ready).trans (Queues.lists_processNode q queue)) (.task process) fresh
    (by simp [Node.Valid])
  have lists_eq : Function.update (q.listsAt heads) queue.node
      (some ((q.processes queue).map .task ++ [.task process])) =
        (q.pushProcess queue process).listsAt heads := by
    funext other
    rw [Queues.listsAt, Queues.lists_pushProcess]
    by_cases here : other = queue.node
    · subst here
      rw [Function.update_self, Function.update_self, if_pos ready]
    · rw [Function.update_of_ne here, Function.update_of_ne here, Queues.listsAt]
  rw [lists_eq] at family
  refine ⟨heap, by rw [Kernel.listAddTail, result]; rfl, family, setup.heads, ?_, ?_⟩
  · intro index
    rw [same _ (by simp) (by cases queue <;> simp), setup.mutex]
  · intro page
    rw [same _ (by simp) (by cases queue <;> simp), setup.image]

/-- Append a thread that waits nowhere to the free ones. -/
theorem pushThread (setup : Setup s.heap heads q) (ready : .freeThreadqueue ∈ heads)
    {slot : ThreadSlot} (absent : q.threads.Absent (.slot slot))
    (slots : ∀ thread ∈ q.threads .free, ∀ page, thread ≠ .image page) :
    ∃ heap, s.listAddTail (.thread (.slot slot)) .freeThreadqueue = .ok { s with heap } ∧
      Setup heap heads (q.pushThread .free (.slot slot)) := by
  have fresh : ¬Owned (q.listsAt heads) (.thread (.slot slot)) := by
    refine setup.not_owned id fun head members found member => ?_
    rcases Queues.lists_eq_some found with ⟨queue, rfl, rfl⟩ | ⟨queue, _, rfl, rfl⟩
    · simp at member
    · exact absent queue (by simpa using member)
  obtain ⟨heap, result, family, same⟩ := Family.listAddTail s.access_valid setup.family
    ((listsAt_of_mem ready).trans (Queues.lists_threadNode (show q.Listed .free from trivial)))
    (.thread (.slot slot)) fresh (by simp [Node.Valid])
  have lists_eq : Function.update (q.listsAt heads) .freeThreadqueue
      (some ((q.threads .free).map .thread ++ [.thread (.slot slot)])) =
        (q.pushThread .free (.slot slot)).listsAt heads := by
    funext other
    have pushed : (q.pushThread .free (.slot slot)).lists = _ :=
      Queues.lists_pushThread (show q.Listed .free from trivial) _
    rw [Queues.listsAt, pushed]
    by_cases here : other = .freeThreadqueue
    · subst here
      rw [Function.update_self, if_pos ready, ThreadQueue.node_free, Function.update_self]
    · rw [Function.update_of_ne here, ThreadQueue.node_free, Function.update_of_ne here,
        Queues.listsAt]
  rw [lists_eq] at family
  refine ⟨heap, by rw [Kernel.listAddTail, result]; rfl, family, setup.heads, ?_, ?_⟩
  · intro index
    rw [same _ (by simp) (by simp), setup.mutex]
  · intro page
    rw [same _ (by simp) (by simpa using fun member => slots _ member page rfl), setup.image]

/-- Once all heads are initialised, the heap represents the queues. -/
theorem represents (setup : Setup s.heap heads q) (all : ∀ node : Node, node.Head → node ∈ heads)
    (unlisted : ∀ index, q.head index = .unlisted none)
    (noMutex : ∀ index, q.threads (.mutex index) = []) : Represents s.heap q where
  family := by
    have lists_eq : q.listsAt heads = q.lists := by
      funext node
      by_cases inside : node ∈ heads
      · exact listsAt_of_mem inside
      · rw [Queues.listsAt, if_neg inside]
        cases node with
        | mutex index => rw [Queues.lists_mutex, if_neg (by simp [unlisted])]
        | freequeue => exact absurd (all .freequeue trivial) inside
        | readyqueue => exact absurd (all .readyqueue trivial) inside
        | freeThreadqueue => exact absurd (all .freeThreadqueue trivial) inside
        | ready process => exact absurd (all (.ready process) trivial) inside
        | blocked process => exact absurd (all (.blocked process) trivial) inside
        | _ => rfl
    rw [← lists_eq]
    exact setup.family
  unlisted {index last} found := by
    obtain rfl : none = last := MutexHead.unlisted.inj ((unlisted index).symm.trans found)
    exact ⟨noMutex index, setup.mutex index, by simp⟩
  image page _ := setup.image page

end Setup

/-! ## The loops of `init_sched` -/

/-- Mark the slots of a list as free. -/
def Kernel.clearPids (s : Kernel) (free : List TaskId) : Kernel :=
  { s with task := fun p => if p ∈ free then { s.task p with pid := -1 } else s.task p }

/-- The heads that `init_freequeue` initialises for the slots of a list. -/
def slotHeads (slots : List TaskId) : Set Node :=
  { node | ∃ p ∈ slots, node = .ready p ∨ node = .blocked p }

theorem slotHeads_cons (p : TaskId) (slots : List TaskId) (heads : Set Node) :
    insert (.blocked p) (insert (.ready p) heads) ∪ slotHeads slots =
      heads ∪ slotHeads (p :: slots) := by
  ext node
  simp only [slotHeads, Set.mem_union, Set.mem_insert_iff, Set.mem_ofPred_eq, List.mem_cons,
    exists_eq_or_imp]
  generalize (∃ p ∈ slots, node = .ready p ∨ node = .blocked p) = others
  tauto

variable {s : Kernel} {heads : Set Node} {q : Queues}

theorem initTaskSlot_eq (setup : Setup s.heap heads q) (ready : .freequeue ∈ heads) {p : TaskId}
    (fresh : .ready p ∉ heads ∧ .blocked p ∉ heads) (absent : q.processes.Absent p)
    (noThreads : ∀ queue, q.threads queue = []) :
    ∃ heap, s.initTaskSlot p = .ok { s.setTask p fun c => { c with pid := -1 } with heap } ∧
      Setup heap (insert (.blocked p) (insert (.ready p) heads)) (q.pushProcess .free p) := by
  obtain ⟨heap₁, first, setup₁⟩ := Setup.initListHead
    (s := s.setTask p fun c => { c with pid := -1 }) setup (.ready p) trivial fresh.1
    (by simp [Queues.lists, noThreads])
  obtain ⟨heap₂, second, setup₂⟩ := Setup.initListHead
    (s := { s.setTask p fun c => { c with pid := -1 } with heap := heap₁ })
    setup₁ (.blocked p) trivial (by simpa using fresh.2) (by simp [Queues.lists, noThreads])
  obtain ⟨heap₃, third, setup₃⟩ := Setup.pushProcess
    (s := { s.setTask p fun c => { c with pid := -1 } with heap := heap₂ }) setup₂ .free
    (by simp [ready]) absent
  simp only [ProcessQueue.node_free] at third
  refine ⟨heap₃, ?_, setup₃⟩
  rw [initTaskSlot]
  dsimp only
  rw [first, ok_bind, second, ok_bind]
  exact third

theorem initTaskSlots_eq {slots : List TaskId} (setup : Setup s.heap heads q)
    (ready : .freequeue ∈ heads)
    (fresh : ∀ p ∈ slots, .ready p ∉ heads ∧ .blocked p ∉ heads)
    (absent : ∀ p ∈ slots, q.processes.Absent p) (nodup : slots.Nodup)
    (noThreads : ∀ queue, q.threads queue = []) :
    ∃ heap, slots.foldlM initTaskSlot s = .ok { s.clearPids slots with heap } ∧
      Setup heap (heads ∪ slotHeads slots)
        { q with processes := Function.update q.processes .free (q.processes .free ++ slots) } := by
  induction slots generalizing s heads q with
  | nil =>
      refine ⟨s.heap, by simp [clearPids], ?_⟩
      have none : slotHeads [] = ∅ := by simp [slotHeads]
      simpa [none] using setup
  | cons p slots induction =>
      rw [List.nodup_cons] at nodup
      obtain ⟨heap₁, first, setup₁⟩ := initTaskSlot_eq setup ready (fresh p (by simp))
        (absent p (by simp)) noThreads
      have fresh' : ∀ x ∈ slots,
          .ready x ∉ insert (.blocked p) (insert (.ready p) heads) ∧
            .blocked x ∉ insert (.blocked p) (insert (.ready p) heads) := by
        intro x member
        have different : x ≠ p := fun equal => nodup.1 (equal ▸ member)
        have outside := fresh x (by simp [member])
        simpa [different] using outside
      have absent' : ∀ x ∈ slots, (q.pushProcess .free p).processes.Absent x := by
        intro x member
        have different : x ≠ p := fun equal => nodup.1 (equal ▸ member)
        exact Lanes.absent_push.mpr ⟨absent x (by simp [member]), different⟩
      obtain ⟨heap₂, rest, setup₂⟩ := induction
        (s := { s.setTask p fun c => { c with pid := -1 } with heap := heap₁ }) setup₁
        (by simp [ready]) fresh' absent' nodup.2 noThreads
      refine ⟨heap₂, ?_, ?_⟩
      · rw [List.foldlM_cons, first, ok_bind, rest]
        have tasks : ({ s.setTask p fun c => { c with pid := -1 } with
            heap := heap₁ }.clearPids slots).task = (s.clearPids (p :: slots)).task := by
          funext x
          by_cases same : x = p
          · subst same
            simp [clearPids]
          · simp [clearPids, same]
        rw [Except.ok.injEq, Kernel.mk.injEq]
        exact ⟨rfl, rfl, rfl, rfl, tasks, rfl, rfl, rfl, rfl, rfl, rfl, rfl, rfl⟩
      · rw [slotHeads_cons] at setup₂
        have lanes : Function.update (q.processes.push .free p) .free
            (q.processes.push .free p .free ++ slots) =
              Function.update q.processes .free (q.processes .free ++ p :: slots) := by
          rw [Lanes.push_same, Lanes.push, Function.update_idem, List.append_assoc,
            List.singleton_append]
        rw [← lanes]
        exact setup₂

theorem initThreadSlots_eq (slots : List ThreadSlot) (setup : Setup s.heap heads q)
    (ready : .freeThreadqueue ∈ heads) (absent : ∀ t ∈ slots, q.threads.Absent (.slot t))
    (nodup : slots.Nodup) (noImage : ∀ thread ∈ q.threads .free, ∀ page, thread ≠ .image page) :
    ∃ heap, (slots.map .slot).foldlM initThreadSlot s =
        .ok { s.clearTids (slots.map .slot) with heap } ∧
      Setup heap heads { q with
        threads := Function.update q.threads .free (q.threads .free ++ slots.map .slot) } := by
  induction slots generalizing s q with
  | nil => exact ⟨s.heap, by simp [clearTids], by simpa using setup⟩
  | cons t slots induction =>
      rw [List.nodup_cons] at nodup
      obtain ⟨heap₁, first, setup₁⟩ := Setup.pushThread
        (s := s.setThread (.slot t) fun c => { c with tid := -1 }) setup ready (absent t (by simp))
        noImage
      have absent' : ∀ x ∈ slots, (q.pushThread .free (.slot t)).threads.Absent (.slot x) := by
        intro x member
        have different : x ≠ t := fun equal => nodup.1 (equal ▸ member)
        exact Lanes.absent_push.mpr ⟨absent x (by simp [member]), by simpa using different⟩
      obtain ⟨heap₂, rest, setup₂⟩ := induction
        (s := { s.setThread (.slot t) fun c => { c with tid := -1 } with heap := heap₁ })
        setup₁ absent' nodup.2 (by
          intro thread member page
          rw [Queues.threads_pushThread, Lanes.push_same, List.mem_append,
            List.mem_singleton] at member
          rcases member with member | rfl
          · exact noImage thread member page
          · simp)
      refine ⟨heap₂, ?_, ?_⟩
      · rw [List.map_cons, List.foldlM_cons, initThreadSlot, first, ok_bind, rest,
          ← s.clearTids_cons]
        rfl
      · have lanes : Function.update (q.threads.push .free (.slot t)) .free
            (q.threads.push .free (.slot t) .free ++ slots.map .slot) =
              Function.update q.threads .free (q.threads .free ++ (t :: slots).map .slot) := by
          rw [Lanes.push_same, Lanes.push, Function.update_idem, List.append_assoc,
            List.singleton_append, List.map_cons]
        rw [← lanes]
        exact setup₂

/-- The queues at the end of `init_sched`. -/
def pooledQueues : Queues where
  processes := Function.update (fun _ => []) .free (List.finRange nrTasks)
  threads := Function.update (fun _ => []) .free pooledThreads
  head _ := .unlisted none

theorem initFreequeue_eq (setup : Setup s.heap ∅ q) (absent : ∀ p, q.processes.Absent p)
    (noThreads : ∀ queue, q.threads queue = []) :
    ∃ heap, s.initFreequeue = .ok { s.clearPids (List.finRange nrTasks) with heap } ∧
      Setup heap ({.freequeue} ∪ slotHeads (List.finRange nrTasks))
        { q with processes := Function.update q.processes .free (List.finRange nrTasks) } := by
  have empty : q.processes .free = [] := List.eq_nil_iff_forall_not_mem.mpr fun p => absent p .free
  obtain ⟨heap₁, first, setup₁⟩ := setup.initListHead .freequeue trivial (by simp)
    (by simp [Queues.lists, empty])
  obtain ⟨heap₂, second, setup₂⟩ := initTaskSlots_eq (s := { s with heap := heap₁ }) setup₁
    (by simp) (by simp) (fun p _ => absent p) (List.nodup_finRange _) noThreads
  refine ⟨heap₂, ?_, ?_⟩
  · rw [initFreequeue, first, ok_bind, second]
    rfl
  · simpa [empty] using setup₂

theorem pooledThreads_eq : pooledThreads =
    ((List.finRange nrTasks).map fun i => (i.castLE (by decide) : ThreadSlot)).map .slot := by
  rw [pooledThreads, List.map_map]
  rfl

theorem initFreethreadqueue_eq (setup : Setup s.heap heads q) (fresh : .freeThreadqueue ∉ heads)
    (noThreads : ∀ queue, q.threads queue = []) :
    ∃ heap, s.initFreethreadqueue = .ok { s.clearTids pooledThreads with heap } ∧
      Setup heap (insert .freeThreadqueue heads)
        { q with threads := Function.update q.threads .free pooledThreads } := by
  obtain ⟨heap₁, first, setup₁⟩ := setup.initListHead .freeThreadqueue trivial fresh
    (by simp [Queues.lists, noThreads])
  obtain ⟨heap₂, second, setup₂⟩ := initThreadSlots_eq (s := { s with heap := heap₁ })
    ((List.finRange nrTasks).map fun i => i.castLE (by decide)) setup₁ (by simp)
    (fun t _ queue => by simp [noThreads])
    ((List.nodup_finRange _).map (Fin.castLE_injective _)) (by simp [noThreads])
  rw [← pooledThreads_eq] at second setup₂
  refine ⟨heap₂, ?_, ?_⟩
  · rw [initFreethreadqueue, first, ok_bind, second]
    rfl
  · simpa [noThreads] using setup₂

theorem initSched_eq (mutex : ∀ index, s.heap (.mutex index) = ⟨.null, .null⟩)
    (image : ∀ page, s.heap (.thread (.image page)) = ⟨.wild, .wild⟩) :
    ∃ heap, s.initSched =
        .ok { (s.clearPids (List.finRange nrTasks)).clearTids pooledThreads with heap } ∧
      Represents heap pooledQueues := by
  have setup : Setup s.heap ∅
      { processes := fun _ => [], threads := fun _ => [], head := fun _ => .unlisted none } :=
    { family :=
        { ring := fun found => absurd (Setup.of_listsAt found).1 (by simp)
          disjoint := fun found => absurd (Setup.of_listsAt found).1 (by simp)
          valid := fun found => absurd (Setup.of_listsAt found).1 (by simp) }
      heads := by simp
      mutex := mutex
      image := image }
  obtain ⟨heap₁, first, setup₁⟩ := initFreequeue_eq setup (fun p queue => by simp) (by simp)
  obtain ⟨heap₂, second, setup₂⟩ := Setup.initListHead
    (s := { s.clearPids (List.finRange nrTasks) with heap := heap₁ }) setup₁
    .readyqueue trivial (by simp [slotHeads]) (by simp [Queues.lists])
  obtain ⟨heap₃, third, setup₃⟩ := initFreethreadqueue_eq
    (s := { s.clearPids (List.finRange nrTasks) with heap := heap₂ }) setup₂ (by simp [slotHeads])
    (by simp)
  refine ⟨heap₃, ?_, ?_⟩
  · rw [initSched, first, ok_bind, second, ok_bind, third]
    rfl
  · refine Setup.represents (s := { s with heap := heap₃ }) (q := pooledQueues) setup₃ ?_
      (fun _ => rfl) (fun _ => rfl)
    intro node head
    cases node with
    | freequeue => simp
    | readyqueue => simp
    | freeThreadqueue => simp
    | ready process => simp [slotHeads]
    | blocked process => simp [slotHeads]
    | _ => exact head.elim

/-! ## The state after boot -/

/-- The queues of the state after boot. -/
def bootQueues : Queues where
  processes
    | .free => (List.finRange nrTasks).drop 2
    | .ready => []
  threads
    | .free => pooledThreads.drop 2
    | _ => []
  head _ := .unlisted none

theorem bootQueues_eq : bootQueues =
    (((pooledQueues.removeProcess 0).removeThread (.slot 0)).removeProcess 1).removeThread
      (.slot 1) := by
  have processes : bootQueues.processes = (pooledQueues.processes.remove 0).remove 1 := by
    funext queue
    cases queue <;> decide
  have threads : bootQueues.threads = (pooledQueues.threads.remove (.slot 0)).remove (.slot 1) := by
    funext queue
    cases queue with
    | free => decide
    | _ => rfl
  rw [Queues.mk.injEq]
  exact ⟨processes, threads, rfl⟩

/-- The state after boot, but for the heap. -/
def Kernel.booted (layout : Layout) (heap : Heap Node) : Kernel :=
  { zeroed layout with
    cr3 := 1
    heap
    task := fun p =>
      if p = 0 then
        { pid := 0, dirPagesBaseAddr := some 0, state := .stRun, totalQuantum := defaultQuantumP
          nthread := 0 }
      else if p = 1 then
        { pid := 1, dirPagesBaseAddr := some 1, state := .stRun, totalQuantum := defaultQuantumP
          nthread := 2 }
      else { pid := -1, dirPagesBaseAddr := none, state := .stRun, totalQuantum := 0, nthread := 0 }
    thread := fun t =>
      if t = .slot 0 then
        { tid := 0, dirPagesBaseAddr := none, p := .null
          registerEsp := .on (.slot 0) (kernelStackSize - 2), state := .stRun, quantum := 0
          blockedBy := 0 }
      else if t = .slot 1 then
        { tid := 1, dirPagesBaseAddr := some 1, p := .slot 1, registerEsp := .null, state := .stRun
          quantum := defaultQuantumT, blockedBy := 0 }
      else if t ∈ pooledThreads then { (zeroed layout).thread t with tid := -1 }
      else (zeroed layout).thread t
    stack := Function.update (fun _ _ => 0) (.slot 0)
      (Function.update (Function.update (fun _ => 0) (kernelStackSize - 1) layout.cpuIdle)
        (kernelStackSize - 2) 0)
    idleTask := some (.slot 0)
    remainingQuantumT := defaultQuantumT
    remainingQuantumP := defaultQuantumP
    mem := ((zeroed layout).mem.initTablePages layout).initFrames.setUserPages 1 }

/-- The first free slots are taken out of their queues. -/
theorem takeSlots (represents : Represents s.heap q) {p : TaskId} {t : ThreadSlot}
    {processes : List TaskId} {threads : List ThreadPtr}
    (freeProcess : q.processes .free = p :: processes)
    (freeThread : q.threads .free = .slot t :: threads) :
    s.listFirst .freequeue = .task p ∧ ∃ heap₁,
      s.listDel (.task p) = .ok { s with heap := heap₁ } ∧
      ({ s with heap := heap₁ } : Kernel).listFirst .freeThreadqueue = .thread (.slot t) ∧
      ∃ heap₂, ({ s with heap := heap₁ } : Kernel).listDel (.thread (.slot t)) =
          .ok { s with heap := heap₂ } ∧
        Represents heap₂ ((q.removeProcess p).removeThread (.slot t)) := by
  have first := represents.first_processes .free
  rw [freeProcess] at first
  have member : p ∈ q.processes .free := by simp [freeProcess]
  obtain ⟨heap₁, deleted, represents₁⟩ := represents.removeProcess member
  have second := Represents.first_threads (s := { s with heap := heap₁ }) represents₁ .free trivial
  rw [show (q.removeProcess p).threads .free = _ from freeThread] at second
  have member' : .slot t ∈ (q.removeProcess p).threads .free := by simp [freeThread]
  obtain ⟨heap₂, deleted', represents₂⟩ := Represents.removeThread (s := { s with heap := heap₁ })
    represents₁ member'
  exact ⟨first, heap₁, deleted, second, heap₂, deleted', represents₂⟩

theorem initIdle_eq (layout : Layout) (represents : Represents s.heap q) {p : TaskId}
    {t : ThreadSlot} {processes : List TaskId} {threads : List ThreadPtr}
    (freeProcess : q.processes .free = p :: processes)
    (freeThread : q.threads .free = .slot t :: threads) :
    ∃ s' heap, s.initIdle layout = .ok s' ∧
      Represents s'.heap ((q.removeProcess p).removeThread (.slot t)) ∧
      s' = { s with
        heap
        task := Function.update s.task p { s.task p with
          pid := 0, totalQuantum := defaultQuantumP, dirPagesBaseAddr := some p }
        stack := Function.update s.stack (.slot t) (Function.update (Function.update
          (s.stack (.slot t)) (kernelStackSize - 1) layout.cpuIdle) (kernelStackSize - 2) 0)
        thread := Function.update s.thread (.slot t) { s.thread (.slot t) with
          tid := 0, registerEsp := .on (.slot t) (kernelStackSize - 2) }
        idleTask := some (.slot t) } := by
  obtain ⟨first, heap₁, deleted, second, heap₂, deleted', represents₂⟩ :=
    takeSlots represents freeProcess freeThread
  refine ⟨_, heap₂, ?_, represents₂, rfl⟩
  rw [initIdle, first]
  simp only [deleted, ok_bind, listHeadToTaskStruct, second, deleted', listHeadToThreadStruct,
    setTask, allocateDIR, setStack, setThread, Function.update_idem, Function.update_self]
  rfl

theorem initTask1_eq (layout : Layout) (represents : Represents s.heap q) {p : TaskId}
    {t : ThreadSlot} {processes : List TaskId} {threads : List ThreadPtr}
    (freeProcess : q.processes .free = p :: processes)
    (freeThread : q.threads .free = .slot t :: threads) :
    ∃ s' heap, s.initTask1 layout = .ok s' ∧
      Represents s'.heap ((q.removeProcess p).removeThread (.slot t)) ∧
      s' = { s with
        heap
        current := .slot t
        cr3 := p
        task := Function.update s.task p { s.task p with
          pid := 1, totalQuantum := defaultQuantumP, state := .stRun, nthread := 2
          dirPagesBaseAddr := some p }
        thread := Function.update s.thread (.slot t) { s.thread (.slot t) with
          tid := 1, dirPagesBaseAddr := some p, p := .slot p, state := .stRun
          quantum := defaultQuantumT }
        remainingQuantumP := defaultQuantumP
        remainingQuantumT := defaultQuantumT
        mem := s.mem.setUserPages p } := by
  obtain ⟨first, heap₁, deleted, second, heap₂, deleted', represents₂⟩ :=
    takeSlots represents freeProcess freeThread
  refine ⟨_, heap₂, ?_, represents₂, rfl⟩
  rw [initTask1, first]
  simp only [deleted, ok_bind, listHeadToTaskStruct, second, deleted', listHeadToThreadStruct,
    setTask, allocateDIR, getPT, setCr3, setThread, Function.update_idem, Function.update_self]
  rfl

theorem initMm_eq (layout : Layout) (s : Kernel) :
    s.initMm layout = .ok { s with
      cr3 := 0
      task := Function.update s.task 0 { s.task 0 with dirPagesBaseAddr := some 0 }
      mem := (s.mem.initTablePages layout).initFrames } := by
  simp [initMm, setCr3, allocateDIR, setTask]

theorem boot_eq (layout : Layout) :
    ∃ heap, boot layout = .ok (booted layout heap) ∧ Represents heap bootQueues := by
  have mapped := initMm_eq layout (zeroed layout)
  generalize s₀_eq : ({ zeroed layout with
      cr3 := 0
      task := Function.update (zeroed layout).task 0
        { (zeroed layout).task 0 with dirPagesBaseAddr := some 0 }
      mem := ((zeroed layout).mem.initTablePages layout).initFrames } : Kernel) = s₀ at mapped
  obtain ⟨heap₁, started, represents₁⟩ := initSched_eq (s := s₀) (fun _ => s₀_eq ▸ rfl)
    (fun _ => s₀_eq ▸ rfl)
  generalize s₁_eq : ({ (s₀.clearPids (List.finRange nrTasks)).clearTids pooledThreads with
    heap := heap₁ } : Kernel) = s₁ at started
  have represents₁ : Represents s₁.heap pooledQueues := s₁_eq ▸ represents₁
  obtain ⟨s₂, heap₂, idle, represents₂, s₂_eq⟩ := initIdle_eq (p := 0) (t := 0) layout represents₁
    rfl rfl
  obtain ⟨s₃, heap₃, first, represents₃, s₃_eq⟩ := initTask1_eq (p := 1) (t := 1) layout
    represents₂ rfl rfl
  rw [← bootQueues_eq] at represents₃
  have tasks : s₃.task = (booted layout heap₃).task := by
    funext p
    rw [s₃_eq, s₂_eq, ← s₁_eq, ← s₀_eq]
    by_cases one : p = 1
    · subst one
      simp [booted, clearPids, clearTids, zeroed, nrTasks]
    · by_cases zero : p = 0
      · subst zero
        simp [booted, clearPids, clearTids, zeroed, nrTasks]
      · simp [booted, clearPids, clearTids, zeroed, nrTasks, one, zero]
  have threads : s₃.thread = (booted layout heap₃).thread := by
    funext t
    rw [s₃_eq, s₂_eq, ← s₁_eq, ← s₀_eq]
    by_cases one : t = .slot 1
    · subst one
      have pooled : ThreadPtr.slot 1 ∈ pooledThreads := by decide
      simp [booted, clearPids, clearTids, zeroed, pooled]
    · by_cases zero : t = .slot 0
      · subst zero
        have pooled : ThreadPtr.slot 0 ∈ pooledThreads := by decide
        simp [booted, clearPids, clearTids, zeroed, pooled]
      · simp [booted, clearPids, clearTids, one, zero]
  have stack : s₁.stack = fun _ _ => 0 := by
    rw [← s₁_eq, ← s₀_eq]
    rfl
  have mem : s₁.mem = ((zeroed layout).mem.initTablePages layout).initFrames := by
    rw [← s₁_eq, ← s₀_eq]
    rfl
  have result : s₃ = booted layout heap₃ := by
    rw [s₃_eq, s₂_eq] at tasks threads ⊢
    rw [booted, Kernel.mk.injEq]
    refine ⟨rfl, ?_, rfl, rfl, tasks, threads, ?_, ?_, rfl, rfl, rfl, ?_, ?_⟩
    · rw [← s₁_eq, ← s₀_eq]
      rfl
    · rw [stack]
    · rw [← s₁_eq, ← s₀_eq]
      rfl
    · rw [← s₁_eq, ← s₀_eq]
      rfl
    · rw [mem]
  refine ⟨heap₃, ?_, ?_⟩
  · rw [boot, mapped, ok_bind, started, ok_bind, idle, ok_bind, first, result]
  · have heap_eq : s₃.heap = heap₃ := result ▸ rfl
    rwa [heap_eq] at represents₃

theorem mem_bootQueues {queue : ThreadQueue} {t : ThreadPtr}
    (member : t ∈ bootQueues.threads queue) :
    queue = .free ∧ ∃ slot : ThreadSlot, t = .slot slot ∧ 2 ≤ slot.val := by
  cases queue with
  | free =>
      refine ⟨rfl, ?_⟩
      have all :
          ∀ t ∈ pooledThreads.drop 2, ∃ slot : ThreadSlot, t = .slot slot ∧ 2 ≤ slot.val := by
        decide
      exact all t member
  | _ => exact absurd member List.not_mem_nil

theorem booted_consistent (layout : Layout) {heap : Heap Node}
    (represents : Represents heap bootQueues) : Consistent (booted layout heap) bootQueues where
  processes := represents.separate_processes
  threads := represents.separate_threads
  directory p := by
    by_cases zero : p = 0
    · exact .inr (by simp [booted, zero])
    · by_cases one : p = 1
      · exact .inr (by rw [one]; rfl)
      · exact .inl (by simp [booted, zero, one])
  fits {queue slot} member := by
    obtain ⟨rfl, _⟩ := mem_bootQueues member
    trivial
  image {queue page} member := by
    obtain ⟨_, _, equal, _⟩ := mem_bootQueues member
    exact absurd equal (by simp)
  imageP page := by
    have outside : ThreadPtr.image page ∉ pooledThreads := by
      revert page
      decide
    simp [booted, zeroed, outside]
  idle := by
    refine ⟨0, rfl, rfl, fun queue member => ?_⟩
    obtain ⟨_, _, equal, large⟩ := mem_bootQueues member
    obtain rfl := ThreadPtr.slot.inj equal
    exact absurd large (by decide)
  readyProcess p member := absurd member List.not_mem_nil
  represents := represents
  slot := ⟨1, rfl⟩
  absent queue member := by
    obtain ⟨_, _, equal, large⟩ := mem_bootQueues member
    obtain rfl := ThreadPtr.slot.inj equal
    exact absurd large (by decide)
  last found := absurd found (by simp [bootQueues])
  running := rfl
  process := rfl
  processRunning := rfl
  processAbsent queue member := by
    cases queue with
    | free =>
        have outside : (1 : TaskId) ∉ (List.finRange nrTasks).drop 2 := by decide
        exact outside member
    | ready => exact absurd member List.not_mem_nil
  ownDirectory := rfl
  saved := .inl rfl

/-! ## Runs -/

/-- A state of a run from boot whose steps all meet the guard, with what a history records of the
run. -/
def Kernel.ReachableWith {γ : Type} (layout : Layout)
    (record : γ → Kernel → Action → Kernel → Result → γ) (initial : γ)
    (guard : Kernel × γ → Action → Prop) (state : Kernel × γ) : Prop :=
  ∃ start, boot layout = .ok start ∧
    Reaches (recordStep (perform layout) record) guard (start, initial) state

/-- What holds after boot and is kept by every transition of a run holds at its end. -/
theorem Kernel.Reachable.induct {layout : Layout} {guard : Kernel → Action → Prop}
    (reachable : Reachable layout guard s) (holds : Kernel → Queues → Prop)
    (initial : ∀ heap, Represents heap bootQueues → holds (booted layout heap) bootQueues)
    (own : ∀ {s q action}, Consistent s q → holds s q → guard s action → s.WakesOwn action)
    (preserved : ∀ {s q action s' q' result}, Consistent s q → holds s q → guard s action →
      Consistent s' q' → s.perform layout action = .ok (s', result) →
      Transition layout s q action s' q' result → holds s' q') :
    ∃ q, Consistent s q ∧ holds s q := by
  obtain ⟨start, booting, reaches⟩ := reachable
  obtain ⟨heap, boots, represents⟩ := boot_eq layout
  obtain rfl : booted layout heap = start := Except.ok.inj (boots.symm.trans booting)
  refine reaches.invariant (fun s => ∃ q, Consistent s q ∧ holds s q) ?_
    ⟨bootQueues, booted_consistent layout represents, initial heap represents⟩
  rintro s s' action ⟨q, consistent, held⟩ admitted stepped
  obtain ⟨q', result, performed, transition, represents'⟩ :=
    consistent.transition_of_step stepped
  have consistent' := transition.consistent consistent (own consistent held admitted) represents'
  exact ⟨q', consistent', preserved consistent held admitted consistent' performed transition⟩

theorem Kernel.ReachableWith.induct {γ : Type} {layout : Layout}
    {record : γ → Kernel → Action → Kernel → Result → γ} {start : γ}
    {guard : Kernel × γ → Action → Prop} {state : Kernel × γ}
    (reachable : ReachableWith layout record start guard state)
    (holds : Kernel → Queues → γ → Prop)
    (initial : ∀ heap, Represents heap bootQueues → holds (booted layout heap) bootQueues start)
    (own : ∀ {s q history action}, Consistent s q → holds s q history →
      guard (s, history) action → s.WakesOwn action)
    (preserved : ∀ {s q history action s' q' result}, Consistent s q → holds s q history →
      guard (s, history) action → Consistent s' q' → s.perform layout action = .ok (s', result) →
      Transition layout s q action s' q' result →
      holds s' q' (record history s action s' result)) :
    ∃ q, Consistent state.1 q ∧ holds state.1 q state.2 := by
  obtain ⟨s₀, booting, reaches⟩ := reachable
  obtain ⟨heap, boots, represents⟩ := boot_eq layout
  obtain rfl : booted layout heap = s₀ := Except.ok.inj (boots.symm.trans booting)
  refine reaches.invariant (fun state => ∃ q, Consistent state.1 q ∧ holds state.1 q state.2) ?_
    ⟨bootQueues, booted_consistent layout represents, initial heap represents⟩
  rintro ⟨s, history⟩ after action ⟨q, consistent, held⟩ admitted taken
  obtain ⟨s', result, performed, rfl⟩ := recordStep_eq_ok.mp taken
  obtain ⟨q', transition, represents'⟩ := consistent.transition_of_perform performed
  have consistent' := transition.consistent consistent (own consistent held admitted) represents'
  exact ⟨q', consistent', preserved consistent held admitted consistent' performed transition⟩

end Zeos
