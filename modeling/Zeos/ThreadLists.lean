import Zeos.ListKinds
import Zeos.Loops

/-!
# The lists of threads, whatever the lists of processes

The lists of threads and those of processes have no nodes in common, and the functions that move
threads do not read the others.  So they do on any heap what they do on one that also represents
queues of processes.
-/

namespace Zeos

open IntrusiveList GuardedRun Kernel

/-- The two kinds of lists. -/
inductive Kind
  | processes
  | threads

/-- In lists of which kind a node is. -/
def Node.kind : Node → Option Kind
  | .freequeue | .readyqueue | .task _ => some .processes
  | .freeThreadqueue | .ready _ | .blocked _ | .thread _ | .mutex _ => some .threads
  | .null | .wild => none

/-- Two states that differ in the lists of processes only, which are given in the first one. -/
structure Shadow (rest : Heap Node) (s s₀ : Kernel) : Prop where
  same : s₀ = { s with heap := s₀.heap }
  agree : AgreeOff Node.kind .processes s.heap s₀.heap
  apart : Apart Node.kind s.heap
  kept : ∀ node, node.kind = some .processes → s.heap node = rest node

namespace Shadow

variable {rest : Heap Node} {s s₀ : Kernel} {layout : Layout}

theorem access (shadow : Shadow rest s s₀) : s₀.access = s.access := by
  funext node
  rw [shadow.same]
  rfl

theorem thread (shadow : Shadow rest s s₀) : s₀.thread = s.thread := by rw [shadow.same]

theorem current (shadow : Shadow rest s s₀) : s₀.current = s.current := by rw [shadow.same]

theorem currentP (shadow : Shadow rest s s₀) : s₀.currentP = s.currentP := by
  rw [shadow.same]
  rfl

theorem deref (shadow : Shadow rest s s₀) : s₀.deref = s.deref := by
  funext pointer
  rw [shadow.same]
  rfl

theorem listFirst (shadow : Shadow rest s s₀) {head : Node}
    (head_kind : head.kind = some .threads) :
    s₀.listFirst head = s.listFirst head := by
  rw [Kernel.listFirst, Kernel.listFirst, IntrusiveList.listFirst, IntrusiveList.listFirst,
    shadow.agree head (by rw [head_kind]; simp)]

theorem listEmpty (shadow : Shadow rest s s₀) {head : Node}
    (head_kind : head.kind = some .threads) :
    s₀.listEmpty head = s.listEmpty head := by
  rw [Kernel.listEmpty, Kernel.listEmpty, IntrusiveList.listEmpty, IntrusiveList.listEmpty,
    shadow.agree head (by rw [head_kind]; simp)]

/-- Updates that do not concern the heap. -/
theorem update (shadow : Shadow rest s s₀) (change : Kernel → Kernel)
    (heap : ∀ s, (change s).heap = s.heap)
    (commutes : ∀ s heap, change { s with heap } = { change s with heap }) :
    Shadow rest (change s) (change s₀) where
  same := by
    rw [heap s₀, ← commutes, ← shadow.same]
  agree := by
    rw [heap s, heap s₀]
    exact shadow.agree
  apart := by
    rw [heap s]
    exact shadow.apart
  kept := by
    rw [heap s]
    exact shadow.kept

/-- Operations on the heap. -/
theorem heap (shadow : Shadow rest s s₀) {result result₀ : Except Fault (Heap Node)}
    (lockstep : Lockstep (fun heap heap₀ => AgreeOff Node.kind .processes heap heap₀ ∧
      Apart Node.kind heap ∧ ∀ node, node.kind = some .processes → heap node = s.heap node)
      result result₀) :
    Lockstep (Shadow rest) (do return { s with heap := ← result })
      (do return { s₀ with heap := ← result₀ }) := by
  refine lockstep.bind fun heap heap₀ ⟨agree, apart, same⟩ => ⟨?_, agree, apart,
    fun node node_kind => (same node node_kind).trans (shadow.kept node node_kind)⟩
  show ({ s₀ with heap := heap₀ } : Kernel) = { s with heap := heap₀ }
  rw [shadow.same]

theorem listAddTail (shadow : Shadow rest s s₀) {new head : Node}
    (new_kind : new.kind = some .threads)
    (head_kind : head.kind = some .threads) :
    Lockstep (Shadow rest) (s.listAddTail new head) (s₀.listAddTail new head) := by
  unfold Kernel.listAddTail
  rw [shadow.access]
  exact shadow.heap (shadow.agree.listAddTail shadow.apart new_kind head_kind (by simp))

theorem listDel (shadow : Shadow rest s s₀) {entry : Node}
    (entry_kind : entry.kind = some .threads) :
    Lockstep (Shadow rest) (s.listDel entry) (s₀.listDel entry) := by
  unfold Kernel.listDel
  rw [shadow.access]
  exact shadow.heap (shadow.agree.listDel shadow.apart entry_kind rfl (by simp))

theorem initListHead (shadow : Shadow rest s s₀) {list : Node}
    (list_kind : list.kind = some .threads) :
    Lockstep (Shadow rest) (s.initListHead list) (s₀.initListHead list) := by
  unfold Kernel.initListHead
  rw [shadow.access]
  exact shadow.heap (shadow.agree.initListHead shadow.apart list_kind (by simp))

theorem updateThreadStateRr (shadow : Shadow rest s s₀) (t : ThreadPtr) {dstQueue : Option Node}
    (queue_kind : ∀ queue ∈ dstQueue, queue.kind = some .threads) :
    Lockstep (Shadow rest) (s.updateThreadStateRr t dstQueue)
      (s₀.updateThreadStateRr t dstQueue) := by
  unfold Kernel.updateThreadStateRr
  rw [shadow.thread]
  extract_lets relink
  have placed : ∀ s₁ s₁₀, Shadow rest s₁ s₁₀ → Lockstep (Shadow rest) (relink s₁) (relink s₁₀) := by
    intro s₁ s₁₀ shadow
    cases dstQueue with
    | none => exact shadow.update (fun s => s.setThread t _) (fun _ => rfl) fun _ _ => rfl
    | some queue =>
        refine (shadow.listAddTail rfl (queue_kind queue rfl)).bind fun s₂ s₂₀ shadow => ?_
        rw [shadow.currentP]
        refine .same fun p => ?_
        exact shadow.update (fun s => s.setThread t _) (fun _ => rfl) fun _ _ => rfl
  split
  · exact (shadow.listDel rfl).bind placed
  · exact placed s s₀ shadow

/-- The nodes that are taken for those of threads are in lists of threads. -/
theorem kind_of_thread {node : Node} {t : ThreadPtr}
    (found : listHeadToThreadStruct layout node = .ok t) : node.kind = some .threads := by
  cases node with
  | thread | mutex => rfl
  | _ => exact absurd found (by simp [listHeadToThreadStruct])

/-- A node is converted in both states. -/
theorem convert {β : Type} {related : β → β → Prop} {node : Node}
    {next next' : ThreadPtr → Except Fault β}
    (continued : ∀ t, node.kind = some .threads → Lockstep related (next t) (next' t)) :
    Lockstep related (listHeadToThreadStruct layout node >>= next)
      (listHeadToThreadStruct layout node >>= next') := by
  cases found : listHeadToThreadStruct layout node with
  | error fault => exact rfl
  | ok t => exact continued t (kind_of_thread found)

theorem freeThreadsOf (shadow : Shadow rest s s₀) {head : Node}
    (head_kind : head.kind = some .threads)
    (fuel : Nat) : Lockstep (Shadow rest) (Kernel.freeThreadsOf layout head fuel s)
      (Kernel.freeThreadsOf layout head fuel s₀) := by
  induction fuel generalizing s s₀ with
  | zero => exact rfl
  | succ fuel induction =>
      rw [Kernel.freeThreadsOf, Kernel.freeThreadsOf, shadow.listEmpty head_kind]
      split
      · exact shadow
      · rw [shadow.listFirst head_kind]
        refine convert fun t node_kind => ?_
        refine (shadow.listDel node_kind).bind fun s₁ s₁₀ shadow => ?_
        refine (shadow.listAddTail rfl rfl).bind fun s₂ s₂₀ shadow => ?_
        exact induction (shadow.update (fun s => s.setThread t _) (fun _ => rfl) fun _ _ => rfl)

theorem wakeJoiner (shadow : Shadow rest s s₀) (p : TaskId) (t : ThreadPtr) :
    Lockstep (Shadow rest) (s.wakeJoiner p t) (s₀.wakeJoiner p t) := by
  unfold Kernel.wakeJoiner
  rw [shadow.thread, shadow.current]
  split
  · exact shadow.updateThreadStateRr t fun queue found => Option.some.inj found ▸ rfl
  · exact shadow

theorem wakeLoop (shadow : Shadow rest s s₀) (p : TaskId) (i : Node) (fuel : Nat) :
    Lockstep (Shadow rest) (Kernel.wakeLoop layout p i fuel s)
      (Kernel.wakeLoop layout p i fuel s₀) := by
  induction fuel generalizing s s₀ with
  | zero => exact rfl
  | succ fuel induction =>
      rw [Kernel.wakeLoop, Kernel.wakeLoop, shadow.listFirst rfl]
      split
      · exact shadow
      · refine convert fun t node_kind => ?_
        refine (shadow.wakeJoiner p t).bind fun s₁ s₁₀ shadow => ?_
        refine (shadow.listDel node_kind).bind fun s₂ s₂₀ shadow => ?_
        exact (shadow.listAddTail node_kind rfl).bind fun s₃ s₃₀ shadow => induction shadow

theorem wakeJoiners (shadow : Shadow rest s s₀) {p : TaskId}
    (first_kind : (s.listFirst (.blocked p)).kind = some .threads) :
    Lockstep (Shadow rest) (s.wakeJoiners layout p) (s₀.wakeJoiners layout p) := by
  unfold Kernel.wakeJoiners
  rw [shadow.listEmpty rfl]
  split
  · exact shadow
  · rw [shadow.listFirst rfl]
    refine (shadow.listDel first_kind).bind fun s₁ s₁₀ shadow => ?_
    refine (shadow.listAddTail first_kind rfl).bind fun s₂ s₂₀ shadow => ?_
    refine (shadow.wakeLoop p _ _).bind fun s₃ s₃₀ shadow => ?_
    rw [shadow.listFirst rfl]
    exact convert fun t _ => shadow.wakeJoiner p t

theorem releaseWaiters (shadow : Shadow rest s s₀) (m : MutexId) (fuel : Nat) :
    Lockstep (Shadow rest) (Kernel.releaseWaiters layout m fuel s)
      (Kernel.releaseWaiters layout m fuel s₀) := by
  induction fuel generalizing s s₀ with
  | zero => exact rfl
  | succ fuel induction =>
      rw [Kernel.releaseWaiters, Kernel.releaseWaiters, shadow.listEmpty rfl]
      split
      · exact shadow
      · rw [shadow.listFirst rfl]
        refine convert fun t node_kind => ?_
        refine (shadow.listDel node_kind).bind fun s₁ s₁₀ shadow => ?_
        rw [shadow.thread, shadow.deref]
        refine .same fun p => ?_
        refine (shadow.updateThreadStateRr t fun queue found => Option.some.inj found ▸ rfl).bind
          fun s₂ s₂₀ shadow => induction shadow

end Shadow

/-! ## Queues of threads -/

/-- The heap holds the queues of threads, and other lists that have no nodes in common with
them and are as given. -/
structure Threads (rest heap : Heap Node) (q : Queues) : Prop where
  apart : Apart Node.kind heap
  kept : ∀ node, node.kind = some .processes → heap node = rest node
  shadow : ∃ heap₀, AgreeOff Node.kind .processes heap heap₀ ∧ Represents heap₀ q

namespace Threads

variable {s : Kernel} {q q' : Queues} {rest heap : Heap Node} {layout : Layout}

/-- The other lists are as they are. -/
theorem rebase (threads : Threads rest heap q) : Threads heap heap q where
  apart := threads.apart
  kept _ _ := rfl
  shadow := threads.shadow

theorem separate (threads : Threads rest heap q) : q.threads.Separate :=
  have ⟨_, _, represents⟩ := threads.shadow
  represents.separate_threads

theorem unlisted (threads : Threads rest heap q) {m : MutexId} {last : Option ThreadSlot}
    (unlisted : q.head m = .unlisted last) : q.threads (.mutex m) = [] ∧
      heap (.mutex m) = ⟨.null, lastNode last⟩ ∧
      ∀ slot ∈ last, q.threads.Absent (.slot slot) := by
  obtain ⟨heap₀, agree, represents⟩ := threads.shadow
  rw [← agree (.mutex m) (by simp [Node.kind])]
  exact represents.unlisted unlisted

theorem listed_of_mem (threads : Threads rest heap q) {queue : ThreadQueue} {t : ThreadPtr}
    (member : t ∈ q.threads queue) : q.Listed queue :=
  have ⟨_, _, represents⟩ := threads.shadow
  represents.listed_of_mem member

theorem kind_node (queue : ThreadQueue) : queue.node.kind = some .threads := by
  cases queue <;> rfl

theorem first_threads (threads : Threads rest s.heap q) (queue : ThreadQueue)
    (listed : q.Listed queue) :
    s.listFirst queue.node = ((q.threads queue).map .thread).headD queue.node := by
  obtain ⟨heap₀, agree, represents⟩ := threads.shadow
  have shadow : Shadow rest s { s with heap := heap₀ } := ⟨rfl, agree, threads.apart, threads.kept⟩
  rw [← shadow.listFirst (kind_node queue)]
  exact Represents.first_threads (s := { s with heap := heap₀ }) represents queue listed

theorem empty_threads (threads : Threads rest s.heap q) (queue : ThreadQueue)
    (listed : q.Listed queue) : s.listEmpty queue.node = (q.threads queue).isEmpty := by
  obtain ⟨heap₀, agree, represents⟩ := threads.shadow
  have shadow : Shadow rest s { s with heap := heap₀ } := ⟨rfl, agree, threads.apart, threads.kept⟩
  rw [← shadow.listEmpty (kind_node queue)]
  exact Represents.empty_threads (s := { s with heap := heap₀ }) represents queue listed

/-- What a function of the kernel does to a heap with queues of processes it does to any other. -/
theorem lift (threads : Threads rest s.heap q) (result : Kernel → Except Fault Kernel)
    (final : Heap Node → Kernel)
    (lockstep : ∀ s₀, Shadow rest s s₀ → Lockstep (Shadow rest) (result s) (result s₀))
    (final_heap : ∀ heap heap', { final heap with heap := heap' } = final heap')
    (ensures : ∀ heap₀, Represents heap₀ q → Ensures (fun s' => ∃ heap, s' = final heap ∧
      Represents heap q') (result { s with heap := heap₀ })) :
    Ensures (fun s' => ∃ heap, s' = final heap ∧ Threads rest heap q') (result s) := by
  obtain ⟨heap₀, agree, represents⟩ := threads.shadow
  refine ((lockstep _ ⟨rfl, agree, threads.apart, threads.kept⟩).ensures
    (ensures heap₀ represents)).mono ?_
  rintro s' ⟨_, shadow, heap, rfl, represents'⟩
  have heap_eq : (final heap).heap = heap :=
    congrArg Kernel.heap (final_heap heap heap).symm
  refine ⟨s'.heap, ?_, shadow.apart, shadow.kept, heap, ?_, represents'⟩
  · rw [← final_heap heap, shadow.same]
  · rw [← heap_eq]
    exact shadow.agree

/-- Only the nodes in lists of threads matter. -/
theorem frame (threads : Threads rest heap q) {heap' : Heap Node} (apart : Apart Node.kind heap')
    (same : ∀ node, node.kind = some .threads → heap' node = heap node) :
    Threads heap' heap' q := by
  obtain ⟨heap₀, agree, represents⟩ := threads.shadow
  refine ⟨apart, fun _ _ => rfl, fun node => if node.kind = none then heap' node else heap₀ node,
    ?_, ?_⟩
  · intro node other
    dsimp only
    split
    · rfl
    · rename_i listed
      have thread_kind : node.kind = some .threads := by cases node <;> simp_all [Node.kind]
      rw [agree node other, same node thread_kind]
  · have kept : ∀ node, node.kind ≠ none →
        (if node.kind = none then heap' node else heap₀ node) = heap₀ node :=
      fun node listed => if_neg listed
    refine ⟨represents.family.frame fun node owned => kept node ?_, ?_, ?_⟩
    · obtain ⟨_, _, found, member⟩ := owned
      have valid := represents.family.valid found node member
      cases node with
      | null => exact absurd rfl valid.1
      | wild => exact absurd rfl valid.2
      | _ => simp [Node.kind]
    · intro m last unlisted
      rw [kept _ (by simp [Node.kind])]
      exact represents.unlisted unlisted
    · intro page absent
      rw [kept _ (by simp [Node.kind])]
      exact represents.image page absent

/-- A process joins a queue. -/
theorem addProcess (threads : Threads rest s.heap q) (p : TaskId) (queue : ProcessQueue) :
    Ensures (fun s' => ∃ heap, s' = { s with heap } ∧ Threads heap heap q)
      (s.listAddTail (.task p) queue.node) := by
  intro s' added
  obtain ⟨heap, linked, result⟩ := bind_eq_ok.mp added
  have queue_kind : queue.node.kind = some .processes := by cases queue <;> rfl
  obtain ⟨apart, same⟩ :=
    threads.apart.listAddTail (show Node.kind (.task p) = _ from rfl) queue_kind heap linked
  exact ⟨heap, (Except.ok.inj result).symm, threads.frame apart fun node thread_kind =>
    same node .threads thread_kind (by simp)⟩

/-- A process leaves its queue. -/
theorem removeProcess (threads : Threads rest s.heap q) (p : TaskId) :
    Ensures (fun s' => ∃ heap, s' = { s with heap } ∧ Threads heap heap q)
      (s.listDel (.task p)) := by
  intro s' deleted
  obtain ⟨heap, unlinked, result⟩ := bind_eq_ok.mp deleted
  obtain ⟨apart, same⟩ :=
    threads.apart.listDel (show Node.kind (.task p) = _ from rfl) rfl heap unlinked
  exact ⟨heap, (Except.ok.inj result).symm, threads.frame apart fun node thread_kind =>
    same node .threads thread_kind (by simp)⟩

/-- The node of a thread that waits nowhere can be overwritten by that of another thread. -/
theorem copy (threads : Threads rest heap q) {slot : ThreadSlot}
    (absent : q.threads.Absent (.slot slot)) (t : ThreadPtr) :
    Threads rest (Function.update heap (.thread (.slot slot)) (heap (.thread t))) q := by
  obtain ⟨heap₀, agree, represents⟩ := threads.shadow
  refine ⟨fun node k node_kind => ?_, fun node node_kind => ?_,
    Function.update heap₀ (.thread (.slot slot)) (heap (.thread t)), fun node other => ?_,
    represents.update_absent absent _⟩
  · by_cases same : node = .thread (.slot slot)
    · subst same
      rw [Function.update_self]
      exact threads.apart (.thread t) k node_kind
    · rw [Function.update_of_ne same]
      exact threads.apart node k node_kind
  · rw [Function.update_of_ne (by rintro rfl; simp [Node.kind] at node_kind)]
    exact threads.kept node node_kind
  · by_cases same : node = .thread (.slot slot)
    · rw [same, Function.update_self, Function.update_self]
    · rw [Function.update_of_ne same, Function.update_of_ne same, agree node other]

/-! ## Moving threads -/

variable {t : ThreadPtr} {p : TaskId}

theorem push (threads : Threads rest s.heap q) (queue : ThreadQueue) (listed : q.Listed queue)
    (absent : q.threads.Absent t)
    (not_last : ∀ index slot, q.head index = .unlisted (some slot) → t ≠ .slot slot) :
    Ensures (fun s' => ∃ heap, s' = { s with heap } ∧ Threads rest heap (q.pushThread queue t))
      (s.listAddTail (.thread t) queue.node) := by
  refine threads.lift (fun s => s.listAddTail (.thread t) queue.node) (fun heap => { s with heap })
    (fun s₀ shadow => shadow.listAddTail rfl (kind_node queue)) (fun _ _ => rfl)
    fun heap₀ represents => ?_
  obtain ⟨heap, added, represents'⟩ :=
    Represents.pushThread (s := { s with heap := heap₀ }) represents queue listed absent not_last
  exact added ▸ .ok ⟨heap, rfl, represents'⟩

theorem remove (threads : Threads rest s.heap q) {queue : ThreadQueue} {slot : ThreadSlot}
    (member : .slot slot ∈ q.threads queue) :
    Ensures (fun s' => ∃ heap, s' = { s with heap } ∧
      Threads rest heap (q.removeThread (.slot slot))) (s.listDel (.thread (.slot slot))) := by
  refine threads.lift (fun s => s.listDel (.thread (.slot slot))) (fun heap => { s with heap })
    (fun s₀ shadow => shadow.listDel rfl) (fun _ _ => rfl) fun heap₀ represents => ?_
  obtain ⟨heap, deleted, represents'⟩ :=
    Represents.removeThread (s := { s with heap := heap₀ }) represents member
  exact deleted ▸ .ok ⟨heap, rfl, represents'⟩

/-- The running thread joins a queue. -/
theorem updatePush (threads : Threads rest s.heap q) (queue : ThreadQueue) (listed : q.Listed queue)
    (absent : q.threads.Absent t)
    (not_last : ∀ index slot, q.head index = .unlisted (some slot) → t ≠ .slot slot)
    (running : (s.thread t).state = .stRun) (process : (s.thread s.current).p = .slot p) :
    Ensures (fun s' => ∃ heap, s' = { s with heap }.setState t (queueState p queue) ∧
      Threads rest heap (q.pushThread queue t)) (s.updateThreadStateRr t (some queue.node)) := by
  refine threads.lift (fun s => s.updateThreadStateRr t (some queue.node))
    (fun heap => { s with heap }.setState t (queueState p queue))
      (fun s₀ shadow => shadow.updateThreadStateRr t fun _ found => Option.some.inj found ▸
      kind_node queue) (fun _ _ => rfl) fun heap₀ represents => ?_
  obtain ⟨heap, updated, represents'⟩ := updateThreadStateRr_push (s := { s with heap := heap₀ })
    represents queue listed absent not_last running process
  exact updated ▸ .ok ⟨heap, rfl, represents'⟩

/-- A waiting thread moves to another queue. -/
theorem updateMove (threads : Threads rest s.heap q) {source : ThreadQueue}
    (member : t ∈ q.threads source) (queue : ThreadQueue) (listed : q.Listed queue)
    (stopped : (s.thread t).state ≠ .stRun) (process : (s.thread s.current).p = .slot p) :
    Ensures (fun s' => ∃ heap, s' = { s with heap }.setState t (queueState p queue) ∧
      Threads rest heap (q.moveThread t queue)) (s.updateThreadStateRr t (some queue.node)) := by
  refine threads.lift (fun s => s.updateThreadStateRr t (some queue.node))
    (fun heap => { s with heap }.setState t (queueState p queue))
      (fun s₀ shadow => shadow.updateThreadStateRr t fun _ found => Option.some.inj found ▸
      kind_node queue) (fun _ _ => rfl) fun heap₀ represents => ?_
  obtain ⟨heap, updated, represents'⟩ := updateThreadStateRr_move (s := { s with heap := heap₀ })
    represents member queue listed stopped process
  exact updated ▸ .ok ⟨heap, rfl, represents'⟩

theorem wakeJoiners (threads : Threads rest s.heap q) (process : (s.thread s.current).p = .slot p)
    (stopped : ∀ t ∈ q.threads (.blocked p), (s.thread t).state ≠ .stRun)
    (outside : s.current ∉ q.threads (.blocked p)) :
    Ensures (fun s' => ∃ heap, s' = { s.readyJoiners (q.threads (.blocked p)) with heap } ∧
      Threads rest heap (q.wakeFirst p s.Joins)) (s.wakeJoiners layout p) := by
  have first_kind : (s.listFirst (.blocked p)).kind = some .threads := by
    have node := threads.first_threads (.blocked p) trivial
    rw [ThreadQueue.node_blocked] at node
    rw [node]
    cases q.threads (.blocked p) <;> rfl
  refine threads.lift (fun s => s.wakeJoiners layout p)
    (fun heap => { s.readyJoiners (q.threads (.blocked p)) with heap })
      (fun s₀ shadow => shadow.wakeJoiners first_kind) (fun _ _ => rfl) fun heap₀ represents => ?_
  obtain ⟨heap, woken, represents'⟩ := wakeJoiners_eq (s := { s with heap := heap₀ }) layout
    represents process stopped outside
  exact woken ▸ .ok ⟨heap, rfl, represents'⟩

theorem freeThreadsOf (threads : Threads rest s.heap q) (p : TaskId) :
    Ensures (fun s' => ∃ heap,
        s' = { s.clearTids (q.threads (.ready p) ++ q.threads (.blocked p)) with heap } ∧
        Threads rest heap ((q.drainThreads (.ready p)).drainThreads (.blocked p)))
      (Kernel.freeThreadsOf layout (.ready p) listFuel s >>=
        Kernel.freeThreadsOf layout (.blocked p) listFuel) := by
  refine threads.lift (fun s => Kernel.freeThreadsOf layout (.ready p) listFuel s >>=
      Kernel.freeThreadsOf layout (.blocked p) listFuel)
    (fun heap => { s.clearTids (q.threads (.ready p) ++ q.threads (.blocked p)) with heap })
    (fun s₀ shadow => (shadow.freeThreadsOf rfl _).bind fun _ _ shadow =>
      shadow.freeThreadsOf rfl _) (fun _ _ => rfl) fun heap₀ represents => ?_
  obtain ⟨heap, freed, represents'⟩ :=
    freeThreadsOf_both (s := { s with heap := heap₀ }) layout represents p
  exact freed ▸ .ok ⟨heap, rfl, represents'⟩

theorem releaseWaiters (threads : Threads rest s.heap q) {m : MutexId}
    (listed : q.Listed (.mutex m))
    (process : (s.thread s.current).p = .slot s.cr3)
    (own : ∀ t ∈ q.threads (.mutex m), (s.thread t).p = .slot (s.home t))
    (stopped : ∀ t ∈ q.threads (.mutex m), (s.thread t).state ≠ .stRun)
    (outside : s.current ∉ q.threads (.mutex m)) :
    Ensures (fun s' => ∃ heap, s' = { s.releaseStates (q.threads (.mutex m)) with heap } ∧
      Threads rest heap (q.moveHome s.home (q.threads (.mutex m))))
      (Kernel.releaseWaiters layout m listFuel s) := by
  refine threads.lift (Kernel.releaseWaiters layout m listFuel)
    (fun heap => { s.releaseStates (q.threads (.mutex m)) with heap })
      (fun s₀ shadow => shadow.releaseWaiters m _) (fun _ _ => rfl) fun heap₀ represents => ?_
  rcases releaseWaiters_eq (s := { s with heap := heap₀ }) layout represents listed process rfl own
      stopped outside (length_lt_listFuel (represents.separate_threads.nodup _)) with
    failed | ⟨heap, released, represents'⟩
  · exact failed ▸ .error _
  · exact released ▸ .ok ⟨heap, rfl, represents'⟩

theorem initMutex (threads : Threads rest s.heap q) (m : MutexId)
    (noImage : ∀ page, .image page ∉ q.threads (.mutex m)) :
    Ensures (fun s' => ∃ heap, s' = { s with heap } ∧ Threads rest heap
        { q with
          threads := q.threads.clear (.mutex m)
          head := Function.update q.head m .listed })
      (s.initListHead (.mutex m)) := by
  refine threads.lift (fun s => s.initListHead (.mutex m)) (fun heap => { s with heap })
    (fun s₀ shadow => shadow.initListHead rfl) (fun _ _ => rfl) fun heap₀ represents => ?_
  obtain ⟨heap, result, represents'⟩ :=
    Represents.initMutex (s := { s with heap := heap₀ }) represents m noImage
  exact result ▸ .ok ⟨heap, rfl, represents'⟩

theorem pushUnlisted (threads : Threads rest s.heap q) {m : MutexId} {last : Option ThreadSlot}
    (unlisted : q.head m = .unlisted last) {slot : ThreadSlot}
    (absent : q.threads.Absent (.slot slot)) :
    Ensures (fun s' => ∃ heap, s' = { s with heap } ∧ Threads rest heap
        { q with head := Function.update q.head m (.unlisted (some slot)) })
      (s.listAddTail (.thread (.slot slot)) (.mutex m)) := by
  refine threads.lift (fun s => s.listAddTail (.thread (.slot slot)) (.mutex m))
    (fun heap => { s with heap }) (fun s₀ shadow => shadow.listAddTail rfl rfl) (fun _ _ => rfl)
    fun heap₀ represents => ?_
  rcases Represents.pushUnlisted (s := { s with heap := heap₀ }) represents unlisted absent with
    failed | ⟨heap, added, represents'⟩
  · exact failed ▸ .error _
  · exact added ▸ .ok ⟨heap, rfl, represents'⟩

end Threads

end Zeos
