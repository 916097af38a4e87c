import Zeos.Start

/-!
# What can be seen of a state

The lists of the kernel as a traversal from their heads finds them, and runs on concrete inputs.
-/

namespace Zeos

open IntrusiveList GuardedRun

/-! ## Lists -/

namespace Kernel

/-- The nodes linked in the list of a head; a head that is still zero has none. -/
def linked (s : Kernel) (head : Node) : List Node :=
  if (s.heap head).next = .null then [] else nodes listFuel s.heap head

/-- The waiters of a mutex, first to last. -/
def waiters (s : Kernel) (m : MutexId) : List Node := s.linked (.mutex m)

/-- A process is live as long as it is not among the free ones. -/
def Live (s : Kernel) (p : TaskId) : Prop := .task p ∉ s.linked .freequeue

instance (s : Kernel) : DecidablePred s.Live := fun p =>
  inferInstanceAs (Decidable (.task p ∉ s.linked .freequeue))

end Kernel

namespace Represents

variable {s : Kernel} {q : Queues}

theorem linked_of_ring {head : Node} {members : List Node} (ring : Ring s.heap head members)
    (valid : ∀ node ∈ head :: members, node.Valid) (short : members.length ≤ listFuel) :
    s.linked head = members := by
  have next : (s.heap head).next ≠ .null := by
    have first : (s.heap head).next = members.headD head := ring.listFirst
    rw [first]
    cases members with
    | nil => exact (valid head (by simp)).1
    | cons node rest => exact (valid node (by simp)).1
  rw [Kernel.linked, if_neg next, ring.nodes_eq short]

/-- A traversal finds the threads of a queue. -/
theorem linked_threads (represents : Represents s.heap q) (queue : ThreadQueue) :
    s.linked queue.node = (q.threads queue).map .thread := by
  have ring : q.Listed queue → s.linked queue.node = (q.threads queue).map .thread := by
    intro listed
    have found := Queues.lists_threadNode listed
    refine linked_of_ring (represents.family.ring found)
      (represents.family.valid found) ?_
    rw [List.length_map]
    exact (Kernel.length_lt_listFuel (represents.separate_threads.nodup queue)).le
  cases queue with
  | mutex index =>
      cases head : q.head index with
      | listed => exact ring head
      | unlisted last =>
          obtain ⟨empty, links, _⟩ := represents.unlisted head
          rw [empty, Kernel.linked, if_pos (by rw [ThreadQueue.node_mutex, links])]
          rfl
  | _ => exact ring trivial

end Represents

namespace Consistent

variable {s : Kernel} {q : Queues}

theorem linked_processes (consistent : Consistent s q) (queue : ProcessQueue) :
    s.linked queue.node = (q.processes queue).map .task := by
  have found := Queues.lists_processNode q queue
  refine Represents.linked_of_ring (consistent.represents.family.ring found)
    (consistent.represents.family.valid found) ?_
  have short : (q.processes queue).length ≤ Fintype.card TaskId :=
    (consistent.processes.nodup queue).length_le_card
  have small : Fintype.card TaskId ≤ listFuel := by decide
  rw [List.length_map]
  exact short.trans small

theorem linked_threads (consistent : Consistent s q) (queue : ThreadQueue) :
    s.linked queue.node = (q.threads queue).map .thread :=
  consistent.represents.linked_threads queue

theorem live_iff (consistent : Consistent s q) (p : TaskId) :
    s.Live p ↔ p ∉ q.processes .free := by
  have processes := consistent.linked_processes .free
  rw [ProcessQueue.node_free] at processes
  rw [Kernel.Live, processes, List.mem_map_of_injective task_injective]

/-- A thread is linked in a list exactly as often as it is in the queue. -/
theorem linked_thread_iff (consistent : Consistent s q) (queue : ThreadQueue) (t : ThreadPtr) :
    .thread t ∈ s.linked queue.node ↔ t ∈ q.threads queue := by
  rw [consistent.linked_threads, List.mem_map_of_injective thread_injective]

end Consistent

/-! ## Concrete runs -/

namespace Kernel

/-- A layout for concrete runs. -/
def plainLayout : Layout where
  mutexVector := 0x14000
  imageState _ := .stRun
  protectedTasks := 0x20
  cpuIdle := 0x10000
  retFromFork := 0x10000
  frame _ := 990
  ram _ := 0

/-- Boot and take the actions of a list as long as the test allows them. -/
def checkBoot (allowed : Kernel → Action → Bool) (goal : Kernel → Bool) (actions : List Action) :
    Bool :=
  match boot plainLayout with
  | .ok start => checkRun (step plainLayout) allowed goal start actions
  | .error _ => false

theorem reachable_of_checkBoot (guard : Kernel → Action → Prop) (allowed : Kernel → Action → Bool)
    (goal : Kernel → Bool) (actions : List Action)
    (admits : ∀ s action, allowed s action = true → guard s action)
    (check : checkBoot allowed goal actions = true) :
    ∃ s, Reachable plainLayout guard s ∧ goal s = true := by
  unfold checkBoot at check
  split at check
  · rename_i start booted
    obtain ⟨final, reaches, met⟩ := reaches_of_checkRun admits check
    exact ⟨final, ⟨start, booted, reaches⟩, met⟩
  · exact absurd check (by simp)

/-- A run from boot and one more step that passes a test. -/
theorem performed_of_checkBoot (guard : Kernel → Action → Prop) (allowed : Kernel → Action → Bool)
    (last : Action) (goal : Kernel → Kernel → Result → Bool) (actions : List Action)
    (admits : ∀ s action, allowed s action = true → guard s action)
    (check : checkBoot allowed (fun s =>
      passes (s.perform plainLayout last) fun next => goal s next.1 next.2) actions = true) :
    ∃ s s' result, Reachable plainLayout guard s ∧
      s.perform plainLayout last = .ok (s', result) ∧ goal s s' result = true := by
  obtain ⟨s, reachable, met⟩ := reachable_of_checkBoot guard allowed _ actions admits check
  obtain ⟨next, performed, met⟩ := passes_eq_true.mp met
  exact ⟨s, next.1, next.2, reachable, performed, met⟩

/-- Boot and take the actions of a list, with a history, as long as the test allows them. -/
def checkBootWith {γ : Type} (record : γ → Kernel → Action → Kernel → Result → γ) (initial : γ)
    (allowed : Kernel × γ → Action → Bool) (goal : Kernel × γ → Bool) (actions : List Action) :
    Bool :=
  match boot plainLayout with
  | .ok start => checkRun (recordStep (perform plainLayout) record) allowed goal (start, initial)
      actions
  | .error _ => false

theorem reachableWith_of_checkBoot {γ : Type}
    (record : γ → Kernel → Action → Kernel → Result → γ) (initial : γ)
    (guard : Kernel × γ → Action → Prop) (allowed : Kernel × γ → Action → Bool)
    (goal : Kernel × γ → Bool) (actions : List Action)
    (admits : ∀ state action, allowed state action = true → guard state action)
    (check : checkBootWith record initial allowed goal actions = true) :
    ∃ state, ReachableWith plainLayout record initial guard state ∧ goal state = true := by
  unfold checkBootWith at check
  split at check
  · rename_i start booted
    obtain ⟨final, reaches, met⟩ := reaches_of_checkRun admits check
    exact ⟨final, ⟨start, booted, reaches⟩, met⟩
  · exact absurd check (by simp)

end Kernel

end Zeos
