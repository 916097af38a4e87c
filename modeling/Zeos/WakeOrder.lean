import Zeos.AnyRun
import Zeos.Observation

/-!
# The order of wake-ups

`mutex_unlock` makes the threads that wait for a mutex ready in the order in which `mutex_lock` has
blocked them.
-/

namespace Zeos

open IntrusiveList GuardedRun Kernel

/-- The threads that have been blocked in a mutex since its initialisation, and those that have been
made ready by its unlocking, in order. -/
structure Waits where
  blocked : List ThreadPtr
  woken : List ThreadPtr

/-- All thread structures. -/
def threadSlots : List ThreadPtr := (List.finRange (nrThreads + 2)).map .slot

/-- The threads that a step makes ready. -/
def Kernel.madeReady (s s' : Kernel) : List ThreadPtr :=
  threadSlots.filter fun t => (s.thread t).state ≠ .stReady ∧ (s'.thread t).state = .stReady

/-- The threads that block in each initialised mutex and the ones made ready again, after one more
step. -/
def recordWaits (waits : MutexId → Option Waits) (s : Kernel) (action : Action) (s' : Kernel)
    (result : Result) (m : MutexId) : Option Waits :=
  match action with
  | .mutexInit n =>
      if mutexIndex n = some m ∧ result = .returns 0 then some { blocked := [], woken := [] }
      else waits m
  | .mutexDestroy n => if mutexIndex n = some m ∧ result = .returns 0 then none else waits m
  | .mutexLock n =>
      if mutexIndex n = some m ∧ result = .switches
      then (waits m).map fun w => { w with blocked := w.blocked ++ [s.current] } else waits m
  | .mutexUnlock n =>
      if mutexIndex n = some m
      then (waits m).map fun w => { w with woken := w.woken ++ s.madeReady s' } else waits m
  | _ => waits m

variable {layout : Layout} {s s' s₁ : Kernel} {q q' q₀ : Queues} {action : Action} {result : Result}
  {site : Site} {threads₀ : ThreadPtr → ThreadStruct} {waits : MutexId → Option Waits}

/-! ## Which threads become ready -/

theorem madeReady_eq_nil (same : ∀ u : ThreadSlot, (s'.thread (.slot u)).state = .stReady →
    (s.thread (.slot u)).state = .stReady) : s.madeReady s' = [] := by
  rw [madeReady, List.filter_eq_nil_iff]
  intro t member
  obtain ⟨u, _, rfl⟩ := List.mem_map.mp member
  rw [decide_eq_true_iff]
  exact fun ⟨before, after⟩ => before (same u after)

theorem filter_threadSlots {u : ThreadSlot} {chosen : ThreadPtr → Bool}
    (only : ∀ v : ThreadSlot, chosen (.slot v) = decide (v = u)) :
    threadSlots.filter chosen = [.slot u] := by
  have filtered : (List.finRange (nrThreads + 2)).filter (fun v => decide (v = u)) = [u] := by
    rw [List.filter_eq, List.count_eq_one_of_mem (List.nodup_finRange _) (List.mem_finRange u)]
    rfl
  rw [threadSlots, List.filter_map]
  simp only [Function.comp_def, only, filtered, List.map_cons, List.map_nil]

/-- Exactly one thread becomes ready. -/
theorem madeReady_eq_singleton {u : ThreadSlot} (stopped : (s.thread (.slot u)).state ≠ .stReady)
    (ready : (s'.thread (.slot u)).state = .stReady)
    (others : ∀ v : ThreadSlot, v ≠ u → (s'.thread (.slot v)).state = (s.thread (.slot v)).state) :
    s.madeReady s' = [.slot u] := by
  refine filter_threadSlots fun v => ?_
  by_cases same : v = u
  · simp [same, stopped, ready]
  · simp [same, others v same]

/-! ## What other calls do to the waiters -/

section Waiters

variable {m : MutexId} {t : ThreadPtr}

/-- A thread that does not wait in a mutex moves to another queue. -/
theorem waiters_moveThread {target : ThreadQueue} (other : target ≠ .mutex m)
    (outside : t ∉ q.threads (.mutex m)) :
    (q.moveThread t target).threads (.mutex m) = q.threads (.mutex m) := by
  rw [Queues.threads_moveThread, Lanes.push_other (Ne.symm other), Lanes.remove_of_not_mem outside]

theorem waiters_wakeFirst {p : TaskId} {wakes : ThreadPtr → Prop} [DecidablePred wakes]
    (separate : q.threads.Separate) :
    (q.wakeFirst p wakes).threads (.mutex m) = q.threads (.mutex m) := by
  unfold Queues.wakeFirst
  split
  · rfl
  · rename_i first rest blocked
    split
    · apply waiters_moveThread (by simp)
      intro waits
      have member : first ∈ q.threads (.blocked p) := by simp [blocked]
      exact absurd (separate.unique waits member) (by simp)
    · rfl

end Waiters

/-! ## What a step keeps -/

/-- The waiters of an initialised mutex are the threads that it has blocked and not woken yet. -/
structure InOrder (thread : ThreadPtr → ThreadStruct) (q : Queues)
    (waits : MutexId → Option Waits) : Prop where
  blocked : ∀ {m slot}, .slot slot ∈ q.threads (.mutex m) →
    (thread (.slot slot)).state = .stBlocked
  listed : ∀ {m w}, waits m = some w → q.head m = .listed
  order : ∀ {m w}, waits m = some w → w.blocked = w.woken ++ q.threads (.mutex m)

namespace InOrder

/-- A step that neither blocks nor wakes a waiter. -/
theorem keep (inOrder : InOrder s.thread q waits)
    (state : ∀ {m slot}, .slot slot ∈ q.threads (.mutex m) →
      (s'.thread (.slot slot)).state = (s.thread (.slot slot)).state)
    (head : q'.head = q.head) (waiters : ∀ m, q'.threads (.mutex m) = q.threads (.mutex m)) :
    InOrder s'.thread q' waits where
  blocked {m slot} member := by
    rw [waiters] at member
    exact (state member).trans (inOrder.blocked member)
  listed found := by
    rw [head]
    exact inOrder.listed found
  order {m w} found := by
    rw [waiters]
    exact inOrder.order found

/-- An unlocking that makes no thread ready. -/
theorem recordWaits_unlock_nil {n : Int} (nobody : s.madeReady s' = []) :
    recordWaits waits s (.mutexUnlock n) s' result = waits := by
  funext m
  rw [recordWaits, nobody]
  split_ifs
  · cases waits m with
    | none => rfl
    | some w => simp
  · rfl

/-- What is recorded for the mutex that a call is about. -/
theorem update_mutexIndex {α : Type} {n : Int} {m : MutexId} (accepted : mutexIndex n = some m)
    (before after : MutexId → α) :
    (fun i => if mutexIndex n = some i then after i else before i) =
      Function.update before m (after m) := by
  funext i
  by_cases same : i = m
  · subst same
    rw [if_pos accepted, Function.update_self]
  · have other : mutexIndex n ≠ some i := fun found =>
      same (Option.some.inj (found.symm.trans accepted))
    rw [if_neg other, Function.update_of_ne same]

theorem recordWaits_init {n : Int} {m : MutexId} (accepted : mutexIndex n = some m) :
    recordWaits waits s (.mutexInit n) s' (.returns 0) =
      Function.update waits m (some { blocked := [], woken := [] }) := by
  rw [← update_mutexIndex accepted waits fun _ => some { blocked := [], woken := [] }]
  funext i
  simp only [recordWaits, and_true]

theorem recordWaits_destroy {n : Int} {m : MutexId} (accepted : mutexIndex n = some m) :
    recordWaits waits s (.mutexDestroy n) s' (.returns 0) = Function.update waits m none := by
  rw [← update_mutexIndex accepted waits fun _ => none]
  funext i
  simp only [recordWaits, and_true]

theorem recordWaits_lock {n : Int} {m : MutexId} (accepted : mutexIndex n = some m) :
    recordWaits waits s (.mutexLock n) s' .switches = Function.update waits m
      ((waits m).map fun w => { w with blocked := w.blocked ++ [s.current] }) := by
  rw [← update_mutexIndex accepted waits fun i =>
    (waits i).map fun w => { w with blocked := w.blocked ++ [s.current] }]
  funext i
  simp only [recordWaits, and_true]

theorem recordWaits_unlock {n : Int} {m : MutexId} (accepted : mutexIndex n = some m) :
    recordWaits waits s (.mutexUnlock n) s' result = Function.update waits m
      ((waits m).map fun w => { w with woken := w.woken ++ s.madeReady s' }) := by
  rw [← update_mutexIndex accepted waits fun i =>
    (waits i).map fun w => { w with woken := w.woken ++ s.madeReady s' }]
  rfl

/-- `mutex_lock` does not block its caller. -/
theorem recordWaits_locked {n value : Int} :
    recordWaits waits s (.mutexLock n) s' (.returns value) = waits := by
  funext m
  exact if_neg fun done => absurd done.2 (by simp)

/-- A call that returns an error. -/
theorem recordWaits_refused {value : Int} (negative : value < 0) (thread : s'.thread = s.thread) :
    recordWaits waits s action s' (.returns value) = waits := by
  have other : Result.returns value ≠ .returns 0 := by
    intro same
    have := Result.returns.inj same
    omega
  cases action with
  | mutexInit n => exact funext fun m => if_neg fun done => other done.2
  | mutexDestroy n => exact funext fun m => if_neg fun done => other done.2
  | mutexLock n => exact recordWaits_locked
  | mutexUnlock n => 
      exact recordWaits_unlock_nil (madeReady_eq_nil fun u => by rw [thread]; exact id)
  | _ => rfl

/-- `fork` and `pthread_create` take a free thread. -/
theorem take (inOrder : InOrder s.thread q waits) (orderly : Orderly s q) {u : ThreadSlot}
    {others : List ThreadPtr} {c : ThreadStruct} (free : q.threads .free = .slot u :: others)
    (thread : s'.thread = Function.update s.thread (.slot u) c) (head : q'.head = q.head)
    (waiters : ∀ m, q'.threads (.mutex m) = (q.threads.remove (.slot u)) (.mutex m)) :
    InOrder s'.thread q' waits := by
  have taken : .slot u ∈ q.threads .free := by simp [free]
  have outside : ∀ m, .slot u ∉ q.threads (.mutex m) := fun m waits =>
    absurd (orderly.threads.separate.unique waits taken) (by simp)
  refine inOrder.keep (fun {m slot} member => ?_) head fun m => ?_
  · have other : ThreadPtr.slot slot ≠ .slot u := fun same => outside m (same ▸ member)
    rw [thread, Function.update_of_ne other]
  · rw [waiters, Lanes.remove_of_not_mem (outside m)]

end InOrder

theorem Stay.inOrder (stay : Stay layout s q action s' q' result) (orderly : Orderly s q)
    (inOrder : InOrder s.thread q waits) :
    InOrder s'.thread q' (recordWaits waits s action s' result) := by
  have separate := orderly.threads.separate
  cases stay with
  | refused negative =>
      rw [InOrder.recordWaits_refused negative (by rfl)]
      exact inOrder.keep (fun _ => rfl) rfl fun _ => rfl
  | stored | others | ticked => exact inOrder.keep (fun _ => rfl) rfl fun _ => rfl
  | unlockedFree =>
      rw [InOrder.recordWaits_unlock_nil (madeReady_eq_nil fun u => id)]
      exact inOrder
  | locked =>
      rw [InOrder.recordWaits_locked]
      exact inOrder.keep (fun _ => rfl) rfl fun _ => rfl
  | forked free | created free =>
      exact inOrder.take orderly free rfl rfl fun m => by
        rw [Queues.threads_moveThread, Lanes.push_other (by simp)]
  | forkFailed free => exact inOrder.take orderly free rfl rfl fun m => rfl
  | @initialised n m heap accepted unowned =>
      rw [InOrder.recordWaits_init accepted]
      constructor
      case blocked => exact fun member => inOrder.blocked (Lanes.mem_clear.mp member).2
      case listed =>
        intro i w found
        by_cases same : i = m
        · simp [same]
        · rw [Function.update_of_ne same] at found
          simpa [same] using inOrder.listed found
      case order =>
        intro i w found
        by_cases same : i = m
        · subst same
          rw [Function.update_self, Option.some_inj] at found
          simp [← found, Lanes.clear]
        · rw [Function.update_of_ne same] at found
          simpa [Lanes.clear, same] using inOrder.order found
  | @unlocked n m u others heap accepted usable taken first =>
      have waited : .slot u ∈ q.threads (.mutex m) := by simp [first]
      have stopped : (s.thread (.slot u)).state ≠ .stReady := by simp [inOrder.blocked waited]
      have waiters : (q.moveThread (.slot u) (.ready s.cr3)).threads (.mutex m) = others := by
        rw [Queues.threads_moveThread, Lanes.push_other (by simp), Lanes.remove_first first]
      have elsewhere : ∀ i, i ≠ m → (q.moveThread (.slot u) (.ready s.cr3)).threads (.mutex i) =
          q.threads (.mutex i) := fun i other => waiters_moveThread (by simp) fun waits =>
        other (ThreadQueue.mutex.inj (separate.unique waits waited))
      rw [InOrder.recordWaits_unlock accepted, madeReady_eq_singleton (u := u) stopped (by simp)
        (fun v other => by simp [other])]
      constructor
      case blocked =>
        intro i slot member
        rw [Queues.threads_moveThread, Lanes.push_other (by simp)] at member
        obtain ⟨other, member⟩ := separate.mem_remove.mp member
        simpa [other] using inOrder.blocked member
      case listed =>
        intro i w found
        by_cases same : i = m
        · subst same
          exact orderly.threads.listed_of_mem waited
        · rw [Function.update_of_ne same] at found
          exact inOrder.listed found
      case order =>
        intro i w found
        by_cases same : i = m
        · subst same
          rw [Function.update_self, Option.map_eq_some_iff] at found
          obtain ⟨before, found, rfl⟩ := found
          rw [waiters]
          simp [inOrder.order found, first]
        · rw [Function.update_of_ne same] at found
          rw [elsewhere i same]
          exact inOrder.order found
  | @unlockedNobody n m heap accepted usable taken listed nobody =>
      have outside : ∀ i, .image (layout.imagePage m) ∉ q.threads (.mutex i) :=
        fun i => orderly.noImage i _
      rw [InOrder.recordWaits_unlock_nil (madeReady_eq_nil fun v ready => by simpa using ready)]
      refine inOrder.keep (fun _ => by simp) rfl fun i => ?_
      exact waiters_moveThread (by simp) (outside i)
  | @destroyed n m heap accepted owned owner listed =>
      have elsewhere : ∀ i, i ≠ m → (q.moveHome s.home (q.threads (.mutex m))).threads (.mutex i) =
          q.threads (.mutex i) := fun i other =>
          Queues.threads_moveHome_other (by simp) fun t waits waits' =>
            other (ThreadQueue.mutex.inj (separate.unique waits' waits))
      rw [InOrder.recordWaits_destroy accepted]
      constructor
      case blocked =>
        intro i slot member
        rw [Transition.mem_moveHome separate] at member
        split_ifs at member with released
        simpa [releaseStates, released] using inOrder.blocked member
      case listed =>
        intro i w found
        by_cases same : i = m
        · subst same
          exact absurd found (by simp)
        · rw [Function.update_of_ne same] at found
          simpa using inOrder.listed found
      case order =>
        intro i w found
        by_cases same : i = m
        · subst same
          exact absurd found (by simp)
        · rw [Function.update_of_ne same] at found
          rw [elsewhere i same]
          exact inOrder.order found

/-! ## Switches -/

/-- The running thread is parked, among the waiters of a mutex at most. -/
theorem Parks.inOrder (parks : Parks s q action site threads₀ q₀) (orderly : Orderly s q)
    {r : Kernel} (inOrder : InOrder s.thread q waits) :
    InOrder threads₀ q₀ (recordWaits waits s action r .switches) := by
  have separate := orderly.threads.separate
  have running : ∀ {m t}, t ∈ q.threads (.mutex m) → t ≠ s.current :=
    fun member => orderly.ne_of_mem member
  cases parks with
  | tick | yield | join =>
      show InOrder _ _ waits
      refine ⟨fun {m slot} member => ?_, inOrder.listed, fun {m w} found => ?_⟩
      · rw [Queues.threads_pushThread, Lanes.push_other (by simp)] at member
        simpa [running member] using inOrder.blocked member
      · rw [Queues.threads_pushThread, Lanes.push_other (by simp)]
        exact inOrder.order found
  | exitThread =>
      have waiters : ∀ m, ((q.pushThread .free s.current).wakeFirst s.cr3 s.Joins).threads
          (.mutex m) = q.threads (.mutex m) := by
        intro m
        rw [waiters_wakeFirst (separate.push orderly.absent), Queues.threads_pushThread,
          Lanes.push_other (by simp)]
      show InOrder _ _ waits
      refine ⟨fun {m slot} member => ?_, fun {m w} found => ?_, fun {m w} found => ?_⟩
      · rw [waiters] at member
        have outside : .slot slot ∉ q.threads (.blocked s.cr3) := fun blocked =>
          absurd (separate.unique member blocked) (by simp)
        simpa [readyJoiners, outside] using inOrder.blocked member
      · rw [Queues.head_wakeFirst]
        exact inOrder.listed found
      · rw [waiters]
        exact inOrder.order found
  | exit =>
      have waiters : ∀ m, ((q.drainThreads (.ready s.cr3)).drainThreads (.blocked s.cr3)).threads
          (.mutex m) = q.threads (.mutex m) := by
        intro m
        rw [Queues.threads_drainThreads, Lanes.drain_other (by simp) (by simp),
          Queues.threads_drainThreads, Lanes.drain_other (by simp) (by simp)]
      show InOrder _ _ waits
      refine ⟨fun {m slot} member => ?_, inOrder.listed, fun {m w} found => ?_⟩
      · rw [waiters] at member
        simp only [clearTids]
        split
        · exact inOrder.blocked member
        · exact inOrder.blocked member
      · rw [waiters]
        exact inOrder.order found
  | @lock n m accepted usable taken listed =>
      rw [InOrder.recordWaits_lock accepted]
      constructor
      case blocked =>
        intro i slot member
        rcases Lanes.mem_push.mp member with before | ⟨_, own⟩
        · simpa [running before] using inOrder.blocked before
        · simp [own]
      case listed =>
        intro i w found
        by_cases same : i = m
        · subst same
          exact listed
        · rw [Function.update_of_ne same] at found
          exact inOrder.listed found
      case order =>
        intro i w found
        by_cases same : i = m
        · subst same
          rw [Function.update_self, Option.map_eq_some_iff] at found
          obtain ⟨before, found, rfl⟩ := found
          simp [inOrder.order found]
        · rw [Function.update_of_ne same] at found
          rw [Queues.threads_pushThread, Lanes.push_other (by simpa using same)]
          exact inOrder.order found
  | @lost n m last c accepted usable taken unlisted current =>
      have unknown : waits m = none := by
        cases found : waits m with
        | none => rfl
        | some w => exact absurd ((inOrder.listed found).symm.trans unlisted) (by simp)
      have same : Function.update waits m none = waits := by
        rw [← unknown, Function.update_eq_self]
      rw [InOrder.recordWaits_lock accepted, unknown, Option.map_none, same]
      refine ⟨fun {i slot} member => ?_, fun {i w} found => ?_, inOrder.order⟩
      · simpa [running member] using inOrder.blocked member
      · have other : i ≠ m := by
          rintro rfl
          exact absurd (found.symm.trans unknown) (by simp)
        simpa [other] using inOrder.listed found

theorem Move.inOrder (move : Move layout s q action s' q' result) (orderly : Orderly s q)
    (inOrder : InOrder s.thread q waits) :
    InOrder s'.thread q' (recordWaits waits s action s' result) := by
  cases move with
  | stayed reached stay => exact stay.inOrder orderly inOrder
  | @switched s₁ u cr3 site threads₀ q₀ reached picked busy process =>
      obtain ⟨heap, placed⟩ := picked.placed
      obtain ⟨p, others, first⟩ := picked.first busy
      have chosen : .slot u ∈ q₀.threads (.ready p) := by simp [first]
      have outside : ∀ m, .slot u ∉ q₀.threads (.mutex m) := fun m waits =>
        absurd (placed.separate.unique waits chosen) (by simp)
      have parked := picked.parks.inOrder (r := { s₁.saveEsp with current := .slot u, cr3 })
        orderly inOrder
      refine ⟨fun {m slot} member => ?_, parked.listed, fun {m w} found => ?_⟩
      · obtain ⟨other, member⟩ := placed.separate.mem_remove.mp member
        rw [picked.saveEsp_state, if_neg other]
        exact parked.blocked member
      · rw [Queues.threads_removeThread, Lanes.remove_of_not_mem (outside m)]
        exact parked.order found

/-- In every run the threads that the unlocking of an initialised mutex has made ready are the first
ones that its locking has blocked, in the same order and each of them once, and the others wait for
it in that order. -/
theorem waiters_in_order (layout : Layout) (s : Kernel) (waits : MutexId → Option Waits)
    (reachable : ReachableWith layout recordWaits (fun _ => none) (fun _ _ => True) (s, waits))
    (m : MutexId) (w : Waits) (initialised : waits m = some w) :
    ∃ rest, w.blocked = w.woken ++ rest ∧ s.waiters m = rest.map .thread := by
  obtain ⟨q, orderly, inOrder⟩ := reachable.moves (fun s q waits => InOrder s.thread q waits)
    (fun heap _ => ⟨fun member => absurd (mem_bootQueues member).1 (by simp),
      fun found => absurd found (by simp), fun found => absurd found (by simp)⟩)
    fun orderly inOrder _ _ _ move => move.inOrder orderly inOrder
  exact ⟨q.threads (.mutex m), inOrder.order initialised, orderly.threads.linked (.mutex m)⟩

/-- Two threads wait for the mutex that a third one holds, and one of them is woken. -/
theorem waiters_in_order_three :
    ∃ s waits w, ReachableWith plainLayout recordWaits (fun _ => none) (fun _ _ => True)
      (s, waits) ∧
      waits 3 = some w ∧ w.blocked = [.slot 2, .slot 3] ∧ w.woken = [.slot 2] ∧
      ∃ rest, w.blocked = w.woken ++ rest ∧ s.waiters 3 = rest.map .thread := by
  obtain ⟨⟨s, waits⟩, reachable, goal⟩ := reachableWith_of_checkBoot recordWaits (fun _ => none)
    (fun _ _ => True) (fun _ _ => true)
    (fun state => match state.2 3 with
      | some w => decide (w.blocked = [.slot 2, .slot 3] ∧ w.woken = [.slot 2])
      | none => false)
    [.mutexInit 3, .pthreadCreate (fun _ => 0) 0x108000 0x100000,
      .pthreadCreate (fun _ => 0) 0x108000 0x100000, .mutexLock 3, .yield, .mutexLock 3,
        .mutexLock 3,
      .mutexUnlock 3]
    (fun _ _ _ => trivial) (by decide +kernel)
  split at goal
  · rename_i w found
    obtain ⟨blocked, woken⟩ := of_decide_eq_true goal
    exact ⟨s, waits, w, reachable, found, blocked, woken,
      waiters_in_order plainLayout s waits reachable 3 w found⟩
  · exact absurd goal (by simp)

end Zeos
