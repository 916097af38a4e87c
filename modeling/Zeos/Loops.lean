import Zeos.Dispatch

/-!
# What the loops over thread lists do

The loops of `pthread_exit`, `exit` and `mutex_destroy`, by induction on the list they go through.
-/

namespace Zeos

open IntrusiveList GuardedRun

namespace Kernel

variable {s : Kernel} {q : Queues} {p : TaskId} {t : ThreadPtr} {queue : ThreadQueue}

theorem length_lt_listFuel {threads : List ThreadPtr} (nodup : threads.Nodup) :
    threads.length < listFuel := Nat.lt_succ_of_le nodup.length_le_card

theorem joins_readyJoiners (s : Kernel) (waiting : List ThreadPtr) (t : ThreadPtr) :
    (s.readyJoiners waiting).Joins t ↔ s.Joins t := by
  have blockedBy : ((s.readyJoiners waiting).thread t).blockedBy = (s.thread t).blockedBy := by
    rw [readyJoiners]
    dsimp only
    split <;> rfl
  have tid : ((s.readyJoiners waiting).thread s.current).tid = (s.thread s.current).tid := by
    rw [readyJoiners]
    dsimp only
    split <;> rfl
  unfold Joins
  rw [blockedBy]
  exact tid ▸ Iff.rfl

theorem readyJoiners_nil (s : Kernel) : s.readyJoiners [] = s := by simp [readyJoiners]

/-- Marking a list is marking its first thread and then the rest. -/
theorem readyJoiners_cons (s : Kernel) {t : ThreadPtr} {rest : List ThreadPtr} (fresh : t ∉ rest)
    (other : s.current ≠ t) :
    (if s.Joins t then s.setState t .stReady else s).readyJoiners rest =
      s.readyJoiners (t :: rest) := by
  split
  · rename_i joins
    have threads : ((s.setState t .stReady).readyJoiners rest).thread =
        (s.readyJoiners (t :: rest)).thread := by
      funext x
      by_cases same : x = t
      · subst same
        have named : (s.thread x).blockedBy = (s.thread s.current).tid := joins
        simp [readyJoiners, fresh, named, Joins]
      · simp [readyJoiners, same, Joins, Function.update_of_ne other]
    rw [readyJoiners, readyJoiners, Kernel.mk.injEq]
    exact ⟨rfl, rfl, rfl, rfl, rfl, threads, rfl, rfl, rfl, rfl, rfl, rfl, rfl⟩
  · rename_i joins
    have threads : (s.readyJoiners rest).thread = (s.readyJoiners (t :: rest)).thread := by
      funext x
      by_cases same : x = t
      · subst same
        simp [readyJoiners, joins]
      · simp [readyJoiners, same]
    rw [readyJoiners, readyJoiners, Kernel.mk.injEq]
    exact ⟨rfl, rfl, rfl, rfl, rfl, threads, rfl, rfl, rfl, rfl, rfl, rfl, rfl⟩

/-- Marking the rest of a list is followed by marking its first thread. -/
theorem readyJoiners_rest (s : Kernel) {t : ThreadPtr} {rest : List ThreadPtr}
    (fresh : t ∉ rest) :
    (if s.Joins t then (s.readyJoiners rest).setState t .stReady else s.readyJoiners rest) =
      s.readyJoiners (t :: rest) := by
  have same : (s.readyJoiners rest).thread t = s.thread t := by simp [readyJoiners, fresh]
  have threads : (if s.Joins t then (s.readyJoiners rest).setState t .stReady
      else s.readyJoiners rest).thread = (s.readyJoiners (t :: rest)).thread := by
    funext x
    by_cases joins : s.Joins t
    · rw [if_pos joins, thread_setState, same]
      by_cases equal : x = t
      · subst equal
        simp [readyJoiners, joins]
      · simp [readyJoiners, equal]
    · rw [if_neg joins]
      by_cases equal : x = t
      · subst equal
        simp [readyJoiners, joins]
      · simp [readyJoiners, equal]
  split at threads <;> rename_i joins
  · rw [if_pos joins, Kernel.mk.injEq]
    exact ⟨rfl, rfl, rfl, rfl, rfl, threads, rfl, rfl, rfl, rfl, rfl, rfl, rfl⟩
  · rw [if_neg joins, Kernel.mk.injEq]
    exact ⟨rfl, rfl, rfl, rfl, rfl, threads, rfl, rfl, rfl, rfl, rfl, rfl, rfl⟩

/-- The test and wake-up of one blocked thread. -/
theorem wakeJoiner_eq (represents : Represents s.heap q)
    (process : (s.thread s.current).p = .slot p) (member : t ∈ q.threads (.blocked p))
    (stopped : (s.thread t).state ≠ .stRun) :
    ∃ heap, s.wakeJoiner p t =
        .ok { (if s.Joins t then s.setState t .stReady else s) with heap } ∧
      Represents heap (if s.Joins t then q.moveThread t (.ready p) else q) := by
  by_cases joins : s.Joins t
  · obtain ⟨heap, moved, represents'⟩ := updateThreadStateRr_move represents member
      (.ready p) trivial stopped process
    rw [queueState, if_pos rfl] at moved
    refine ⟨heap, ?_, by rwa [if_pos joins]⟩
    rw [wakeJoiner, if_pos joins]
    exact (if_pos joins).trans moved
  · refine ⟨s.heap, ?_, by rwa [if_neg joins]⟩
    rw [wakeJoiner, if_neg joins]
    exact if_neg joins

/-- One round of the loop of `pthread_exit`: the first blocked thread is woken if it is to be, and
is then put at the end of the blocked ones. -/
theorem wakeRound_eq (represents : Represents s.heap q)
    (process : (s.thread s.current).p = .slot p) {rest : List ThreadPtr}
    (first : q.threads (.blocked p) = t :: rest) (stopped : (s.thread t).state ≠ .stRun) :
    ∃ heap, (do
        let s ← s.wakeJoiner p t
        let s ← s.listDel (.thread t)
        s.listAddTail (.thread t) (.blocked p)) =
        .ok { (if s.Joins t then s.setState t .stReady else s) with heap } ∧
      Represents heap
        { q with threads := Function.update q.threads (.blocked p) (rest ++ [t]) } := by
  have separate := represents.separate_threads
  have member : t ∈ q.threads (.blocked p) := by simp [first]
  obtain ⟨heap, woken, represents'⟩ := wakeJoiner_eq represents process member stopped
  have rotated : ∀ q' : Queues, q'.processes = q.processes → q'.head = q.head →
      q'.threads.remove t = q.threads.remove t →
      (q'.removeThread t).pushThread (.blocked p) t =
        { q with threads := Function.update q.threads (.blocked p) (rest ++ [t]) } := by
    intro q' processes head threads
    rw [← separate.push_remove_first first, ← threads, ← processes, ← head]
    rfl
  have source : ∃ source, t ∈ (if s.Joins t then q.moveThread t (.ready p) else q).threads
      source := by
    split
    · exact ⟨.ready p, by simp⟩
    · exact ⟨.blocked p, member⟩
  obtain ⟨source, waits⟩ := source
  obtain ⟨between, heap', deleted, added, moved⟩ := Represents.moveThread
    (s := { (if s.Joins t then s.setState t .stReady else s) with heap }) represents'
    (.blocked p) waits trivial
  refine ⟨heap', ?_, ?_⟩
  · rw [woken, ok_bind, deleted, ok_bind]
    exact added
  · rw [rotated _ ?_ ?_ ?_] at moved
    · exact moved
    · split <;> rfl
    · split <;> rfl
    · split
      · exact separate.remove_push_remove
      · rfl

/-- The loop of `pthread_exit` marks the threads in front of `i` and puts them behind it again. -/
theorem wakeLoop_eq (layout : Layout) {i : ThreadPtr} {todo done : List ThreadPtr} {fuel : Nat}
    (represents : Represents s.heap q) (process : (s.thread s.current).p = .slot p)
    (blocked : q.threads (.blocked p) = todo ++ i :: done)
    (stopped : ∀ t ∈ todo, (s.thread t).state ≠ .stRun) (outside : s.current ∉ todo)
    (enough : todo.length < fuel) :
    ∃ heap, wakeLoop layout p (.thread i) fuel s = .ok { s.readyJoiners todo with heap } ∧
      Represents heap
        { q with threads := Function.update q.threads (.blocked p) (i :: done ++ todo) } := by
  induction todo generalizing s q done fuel with
  | nil =>
      obtain ⟨smaller, rfl⟩ : ∃ smaller, fuel = smaller + 1 :=
        Nat.exists_eq_succ_of_ne_zero (by simp only [List.length_nil] at enough; omega)
      have node : s.listFirst (.blocked p) = .thread i := by
        simpa [blocked] using represents.first_threads (.blocked p) trivial
      refine ⟨s.heap, ?_, ?_⟩
      · rw [wakeLoop, node, readyJoiners_nil]
        simp
      · rw [List.append_nil, ← List.nil_append (i :: done), ← blocked,
          Function.update_eq_self]
        exact represents
  | cons t rest induction =>
      obtain ⟨smaller, rfl⟩ : ∃ smaller, fuel = smaller + 1 :=
        Nat.exists_eq_succ_of_ne_zero (by simp only [List.length_cons] at enough; omega)
      have nodup := represents.separate_threads.nodup (.blocked p)
      rw [blocked, List.cons_append, List.nodup_cons] at nodup
      have different : t ≠ i := by
        rintro rfl
        exact nodup.1 (by simp)
      have fresh : t ∉ rest := fun inside => nodup.1 (by simp [inside])
      have other : s.current ≠ t := fun equal => outside (by simp [equal])
      have node : s.listFirst (.blocked p) = .thread t := by
        simpa [blocked] using represents.first_threads (.blocked p) trivial
      obtain ⟨heap, round, represents'⟩ := wakeRound_eq represents process
        ((blocked : _ = t :: (rest ++ i :: done))) (stopped t (by simp))
      have unfolded : wakeLoop layout p (.thread i) (smaller + 1) s = ((do
          let s ← s.wakeJoiner p t
          let s ← s.listDel (.thread t)
          s.listAddTail (.thread t) (.blocked p)) >>= wakeLoop layout p (.thread i) smaller) := by
        rw [wakeLoop, node, if_neg (by simp [different])]
        simp only [listHeadToThreadStruct, ok_bind, bind_assoc]
      have kept : ∀ x, x ≠ t → ((if s.Joins t then s.setState t .stReady else s).thread x) =
          s.thread x := by
        intro x not_t
        split
        · simp [not_t]
        · rfl
      have current : (if s.Joins t then s.setState t .stReady else s).current = s.current := by
        split <;> rfl
      have process' : ((if s.Joins t then s.setState t .stReady else s).thread
          (if s.Joins t then s.setState t .stReady else s).current).p = .slot p := by
        rw [current, kept _ other]
        exact process
      have stopped' : ∀ x ∈ rest,
          ((if s.Joins t then s.setState t .stReady else s).thread x).state ≠ .stRun := by
        intro x inside
        rw [kept x fun equal => fresh (equal ▸ inside)]
        exact stopped x (by simp [inside])
      have outside' : (if s.Joins t then s.setState t .stReady else s).current ∉ rest := by
        rw [current]
        exact fun inside => outside (by simp [inside])
      have blocked' : Function.update q.threads (.blocked p) (rest ++ i :: done ++ [t])
          (.blocked p) = rest ++ i :: (done ++ [t]) := by simp
      have enough' : rest.length < smaller := by
        simp only [List.length_cons] at enough
        omega
      obtain ⟨heap', looped, result⟩ := induction
        (s := { (if s.Joins t then s.setState t .stReady else s) with heap }) represents' process'
        blocked' stopped' outside' enough'
      refine ⟨heap', ?_, ?_⟩
      · rw [unfolded, round, ok_bind, looped, ← s.readyJoiners_cons fresh other]
        rfl
      · simpa using result

/-- The test of the thread that was first, after the others. -/
theorem wakeJoiner_last {heap : Heap Node} {rest : List ThreadPtr} (represents : Represents heap q)
    (process : (s.thread s.current).p = .slot p) (member : t ∈ q.threads (.blocked p))
    (stopped : (s.thread t).state ≠ .stRun) (fresh : t ∉ rest) :
    ∃ heap', { s.readyJoiners rest with heap }.wakeJoiner p t =
        .ok { s.readyJoiners (t :: rest) with heap := heap' } ∧
      Represents heap' (if s.Joins t then q.moveThread t (.ready p) else q) := by
  have process' : ((s.readyJoiners rest).thread s.current).p = .slot p := by
    rw [← process, readyJoiners]
    dsimp only
    split <;> rfl
  have stopped' : ((s.readyJoiners rest).thread t).state ≠ .stRun := by
    simpa [readyJoiners, fresh] using stopped
  obtain ⟨heap', woken, result⟩ := wakeJoiner_eq (s := { s.readyJoiners rest with heap })
    represents process' member stopped'
  have joins : ({ s.readyJoiners rest with heap } : Kernel).Joins t ↔ s.Joins t :=
    s.joins_readyJoiners rest t
  simp only [joins] at woken result
  refine ⟨heap', ?_, result⟩
  rw [woken, ← s.readyJoiners_rest fresh]
  split <;> rfl

/-- The threads that join the current one are marked, and the first blocked thread is woken if it is
one of them. -/
theorem wakeJoiners_eq (layout : Layout) (represents : Represents s.heap q)
    (process : (s.thread s.current).p = .slot p)
    (stopped : ∀ t ∈ q.threads (.blocked p), (s.thread t).state ≠ .stRun)
    (outside : s.current ∉ q.threads (.blocked p)) :
    ∃ heap, s.wakeJoiners layout p =
        .ok { s.readyJoiners (q.threads (.blocked p)) with heap } ∧
      Represents heap (q.wakeFirst p s.Joins) := by
  have empty_eq := represents.empty_threads (.blocked p) trivial
  cases blocked : q.threads (.blocked p) with
  | nil =>
      refine ⟨s.heap, ?_, ?_⟩
      · rw [wakeJoiners, if_pos (by simpa [blocked] using empty_eq), readyJoiners_nil]
      · rw [Queues.wakeFirst, blocked]
        exact represents
  | cons t rest =>
      have separate := represents.separate_threads
      have member : t ∈ q.threads (.blocked p) := by simp [blocked]
      have nodup := separate.nodup (.blocked p)
      rw [blocked, List.nodup_cons] at nodup
      have other : s.current ≠ t := fun equal => outside (equal ▸ member)
      have node : s.listFirst (.blocked p) = .thread t := by
        simpa [blocked] using represents.first_threads (.blocked p) trivial
      obtain ⟨between, heap, deleted, added, moved⟩ :=
        represents.moveThread (.blocked p) member trivial
      have rotated : (q.removeThread t).pushThread (.blocked p) t =
          { q with threads := Function.update q.threads (.blocked p) (rest ++ [t]) } := by
        rw [← separate.push_remove_first blocked]
        rfl
      rw [rotated] at moved
      have rest_stopped : ∀ x ∈ rest, (s.thread x).state ≠ .stRun :=
        fun x inside => stopped x (by simp [blocked, inside])
      obtain ⟨heap', looped, represents'⟩ := wakeLoop_eq (s := { s with heap }) layout moved
        process (by simp : _ = rest ++ t :: []) rest_stopped
        (fun inside => outside (by simp [blocked, inside])) (length_lt_listFuel nodup.2)
      have represents' : Represents heap' q := by simpa [← blocked] using represents'
      have woken := wakeJoiner_last (s := { s with heap }) (t := t) represents' process member
        (stopped t member) nodup.1
      obtain ⟨heap'', woken, result⟩ := woken
      have some_blocked : s.listEmpty (.blocked p) = false := by simpa [blocked] using empty_eq
      have node' : { { s with heap }.readyJoiners rest with heap := heap' }.listFirst
          (.blocked p) = .thread t := by
        have first := Represents.first_threads
          (s := { { s with heap }.readyJoiners rest with heap := heap' }) represents'
          (.blocked p) trivial
        rw [blocked] at first
        exact first
      simp only [ThreadQueue.node_blocked] at added
      refine ⟨heap'', ?_, ?_⟩
      · rw [wakeJoiners, if_neg (by simp [some_blocked])]
        simp only [node, deleted, added, ok_bind, looped, node', listHeadToThreadStruct]
        exact woken
      · rw [Queues.wakeFirst, blocked]
        exact result

/-! ## Ending a process -/

theorem clearTids_nil (s : Kernel) : s.clearTids [] = s := by simp [clearTids]

theorem clearTids_cons (s : Kernel) {t : ThreadPtr} {rest : List ThreadPtr} :
    (s.setThread t fun c => { c with tid := -1 }).clearTids rest = s.clearTids (t :: rest) := by
  have threads : ((s.setThread t fun c => { c with tid := -1 }).clearTids rest).thread =
      (s.clearTids (t :: rest)).thread := by
    funext x
    by_cases same : x = t
    · subst same
      simp [clearTids]
    · simp [clearTids, same]
  rw [clearTids, clearTids, Kernel.mk.injEq]
  exact ⟨rfl, rfl, rfl, rfl, rfl, threads, rfl, rfl, rfl, rfl, rfl, rfl, rfl⟩

theorem clearTids_append (s : Kernel) (front back : List ThreadPtr) :
    (s.clearTids front).clearTids back = s.clearTids (front ++ back) := by
  have threads : ((s.clearTids front).clearTids back).thread =
      (s.clearTids (front ++ back)).thread := by
    funext x
    simp only [clearTids, List.mem_append]
    split <;> split <;> simp_all
  rw [clearTids, clearTids, Kernel.mk.injEq]
  exact ⟨rfl, rfl, rfl, rfl, rfl, threads, rfl, rfl, rfl, rfl, rfl, rfl, rfl⟩

/-- The loops of `exit` move all threads of a list to the free ones. -/
theorem freeThreadsOf_eq (layout : Layout) {ended : List ThreadPtr} {fuel : Nat}
    (represents : Represents s.heap q) (queue : ThreadQueue) (listed : q.Listed queue)
    (different : queue ≠ .free)
    (ended_eq : q.threads queue = ended) (enough : ended.length < fuel) :
    ∃ heap, freeThreadsOf layout queue.node fuel s = .ok { s.clearTids ended with heap } ∧
      Represents heap (q.drainThreads queue) := by
  induction ended generalizing s q fuel with
  | nil =>
      obtain ⟨smaller, rfl⟩ : ∃ smaller, fuel = smaller + 1 :=
        Nat.exists_eq_succ_of_ne_zero (by omega)
      have empty_eq := represents.empty_threads queue listed
      refine ⟨s.heap, ?_, ?_⟩
      · rw [freeThreadsOf, if_pos (by simpa [ended_eq] using empty_eq), clearTids_nil]
      · rw [Queues.drainThreads, Lanes.drain_empty ended_eq]
        exact represents
  | cons t rest induction =>
      obtain ⟨smaller, rfl⟩ : ∃ smaller, fuel = smaller + 1 :=
        Nat.exists_eq_succ_of_ne_zero (by omega)
      have member : t ∈ q.threads queue := by simp [ended_eq]
      have nonempty : s.listEmpty queue.node = false := by
        simpa [ended_eq] using represents.empty_threads queue listed
      have node : s.listFirst queue.node = .thread t := by
        simpa [ended_eq] using represents.first_threads queue listed
      obtain ⟨between, heap, deleted, added, moved⟩ := represents.moveThread .free member trivial
      have rest_eq : (q.moveThread t .free).threads queue = rest := by
        rw [Queues.threads_moveThread, Lanes.push_other different, Lanes.remove_first ended_eq]
      obtain ⟨heap', looped, result⟩ := induction (q := q.moveThread t .free)
        (s := { s with heap }.setThread t fun c => { c with tid := -1 }) moved listed rest_eq
        (by simp only [List.length_cons] at enough; omega : rest.length < smaller)
      simp only [ThreadQueue.node_free] at added
      refine ⟨heap', ?_, ?_⟩
      · rw [freeThreadsOf, if_neg (by simp [nonempty])]
        simp only [node, listHeadToThreadStruct, ok_bind, deleted, added, looped, clearTids_cons]
        rfl
      · have drained : (q.moveThread t .free).drainThreads queue = q.drainThreads queue := by
          rw [Queues.drainThreads, Queues.drainThreads, Queues.threads_moveThread,
            represents.separate_threads.drain_cons different ended_eq]
          rfl
        rwa [drained] at result

/-- Both loops of `exit`, for a process `p`. -/
theorem freeThreadsOf_both (layout : Layout) (represents : Represents s.heap q) (p : TaskId) :
    ∃ heap, (freeThreadsOf layout (.ready p) listFuel s >>=
          freeThreadsOf layout (.blocked p) listFuel) =
        .ok { s.clearTids (q.threads (.ready p) ++ q.threads (.blocked p)) with heap } ∧
      Represents heap ((q.drainThreads (.ready p)).drainThreads (.blocked p)) := by
  have separate := represents.separate_threads
  obtain ⟨heap₁, freed₁, represents₁⟩ := freeThreadsOf_eq layout represents (.ready p)
    trivial (by simp) rfl (length_lt_listFuel (separate.nodup _))
  have blocked : (q.drainThreads (.ready p)).threads (.blocked p) = q.threads (.blocked p) := by
    rw [Queues.threads_drainThreads, Lanes.drain_other (by simp) (by simp)]
  obtain ⟨heap₂, freed₂, represents₂⟩ := freeThreadsOf_eq
    (s := { s.clearTids (q.threads (.ready p)) with heap := heap₁ }) layout
    represents₁ (.blocked p) trivial (by simp) blocked (length_lt_listFuel (separate.nodup _))
  refine ⟨heap₂, ?_, represents₂⟩
  simp only [ThreadQueue.node_ready, ThreadQueue.node_blocked] at freed₁ freed₂
  rw [freed₁, ok_bind, freed₂, ← s.clearTids_append]
  rfl

/-! ## Destroying a mutex -/

theorem releaseStates_nil (s : Kernel) : s.releaseStates [] = s := by simp [releaseStates]

theorem home_setState (s : Kernel) (t x : ThreadPtr) (state : RunState) :
    (s.setState t state).home x = s.home x := by
  by_cases same : x = t
  · subst same
    simp [home]
  · simp [home, same]

theorem releaseStates_cons (s : Kernel) {t : ThreadPtr} {rest : List ThreadPtr}
    (fresh : t ∉ rest) :
    (s.setState t (s.releasedState t)).releaseStates rest = s.releaseStates (t :: rest) := by
  have threads : ((s.setState t (s.releasedState t)).releaseStates rest).thread =
      (s.releaseStates (t :: rest)).thread := by
    funext x
    by_cases same : x = t
    · subst same
      simp [releaseStates, fresh]
    · simp [releaseStates, same, releasedState, home_setState]
  rw [releaseStates, releaseStates, Kernel.mk.injEq]
  exact ⟨rfl, rfl, rfl, rfl, rfl, threads, rfl, rfl, rfl, rfl, rfl, rfl, rfl⟩

/-- Removing an entry whose words are null writes to page 0, or faults. -/
theorem listDel_null {node : Node} (valid : node.Valid) (nulled : s.heap node = ⟨.null, .null⟩) :
    s.listDel node = .error .page ∨
      ∃ heap, s.listDel node = .ok { s with heap } ∧ ∀ x, x ≠ .null → heap x = s.heap x := by
  have access := s.access_valid node valid
  cases page_eq : s.access .null with
  | error fault =>
      left
      have fault_eq : fault = .page := by
        rw [Kernel.access] at page_eq
        split at page_eq
        · exact absurd page_eq (by simp)
        · simpa using page_eq.symm
      rw [Kernel.listDel, IntrusiveList.listDel, access, nulled]
      simp only [ok_bind, listDelBetween, page_eq, error_bind, fault_eq]
  | ok _ =>
      right
      refine ⟨removeBetween .null s.heap node .null .null, ?_, ?_⟩
      · rw [Kernel.listDel, IntrusiveList.listDel, access, nulled]
        simp only [ok_bind, listDelBetween, page_eq]
        rfl
      · intro x not_null
        by_cases same : x = node
        · subst same
          ext
          · rw [removeBetween_next, if_pos rfl, nulled]
          · rw [removeBetween_prev, if_pos rfl, nulled]
        · exact removeBetween_frame .null s.heap same not_null not_null

/-- The loop of `mutex_destroy` moves all waiters to the ready threads of their processes, or faults
because it removes a waiter twice. -/
theorem releaseWaiters_eq (layout : Layout) {m : MutexId} {waiters : List ThreadPtr} {fuel : Nat}
    (represents : Represents s.heap q) (listed : q.Listed (.mutex m))
    (process : (s.thread s.current).p = .slot s.cr3) (waiters_eq : q.threads (.mutex m) = waiters)
    (own : ∀ t ∈ waiters, (s.thread t).p = .slot (s.home t))
    (stopped : ∀ t ∈ waiters, (s.thread t).state ≠ .stRun) (outside : s.current ∉ waiters)
    (enough : waiters.length < fuel) :
    releaseWaiters layout m fuel s = .error .page ∨
      ∃ heap, releaseWaiters layout m fuel s = .ok { s.releaseStates waiters with heap } ∧
        Represents heap (q.moveHome s.home waiters) := by
  induction waiters generalizing s q fuel with
  | nil =>
      obtain ⟨smaller, rfl⟩ : ∃ smaller, fuel = smaller + 1 :=
        Nat.exists_eq_succ_of_ne_zero (by omega)
      have empty_eq := represents.empty_threads (.mutex m) listed
      right
      refine ⟨s.heap, ?_, represents⟩
      rw [releaseWaiters, if_pos (by simpa [waiters_eq] using empty_eq), releaseStates_nil]
  | cons t rest induction =>
      obtain ⟨smaller, rfl⟩ : ∃ smaller, fuel = smaller + 1 :=
        Nat.exists_eq_succ_of_ne_zero (by omega)
      have member : t ∈ q.threads (.mutex m) := by simp [waiters_eq]
      have nonempty : s.listEmpty (.mutex m) = false := by
        simpa [waiters_eq] using represents.empty_threads (.mutex m) listed
      have node : s.listFirst (.mutex m) = .thread t := by
        simpa [waiters_eq] using represents.first_threads (.mutex m) listed
      have nodup := represents.separate_threads.nodup (.mutex m)
      rw [waiters_eq, List.nodup_cons] at nodup
      obtain ⟨between, deleted, nulled, via⟩ :=
        represents.moveThread_via (.ready (s.home t)) member trivial
      have other : s.current ≠ t := fun equal => outside (by simp [equal])
      have derefs : s.deref (s.thread t).p = .ok (s.home t) := by
        rw [own t (by simp), deref_slot]
      have unfolded : releaseWaiters layout m (smaller + 1) s =
          ({ s with heap := between }.updateThreadStateRr t (some (.ready (s.home t))) >>=
            releaseWaiters layout m smaller) := by
        rw [releaseWaiters, if_neg (by simp [nonempty])]
        simp only [node, listHeadToThreadStruct, ok_bind, deleted]
        rw [show ({ s with heap := between } : Kernel).deref (s.thread t).p = .ok (s.home t) from
          derefs, ok_bind]
      rw [unfolded, updateThreadStateRr, if_pos (stopped t (by simp))]
      rcases listDel_null (s := { s with heap := between }) 
        (show Node.Valid (.thread t) by simp [Node.Valid]) nulled with
          failed | ⟨heap₂, deleted₂, agree⟩
      · left
        rw [failed]
        rfl
      · obtain ⟨heap, added, moved⟩ := via heap₂ agree
        have cur : { s with heap }.currentP = .ok s.cr3 := currentP_eq process
        have state_eq : (if Node.ready (s.home t) ≠ .ready s.cr3 then RunState.stBlocked
            else .stReady) = s.releasedState t := by
          rw [releasedState]
          by_cases same : s.home t = s.cr3 <;> simp [same]
        have rest_eq : (q.moveThread t (.ready (s.home t))).threads (.mutex m) = rest := by
          rw [Queues.threads_moveThread, Lanes.push_other (by simp),
            Lanes.remove_first waiters_eq]
        have kept : ∀ x ∈ rest, (({ s with heap }.setState t (s.releasedState t)).thread x) =
            s.thread x := by
          intro x inside
          have different : x ≠ t := fun equal => nodup.1 (equal ▸ inside)
          simp [different]
        have homes : ∀ x, ({ s with heap }.setState t (s.releasedState t)).home x = s.home x :=
          fun x => home_setState { s with heap } t x _
        have looped := induction (q := q.moveThread t (.ready (s.home t)))
          (s := { s with heap }.setState t (s.releasedState t)) moved listed
          (by simpa [other] using process) rest_eq
          (fun x inside => by rw [kept x inside, homes]; exact own x (by simp [inside]))
          (fun x inside => by rw [kept x inside]; exact stopped x (by simp [inside]))
          (fun inside => outside (List.mem_cons_of_mem t inside))
          (by simp only [List.length_cons] at enough; omega : rest.length < smaller)
        simp only [ThreadQueue.node_ready] at added
        simp only [deleted₂, ok_bind, added, cur, state_eq, pure_eq_ok]
        rcases looped with failed | ⟨heap', looped, result⟩
        · exact .inl failed
        · right
          refine ⟨heap', ?_, ?_⟩
          · rw [← s.releaseStates_cons nodup.1]
            exact looped
          · have same_home : Kernel.home ({ s with heap }.setState t (s.releasedState t)) =
                s.home := funext homes
            rw [same_home] at result
            exact result

end Kernel

end Zeos
