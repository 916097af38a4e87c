import Zeos.Release

/-!
# The destruction of a mutex

The loop of `mutex_destroy` takes each waiter out of the queue and then has it moved by
`update_thread_state_rr`, which takes a thread that does not run out of its queue again.
-/

namespace Zeos

open IntrusiveList GuardedRun Kernel

/-- The state in which `list_del` is called, and its argument. -/
abbrev Deletion := Kernel × Node

namespace Kernel

/-- One round of the loop of `sys_mutex_destroy`, with the calls of `list_del`. -/
def releaseFirst (layout : Layout) (m : MutexId) (s : Kernel) :
    Except Fault (Kernel × List Deletion) := do
  let l := s.listFirst (.mutex m)
  let t ← listHeadToThreadStruct layout l
  let unlinked ← s.listDel l
  let p ← unlinked.deref (unlinked.thread t).p
  let again := if (unlinked.thread t).state ≠ .stRun then [(unlinked, .thread t)] else []
  let moved ← unlinked.updateThreadStateRr t (some (.ready p))
  return (moved, (s, l) :: again)

/-- The loop of `sys_mutex_destroy`, with the calls of `list_del`. -/
def releaseTraced (layout : Layout) (m : MutexId) : Nat → Kernel →
    Except Fault (Kernel × List Deletion)
  | 0, _ => .error .hang
  | fuel + 1, s =>
      if s.listEmpty (.mutex m) then .ok (s, [])
      else do
        let (s, first) ← releaseFirst layout m s
        let (s, others) ← releaseTraced layout m fuel s
        return (s, first ++ others)

/-- The node is in a list of threads. -/
def InList (s : Kernel) (node : Node) : Prop := ∃ queue : ThreadQueue, node ∈ s.linked queue.node

/-- The node is that of a thread of the process. -/
def inProcess (s : Kernel) (p : TaskId) : Node → Bool
  | .thread t => decide ((s.thread t).p = .slot p)
  | _ => false

/-- The waiters have become ready in their processes, in order, and the mutex is free; all other
threads and queues are as they were. -/
structure FreesWaiters (s : Kernel) (m : MutexId) (s' : Kernel) : Prop where
  ready : ∀ p, s'.linked (.ready p) =
    s.linked (.ready p) ++ (s.waiters m).filter (s.inProcess p)
  states : ∀ t, .thread t ∈ s.waiters m → (s'.thread t).state = .stReady
  free : s'.mutexVector m = { locked := 0, owner := 0 }
  nobody : s'.waiters m = []
  threads : ∀ t, .thread t ∉ s.waiters m → s'.thread t = s.thread t
  queues : ∀ queue : ThreadQueue, queue ≠ .mutex m → (∀ p, queue ≠ .ready p) →
    s'.linked queue.node = s.linked queue.node

/-- `mutex_destroy` releases the waiters and deletes only nodes that are linked. -/
def DestroysOnce (layout : Layout) (s : Kernel) (n : Int) (m : MutexId) : Prop :=
  ∃ s' looped deletions, s.perform layout (.mutexDestroy n) = .ok (s', .returns 0) ∧
    s.FreesWaiters m s' ∧ releaseTraced layout m listFuel s = .ok (looped, deletions) ∧
    ∀ deletion ∈ deletions, deletion.1.InList deletion.2

end Kernel

variable {layout : Layout} {s s' : Kernel} {q q' q₀ : Queues} {action : Action} {result : Result}
  {site : Site} {threads₀ : ThreadPtr → ThreadStruct} {n : Int} {m : MutexId} {fuel : Nat}

/-- The trace does not change what the loop does. -/
theorem map_releaseTraced : Prod.fst <$> releaseTraced layout m fuel s =
    releaseWaiters layout m fuel s := by
  induction fuel generalizing s with
  | zero => rfl
  | succ fuel induction =>
      rw [releaseTraced, releaseWaiters]
      split_ifs
      · rfl
      · simp only [releaseFirst, map_bind, bind_assoc, bind_pure_comp, bind_map_left,
          Functor.map_map, induction]

/-! ## Owned mutexes are listed -/

/-- Every mutex with an owner has a list. -/
def OwnedListed (s : Kernel) (q : Queues) : Prop :=
  ∀ m, (s.mutexVector m).owner ≠ 0 → q.head m = .listed

theorem Stay.ownedListed (stay : Stay layout s q action s' q' result) (held : OwnedListed s q) :
    OwnedListed s' q' := by
  intro m owned
  cases stay with
  | refused | stored | others | ticked | unlockedFree => exact held m owned
  | forked | forkFailed | created => simpa using held m owned
  | @locked n i | @unlocked n i | @unlockedNobody n i =>
      refine held m ?_
      by_cases same : m = i
      · subst same
        simpa using owned
      · simpa [same] using owned
  | @initialised n i =>
      by_cases same : m = i
      · simp [same]
      · simpa [same] using held m (by simpa [same] using owned)
  | @destroyed n i =>
      by_cases same : m = i
      · simp [same] at owned
      · simpa [same] using held m (by simpa [same] using owned)

theorem Parks.ownedListed (parks : Parks s q action site threads₀ q₀) (held : OwnedListed s q) :
    OwnedListed s q₀ := by
  intro m owned
  cases parks with
  | @lost n i last c accepted usable taken unlisted =>
      have different : m ≠ i := by
        rintro rfl
        exact absurd ((held m owned).symm.trans unlisted) (by simp)
      simpa [different] using held m owned
  | _ => simpa using held m owned

theorem Kernel.Reachable.ownedListed (reachable : Reachable layout anyStep s) :
    ∃ q, Orderly s q ∧ OwnedListed s q := by
  refine reachable.moves OwnedListed ?_ ?_
  · intro heap _ m owned
    exact absurd rfl owned
  · intro s q action s' q' result _ held _ _ _ move
    cases move with
    | stayed reached stay => exact stay.ownedListed held
    | switched reached picked =>
        intro m owned
        refine picked.parks.ownedListed held m ?_
        rwa [← picked.mutexVector]

/-! ## The first waiter -/

theorem Threads.inList_iff {rest : Heap Node} (threads : Threads rest s.heap q) {t : ThreadPtr} :
    s.InList (.thread t) ↔ ¬q.threads.Absent t := by
  simp only [InList, threads.linked_iff, Lanes.Absent, not_forall, not_not]

/-- With a waiter, the second call of `list_del` gets a node that is in no list. -/
theorem Orderly.exists_unlinked (orderly : Orderly s q) (listed : q.head m = .listed)
    (waiting : s.waiters m ≠ []) {looped : Kernel} {deletions : List Deletion}
    (traced : releaseTraced layout m listFuel s = .ok (looped, deletions)) :
    ∃ deletion ∈ deletions, ¬deletion.1.InList deletion.2 := by
  obtain ⟨t, others, waiters⟩ :=
    List.exists_cons_of_ne_nil fun nobody => waiting (orderly.waiters_eq_nil_iff.mpr nobody)
  have member : t ∈ q.threads (.mutex m) := by simp [waiters]
  have node := orderly.threads.first_threads (.mutex m) listed
  have nonempty := orderly.threads.empty_threads (.mutex m) listed
  rw [ThreadQueue.node_mutex, waiters] at node nonempty
  have first : s.listFirst (.mutex m) = .thread t := node
  rw [releaseTraced, if_neg (by simp [nonempty])] at traced
  obtain ⟨⟨s₂, calls⟩, round, continued⟩ := bind_eq_ok.mp traced
  simp only [releaseFirst, first, listHeadToThreadStruct, ok_bind] at round
  obtain ⟨unlinked, deleted, moved⟩ := bind_eq_ok.mp round
  obtain ⟨p, _, moved⟩ := bind_eq_ok.mp moved
  obtain ⟨s₃, _, called⟩ := bind_eq_ok.mp moved
  obtain ⟨_, calls_eq⟩ := Prod.mk.inj (Except.ok.inj called)
  obtain ⟨⟨s₄, later⟩, _, all⟩ := bind_eq_ok.mp continued
  obtain ⟨_, deletions_eq⟩ := Prod.mk.inj (Except.ok.inj all)
  cases t with
  | image page => exact absurd member (orderly.noImage m page)
  | slot u =>
      obtain ⟨heap, rfl, removed⟩ := orderly.threads.remove member unlinked deleted
      have gone : (q.removeThread (.slot u)).threads.Absent (.slot u) :=
        orderly.threads.separate.absent_remove.mpr (.inr rfl)
      refine ⟨({ s with heap }, .thread (.slot u)), ?_, ?_⟩
      · rw [← deletions_eq, ← calls_eq, if_pos (orderly.stopped (by simp) member)]
        simp
      · exact fun linked => Threads.inList_iff (s := { s with heap }) removed |>.mp linked gone

/-! ## All waiters -/

section Waiters

variable {t : ThreadPtr}

theorem Orderly.mem_waiters (orderly : Orderly s q) :
    .thread t ∈ s.waiters m ↔ t ∈ q.threads (.mutex m) :=
  orderly.threads.linked_iff (.mutex m) t

/-- The waiters that belong to a process, in order. -/
theorem Orderly.filter_waiters (orderly : Orderly s q) (p : TaskId) :
    (s.waiters m).filter (s.inProcess p) =
      ((q.threads (.mutex m)).filter (s.home · = p)).map .thread := by
  have waiters : s.waiters m = (q.threads (.mutex m)).map .thread :=
    orderly.threads.linked (.mutex m)
  rw [waiters, List.filter_map]
  refine congrArg _ (List.filter_congr fun t member => ?_)
  rw [Function.comp_apply, inProcess, orderly.home member]
  simp

/-- A `mutex_destroy` that gets to its end appends the waiters to the ready threads of their
processes, but makes only those of its caller's process ready. -/
theorem Orderly.freesWaiters_iff (orderly : Orderly s q) (accepted : mutexIndex n = some m)
    (performed : s.perform layout (.mutexDestroy n) = .ok (s', .returns 0)) :
    s.FreesWaiters m s' ↔
      ∀ t, .thread t ∈ s.waiters m → (s.thread t).p = (s.thread s.current).p := by
  obtain ⟨q', move, threads⟩ := orderly.move_of_perform performed
  have separate := orderly.threads.separate
  cases move with
  | stayed reached stay =>
      cases stay with
      | refused negative => exact absurd negative (by decide)
      | @destroyed n i heap accepted' owned owner listed =>
          obtain rfl := Option.some.inj (accepted.symm.trans accepted')
          have state : ∀ t ∈ q.threads (.mutex m),
              (({ (s.releaseStates (q.threads (.mutex m))).setMutex m fun _ =>
                { locked := 0, owner := 0 } with heap } : Kernel).thread t).state = .stReady ↔
                (s.thread t).p = (s.thread s.current).p := by
            intro t member
            rw [orderly.process, orderly.home member]
            simp [releaseStates, releasedState, member]
          constructor
          · rintro ⟨_, states, _⟩ t waits
            exact (state t (orderly.mem_waiters.mp waits)).mp (states t waits)
          · intro own
            constructor
            case ready =>
              intro p
              have ready := threads.linked (.ready p)
              have before := orderly.threads.linked (.ready p)
              rw [ThreadQueue.node_ready] at ready before
              rw [ready, before, orderly.filter_waiters, ← List.map_append,
                Queues.threads_moveHome_ready (separate.nodup _) fun t waits p ready => ?_]
              exact absurd (separate.unique waits ready) (by simp)
            case states =>
              intro t waits
              exact (state t (orderly.mem_waiters.mp waits)).mpr (own t waits)
            case free => simp
            case nobody =>
              have gone : (q.moveHome s.home (q.threads (.mutex m))).threads (.mutex m) = [] := by
                refine List.eq_nil_iff_forall_not_mem.mpr fun t member => ?_
                rw [Transition.mem_moveHome separate] at member
                split_ifs at member with waits
                exact waits member
              have linked := threads.linked (.mutex m)
              rw [gone] at linked
              exact linked
            case threads =>
              intro t outside
              rw [orderly.mem_waiters] at outside
              simp [releaseStates, outside]
            case queues =>
              intro queue other notReady
              rw [threads.linked, orderly.threads.linked,
                Queues.threads_moveHome_other notReady fun t waits inside => ?_]
              exact other (separate.unique inside waits)

end Waiters

/-- An owner's `mutex_destroy` does what it is to do exactly if nobody waits (and the number of the
owner is positive). -/
theorem destroysOnce_iff (layout : Layout) (s : Kernel) (n : Int) (m : MutexId)
    (reachable : Reachable layout anyStep s) (accepted : mutexIndex n = some m)
    (owner : (s.thread s.current).tid = (s.mutexVector m).owner) :
    s.DestroysOnce layout n m ↔ 0 < (s.mutexVector m).owner.toInt ∧ s.waiters m = [] := by
  obtain ⟨q, orderly, ownedListed⟩ := reachable.ownedListed
  have perform_eq : s.perform layout (.mutexDestroy n) =
      if (s.mutexVector m).owner.toInt ≤ 0 then .ok (s, .returns (-EINVAL)) else do
        let s ← releaseWaiters layout m listFuel s
        return (s.setMutex m fun _ => { locked := 0, owner := 0 }, .returns 0) := by
    rw [perform, sysMutexDestroy, accepted]
    dsimp only
    rw [if_neg (not_not.mpr owner)]
    rfl
  have listed : 0 < (s.mutexVector m).owner.toInt → q.head m = .listed := by
    intro owned
    refine ownedListed m fun unowned => ?_
    rw [show (s.mutexVector m).owner = 0 from unowned] at owned
    exact absurd owned (by decide)
  constructor
  · rintro ⟨s', looped, deletions, performed, _, traced, linked⟩
    have owned : 0 < (s.mutexVector m).owner.toInt := by
      by_contra unowned
      rw [perform_eq, if_pos (Int.not_lt.mp unowned)] at performed
      obtain ⟨_, returned⟩ := Prod.mk.inj (Except.ok.inj performed)
      exact absurd returned (by decide)
    refine ⟨owned, ?_⟩
    by_contra waiting
    obtain ⟨deletion, member, unlinked⟩ := orderly.exists_unlinked (listed owned) waiting traced
    exact unlinked (linked deletion member)
  · rintro ⟨owned, nobody⟩
    have empty := orderly.threads.empty_threads (.mutex m) (listed owned)
    rw [orderly.waiters_eq_nil_iff.mp nobody, ThreadQueue.node_mutex] at empty
    have looped : releaseWaiters layout m listFuel s = .ok s := by
      rw [releaseWaiters, if_pos (by simp [empty])]
    refine ⟨s.setMutex m fun _ => { locked := 0, owner := 0 }, s, [], ?_, ?_, ?_, by simp⟩
    · rw [perform_eq, if_neg (Int.not_le.mpr owned), looped]
      rfl
    · constructor
      case ready => simp [nobody]; exact fun _ => rfl
      case states => simp [nobody]
      case free => simp
      case nobody => exact nobody
      case threads => exact fun _ _ => rfl
      case queues => exact fun _ _ _ => rfl
    · rw [releaseTraced, if_pos (by simp [empty])]

/-- The first thread has locked its mutex. -/
theorem destroysOnce_iff_alone : ∃ s, Reachable plainLayout anyStep s ∧
    (s.mutexVector 3).locked = 1 ∧ s.DestroysOnce plainLayout 3 3 := by
  obtain ⟨s, reachable, goal⟩ := reachable_of_checkBoot anyStep (fun _ _ => true)
    (fun s => decide ((s.mutexVector 3).locked = 1 ∧ (s.thread s.current).tid =
      (s.mutexVector 3).owner ∧ 0 < (s.mutexVector 3).owner.toInt ∧ s.waiters 3 = []))
    [.mutexInit 3, .mutexLock 3] (fun _ _ _ => trivial) (by decide +kernel)
  obtain ⟨locked, owner, condition⟩ := of_decide_eq_true goal
  exact ⟨s, reachable, locked,
    (destroysOnce_iff plainLayout s 3 3 reachable rfl owner).mpr condition⟩

/-- One thread waits, and page 0 is not mapped. -/
theorem not_forall_destroysOnce : ¬∀ (layout : Layout) (s : Kernel) (initialised : MutexId → Bool)
    (n : Int) (m : MutexId), ReachableRecorded layout (s, initialised) → mutexIndex n = some m →
      initialised m = true → (s.thread s.current).tid = (s.mutexVector m).owner →
      s.DestroysOnce layout n m := by
  intro destroys
  obtain ⟨⟨s, initialised⟩, reachable, goal⟩ := reachableWith_of_checkBoot recordMutexes
    (fun _ => false) (fun _ _ => True) (fun _ _ => true)
    (fun state => decide (state.2 3 = true ∧ (state.1.thread state.1.current).tid =
      (state.1.mutexVector 3).owner) && !(state.1.perform plainLayout (.mutexDestroy 3)).isOk)
    [.mutexInit 3, .pthreadCreate (fun _ => 0) 0x108000 0x100000, .mutexLock 3, .yield,
      .mutexLock 3]
    (fun _ _ _ => trivial) (by decide +kernel)
  obtain ⟨fields, faults⟩ := Bool.and_eq_true_iff.mp goal
  obtain ⟨known, owner⟩ := of_decide_eq_true fields
  obtain ⟨s', looped, deletions, performed, _⟩ :=
    destroys plainLayout s initialised 3 3 reachable rfl known owner
  rw [performed] at faults
  exact absurd faults (by simp [Except.isOk, Except.toBool])

end Zeos
