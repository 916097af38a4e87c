import Zeos.Awaited
import Zeos.KernelImage
import Zeos.Paging

/-!
# States and lists of threads

A thread runs and is in no list, is ready in one list of ready threads, or is blocked in one list of
blocked threads or in one mutex.  `exit`, a failed `fork` and the calls that change a state or a
list on their own do not keep to that.
-/

namespace Zeos

open IntrusiveList GuardedRun Kernel

/-- The state of the threads that wait in a list. -/
def ThreadQueue.state : ThreadQueue → RunState
  | .ready _ => .stReady
  | _ => .stBlocked

namespace Kernel

/-- How often a thread is linked in a list of threads. -/
def links (s : Kernel) (t : ThreadPtr) (queue : ThreadQueue) : Nat :=
  (s.linked queue.node).count (.thread t)

/-- A thread is linked exactly once, in the given list. -/
def LinkedOnce (s : Kernel) (t : ThreadPtr) (queue : ThreadQueue) : Prop :=
  s.links t queue = 1 ∧ ∀ other ≠ queue, s.links t other = 0

/-- The state of a thread is the one of the only list that it is in, or it runs and is in none. -/
structure StateAgrees (s : Kernel) (t : ThreadPtr) : Prop where
  run : (s.thread t).state = .stRun ↔ s.current = t
  unlinked : s.current = t → ∀ queue, s.links t queue = 0
  ready : (s.thread t).state = .stReady ↔ ∃ p, s.LinkedOnce t (.ready p)
  blocked : (s.thread t).state = .stBlocked ↔
    (∃ p, s.LinkedOnce t (.blocked p)) ∨ ∃ m, s.LinkedOnce t (.mutex m)
  once : s.current ≠ t → ∃ queue, s.LinkedOnce t queue

/-- The states of all threads that have been given to a process and are not free agree with the
lists.  The idle thread belongs to no process. -/
def ThreadsAgree (s : Kernel) : Prop :=
  ∀ u : ThreadSlot, (s.thread (.slot u)).p ≠ .null →
    .thread (.slot u) ∉ s.linked .freeThreadqueue → s.StateAgrees (.slot u)

/-- No process exits, `pthread_exit` ends no thread that is joined by a blocked thread other than
the first, `fork` does not run out of frames, `mutex_init` finds no waiters, `mutex_lock` blocks its
caller only in a list with a head, and `mutex_destroy` releases threads of its caller's process. -/
def KeepsThreads (s : Kernel) : Action → Prop
  | .exit => False
  | .pthreadExit => ∀ t, .thread t ∈ (s.linked (.blocked s.cr3)).tail → ¬s.Joins t
  | .fork _ => s.listEmpty .freequeue = true ∨ s.listEmpty .freeThreadqueue = true ∨
      numPagData ≤ (Memory.freeFrames s.mem.physMem).length
  | .mutexInit n => ∀ m, mutexIndex n = some m → (s.mutexVector m).owner = 0 → s.waiters m = []
  | .mutexLock n => ∀ m, mutexIndex n = some m → 0 ≤ (s.mutexVector m).owner.toInt →
      (s.mutexVector m).locked ≠ 0 → (s.heap (.mutex m)).next ≠ .null
  | .mutexDestroy n => ∀ m, mutexIndex n = some m → 0 < (s.mutexVector m).owner.toInt →
      (s.thread s.current).tid = (s.mutexVector m).owner →
      ∀ t, .thread t ∈ s.waiters m → (s.thread t).p = .slot s.cr3
  | _ => True

instance (s : Kernel) : DecidablePred s.KeepsThreads
  | .exit => inferInstanceAs (Decidable False)
  | .pthreadExit => inferInstanceAs (Decidable (∀ _, _ → _))
  | .fork _ => inferInstanceAs (Decidable (_ ∨ _ ∨ _))
  | .mutexInit _ => inferInstanceAs (Decidable (∀ _, _ → _ → _))
  | .mutexLock _ => inferInstanceAs (Decidable (∀ _, _ → _ → _ → _))
  | .mutexDestroy _ => inferInstanceAs (Decidable (∀ _, _ → _ → _ → ∀ _, _ → _))
  | .tick | .pthreadCreate _ _ _ | .pthreadJoin _ | .yield | .mutexUnlock _ | .store _ _
  | .others _ => isTrue trivial

end Kernel

variable {layout : Layout} {s s' s₁ : Kernel} {q q' q₀ : Queues} {action : Action} {result : Result}
  {site : Site} {threads₀ : ThreadPtr → ThreadStruct} {t : ThreadPtr}

/-- The waiting threads are in the state of their lists, and every thread of a process waits, is
free or runs. -/
structure Agreed (thread : ThreadPtr → ThreadStruct) (running : Option ThreadPtr) (q : Queues) :
    Prop where
  state : ∀ {queue u}, queue ≠ .free → .slot u ∈ q.threads queue →
    (thread (.slot u)).state = queue.state
  placed : ∀ {u}, (thread (.slot u)).p ≠ .null →
    running = some (.slot u) ∨ ∃ queue, .slot u ∈ q.threads queue

namespace Agreed

variable {thread thread' : ThreadPtr → ThreadStruct} {running : Option ThreadPtr}
  {target : ThreadQueue}

/-- A thread goes to a list and gets the state of the list. -/
theorem move (agreed : Agreed thread running q) (separate : q.threads.Separate)
    (same : ∀ x, x ≠ t → thread' x = thread x) (state : (thread' t).state = target.state) :
    Agreed thread' running (q.moveThread t target) := by
  constructor
  case state =>
    intro queue u busy member
    rcases Lanes.mem_push.mp member with before | ⟨rfl, rfl⟩
    · obtain ⟨other, before⟩ := separate.mem_remove.mp before
      rw [same _ other]
      exact agreed.state busy before
    · exact state
  case placed =>
    intro u process
    by_cases moved : .slot u = t
    · exact .inr ⟨target, Lanes.mem_push.mpr (.inr ⟨rfl, moved⟩)⟩
    · rw [same _ moved] at process
      refine (agreed.placed process).imp_right fun ⟨queue, member⟩ => ⟨queue, ?_⟩
      exact Lanes.mem_push.mpr (.inl (separate.mem_remove.mpr ⟨moved, member⟩))

/-- The running thread goes to a list and gets the state of the list. -/
theorem park (agreed : Agreed thread (some t) q) (absent : q.threads.Absent t)
    (same : ∀ x, x ≠ t → thread' x = thread x)
    (state : target ≠ .free → (thread' t).state = target.state) :
    Agreed thread' none (q.pushThread target t) := by
  constructor
  case state =>
    intro queue u busy member
    rcases Lanes.mem_push.mp member with before | ⟨rfl, rfl⟩
    · have other : .slot u ≠ t := by
        rintro rfl
        exact absent queue before
      rw [same _ other]
      exact agreed.state busy before
    · exact state busy
  case placed =>
    intro u process
    by_cases moved : .slot u = t
    · exact .inr ⟨target, Lanes.mem_push.mpr (.inr ⟨rfl, moved⟩)⟩
    · rw [same _ moved] at process
      rcases agreed.placed process with own | ⟨queue, member⟩
      · exact absurd (Option.some.inj own).symm moved
      · exact .inr ⟨queue, Lanes.mem_push.mpr (.inl member)⟩

/-- A thread leaves its list to run. -/
theorem run (agreed : Agreed thread none q) (separate : q.threads.Separate)
    (state : ∀ x, x ≠ t → (thread' x).state = (thread x).state)
    (process : ∀ x, (thread' x).p = (thread x).p) :
    Agreed thread' (some t) (q.removeThread t) := by
  constructor
  case state =>
    intro queue u busy member
    obtain ⟨other, before⟩ := separate.mem_remove.mp member
    rw [state _ other]
    exact agreed.state busy before
  case placed =>
    intro u given
    rw [process] at given
    obtain ⟨queue, member⟩ := (agreed.placed given).resolve_left (by simp)
    by_cases chosen : .slot u = t
    · exact .inl (congrArg some chosen.symm)
    · exact .inr ⟨queue, separate.mem_remove.mpr ⟨chosen, member⟩⟩

end Agreed

/-! ## Steps -/

/-- `fork` does not run out of frames. -/
theorem fork_ne_again {stack : Nat → Word} (directories : s.OwnDirectories)
    (keeps : s.KeepsThreads (.fork stack)) (unnumbered : s'.globalPID = s.globalPID) :
    s.perform layout (.fork stack) ≠ .ok (s', .returns (-EAGAIN)) := by
  intro performed
  have entered : (s.enterWith stack).OwnDirectories := directories
  rcases mem_sysFork layout entered _ performed with
    ⟨refused, _⟩ | ⟨someProcess, someThread, child, _, failed | ⟨numbered, _⟩⟩
  · have result : Result.returns (-EAGAIN) = .returns (-ENOMEM) := congrArg Prod.snd refused
    exact absurd result (by decide)
  · obtain ⟨mem, allocated, _⟩ := failed
    obtain ⟨few, _⟩ := Memory.forkFailed_eq allocated
    rcases keeps with empty | empty | enough
    · exact absurd (someProcess.symm.trans empty) (by simp)
    · exact absurd (someThread.symm.trans empty) (by simp)
    · exact absurd few enough.not_gt
  · have next : s.globalPID + 1 = s.globalPID := numbered.symm.trans unnumbered
    exact absurd next (by simp)

theorem Stay.agreed (stay : Stay layout s q action s' q' result) (orderly : Orderly s q)
    (agreed : Agreed s.thread (some s.current) q) (keeps : s.KeepsThreads action)
    (directories : s.OwnDirectories) (performed : s.perform layout action = .ok (s', result)) :
    Agreed s'.thread (some s'.current) q' := by
  have separate := orderly.threads.separate
  cases stay with
  | refused | stored | others | ticked | unlockedFree | locked => exact agreed
  | forked | created | unlocked =>
      exact agreed.move separate (fun x other => by simp [other]) (by simp; rfl)
  | forkFailed => exact absurd performed (fork_ne_again directories keeps rfl)
  | @initialised n m heap accepted unowned =>
      have nobody : q.threads (.mutex m) = [] := by
        have linked := orderly.threads.linked (.mutex m)
        rw [ThreadQueue.node_mutex, ← waiters, keeps m accepted unowned] at linked
        exact List.map_eq_nil_iff.mp linked.symm
      have same : q.threads.clear (.mutex m) = q.threads := by
        funext queue
        by_cases cleared : queue = .mutex m
        · simp [Lanes.clear, cleared, nobody]
        · simp [Lanes.clear, cleared]
      refine ⟨fun busy member => agreed.state busy (same ▸ member), fun process => ?_⟩
      refine (agreed.placed process).imp_right (Exists.imp fun queue member => ?_)
      exact same.symm ▸ member
  | unlockedNobody => exact agreed.move separate (fun x other => by simp [other]) (by simp; rfl)
  | @destroyed n m heap accepted owned owner listed =>
      have home : ∀ {t}, t ∈ q.threads (.mutex m) → s.home t = s.cr3 := by
        intro t waits
        have linked := orderly.threads.linked_iff (.mutex m) t
        have process := keeps m accepted owned owner t (linked.mpr waits)
        exact TaskPtr.slot.inj ((orderly.home waits).symm.trans process)
      constructor
      case state =>
        intro queue u busy member
        rw [Transition.mem_moveHome separate] at member
        split_ifs at member with waits
        · simp [releaseStates, waits, releasedState, home waits, member, ThreadQueue.state]
        · simpa [releaseStates, waits] using agreed.state busy member
      case placed =>
        intro u process
        have given : (s.thread (.slot u)).p ≠ .null := by
          simp only [thread_setMutex, releaseStates] at process
          split_ifs at process
          · exact process
          · exact process
        rcases agreed.placed given with current | ⟨queue, member⟩
        · exact .inl current
        · by_cases waits : .slot u ∈ q.threads (.mutex m)
          · exact .inr ⟨.ready (s.home (.slot u)), by
              rw [Transition.mem_moveHome separate, if_pos waits]⟩
          · exact .inr ⟨queue, by rwa [Transition.mem_moveHome separate, if_neg waits]⟩

/-- The running thread is parked, and no other thread is lost. -/
theorem Parks.agreed (parks : Parks s q action site threads₀ q₀) (orderly : Orderly s q)
    (agreed : Agreed s.thread (some s.current) q) (keeps : s.KeepsThreads action) :
    Agreed threads₀ none q₀ := by
  have separate := orderly.threads.separate
  cases parks with
  | tick | yield | join | lock =>
      exact agreed.park orderly.absent (fun x other => by simp [other]) fun _ => by simp; rfl
  | exitThread =>
      have freed : Agreed s.thread none (q.pushThread .free s.current) :=
        agreed.park orderly.absent (fun _ _ => rfl) fun busy => absurd rfl busy
      have before : (q.pushThread .free s.current).threads (.blocked s.cr3) =
          q.threads (.blocked s.cr3) := by simp
      cases blocked : q.threads (.blocked s.cr3) with
      | nil =>
          have same : (s.readyJoiners []).thread = s.thread := by simp [readyJoiners]
          rw [Queues.wakeFirst, before, blocked, same]
          exact freed
      | cons first rest =>
          have linked := orderly.threads.linked (.blocked s.cr3)
          rw [ThreadQueue.node_blocked, blocked] at linked
          have later : ∀ x ∈ rest, ¬s.Joins x := fun x member => keeps x (by
            rw [linked]
            exact List.mem_map_of_mem member)
          have woken : ∀ x, x ∈ first :: rest ∧ s.Joins x → x = first := fun x joiner =>
            (List.mem_cons.mp joiner.1).resolve_right fun member => later x member joiner.2
          rw [Queues.wakeFirst, before, blocked]
          dsimp only
          split_ifs with joins
          · refine freed.move (separate.push orderly.absent) (fun x other => ?_) ?_
            · exact if_neg (mt (woken x) other)
            · exact congrArg ThreadStruct.state (if_pos ⟨List.mem_cons_self, joins⟩)
          · have same : (s.readyJoiners (first :: rest)).thread = s.thread := by
              funext x
              refine if_neg fun joiner => joins ?_
              rw [← woken x joiner]
              exact joiner.2
            rw [same]
            exact freed
  | exit => exact keeps.elim
  | @lost n m last c accepted usable taken unlisted current =>
      obtain ⟨_, head, _⟩ := orderly.threads.unlisted unlisted
      exact absurd (congrArg Links.next head) (keeps m accepted usable taken)

theorem Move.agreed (move : Move layout s q action s' q' result) (orderly : Orderly s q)
    (agreed : Agreed s.thread (some s.current) q) (keeps : s.KeepsThreads action)
    (directories : s.OwnDirectories) (performed : s.perform layout action = .ok (s', result)) :
    Agreed s'.thread (some s'.current) q' := by
  cases move with
  | stayed reached stay => exact stay.agreed orderly agreed keeps directories performed
  | switched reached picked busy process =>
      obtain ⟨heap, placed⟩ := picked.placed
      refine (picked.parks.agreed orderly agreed keeps).run placed.separate
        (fun x other => ?_) fun x => ?_
      · exact (picked.saveEsp_state x).trans (if_neg other)
      · exact (picked.saveEsp_p x).trans (picked.parks.same x).1.symm

/-! ## Runs -/

theorem Agreed.booted (layout : Layout) (heap : Heap Node) :
    Agreed (Kernel.booted layout heap).thread (some (Kernel.booted layout heap).current)
      bootQueues := by
  constructor
  case state => exact fun busy member => absurd (mem_bootQueues member).1 busy
  case placed =>
    intro u process
    by_cases first : u = 1
    · exact .inl (by rw [first]; rfl)
    · refine absurd ?_ process
      simp only [Kernel.booted, ThreadPtr.slot.injEq, first, if_false]
      split_ifs
      · rfl
      · rfl
      · rfl

/-- `exit` leaves its caller in no list, in the state of the running thread. -/
theorem not_threadsAgree_of_exit (orderly : Orderly s q) (orderly' : Orderly s' q')
    (move : Move layout s q .exit s' q' .switches) : ¬s'.ThreadsAgree := by
  intro agree
  cases move with
  | stayed reached stay => cases stay
  | @switched s₁ u cr3 site threads₀ q₀ reached picked busy process =>
      obtain ⟨c, current⟩ := orderly.slot
      have absent : q₀.threads.Absent s.current := by
        cases picked.parks
        exact (Lanes.absent_drain (by simp)).mpr
          ((Lanes.absent_drain (by simp)).mpr orderly.absent)
      have other : s.current ≠ .slot u := by
        obtain ⟨p, others, first⟩ := picked.first busy
        intro same
        exact absent (.ready p) (by simp [first, same])
      have state : (s₁.saveEsp.thread s.current).state = .stRun := by
        rw [picked.saveEsp_state, if_neg other, ← orderly.running]
        cases picked.parks
        simp only [clearTids]
        split_ifs
        · rfl
        · rfl
      have given : (s₁.saveEsp.thread s.current).p ≠ .null := by
        rw [picked.saveEsp_p, orderly.process]
        simp
      rw [current] at absent other state given
      have free := orderly'.threads.linked_iff .free (.slot c)
      have agrees := agree c given fun linked => absent .free
        (Lanes.mem_of_mem_remove (free.mp linked))
      exact other.symm (agrees.run.mp state)

end Zeos
