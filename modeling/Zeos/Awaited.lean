import Zeos.Joiners
import Zeos.KernelImage
import Zeos.Rounds
import Zeos.WakeOrder

/-!
# Threads that others wait for

`pthread_join` blocks its caller without a look at the thread that is named, and `pthread_exit`
wakes the first of the blocked threads at most.
-/

namespace Zeos

open IntrusiveList GuardedRun Kernel

namespace Kernel

/-- A thread runs, is ready, joins another one or is blocked in a mutex, also in one that has no
list of it. -/
def Unfinished (s : Kernel) (t : ThreadPtr) : Prop :=
  s.current = t ∨ (∃ p, .thread t ∈ s.linked (.ready p) ∨ .thread t ∈ s.linked (.blocked p)) ∨
    (∃ m, .thread t ∈ s.waiters m) ∨
    (s.thread t).state = .stBlocked ∧ .thread t ∉ s.linked .freeThreadqueue

instance (s : Kernel) : DecidablePred s.Unfinished := fun _ =>
  inferInstanceAs (Decidable (_ = _ ∨ (∃ _, _ ∨ _) ∨ (∃ _, _) ∨ _ = _ ∧ _))

/-- A thread of the process other than the given one has the number and has not ended. -/
def Awaits (s : Kernel) (p : TaskId) (t : ThreadPtr) (tid : Word) : Prop :=
  ∃ u, u ≠ t ∧ (s.thread u).p = .slot p ∧ (s.thread u).tid = tid ∧ s.Unfinished u

instance (s : Kernel) (p : TaskId) (t : ThreadPtr) (tid : Word) : Decidable (s.Awaits p t tid) :=
  inferInstanceAs (Decidable (∃ _, _ ∧ _ ∧ _ ∧ _))

/-- Every blocked thread of a process waits for another one of it that has not ended. -/
def NoLostJoin (s : Kernel) : Prop :=
  ∀ p t, .thread t ∈ s.linked (.blocked p) → s.Awaits p t (s.thread t).blockedBy

/-- `pthread_join` names another thread of its caller's process that has not ended, `pthread_exit`
ends no thread that is named by a blocked thread other than the first, and `exit` finds only threads
of its own process. -/
def JoinsUnfinished (s : Kernel) : Action → Prop
  | .pthreadJoin id => ∀ tid, s.mem.loadWord s.cr3 id = .ok tid → s.Awaits s.cr3 s.current tid
  | .pthreadExit => ∀ t, .thread t ∈ (s.linked (.blocked s.cr3)).tail → ¬s.Joins t
  | .exit => ∀ t, .thread t ∈ s.linked (.ready s.cr3) ∨ .thread t ∈ s.linked (.blocked s.cr3) →
      (s.thread t).p = .slot s.cr3
  | _ => True

instance (s : Kernel) : DecidablePred s.JoinsUnfinished
  | .pthreadJoin id => match loaded : s.mem.loadWord s.cr3 id with
    | .ok tid => decidable_of_iff (s.Awaits s.cr3 s.current tid) (by simp [JoinsUnfinished, loaded])
    | .error _ => isTrue (by simp [JoinsUnfinished, loaded])
  | .pthreadExit => inferInstanceAs (Decidable (∀ _, _ → _))
  | .exit => inferInstanceAs (Decidable (∀ _, _ ∨ _ → _))
  | .tick | .fork _ | .pthreadCreate _ _ _ | .yield | .mutexInit _ | .mutexLock _ | .mutexUnlock _
  | .mutexDestroy _ | .store _ _ | .others _ => isTrue trivial

end Kernel

variable {layout : Layout} {s s' s₁ : Kernel} {q q' q₀ : Queues} {action : Action} {result : Result}
  {site : Site} {threads₀ : ThreadPtr → ThreadStruct} {t u : ThreadPtr} {p : TaskId}

/-! ## Steps and unfinished threads -/

/-- A thread with a given state runs, is in a queue other than that of the free threads, or is
blocked and not free. -/
def Queues.Unfinished (q : Queues) (current t : ThreadPtr) (state : RunState) : Prop :=
  current = t ∨ (∃ queue, queue ≠ .free ∧ t ∈ q.threads queue) ∨
    state = .stBlocked ∧ t ∉ q.threads .free

theorem unfinished_iff (orderly : Orderly s q) :
    s.Unfinished t ↔ q.Unfinished s.current t (s.thread t).state := by
  have free := orderly.threads.linked_iff .free t
  have ready := fun p => orderly.threads.linked_iff (.ready p) t
  have blocked := fun p => orderly.threads.linked_iff (.blocked p) t
  have waits := fun m => orderly.threads.linked_iff (.mutex m) t
  rw [ThreadQueue.node_free] at free
  simp only [ThreadQueue.node_ready] at ready
  simp only [ThreadQueue.node_blocked] at blocked
  rw [Kernel.Unfinished, Queues.Unfinished]
  simp only [ready, blocked, free, waiters]
  constructor
  · rintro (running | ⟨p, member | member⟩ | ⟨m, member⟩ | stopped)
    · exact .inl running
    · exact .inr (.inl ⟨_, by simp, member⟩)
    · exact .inr (.inl ⟨_, by simp, member⟩)
    · exact .inr (.inl ⟨_, by simp, (waits m).mp member⟩)
    · exact .inr (.inr stopped)
  · rintro (running | ⟨queue, busy, member⟩ | stopped)
    · exact .inl running
    · cases queue with
      | free => exact absurd rfl busy
      | ready p => exact .inr (.inl ⟨p, .inl member⟩)
      | blocked p => exact .inr (.inl ⟨p, .inr member⟩)
      | mutex m => exact .inr (.inr (.inl ⟨m, (waits m).mpr member⟩))
    · exact .inr (.inr (.inr stopped))

/-- An unfinished thread is not free. -/
theorem Queues.Unfinished.not_free (orderly : Orderly s q)
    (unfinished : q.Unfinished s.current t (s.thread t).state) : t ∉ q.threads .free := by
  intro free
  rcases unfinished with rfl | ⟨queue, busy, member⟩ | ⟨_, outside⟩
  · exact orderly.absent _ free
  · exact busy (orderly.threads.separate.unique member free)
  · exact outside free

/-- The process, the number and the joined thread are as they were. -/
structure SameNames (c c' : ThreadStruct) : Prop where
  p : c'.p = c.p
  tid : c'.tid = c.tid
  blockedBy : c'.blockedBy = c.blockedBy

theorem Stay.sameNames (stay : Stay layout s q action s' q' result) (busy : t ∉ q.threads .free) :
    SameNames (s.thread t) (s'.thread t) := by
  cases stay with
  | refused | stored | others | ticked | unlockedFree | locked | initialised =>
      exact ⟨rfl, rfl, rfl⟩
  | @forked stack child v others task globalPID heap stack' mem value free
  | @created stack id start v others task heap stack' mem free
  | @forkFailed stack v others task heap stack' mem free =>
      have other : t ≠ .slot v := by
        rintro rfl
        exact busy (by simp [free])
      constructor <;> simp [other]
  | @unlocked n m v others heap accepted usable taken first =>
      by_cases same : t = .slot v
      · constructor <;> simp [same]
      · constructor <;> simp [same]
  | @unlockedNobody n m heap =>
      by_cases same : t = .image (layout.imagePage m)
      · constructor <;> simp [same]
      · constructor <;> simp [same]
  | destroyed =>
      simp only [thread_setMutex, releaseStates]
      split_ifs
      · exact ⟨rfl, rfl, rfl⟩
      · exact ⟨rfl, rfl, rfl⟩

namespace Queues.Unfinished

variable {c : ThreadPtr} {state state' : RunState} {target : ThreadQueue}

/-- A thread leaves its queue, but not the one that is looked at. -/
theorem removeThread (unfinished : q.Unfinished c t state) (separate : q.threads.Separate)
    (other : t ≠ u) : (q.removeThread u).Unfinished c t state := by
  rcases unfinished with running | ⟨queue, busy, member⟩ | ⟨stopped, outside⟩
  · exact .inl running
  · exact .inr (.inl ⟨queue, busy, separate.mem_remove.mpr ⟨other, member⟩⟩)
  · exact .inr (.inr ⟨stopped, mt Lanes.mem_of_mem_remove outside⟩)

theorem pushThread (unfinished : q.Unfinished c t state) (busy : target ≠ .free) :
    (q.pushThread target u).Unfinished c t state := by
  rcases unfinished with running | ⟨queue, waits, member⟩ | ⟨stopped, outside⟩
  · exact .inl running
  · exact .inr (.inl ⟨queue, waits, Lanes.mem_push.mpr (.inl member)⟩)
  · refine .inr (.inr ⟨stopped, ?_⟩)
    rw [Queues.threads_pushThread, Lanes.push_other (Ne.symm busy)]
    exact outside

/-- A thread moves to a queue of threads that wait. -/
theorem moveThread (unfinished : q.Unfinished c t state) (separate : q.threads.Separate)
    (busy : target ≠ .free) (same : t ≠ u → state' = state) :
    (q.moveThread u target).Unfinished c t state' := by
  by_cases moved : t = u
  · exact .inr (.inl ⟨target, busy, Lanes.mem_push.mpr (.inr ⟨rfl, moved⟩)⟩)
  · rw [same moved]
    exact (unfinished.removeThread separate moved).pushThread busy

end Queues.Unfinished

theorem Stay.unfinished (stay : Stay layout s q action s' q' result) (orderly : Orderly s q)
    (stopped : ∀ {m}, t ∈ q.threads (.mutex m) → (s.thread t).state = .stBlocked)
    (unfinished : q.Unfinished s.current t (s.thread t).state) :
    q'.Unfinished s'.current t (s'.thread t).state := by
  have separate := orderly.threads.separate
  have busy := unfinished.not_free orderly
  cases stay with
  | refused | stored | others | ticked | unlockedFree | locked => exact unfinished
  | @forked stack child v others task globalPID heap stack' mem value free
  | @created stack id start v others task heap stack' mem free =>
      exact unfinished.moveThread separate (by simp) fun other => by simp [other]
  | @forkFailed stack v others task heap stack' mem free =>
      have other : t ≠ .slot v := by
        rintro rfl
        exact busy (by simp [free])
      simpa [other] using unfinished.removeThread separate other
  | @initialised n m heap accepted unowned =>
      have kept : t ∉ q.threads.clear (.mutex m) .free := fun free =>
        busy (Lanes.mem_clear.mp free).2
      rcases unfinished with running | ⟨queue, waits, member⟩ | ⟨halted, outside⟩
      · exact .inl running
      · by_cases cleared : queue = .mutex m
        · subst cleared
          exact .inr (.inr ⟨stopped member, kept⟩)
        · exact .inr (.inl ⟨queue, waits, Lanes.mem_clear.mpr ⟨cleared, member⟩⟩)
      · exact .inr (.inr ⟨halted, kept⟩)
  | unlocked => exact unfinished.moveThread separate (by simp) fun other => by simp [other]
  | unlockedNobody => exact unfinished.moveThread separate (by simp) fun other => by simp [other]
  | @destroyed n m heap accepted owned owner listed =>
      by_cases released : t ∈ q.threads (.mutex m)
      · refine .inr (.inl ⟨.ready (s.home t), by simp, ?_⟩)
        rw [Transition.mem_moveHome separate, if_pos released]
      · have moved : ∀ queue, t ∈ (q.moveHome s.home (q.threads (.mutex m))).threads queue ↔
            t ∈ q.threads queue := fun queue => by
          rw [Transition.mem_moveHome separate, if_neg released]
        simpa [Queues.Unfinished, moved, releaseStates, released] using unfinished

/-! ## Switches -/

namespace Parks

/-- `exit` clears the numbers of the threads that it finds, and nothing else changes a number. -/
theorem tid (parks : Parks s q action site threads₀ q₀)
    (spared : action = .exit → t ∉ q.threads (.ready s.cr3) ∧ t ∉ q.threads (.blocked s.cr3)) :
    (threads₀ t).tid = (s.thread t).tid := by
  cases parks with
  | exit =>
      obtain ⟨notReady, notBlocked⟩ := spared rfl
      simp [clearTids, notReady, notBlocked]
  | exitThread =>
      simp only [readyJoiners]
      split_ifs
      · rfl
      · rfl
  | _ =>
      by_cases own : t = s.current
      · simp [own]
      · simp [own]

theorem blockedBy (parks : Parks s q action site threads₀ q₀) (other : t ≠ s.current) :
    (threads₀ t).blockedBy = (s.thread t).blockedBy := by
  cases parks with
  | exit =>
      simp only [clearTids]
      split_ifs
      · rfl
      · rfl
  | exitThread =>
      simp only [readyJoiners]
      split_ifs
      · rfl
      · rfl
  | _ => simp [other]

/-- A thread that waits in a queue waits in one after the switch away, unless `exit` finds it. -/
theorem waits (parks : Parks s q action site threads₀ q₀) (orderly : Orderly s q)
    (spared : action = .exit → t ∉ q.threads (.ready s.cr3) ∧ t ∉ q.threads (.blocked s.cr3))
    {queue : ThreadQueue} (busy : queue ≠ .free) (member : t ∈ q.threads queue) :
    ∃ queue, queue ≠ .free ∧ t ∈ q₀.threads queue := by
  have separate := orderly.threads.separate
  cases parks with
  | tick | yield | join | lock => exact ⟨queue, busy, Lanes.mem_push.mpr (.inl member)⟩
  | lost => exact ⟨queue, busy, member⟩
  | exitThread =>
      have kept : t ∈ (q.pushThread .free s.current).threads queue :=
        Lanes.mem_push.mpr (.inl member)
      rw [Queues.wakeFirst]
      split
      · exact ⟨queue, busy, kept⟩
      · rename_i first rest blocked
        split_ifs with woken
        · by_cases same : t = first
          · exact ⟨.ready s.cr3, by simp, Lanes.mem_push.mpr (.inr ⟨rfl, same⟩)⟩
          · refine ⟨queue, busy, Lanes.mem_push.mpr (.inl ?_)⟩
            exact (separate.push orderly.absent).mem_remove.mpr ⟨same, kept⟩
        · exact ⟨queue, busy, kept⟩
  | exit =>
      obtain ⟨notReady, notBlocked⟩ := spared rfl
      refine ⟨queue, busy, ?_⟩
      rw [Queues.threads_drainThreads, Lanes.drain_other ?_ busy, Queues.threads_drainThreads,
        Lanes.drain_other ?_ busy]
      · exact member
      · rintro rfl
        exact notReady member
      · rintro rfl
        exact notBlocked member

/-- A thread in no queue stays as it is. -/
theorem outside (parks : Parks s q action site threads₀ q₀) (absent : q.threads.Absent t)
    (other : t ≠ s.current) :
    (threads₀ t).state = (s.thread t).state ∧ t ∉ q₀.threads .free := by
  have notFree := absent .free
  cases parks with
  | tick | yield | join | lock => exact ⟨by simp [other], by simpa using notFree⟩
  | lost => exact ⟨by simp [other], notFree⟩
  | exitThread =>
      refine ⟨by simp [readyJoiners, absent (.blocked s.cr3)], fun free => ?_⟩
      have pushed := Coherent.wakeFirst_subset (by simp) free
      rw [Queues.threads_pushThread, Lanes.mem_push] at pushed
      rcases pushed with before | ⟨_, same⟩
      · exact notFree before
      · exact other same
  | exit =>
      refine ⟨by simp only [clearTids]; split_ifs <;> rfl, fun free => ?_⟩
      rw [Queues.threads_drainThreads, Lanes.mem_drain (by simp), Queues.threads_drainThreads,
        Lanes.mem_drain (by simp), Lanes.drain_other (by simp) (by simp)] at free
      rcases free.2 with ⟨_, free | ⟨_, ready⟩⟩ | ⟨_, blocked⟩
      · exact notFree free
      · exact absent _ ready
      · exact absent _ blocked

/-- What does not end goes on to wait somewhere. -/
theorem unfinished (parks : Parks s q action site threads₀ q₀) (orderly : Orderly s q)
    (lives : action = .pthreadExit ∨ action = .exit → t ≠ s.current)
    (spared : action = .exit → t ∉ q.threads (.ready s.cr3) ∧ t ∉ q.threads (.blocked s.cr3))
    (unfinished : q.Unfinished s.current t (s.thread t).state) :
    (∃ queue, queue ≠ .free ∧ t ∈ q₀.threads queue) ∨
      (threads₀ t).state = .stBlocked ∧ t ∉ q₀.threads .free := by
  have notFree := unfinished.not_free orderly
  by_cases own : t = s.current
  · subst own
    cases parks with
    | tick | yield | join | lock =>
        exact .inl ⟨_, by simp, Lanes.mem_push.mpr (.inr ⟨rfl, rfl⟩)⟩
    | lost => exact .inr ⟨by simp, notFree⟩
    | exitThread => exact absurd rfl (lives (.inl rfl))
    | exit => exact absurd rfl (lives (.inr rfl))
  · by_cases listed : ∃ queue, queue ≠ .free ∧ t ∈ q.threads queue
    · obtain ⟨queue, busy, member⟩ := listed
      exact .inl (parks.waits orderly spared busy member)
    · rcases unfinished with running | waits | ⟨stopped, _⟩
      · exact absurd running.symm own
      · exact absurd waits listed
      · have absent : q.threads.Absent t := fun queue member => by
          by_cases free : queue = .free
          · exact notFree (free ▸ member)
          · exact listed ⟨queue, free, member⟩
        obtain ⟨same, outside⟩ := parks.outside absent own
        exact .inr ⟨same.trans stopped, outside⟩

/-- A blocked thread was blocked before, or is the one that joins. -/
theorem blocked (parks : Parks s q action site threads₀ q₀)
    (member : t ∈ q₀.threads (.blocked p)) :
    t ∈ q.threads (.blocked p) ∨ t = s.current ∧ p = s.cr3 ∧
      ∃ id tid, action = .pthreadJoin id ∧ s.mem.loadWord s.cr3 id = .ok tid ∧
        (threads₀ t).blockedBy = tid := by
  cases parks with
  | tick | yield | lock =>
      rw [Queues.threads_pushThread, Lanes.push_other (by simp)] at member
      exact .inl member
  | lost => exact .inl member
  | join loaded =>
      rcases Lanes.mem_push.mp member with member | ⟨same, rfl⟩
      · exact .inl member
      · exact .inr ⟨rfl, ThreadQueue.blocked.inj same, _, _, rfl, loaded, by simp⟩
  | exitThread =>
      have pushed := Coherent.wakeFirst_subset (by simp) member
      rw [Queues.threads_pushThread, Lanes.push_other (by simp)] at pushed
      exact .inl pushed
  | exit =>
      rw [Queues.threads_drainThreads, Lanes.mem_drain (by simp), Queues.threads_drainThreads,
        Lanes.drain_other (by simp) (by simp)] at member
      rcases member.2 with member | ⟨wrong, _⟩
      · exact .inl member
      · exact absurd wrong (by simp)

/-- `exit` leaves no thread of its process blocked. -/
theorem not_blocked_exit (parks : Parks s q .exit site threads₀ q₀) :
    t ∉ q₀.threads (.blocked s.cr3) := by
  cases parks
  rw [Queues.threads_drainThreads, Lanes.drain_source]
  exact List.not_mem_nil

/-- Of the threads that join the one that ends, `pthread_exit` leaves those blocked that were not
the first. -/
theorem blocked_pthreadExit (parks : Parks s q .pthreadExit site threads₀ q₀)
    (orderly : Orderly s q) (joins : s.Joins t) (member : t ∈ q₀.threads (.blocked s.cr3)) :
    t ∈ (q.threads (.blocked s.cr3)).tail := by
  cases parks
  have separate : (q.threads.push .free s.current).Separate :=
    orderly.threads.separate.push orderly.absent
  have before : (q.pushThread .free s.current).threads (.blocked s.cr3) =
      q.threads (.blocked s.cr3) := by simp
  cases blocked : q.threads (.blocked s.cr3) with
  | nil =>
      rw [Queues.wakeFirst, before, blocked] at member
      simp [blocked] at member
  | cons first rest =>
      rw [(Queues.threads_wakeFirst_cons s.Joins separate (before.trans blocked)).2] at member
      split_ifs at member with woken
      · exact member
      · rcases List.mem_cons.mp member with rfl | member
        · exact absurd joins woken
        · exact member

end Parks

theorem Stay.blocked (stay : Stay layout s q action s' q' result) (orderly : Orderly s q)
    (member : t ∈ q'.threads (.blocked p)) : t ∈ q.threads (.blocked p) := by
  cases stay with
  | refused | stored | others | ticked | unlockedFree | locked => exact member
  | forked | created | unlocked | unlockedNobody =>
      rw [Queues.threads_moveThread, Lanes.push_other (by simp)] at member
      exact Lanes.mem_of_mem_remove member
  | forkFailed => exact Lanes.mem_of_mem_remove member
  | @initialised n m =>
      have kept : t ∈ q.threads.clear (.mutex m) (.blocked p) := member
      exact (Lanes.mem_clear.mp kept).2
  | destroyed =>
      rw [Transition.mem_moveHome orderly.threads.separate] at member
      split_ifs at member
      exact member

/-! ## Runs -/

/-- Another thread of the process has the number and has not ended. -/
def Queues.Awaits (q : Queues) (s : Kernel) (p : TaskId) (t : ThreadPtr) (tid : Word) : Prop :=
  ∃ u, u ≠ t ∧ (s.thread u).p = .slot p ∧ (s.thread u).tid = tid ∧
    q.Unfinished s.current u (s.thread u).state

theorem awaits_iff (orderly : Orderly s q) (tid : Word) :
    s.Awaits p t tid ↔ q.Awaits s p t tid := by
  simp only [Kernel.Awaits, Queues.Awaits, unfinished_iff orderly]

/-- The blocked threads of all processes wait for unfinished ones, and waiters of mutexes are in the
state of blocked threads. -/
structure Awaited (s : Kernel) (q : Queues) : Prop where
  inOrder : InOrder s.thread q fun _ => none
  waits : ∀ {p t}, t ∈ q.threads (.blocked p) → q.Awaits s p t (s.thread t).blockedBy

namespace Awaited

theorem noLostJoin (awaited : Awaited s q) (orderly : Orderly s q) : s.NoLostJoin := by
  intro p t member
  rw [awaits_iff orderly]
  exact awaited.waits ((orderly.threads.linked_iff (.blocked p) t).mp member)

theorem stopped (awaited : Awaited s q) (orderly : Orderly s q) {m : MutexId}
    (member : t ∈ q.threads (.mutex m)) : (s.thread t).state = .stBlocked := by
  cases t with
  | image page => exact absurd member (orderly.noImage m page)
  | slot slot => exact awaited.inOrder.blocked member

end Awaited

theorem Stay.awaits (stay : Stay layout s q action s' q' result) (orderly : Orderly s q)
    (awaited : Awaited s q) (member : t ∈ q'.threads (.blocked p)) :
    q'.Awaits s' p t (s'.thread t).blockedBy := by
  have before := stay.blocked orderly member
  have blocked : t ∉ q.threads .free := fun free =>
    absurd (orderly.threads.separate.unique before free) (by simp)
  obtain ⟨u, other, process, tid, unfinished⟩ := awaited.waits before
  have names := stay.sameNames (unfinished.not_free orderly)
  refine ⟨u, other, names.p.trans process, ?_, ?_⟩
  · rw [names.tid, tid, (stay.sameNames blocked).blockedBy]
  · exact stay.unfinished orderly (awaited.stopped orderly) unfinished

/-- Before the switch to the next thread. -/
theorem Parks.awaits (parks : Parks s q action site threads₀ q₀) (orderly : Orderly s q)
    (awaited : Awaited s q) (joins : s.JoinsUnfinished action)
    (member : t ∈ q₀.threads (.blocked p)) :
    ∃ u, u ≠ t ∧ (threads₀ u).p = .slot p ∧ (threads₀ u).tid = (threads₀ t).blockedBy ∧
      ((∃ queue, queue ≠ .free ∧ u ∈ q₀.threads queue) ∨
        (threads₀ u).state = .stBlocked ∧ u ∉ q₀.threads .free) := by
  rcases parks.blocked member with before | ⟨rfl, rfl, id, tid, rfl, loaded, named⟩
  · obtain ⟨u, other, process, tid, unfinished⟩ := awaited.waits before
    have home : ∀ x, (s.thread x).p = .slot s.cr3 →
        (s.thread x).p = (s.thread u).p → p = s.cr3 := by
      intro x own same
      exact TaskPtr.slot.inj (process.symm.trans (same.symm.trans own))
    have lives : action = .pthreadExit ∨ action = .exit → u ≠ s.current := by
      rintro ends rfl
      obtain rfl := home s.current orderly.process rfl
      rcases ends with rfl | rfl
      · have later := parks.blocked_pthreadExit orderly tid.symm member
        refine joins t ?_ tid.symm
        have linked := orderly.threads.linked (.blocked s.cr3)
        rw [ThreadQueue.node_blocked] at linked
        rw [linked, ← List.map_tail]
        exact List.mem_map_of_mem later
      · exact parks.not_blocked_exit member
    have spared : action = .exit →
        u ∉ q.threads (.ready s.cr3) ∧ u ∉ q.threads (.blocked s.cr3) := by
      rintro rfl
      have ready := orderly.threads.linked_iff (.ready s.cr3) u
      have blocked := orderly.threads.linked_iff (.blocked s.cr3) u
      constructor
      · intro found
        obtain rfl := home u (joins u (.inl (ready.mpr found))) rfl
        exact parks.not_blocked_exit member
      · intro found
        obtain rfl := home u (joins u (.inr (blocked.mpr found))) rfl
        exact parks.not_blocked_exit member
    refine ⟨u, other, (parks.same u).1.trans process, ?_,
      parks.unfinished orderly lives spared unfinished⟩
    rw [parks.tid spared, tid, parks.blockedBy (orderly.ne_of_mem before)]
  · obtain ⟨u, other, process, tid_eq, unfinished⟩ := (awaits_iff orderly tid).mp (joins tid loaded)
    refine ⟨u, other, (parks.same u).1.trans process, ?_,
      parks.unfinished orderly (by simp) (by simp) unfinished⟩
    rw [parks.tid (by simp), tid_eq, named]

theorem Picked.sameNames (picked : Picked layout s q action s₁ t site threads₀ q₀)
    (x : ThreadPtr) : SameNames (threads₀ x) (s₁.saveEsp.thread x) := by
  have same : SameNames (threads₀ x) (s₁.thread x) := by
    rw [picked.thread, Function.update_apply]
    split_ifs with chosen
    · rw [chosen]
      exact ⟨rfl, rfl, rfl⟩
    · exact ⟨rfl, rfl, rfl⟩
  rw [picked.saveEsp_thread]
  split_ifs
  · exact ⟨same.p, same.tid, same.blockedBy⟩
  · exact same

theorem Move.awaited (move : Move layout s q action s' q' result) (orderly : Orderly s q)
    (awaited : Awaited s q) (joins : s.JoinsUnfinished action) : Awaited s' q' := by
  have inOrder := move.inOrder orderly awaited.inOrder
  refine ⟨⟨inOrder.blocked, by simp, by simp⟩, fun {p t} member => ?_⟩
  cases move with
  | stayed reached stay => exact stay.awaits orderly awaited member
  | @switched s₁ next cr3 site threads₀ q₀ reached picked busy process =>
      obtain ⟨heap, placed⟩ := picked.placed
      obtain ⟨u, other, process', tid, waits⟩ := picked.parks.awaits orderly awaited joins
        (Lanes.mem_of_mem_remove member)
      refine ⟨u, other, (picked.sameNames u).p.trans process', ?_, ?_⟩
      · show (s₁.saveEsp.thread u).tid = (s₁.saveEsp.thread t).blockedBy
        rw [(picked.sameNames u).tid, tid, (picked.sameNames t).blockedBy]
      · by_cases chosen : u = .slot next
        · exact .inl chosen.symm
        · rcases waits with ⟨queue, busy, member⟩ | ⟨stopped, outside⟩
          · exact .inr (.inl ⟨queue, busy, placed.separate.mem_remove.mpr ⟨chosen, member⟩⟩)
          · refine .inr (.inr ⟨?_, mt Lanes.mem_of_mem_remove outside⟩)
            show (s₁.saveEsp.thread u).state = _
            rw [picked.saveEsp_state, if_neg chosen, stopped]

/-- In every run in which joins name unfinished threads, threads end with no later joiner, `exit`
finds only threads of its process and the frames of the kernel are spared, no blocked thread waits
for one that has ended. -/
theorem noLostJoin_of_joinsUnfinished (image : Image) (s : Kernel)
    (reachable : image.Reachable (Sparing JoinsUnfinished) s) : s.NoLostJoin := by
  obtain ⟨q, orderly, awaited⟩ := reachable.spared.moves Awaited
    (fun heap _ => ⟨⟨fun member => absurd (mem_bootQueues member).1 (by simp), by simp, by simp⟩,
      fun member => absurd (mem_bootQueues member).1 (by simp)⟩)
    fun orderly awaited joins _ _ move => move.awaited orderly awaited joins
  exact awaited.noLostJoin orderly

/-- The first thread waits for the second one. -/
theorem noLostJoin_of_joinsUnfinished_second :
    ∃ s, plainImage.Reachable (Sparing JoinsUnfinished) s ∧
      .thread (.slot 1) ∈ s.linked (.blocked 1) ∧ s.NoLostJoin := by
  obtain ⟨s, reachable, goal⟩ := spared_of_checkBoot JoinsUnfinished
    (fun s action => decide (s.JoinsUnfinished action))
    (fun s => decide (.thread (.slot 1) ∈ s.linked (.blocked 1)))
    [.pthreadCreate (fun _ => 0) userData userData, .pthreadJoin userData]
    (fun _ _ => of_decide_eq_true) (by decide +kernel)
  exact ⟨s, reachable, of_decide_eq_true goal,
    noLostJoin_of_joinsUnfinished plainImage s reachable⟩

/-- The first thread waits for a thread with the number 0. -/
theorem not_noLostJoin : ¬∀ layout s, Reachable layout anyStep s → s.NoLostJoin := by
  intro awaits
  obtain ⟨s, reachable, goal⟩ := reachable_of_checkBoot anyStep (fun _ _ => true)
    (fun s => decide (.thread (.slot 1) ∈ s.linked (.blocked 1) ∧
      ¬s.Awaits 1 (.slot 1) (s.thread (.slot 1)).blockedBy))
    [.pthreadCreate (fun _ => 0) userData userData, .pthreadJoin (userData + 4)]
    (fun _ _ _ => trivial) (by decide +kernel)
  obtain ⟨blocked, lost⟩ := of_decide_eq_true goal
  exact lost (awaits plainLayout s reachable 1 (.slot 1) blocked)

end Zeos
