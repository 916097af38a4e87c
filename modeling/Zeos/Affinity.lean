import Zeos.KernelImage

/-!
# Threads stay with their process

Every thread that is ready or blocked in a process belongs to it, as long as `mutex_unlock` finds
waiters of its caller's process.
-/

namespace Zeos

open IntrusiveList GuardedRun Kernel

namespace Kernel

/-- The pointer that `mutex_unlock` takes for the thread to wake, if it gets so far. -/
def woken (layout : Layout) (s : Kernel) (n : Int) : Option ThreadPtr :=
  match mutexIndex n with
  | none => none
  | some m =>
      if (s.mutexVector m).owner.toInt < 0 ∨ (s.mutexVector m).locked = 0 then none
      else (listHeadToThreadStruct layout (s.listFirst (.mutex m))).toOption

/-- What `mutex_unlock` wakes belongs to the process of its caller. -/
def UnlocksOwn (layout : Layout) (s : Kernel) : Action → Prop
  | .mutexUnlock n => ∀ t ∈ s.woken layout n, (s.thread t).p = (s.thread s.current).p
  | _ => True

instance (layout : Layout) (s : Kernel) : DecidablePred (s.UnlocksOwn layout)
  | .mutexUnlock n => inferInstanceAs (Decidable (∀ t ∈ s.woken layout n, _ = _))
  | .tick | .fork _ | .pthreadCreate _ _ _ | .pthreadJoin _ | .pthreadExit | .yield | .exit
  | .mutexInit _ | .mutexLock _ | .mutexDestroy _ | .store _ _ | .others _ => isTrue trivial

/-- The threads that are ready or blocked in a process belong to it. -/
def Affine (s : Kernel) : Prop :=
  ∀ p : TaskId, ∀ node ∈ s.linked (.ready p) ++ s.linked (.blocked p),
    ∃ t, node = .thread t ∧ (s.thread t).p = .slot p

theorem woken_eq {layout : Layout} {s : Kernel} {n : Int} {m : MutexId} {t : ThreadPtr}
    (accepted : mutexIndex n = some m) (usable : 0 ≤ (s.mutexVector m).owner.toInt)
    (taken : (s.mutexVector m).locked ≠ 0)
    (first : listHeadToThreadStruct layout (s.listFirst (.mutex m)) = .ok t) :
    s.woken layout n = some t := by
  have passes : ¬((s.mutexVector m).owner.toInt < 0 ∨ (s.mutexVector m).locked = 0) :=
    not_or.mpr ⟨Int.not_lt.mpr usable, taken⟩
  rw [woken, accepted]
  dsimp only
  rw [if_neg passes, first]
  rfl

theorem UnlocksOwn.wakesOwn {layout : Layout} {s : Kernel} {action : Action}
    (own : s.UnlocksOwn layout action) : s.WakesOwn action := by
  cases action with
  | mutexUnlock n =>
      intro m t accepted usable taken first
      exact own t (woken_eq accepted usable taken (by rw [first]; rfl))
  | _ => trivial

end Kernel

variable {layout : Layout} {s s' : Kernel} {q q' : Queues} {action : Action} {result : Result}

namespace Queues

variable {t c u : ThreadPtr} {queue lane : ThreadQueue}

/-- A thread that has been moved was in a queue before. -/
theorem mem_of_moveThread (waits : ∃ before, u ∈ q.threads before)
    (member : t ∈ (q.moveThread u lane).threads queue) : ∃ before, t ∈ q.threads before := by
  rw [threads_moveThread, Lanes.mem_push] at member
  rcases member with member | ⟨_, rfl⟩
  · exact ⟨queue, Lanes.mem_of_mem_remove member⟩
  · exact waits

theorem mem_of_wakeFirst {p : TaskId} {wakes : ThreadPtr → Prop} [DecidablePred wakes]
    (member : t ∈ (q.wakeFirst p wakes).threads queue) : ∃ before, t ∈ q.threads before := by
  unfold wakeFirst at member
  split at member
  · exact ⟨queue, member⟩
  · rename_i first rest blocked
    split at member
    · exact mem_of_moveThread ⟨.blocked p, by simp [blocked]⟩ member
    · exact ⟨queue, member⟩

theorem mem_of_push_remove (member : t ∈ ((q.pushThread lane c).removeThread u).threads queue) :
    (∃ before, t ∈ q.threads before) ∨ t = c := by
  rw [threads_removeThread] at member
  rcases Lanes.mem_push.mp (Lanes.mem_of_mem_remove member) with member | ⟨_, rfl⟩
  · exact .inl ⟨queue, member⟩
  · exact .inr rfl

end Queues

/-- A thread in a queue was in one before the step, or was running, or is the page that
`mutex_unlock` takes for a thread when nobody waits. -/
theorem Transition.mem_cases (transition : Transition layout s q action s' q' result)
    (consistent : Consistent s q) {queue : ThreadQueue} {t : ThreadPtr}
    (member : t ∈ q'.threads queue) :
    (∃ before, t ∈ q.threads before) ∨ t = s.current ∨
      ∃ n, action = .mutexUnlock n ∧ s.woken layout n = some t ∧ (s.thread t).p = .wild := by
  have parked : ∀ {lane u}, t ∈ ((q.pushThread lane s.current).removeThread u).threads queue →
      (∃ before, t ∈ q.threads before) ∨ t = s.current ∨
        ∃ n, action = .mutexUnlock n ∧ s.woken layout n = some t ∧ (s.thread t).p = .wild :=
    fun member => (Queues.mem_of_push_remove member).imp id .inl
  cases transition with
  | refused | stored | others | ticked | locked | unlockedFree => exact .inl ⟨queue, member⟩
  | tickedThread | joined | yielded | waited => exact parked member
  | tickedProcess => exact parked member
  | forked freeProcess freeThread =>
      rcases Lanes.mem_push.mp member with member | ⟨_, rfl⟩
      · exact .inl ⟨queue, Lanes.mem_of_mem_remove member⟩
      · exact .inl ⟨.free, by simp [freeThread]⟩
  | forkFailed => exact .inl ⟨queue, Lanes.mem_of_mem_remove member⟩
  | created freeThread =>
      exact .inl (Queues.mem_of_moveThread ⟨.free, by simp [freeThread]⟩ member)
  | ended =>
      obtain ⟨before, member⟩ := Queues.mem_of_wakeFirst (Lanes.mem_of_mem_remove member)
      rcases Lanes.mem_push.mp member with member | ⟨_, rfl⟩
      · exact .inl ⟨before, member⟩
      · exact .inr (.inl rfl)
  | exited =>
      have drained := Lanes.mem_of_mem_remove member
      simp only [Queues.threads_removeProcess, Queues.threads_drainThreads,
        Queues.threads_pushProcess] at drained
      rw [Lanes.mem_drain (by simp)] at drained
      rcases drained.2 with member | ⟨_, member⟩
      · rw [Lanes.mem_drain (by simp)] at member
        exact .inl (member.2.elim (fun member => ⟨_, member⟩) fun member => ⟨_, member.2⟩)
      · rw [Lanes.mem_drain (by simp)] at member
        exact .inl (member.2.elim (fun member => ⟨_, member⟩) fun member => ⟨_, member.2⟩)
  | initialised => exact .inl ⟨queue, (Lanes.mem_clear.mp member).2⟩
  | lost => exact .inl ⟨queue, Lanes.mem_of_mem_remove member⟩
  | @unlocked n m slot rest heap accepted usable taken first =>
      exact .inl (Queues.mem_of_moveThread ⟨.mutex m, by simp [first]⟩ member)
  | @unlockedNobody n m heap accepted usable taken listed nobody =>
      rw [Queues.threads_moveThread, Lanes.mem_push] at member
      rcases member with member | ⟨_, rfl⟩
      · exact .inl ⟨queue, Lanes.mem_of_mem_remove member⟩
      · refine .inr (.inr ⟨n, rfl, woken_eq accepted usable taken ?_, consistent.imageP _⟩)
        have node := consistent.represents.first_threads (.mutex m) listed
        rw [nobody] at node
        rw [show s.listFirst (.mutex m) = .mutex m from node]
        rfl
  | @destroyed n m heap accepted owned owner listed =>
      rw [mem_moveHome consistent.threads] at member
      split at member
      · rename_i waits
        exact .inl ⟨.mutex m, waits⟩
      · exact .inl ⟨queue, member⟩

/-- No page of the kernel image becomes a thread in a queue. -/
theorem Transition.noImage (transition : Transition layout s q action s' q' result)
    (consistent : Consistent s q) (own : s.UnlocksOwn layout action)
    (before : ∀ queue page, .image page ∉ q.threads queue) (queue : ThreadQueue) (page : Fin 2) :
    .image page ∉ q'.threads queue := by
  intro member
  rcases transition.mem_cases consistent member with
    ⟨lane, member⟩ | current | ⟨n, rfl, woken, wild⟩
  · exact before lane page member
  · obtain ⟨slot, running⟩ := consistent.slot
    exact absurd (current.trans running) (by simp)
  · have same := own _ woken
    rw [consistent.process, wild] at same
    exact absurd same (by simp)

theorem noImage_of_unlocksOwn (reachable : Reachable layout (UnlocksOwn layout) s) :
    ∃ q, Consistent s q ∧ ∀ queue page, .image page ∉ q.threads queue := by
  refine reachable.induct (fun _ q => ∀ queue page, .image page ∉ q.threads queue) ?_
    (fun _ _ own => own.wakesOwn) ?_
  · intro heap _ queue page member
    obtain ⟨_, _, equal, _⟩ := mem_bootQueues member
    exact absurd equal (by simp)
  · intro s q action s' q' result consistent before own _ _ transition
    exact transition.noImage consistent own before

/-- Along runs in which `mutex_unlock` finds only waiters of its caller's process and the frames of
the kernel are spared, all ready and blocked threads of a process belong to it. -/
theorem affine_of_unlocksOwn (image : Image) (s : Kernel)
    (reachable : image.Reachable (Sparing (UnlocksOwn image.layout)) s) : s.Affine := by
  obtain ⟨q, consistent, noImage⟩ := noImage_of_unlocksOwn reachable.spared
  intro p node member
  have ready := consistent.linked_threads (.ready p)
  have blocked := consistent.linked_threads (.blocked p)
  simp only [ThreadQueue.node_ready, ThreadQueue.node_blocked] at ready blocked
  rw [ready, blocked, List.mem_append, List.mem_map, List.mem_map] at member
  rcases member with ⟨t, member, rfl⟩ | ⟨t, member, rfl⟩
  · cases t with
    | image page => exact absurd member (noImage _ page)
    | slot slot => exact ⟨_, rfl, (consistent.fits member).1⟩
  · cases t with
    | image page => exact absurd member (noImage _ page)
    | slot slot => exact ⟨_, rfl, (consistent.fits member).1⟩

/-- A thread is created, waits for the mutex that the first one holds, and is woken. -/
theorem affine_of_unlocksOwn_handover :
    ∃ s, plainImage.Reachable (Sparing (UnlocksOwn plainLayout)) s ∧
      s.linked (.ready 1) = [.thread (.slot 2)] ∧ s.Affine := by
  obtain ⟨s, reachable, ready⟩ := spared_of_checkBoot (UnlocksOwn plainLayout)
    (fun s action => decide (s.UnlocksOwn plainLayout action))
    (fun s => decide (s.linked (.ready 1) = [.thread (.slot 2)]))
    [.mutexInit 3, .pthreadCreate (fun _ => 0) 0x108000 0x100000, .mutexLock 3, .yield,
      .mutexLock 3, .mutexUnlock 3]
    (fun _ _ => of_decide_eq_true) (by decide +kernel)
  exact ⟨s, reachable, of_decide_eq_true ready, affine_of_unlocksOwn plainImage s reachable⟩

/-- Two processes use one mutex: the parent holds it, a thread of the child waits for it, and the
parent unlocks it. -/
def sharedMutex : List Action :=
  [.mutexInit 3, .mutexLock 3, .fork fun _ => 0] ++ List.replicate 20 .tick ++
    [.pthreadCreate (fun _ => 0) 0x108000 0x100000, .mutexLock 3] ++ List.replicate 20 .tick ++
    [.mutexUnlock 3]

/-- The child's thread becomes ready in the parent. -/
theorem not_affine_sharedMutex : ¬∀ layout s, Reachable layout anyStep s → s.Affine := by
  intro affine
  obtain ⟨s, reachable, moved⟩ := reachable_of_checkBoot anyStep (fun _ _ => true)
    (fun s => decide (.thread (.slot 2) ∈ s.linked (.ready 1) ∧
      (s.thread (.slot 2)).p = .slot 2))
    sharedMutex (fun _ _ _ => trivial) (by decide +kernel)
  obtain ⟨member, child⟩ := of_decide_eq_true moved
  obtain ⟨t, node, own⟩ := affine plainLayout s reachable 1 _ (List.mem_append_left _ member)
  obtain rfl := Node.thread.inj node
  rw [child] at own
  exact absurd own (by decide)

end Zeos
