import Zeos.Scheduling

/-!
# Steps are transitions

From a consistent state every step faults or is one of the transitions.
-/

namespace Zeos

open IntrusiveList GuardedRun Kernel

variable {layout : Layout} {s s' : Kernel} {q q' : Queues} {action : Action} {p : TaskId}
  {t : ThreadPtr}

namespace Consistent

/-! ## The calls that switch to another thread -/

theorem outcome_join (consistent : Consistent s q) (id : Word) :
    Outcome layout s q (.pthreadJoin id) (s.perform layout (.pthreadJoin id)) := by
  have entered := consistent.enter layout .pthreadJoin
  rw [perform, sysPthreadJoin, currentP_eq entered.process, ok_bind]
  split
  · exact ⟨q, .refused (by decide), consistent.represents⟩
  · rename_i several
    refine outcome_bind (Memory.loadWord_raises _ _ _) fun tid loaded => ?_
    have stays : ((q.pushThread (.blocked s.cr3) s.current).threads (.ready s.cr3)) =
        q.threads (.ready s.cr3) := by simp
    have many : 2 ≤ (s.task s.cr3).nthread.toNat := Nat.le_of_not_lt several
    refine (entered.setBlockedBy tid).scheduled.outcome_block (.blocked s.cr3) trivial (by simp)
      (if_neg (by simp)) ?_ ?_
    · exact fun empty => ⟨many, stays ▸ empty⟩
    · intro slot rest heap first
      exact .joined many loaded (stays ▸ first)

/-- The running thread is added to a mutex head that is still zero. -/
theorem outcome_lost (consistent : Consistent s q) {n : Int} {m : MutexId}
    (accepted : mutexIndex n = some m) (usable : 0 ≤ (s.mutexVector m).owner.toInt)
    (taken : (s.mutexVector m).locked ≠ 0) {last : Option ThreadSlot}
    (unlisted : q.head m = .unlisted last) :
    Outcome layout s q (.mutexLock n)
      (((s.enter layout .mutexLock).setState s.current .stBlocked).listAddTail
        (.thread s.current) (.mutex m) >>= fun s => s.schedNextThreadRr layout >>= fun s =>
          pure (s, .switches)) := by
  have entered := consistent.enter layout .mutexLock
  obtain ⟨c, current⟩ := consistent.slot
  have out := consistent.absent
  rw [current] at out ⊢
  rcases Represents.pushUnlisted (s := (s.enter layout .mutexLock).setState (.slot c) .stBlocked)
    consistent.represents unlisted out with failed | ⟨heap, pushed, represents⟩
  · rw [failed]
    exact outcome_error (.inl rfl)
  · rw [pushed, ok_bind]
    have process : (({ s.enter layout .mutexLock with heap }.setState (.slot c) .stBlocked).thread
        s.current).p = .slot s.cr3 := by
      simpa [current] using consistent.process
    cases first : q.threads (.ready s.cr3) with
    | nil =>
        have starved := schedNextThreadRr_nil
          (q := { q with head := Function.update q.head m (.unlisted (some c)) }) layout
          represents process first
        exact starved ▸ fun _ _ => ⟨m, accepted, usable, taken, first⟩
    | cons t rest =>
        have waits : ({ s.enter layout .mutexLock with heap }.setState (.slot c)
            .stBlocked).Waits s.cr3 t := by
          rw [← current]
          exact entered.scheduled.waits_stopped (by simp) (.inl (by simp [first]))
        refine outcome_dispatched (schedNextThreadRr_cons
          (q := { q with head := Function.update q.head m (.unlisted (some c)) }) layout
          represents process consistent.ownDirectory first waits) ?_
        rintro slot heap rfl
        have left : (s.enter layout .mutexLock).suspend .stBlocked =
            ((s.enter layout .mutexLock).setState (.slot c) .stBlocked).saveEsp := by
          rw [suspend, current_enter, current]
        have result : Transition layout s q (.mutexLock n)
            { ((s.enter layout .mutexLock).suspend .stBlocked).resume s.cr3 (.slot slot) with heap }
            ({ q with head := Function.update q.head m (.unlisted (some c)) }.removeThread
              (.slot slot)) .switches := .lost accepted usable taken unlisted current first
        rw [left] at result
        exact result

theorem outcome_lock (consistent : Consistent s q) (n : Int) :
    Outcome layout s q (.mutexLock n) (s.perform layout (.mutexLock n)) := by
  have entered := consistent.enter layout .mutexLock
  rw [perform, sysMutexLock]
  cases accepted : mutexIndex n with
  | none => exact ⟨q, .refused (by decide), consistent.represents⟩
  | some m =>
      dsimp only
      split
      · exact ⟨q, .refused (by decide), consistent.represents⟩
      · rename_i owned
        have usable : 0 ≤ (s.mutexVector m).owner.toInt := Int.not_lt.mp owned
        split
        · rename_i taken
          cases head : q.head m with
          | listed =>
              obtain ⟨heap, pushed, represents⟩ := Represents.pushThread
                (s := (s.enter layout .mutexLock).setState s.current .stBlocked)
                consistent.represents (.mutex m) head consistent.absent
                fun _ _ => consistent.last
              have stays : (q.pushThread (.mutex m) s.current).threads (.ready s.cr3) =
                  q.threads (.ready s.cr3) := by simp
              refine outcome_bind (s := s) ?_ ?_
              · exact pushed ▸ .ok _
              · rintro value equal
                obtain rfl := Except.ok.inj (pushed.symm.trans equal)
                refine entered.scheduled.outcome_next (.mutex m) (by simp) represents ?_ ?_
                · exact fun empty => ⟨m, accepted, usable, taken, stays ▸ empty⟩
                · intro slot rest heap first
                  exact .waited accepted usable taken head (stays ▸ first)
          | unlisted last =>
              exact outcome_lost consistent accepted usable taken head
        · rename_i free
          exact ⟨q, .locked accepted usable (not_not.mp free), consistent.represents⟩

/-- A blocked thread could run next. -/
theorem waits_blocked (consistent : Consistent s q) (member : t ∈ q.threads (.blocked s.cr3)) :
    s.Waits s.cr3 t := by
  cases t with
  | image page =>
      rcases (consistent.image member).2 with equal | ⟨_, equal⟩
      · exact absurd equal (by simp)
      · exact absurd equal (by simp)
  | slot slot =>
      obtain ⟨process, stopped, index, saved⟩ := consistent.fits member
      exact ⟨stopped, .inr ⟨process, .inr ⟨index, saved⟩⟩, by simp⟩

theorem outcome_pthreadExit (consistent : Consistent s q) :
    Outcome layout s q .pthreadExit (s.perform layout .pthreadExit) := by
  have entered := consistent.enter layout .pthreadExit
  obtain ⟨heap, pushed, represents⟩ := entered.represents.pushThread .free trivial entered.absent
    fun _ _ => entered.last
  have same : (q.pushThread .free s.current).threads (.blocked s.cr3) =
      q.threads (.blocked s.cr3) := by simp
  obtain ⟨heap', woken, represents'⟩ :=
    wakeJoiners_eq (s := { s.enter layout .pthreadExit with heap })
    layout represents consistent.process
    (fun t member => (consistent.waits_blocked (same ▸ member)).1)
    (fun member => consistent.absent _ (same ▸ member))
  simp only [ThreadQueue.node_free] at pushed
  rw [perform, sysPthreadExit, pushed, ok_bind]
  rw [show Kernel.currentP { s.enter layout .pthreadExit with heap } = .ok s.cr3 from
    currentP_eq consistent.process, ok_bind]
  rw [woken, ok_bind]
  have marked : ∀ t, (((s.enter layout .pthreadExit).readyJoiners
      (q.threads (.blocked s.cr3))).thread t).p = (s.thread t).p := by
    intro t
    simp only [Kernel.readyJoiners]
    split <;> rfl
  rw [current_enter, same]
  cases first : ((q.pushThread .free s.current).wakeFirst s.cr3 s.Joins).threads
      (.ready s.cr3) with
  | nil =>
      have starved := schedNextThreadRr_nil (s := { (s.enter layout .pthreadExit).readyJoiners
        (q.threads (.blocked s.cr3)) with heap := heap' }) layout represents'
        ((marked s.current).trans consistent.process) first
      exact starved ▸ fun _ _ => first
  | cons t rest =>
      have member : t ∈ ((q.pushThread .free s.current).wakeFirst s.cr3 s.Joins).threads
          (.ready s.cr3) := by simp [first]
      have waits : s.Waits s.cr3 t := by
        rcases Transition.mem_ready_wakeFirst member with ready | blocked
        · exact consistent.waits (by simpa using ready)
        · exact consistent.waits_blocked (by simpa using blocked)
      have waits' : Kernel.Waits { (s.enter layout .pthreadExit).readyJoiners
          (q.threads (.blocked s.cr3)) with heap := heap' } s.cr3 t := by
        refine waits.of_eq ?_ (marked t) ?_
        · simp only [Kernel.readyJoiners]
          split
          · simp
          · exact id
        · simp only [Kernel.readyJoiners]
          split <;> rfl
      refine outcome_dispatched (schedNextThreadRr_cons layout represents'
        ((marked s.current).trans consistent.process) consistent.ownDirectory first waits') ?_
      rintro slot heap rfl
      exact .ended first

/-! ## The end of a process -/

/-- From the entry of the process into the free queue on. -/
theorem outcome_endProcess {s₁ : Kernel} (consistent : Consistent s₁ q)
    (transition : ∀ p processes slot rest heap, q.processes .ready = p :: processes →
      q.threads (.ready p) = .slot slot :: rest → Transition layout s q action
        { (((s₁.setTask s₁.cr3 fun c => { c with pid := -1 }).clearTids
            (q.threads (.ready s₁.cr3) ++ q.threads (.blocked s₁.cr3))).saveEsp |>.resumeProcess
              p).resume p (.slot slot) with heap }
        (((((q.pushProcess .free s₁.cr3).drainThreads (.ready s₁.cr3)).drainThreads
          (.blocked s₁.cr3)).removeProcess p).removeThread (.slot slot)) .switches) :
    Outcome layout s q action (do
      let s ← s₁.listAddTail (.task s₁.cr3) .freequeue
      let s ← freeThreadsOf layout (.ready s₁.cr3) listFuel
        (s.setTask s₁.cr3 fun c => { c with pid := -1 })
      let s ← freeThreadsOf layout (.blocked s₁.cr3) listFuel s
      let s ← s.schedNextProcessRr layout
      return (s, .switches)) := by
  obtain ⟨heap₁, pushed, represents₁⟩ := consistent.represents.pushProcess .free
    consistent.processAbsent
  obtain ⟨heap₂, freed, represents₂⟩ := freeThreadsOf_both
    (s := { s₁ with heap := heap₁ }.setTask s₁.cr3 fun c => { c with pid := -1 })
    (q := q.pushProcess .free s₁.cr3) layout represents₁ s₁.cr3
  simp only [ProcessQueue.node_free] at pushed
  rw [pushed, ok_bind, ← bind_assoc, freed, ok_bind]
  generalize ended : (q.pushProcess .free s₁.cr3).threads (.ready s₁.cr3) ++
    (q.pushProcess .free s₁.cr3).threads (.blocked s₁.cr3) = threads
  have same : ∀ t, ((s₁.clearTids threads).thread t).p = (s₁.thread t).p ∧
      ((s₁.clearTids threads).thread t).state = (s₁.thread t).state ∧
      ((s₁.clearTids threads).thread t).registerEsp = (s₁.thread t).registerEsp := by
    intro t
    simp only [clearTids]
    split <;> exact ⟨rfl, rfl, rfl⟩
  generalize cleared : ({ ({ s₁ with heap := heap₁ }.setTask s₁.cr3 fun c =>
    { c with pid := -1 }).clearTids threads with heap := heap₂ } : Kernel) = s₂
  have thread_eq : s₂.thread = (s₁.clearTids threads).thread := cleared ▸ rfl
  have heap_eq : s₂.heap = heap₂ := cleared ▸ rfl
  have idle_eq : s₂.idleTask = s₁.idleTask := cleared ▸ rfl
  rw [← heap_eq] at represents₂
  cases firstProcess : q.processes .ready with
  | nil =>
      obtain ⟨idle, found, null, _⟩ := consistent.idle
      obtain ⟨fault, failed, memory⟩ := schedNextProcessRr_nil (s := s₂) layout
        represents₂ (by simpa using firstProcess) (idle_eq.trans found)
        (by rw [thread_eq, (same _).1, null])
      exact failed ▸ outcome_error memory
  | cons p processes =>
      have ready : p ∈ q.processes .ready := by simp [firstProcess]
      have different := consistent.cr3_ne_of_mem ready
      obtain ⟨_, directory, slot, waiting⟩ := consistent.readyProcess p ready
      have kept : (((q.pushProcess .free s₁.cr3).drainThreads (.ready s₁.cr3)).drainThreads
          (.blocked s₁.cr3)).threads (.ready p) = q.threads (.ready p) := by
        rw [Queues.threads_drainThreads, Lanes.drain_other (by simp) (by simp),
          Queues.threads_drainThreads, Lanes.drain_other (by simp [Ne.symm different]) (by simp)]
        rfl
      cases first : q.threads (.ready p) with
      | nil => exact absurd (first ▸ waiting) List.not_mem_nil
      | cons t rest =>
          have waits : s₁.Waits p t := consistent.waits (by simp [first])
          have directory' : (s₂.task p).dirPagesBaseAddr = some p := by
            rw [← cleared]
            simpa [clearTids, Ne.symm different] using directory
          rcases schedNextProcessRr_cons (s := s₂) layout represents₂
            (by simpa using firstProcess) (kept.trans first) directory'
            (waits.of_eq (by rw [thread_eq, (same t).2.1]; exact id)
              (by rw [thread_eq, (same t).1]) (by rw [thread_eq, (same t).2.2])) with
            ⟨fault, failed, memory⟩ | ⟨slot, heap, rfl, switched, represents⟩
          · exact failed ▸ outcome_error memory
          · rw [switched]
            subst cleared ended
            exact ⟨_, transition p processes slot rest heap firstProcess first, represents⟩

theorem outcome_exit (consistent : Consistent s q) :
    Outcome layout s q .exit (s.perform layout .exit) := by
  have entered := consistent.enter layout .exit
  rw [perform, sysExit, currentP_eq entered.process, ok_bind]
  refine outcome_bind (getPT_raises _ _) fun row _ => ?_
  generalize (s.enter layout .exit).mem.releaseDataPages row numPagData = mem
  have released : Consistent { s.enter layout .exit with mem } q :=
    entered.of_eq rfl rfl rfl rfl rfl rfl
  exact released.outcome_endProcess fun p processes slot rest heap firstProcess first =>
    .exited firstProcess first

end Consistent

end Zeos
