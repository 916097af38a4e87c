import Zeos.Affinity
import Zeos.Countdown
import Zeos.Slots
import Zeos.Switching

/-!
# Quanta

How long the clock leaves a thread or a process running while another one is ready.
-/

namespace Zeos

open IntrusiveList GuardedRun Kernel Countdown

/-- Calls of `schedule`, one after the other, that have found the same thread or process running and
another one ready, and have not switched. -/
structure Streak (α : Type) where
  holder : α
  calls : Nat

namespace Streak

variable {α : Type}

/-- There has been no such call. -/
def start (holder : α) : Streak α where
  holder := holder
  calls := 0

/-- There has been one more such call. -/
def extend [DecidableEq α] (streak : Streak α) (holder : α) : Streak α where
  holder := holder
  calls := (if streak.holder = holder then streak.calls else 0) + 1

theorem extend_same [DecidableEq α] {streak : Streak α} {holder : α}
    (same : streak.holder = holder) : (streak.extend holder).calls = streak.calls + 1 := by
  rw [extend, if_pos same]

end Streak

/-- The clock ticks that find a thread with a ready sibling and do not switch away from it. -/
def recordThread (streak : Streak ThreadPtr) (s : Kernel) (action : Action) (s' : Kernel)
    (_ : Result) : Streak ThreadPtr :=
  match action with
  | .tick =>
      if s.listEmpty (.ready (s.home s.current)) = true ∨ s'.current ≠ s.current
      then .start s'.current else streak.extend s.current
  | _ => streak

/-- The clock ticks that find a thread with a ready sibling and do not switch away from it, since
the thread has been dispatched last. -/
def recordStint (streak : Streak ThreadPtr) (s : Kernel) (action : Action) (s' : Kernel)
    (result : Result) : Streak ThreadPtr :=
  match action, result with
  | .tick, _ => recordThread streak s .tick s' result
  | _, .switches => .start s'.current
  | _, .returns _ => streak

namespace Kernel

/-- A switch leads to the process that is the first one on the ready queue. -/
def SwitchesToFirst (s s' : Kernel) : Prop :=
  ∃ p, s.listFirst .readyqueue = .task p ∧ (s'.thread s'.current).p = .slot p

instance (s s' : Kernel) : Decidable (s.SwitchesToFirst s') :=
  inferInstanceAs (Decidable (∃ _, _ = _ ∧ _ = _))

end Kernel

/-- The clock ticks that find a process running and another one ready and do not switch to the first
ready one.  A process that exits does not come back. -/
def recordProcess (streak : Streak TaskId) (s : Kernel) (action : Action) (s' : Kernel)
    (_ : Result) : Streak TaskId :=
  match action with
  | .tick =>
      if s.listEmpty .readyqueue = true ∨ s.SwitchesToFirst s' then .start (s'.home s'.current)
      else streak.extend (s.home s.current)
  | .exit => .start (s'.home s'.current)
  | _ => streak

namespace Kernel

/-- A thread that has a ready sibling is switched away from within its quantum, and the thread
counter does not pass zero. -/
def BoundsThread (s : Kernel) (streak : Streak ThreadPtr) : Prop :=
  (streak.calls : Int) < (s.thread streak.holder).quantum.toInt ∧
    1 ≤ s.remainingQuantumT.toInt ∧
    s.remainingQuantumT.toInt ≤ (s.thread s.current).quantum.toInt

/-- While another process is ready, the running one is switched away from within its quantum, and
the process counter does not pass zero. -/
def BoundsProcess (s : Kernel) (streak : Streak TaskId) : Prop :=
  (streak.calls : Int) < (s.task streak.holder).totalQuantum.toInt ∧
    1 ≤ s.remainingQuantumP.toInt ∧
    s.remainingQuantumP.toInt ≤ (s.task (s.home s.current)).totalQuantum.toInt

/-- The steps other than calls that concern mutexes. -/
def WithoutMutex : Action → Prop
  | .mutexInit _ | .mutexLock _ | .mutexUnlock _ | .mutexDestroy _ => False
  | _ => True

instance : DecidablePred WithoutMutex
  | .mutexInit _ | .mutexLock _ | .mutexUnlock _ | .mutexDestroy _ => isFalse id
  | .tick | .fork _ | .pthreadCreate _ _ _ | .pthreadJoin _ | .pthreadExit | .yield | .exit
  | .store _ _ | .others _ => isTrue trivial

theorem WithoutMutex.wakesOwn {s : Kernel} {action : Action} (without : WithoutMutex action) :
    s.WakesOwn action := by
  cases action with
  | mutexUnlock => exact without.elim
  | _ => trivial

/-- A clock tick does not let both counters expire when there is a thread to switch to and no
process. -/
def ExpiresApart (s : Kernel) : Action → Prop
  | .tick => s.remainingQuantumP - 1 = 0 → s.remainingQuantumT - 1 = 0 →
      s.listEmpty .readyqueue = true → s.listEmpty (.ready (s.home s.current)) = true
  | _ => True

instance (s : Kernel) : DecidablePred s.ExpiresApart
  | .tick => inferInstanceAs (Decidable (_ → _ → _ → _))
  | .fork _ | .pthreadCreate _ _ _ | .pthreadJoin _ | .pthreadExit | .yield | .exit | .mutexInit _
  | .mutexLock _ | .mutexUnlock _ | .mutexDestroy _ | .store _ _ | .others _ => isTrue trivial

end Kernel

variable {layout : Layout} {s s' : Kernel} {q q' : Queues} {action : Action} {result : Result}

/-! ## What is loaded into the counters -/

/-- A thread keeps its process and its quantum, or gets the quantum of the running one or the
default one. -/
theorem Transition.quantum (transition : Transition layout s q action s' q' result)
    (t : ThreadPtr) :
    ((s'.thread t).p = (s.thread t).p ∧ (s'.thread t).quantum = (s.thread t).quantum) ∨
      (s'.thread t).quantum = (s.thread s.current).quantum ∨
      (s'.thread t).quantum = defaultQuantumT := by
  cases transition with
  | refused | stored | others | ticked | initialised | locked | unlockedFree =>
      exact .inl ⟨rfl, rfl⟩
  | tickedThread | tickedProcess | joined | yielded | waited | lost | ended | exited | unlocked
  | unlockedNobody | destroyed =>
      left
      simp only [thread_resume, thread_suspend, thread_setThread, thread_setState,
        thread_setMutex, thread_resumeProcess, saveEsp, readyJoiners, clearTids, releaseStates,
        Function.update_apply]
      constructor <;> split_ifs <;> simp_all
  | @forked _ child _ u | @forkFailed _ child _ u =>
      by_cases taken : t = .slot u
      · exact .inr (.inl (by simp [taken, childThread, allocateDIR]))
      · exact .inl (by simp [taken, allocateDIR])
  | @created _ _ _ u =>
      by_cases taken : t = .slot u
      · exact .inr (.inr (by simp [taken, newThread]))
      · exact .inl (by simp [taken])

/-- A process keeps its quantum or gets the default one, and does so when it is not free any more.
-/
theorem Transition.totalQuantum (transition : Transition layout s q action s' q' result)
    (consistent : Consistent s q) (p : TaskId) :
    (s'.task p).totalQuantum = defaultQuantumP ∨
      (s'.task p).totalQuantum = (s.task p).totalQuantum ∧
        (p ∈ q.processes .free → p ∈ q'.processes .free) := by
  have stays : s'.globalPID ≠ s.globalPID + 1 →
      (p ∈ q.processes .free → p ∈ q'.processes .free) := fun unnumbered free =>
    (transition.free_stays consistent free).resolve_right fun numbered => unnumbered numbered.1
  have counts : s.globalPID ≠ s.globalPID + 1 := by
    intro same
    simp at same
  cases transition with
  | @forked _ child =>
      by_cases taken : p = child
      · exact .inl (by simp [taken, childTask])
      · refine .inr ⟨by simp [taken], fun free => ?_⟩
        simpa [taken] using consistent.processes.mem_remove.mpr ⟨taken, free⟩
  | refused | stored | others | ticked | initialised | locked | unlockedFree | tickedThread | joined
  | yielded
  | waited | lost | ended | unlocked | unlockedNobody | destroyed =>
      exact .inr ⟨rfl, stays counts⟩
  | created | tickedProcess | exited | forkFailed =>
      refine .inr ⟨?_, stays counts⟩
      simp only [task_resume, task_resumeProcess, task_setTask, task_suspend, task_saveEsp,
        task_clearTids, task_setThread, allocateDIR, Function.update_apply]
      split_ifs <;> simp_all

theorem Consistent.home_current (consistent : Consistent s q) : s.home s.current = s.cr3 := by
  rw [home, consistent.process]

theorem Consistent.siblings_eq (consistent : Consistent s q) :
    s.listEmpty (.ready (s.home s.current)) = (q.threads (.ready s.cr3)).isEmpty := by
  rw [consistent.home_current]
  exact consistent.represents.empty_threads (.ready s.cr3) trivial

/-! ## Threads -/

/-- The threads of processes have the default quantum, and the thread counter has been decremented
by the calls that the history counts. -/
structure Stint (s : Kernel) (streak : Streak ThreadPtr) : Prop where
  holder : streak.holder = s.current
  quanta : ∀ {t p}, (s.thread t).p = .slot p → (s.thread t).quantum = defaultQuantumT
  counts : Counts defaultQuantumT.toNat streak.calls s.remainingQuantumT

namespace Stint

variable {streak : Streak ThreadPtr}

theorem booted (layout : Layout) (heap : Heap Node) :
    Stint (Kernel.booted layout heap) (.start (.slot 1)) where
  holder := rfl
  quanta {t p} process := by
    by_cases own : t = .slot 1
    · subst own
      rfl
    · have nobody : ((zeroed layout).thread t).p ≠ .slot p := by cases t <;> simp [zeroed]
      simp only [Kernel.booted, if_neg own] at process
      split_ifs at process
      · exact absurd process nobody
      · exact absurd process nobody
  counts := Counts.load (by decide)

/-- A thread that has been dispatched begins with its full quantum. -/
theorem dispatched (consistent : Consistent s q)
    (quanta : ∀ {t p}, (s.thread t).p = .slot p → (s.thread t).quantum = defaultQuantumT)
    (loaded : s.remainingQuantumT = (s.thread s.current).quantum) :
    Stint s (.start s.current) where
  holder := rfl
  quanta := quanta
  counts := by
    rw [loaded, quanta consistent.process]
    exact Counts.load (by decide)

/-- A step that neither switches nor is a clock tick. -/
theorem idle (stint : Stint s streak)
    (quanta : ∀ {t p}, (s'.thread t).p = .slot p → (s'.thread t).quantum = defaultQuantumT)
    (current : s'.current = s.current) (kept : s'.remainingQuantumT = s.remainingQuantumT) :
    Stint s' streak where
  holder := stint.holder.trans current.symm
  quanta := quanta
  counts := kept ▸ stint.counts

/-- A clock tick that does not switch. -/
theorem ticked (stint : Stint s streak) (consistent : Consistent s q)
    (noThread : ¬(s.remainingQuantumT - 1 = 0 ∧ q.threads (.ready s.cr3) ≠ [])) (p : TaskId) :
    let s' := (s.enter layout .clock).updateSchedDataRr.reloadQuanta p
    Stint s' (recordStint streak s .tick s' .switches) := by
  intro s'
  have reloaded : s'.remainingQuantumT = if s.remainingQuantumT - 1 = 0
      then (s.thread s.current).quantum else s.remainingQuantumT - 1 := rfl
  have record : recordStint streak s .tick s' .switches =
      if s.listEmpty (.ready (s.home s.current)) = true then .start s.current
      else streak.extend s.current := by
    simp only [recordStint, recordThread]
    exact if_congr (by simp [s', reloadQuanta]) rfl rfl
  rw [record]
  by_cases alone : s.listEmpty (.ready (s.home s.current)) = true
  · rw [if_pos alone]
    refine ⟨rfl, stint.quanta, ?_⟩
    rw [reloaded]
    split_ifs with expired
    · rw [stint.quanta consistent.process]
      exact Counts.load (by decide)
    · exact (stint.counts.call expired).restart
  · rw [if_neg alone]
    have siblings : q.threads (.ready s.cr3) ≠ [] := by
      rwa [consistent.siblings_eq, List.isEmpty_iff] at alone
    have more : s.remainingQuantumT - 1 ≠ 0 := fun expired => noThread ⟨expired, siblings⟩
    refine ⟨rfl, stint.quanta, ?_⟩
    rw [reloaded, if_neg more, Streak.extend_same stint.holder]
    exact stint.counts.call more

theorem recordStint_returns {value : Int}
    (performed : s.perform layout action = .ok (s', .returns value)) :
    recordStint streak s action s' (.returns value) = streak := by
  cases action with
  | tick => exact absurd (tick_switches layout s _ performed) (by simp)
  | _ => rfl

/-- A clock tick that switches to another thread. -/
theorem recordStint_tick (other : s'.current ≠ s.current) :
    recordStint streak s .tick s' result = .start s'.current := by
  simp only [recordStint, recordThread]
  exact if_pos (.inr other)

theorem step (stint : Stint s streak) (consistent : Consistent s q) (consistent' : Consistent s' q')
    (performed : s.perform layout action = .ok (s', result))
    (transition : Transition layout s q action s' q' result) :
    Stint s' (recordStint streak s action s' result) := by
  have quanta : ∀ {t p}, (s'.thread t).p = .slot p → (s'.thread t).quantum = defaultQuantumT := by
    intro t p process
    rcases transition.quantum t with ⟨own, kept⟩ | running | fresh
    · exact kept.trans (stint.quanta (own.symm.trans process))
    · exact running.trans (stint.quanta consistent.process)
    · exact fresh
  have other : ∀ {p t rest}, q.threads (.ready p) = .slot t :: rest → .slot t ≠ s.current := by
    intro p t rest first
    have member : .slot t ∈ q.threads (.ready p) := by simp [first]
    exact (consistent.ne_of_mem member).symm
  cases transition with
  | ticked noProcess noThread => exact stint.ticked consistent noThread s.cr3
  | tickedThread noProcess expired first =>
      rw [recordStint_tick (other first)]
      exact dispatched consistent' quanta (by simp [resume])
  | tickedProcess expired firstProcess first =>
      rw [recordStint_tick (other first)]
      exact dispatched consistent' quanta (by simp [resume])
  | joined | ended | exited | yielded | waited | lost =>
      exact dispatched consistent' quanta (by simp [resume])
  | refused | stored | others | initialised | locked | unlockedFree | unlocked | unlockedNobody
  | destroyed | forked | forkFailed | created =>
      rw [recordStint_returns performed]
      exact stint.idle quanta rfl rfl

/-- The bounds that the counter keeps. -/
theorem bounds (stint : Stint s streak) (consistent : Consistent s q) : s.BoundsThread streak := by
  have total := stint.quanta consistent.process
  have signed : defaultQuantumT.toInt = defaultQuantumT.toNat := by decide
  rw [BoundsThread, stint.holder, total, signed]
  have range := stint.counts.toInt (by decide)
  have few := stint.counts.lt
  exact ⟨by exact_mod_cast few, range.1, range.2⟩

end Stint

/-- In every run from boot of clock ticks and calls that do not concern mutexes in which the frames
of the kernel are spared, a thread with a ready sibling is switched away from within its quantum of
clock ticks since its dispatch, and the thread counter stays between one and the quantum of the
running thread. -/
theorem boundsThread_of_withoutMutex (image : Image) (s : Kernel) (streak : Streak ThreadPtr)
    (reachable : image.ReachableWith recordStint (.start (.slot 1))
      (SparingWith fun _ action => WithoutMutex action) (s, streak)) : s.BoundsThread streak := by
  obtain ⟨q, consistent, stint⟩ := reachable.spared.induct (fun s _ streak => Stint s streak)
    (fun heap _ => Stint.booted image.layout heap) (fun _ _ without => without.wakesOwn)
    fun consistent stint _ consistent' performed transition =>
      stint.step consistent consistent' performed transition
  exact stint.bounds consistent

/-- A thread with a sibling runs through half of its quantum. -/
theorem boundsThread_of_withoutMutex_sibling :
    ∃ s streak, plainImage.ReachableWith recordStint (.start (.slot 1))
        (SparingWith fun _ action => WithoutMutex action) (s, streak) ∧
      streak.calls = 5 ∧ s.BoundsThread streak := by
  obtain ⟨⟨s, streak⟩, reachable, calls⟩ := sparedWith_of_checkBoot recordStint
    (.start (.slot 1)) (fun _ action => WithoutMutex action)
    (fun _ action => decide (WithoutMutex action)) (fun state => decide (state.2.calls = 5))
    ([.pthreadCreate (fun _ => 0) 0x108000 0x100000] ++ List.replicate 5 .tick)
    (fun _ _ => of_decide_eq_true) (by decide +kernel)
  exact ⟨s, streak, reachable, of_decide_eq_true calls,
    boundsThread_of_withoutMutex plainImage s streak reachable⟩

/-- A thread yields one tick before its quantum expires, its sibling yields back, and the thread
has a full quantum again. -/
theorem not_boundsThread_yields :
    ¬∀ layout s streak, ReachableWith layout recordThread (.start (.slot 1))
      (fun _ action => WithoutMutex action) (s, streak) → s.BoundsThread streak := by
  intro bounds
  obtain ⟨⟨s, streak⟩, reachable, exceeds⟩ := reachableWith_of_checkBoot recordThread
    (.start (.slot 1)) (fun _ action => WithoutMutex action)
    (fun _ action => decide (WithoutMutex action))
    (fun state => decide ((state.1.thread state.2.holder).quantum.toInt ≤ state.2.calls))
    ([.pthreadCreate (fun _ => 0) 0x108000 0x100000] ++ List.replicate 9 .tick ++
      [.yield, .yield, .tick])
    (fun _ _ => of_decide_eq_true) (by decide +kernel)
  have within := (bounds plainLayout s streak reachable).1
  exact absurd (of_decide_eq_true exceeds) (not_le.mpr within)

/-! ## Processes -/

/-- The processes in use have the default quantum, and the process counter has been decremented by
the calls that the history counts. -/
structure Tenure (s : Kernel) (q : Queues) (streak : Streak TaskId) : Prop where
  holder : streak.holder = s.cr3
  quanta : ∀ {p}, p ∉ q.processes .free → (s.task p).totalQuantum = defaultQuantumP
  counts : Counts defaultQuantumP.toNat streak.calls s.remainingQuantumP

namespace Tenure

variable {streak : Streak TaskId}

theorem booted (layout : Layout) (heap : Heap Node) :
    Tenure (Kernel.booted layout heap) bootQueues (.start 1) where
  holder := rfl
  quanta {p} busy := by
    rw [Coherent.mem_free_bootQueues, not_and_or, not_not, not_not] at busy
    rcases busy with rfl | rfl
    · rfl
    · rfl
  counts := Counts.load (by decide)

theorem recordProcess_returns {value : Int}
    (performed : s.perform layout action = .ok (s', .returns value)) :
    recordProcess streak s action s' (.returns value) = streak := by
  cases action with
  | tick => exact absurd (tick_switches layout s _ performed) (by simp)
  | exit => exact absurd (exit_switches layout s _ performed) (by simp)
  | _ => rfl

/-- A clock tick that switches to the first ready process. -/
theorem recordProcess_first (switches : s.SwitchesToFirst s') :
    recordProcess streak s .tick s' result = .start (s'.home s'.current) :=
  if_pos (.inr switches)

/-- A process that has been dispatched begins with its full quantum. -/
theorem dispatched (consistent : Consistent s q)
    (quanta : ∀ {p}, p ∉ q.processes .free → (s.task p).totalQuantum = defaultQuantumP)
    (loaded : s.remainingQuantumP = defaultQuantumP) :
    Tenure s q (.start (s.home s.current)) where
  holder := consistent.home_current
  quanta := quanta
  counts := by
    rw [loaded]
    exact Counts.load (by decide)

/-- A step that is neither a clock tick nor an `exit`. -/
theorem idle (tenure : Tenure s q streak)
    (quanta : ∀ {p}, p ∉ q'.processes .free → (s'.task p).totalQuantum = defaultQuantumP)
    (cr3 : s'.cr3 = s.cr3) (kept : s'.remainingQuantumP = s.remainingQuantumP) :
    Tenure s' q' streak where
  holder := tenure.holder.trans cr3.symm
  quanta := quanta
  counts := kept ▸ tenure.counts

/-- A clock tick that does not switch to another process: the process counter is only loaded when no
other one is ready. -/
theorem ticked (tenure : Tenure s q streak) (consistent : Consistent s q)
    (consistent' : Consistent s' q')
    (quanta : ∀ {p}, p ∉ q'.processes .free → (s'.task p).totalQuantum = defaultQuantumP)
    (cr3 : s'.cr3 = s.cr3)
    (counter : s.remainingQuantumP - 1 ≠ 0 ∧ s'.remainingQuantumP = s.remainingQuantumP - 1 ∨
      s.listEmpty .readyqueue = true ∧ s'.remainingQuantumP = defaultQuantumP) :
    Tenure s' q' (recordProcess streak s .tick s' result) := by
  have restarted : Tenure s' q' (.start (s'.home s'.current)) := by
    refine ⟨consistent'.home_current, quanta, ?_⟩
    rcases counter with ⟨more, decremented⟩ | ⟨_, loaded⟩
    · exact decremented ▸ (tenure.counts.call more).restart
    · rw [loaded]
      exact Counts.load (by decide)
  rw [recordProcess]
  split_ifs with restart
  · exact restarted
  · obtain ⟨more, decremented⟩ := counter.resolve_right fun alone => restart (.inl alone.1)
    have same : streak.holder = s.home s.current := tenure.holder.trans consistent.home_current.symm
    refine ⟨consistent.home_current.trans cr3.symm, quanta, ?_⟩
    rw [decremented, Streak.extend_same same]
    exact tenure.counts.call more

theorem step (tenure : Tenure s q streak) (consistent : Consistent s q)
    (consistent' : Consistent s' q') (apart : s.ExpiresApart action)
    (performed : s.perform layout action = .ok (s', result))
    (transition : Transition layout s q action s' q' result) :
    Tenure s' q' (recordProcess streak s action s' result) := by
  have quanta : ∀ {p}, p ∉ q'.processes .free → (s'.task p).totalQuantum = defaultQuantumP := by
    intro p busy
    rcases transition.totalQuantum consistent p with fresh | ⟨kept, stays⟩
    · exact fresh
    · exact kept.trans (tenure.quanta fun free => busy (stays free))
  have own := tenure.quanta (consistent.processAbsent .free)
  have empty_eq := consistent.represents.empty_processes .ready
  rw [ProcessQueue.node_ready] at empty_eq
  have alone : ¬(s.remainingQuantumP - 1 = 0 ∧ q.processes .ready ≠ []) →
      s.remainingQuantumP - 1 = 0 → s.listEmpty .readyqueue = true := by
    intro noProcess expired
    rw [empty_eq, List.isEmpty_iff]
    exact not_not.mp fun waits => noProcess ⟨expired, waits⟩
  have other : ∀ {p processes}, q.processes .ready = p :: processes → p ≠ s.cr3 := by
    intro p processes first
    have ready : p ∈ q.processes .ready := by simp [first]
    exact (consistent.cr3_ne_of_mem ready).symm
  have waiting : ∀ {p processes}, q.processes .ready = p :: processes →
      (s.task p).totalQuantum = defaultQuantumP := by
    intro p processes first
    have ready : p ∈ q.processes .ready := by simp [first]
    exact tenure.quanta fun free => absurd (consistent.processes.unique free ready) (by simp)
  cases transition with
  | ticked noProcess noThread =>
      refine tenure.ticked consistent consistent' quanta rfl ?_
      by_cases expired : s.remainingQuantumP - 1 = 0
      · exact .inr ⟨alone noProcess expired, (if_pos expired).trans own⟩
      · exact .inl ⟨expired, if_neg expired⟩
  | tickedThread noProcess expiredT first =>
      refine tenure.ticked consistent consistent' quanta rfl (.inl ⟨fun expired => ?_, rfl⟩)
      have unready := apart expired expiredT (alone noProcess expired)
      rw [consistent.siblings_eq, first] at unready
      exact absurd unready (by simp)
  | @tickedProcess p processes t rest heap expired firstProcess first =>
      have node : s.listFirst .readyqueue = .task p := by
        rw [← ProcessQueue.node_ready, consistent.represents.first_processes, firstProcess]
        rfl
      rw [recordProcess_first ⟨p, node, consistent'.process⟩]
      refine dispatched consistent' quanta ?_
      show (Function.update s.task s.cr3 { s.task s.cr3 with state := .stReady } p).totalQuantum = _
      rw [Function.update_of_ne (other firstProcess)]
      exact waiting firstProcess
  | @exited p processes t rest heap mem firstProcess first =>
      refine dispatched consistent' quanta ?_
      show (Function.update s.task s.cr3 { s.task s.cr3 with pid := -1 } p).totalQuantum = _
      rw [Function.update_of_ne (other firstProcess)]
      exact waiting firstProcess
  | joined | ended | yielded | waited | lost => exact tenure.idle quanta rfl rfl
  | refused | stored | others | initialised | locked | unlockedFree | unlocked | unlockedNobody
  | destroyed | forked | forkFailed | created =>
      rw [recordProcess_returns performed]
      exact tenure.idle quanta rfl rfl

/-- The bounds that the counter keeps. -/
theorem bounds (tenure : Tenure s q streak) (consistent : Consistent s q) :
    s.BoundsProcess streak := by
  have total := tenure.quanta (consistent.processAbsent .free)
  have signed : defaultQuantumP.toInt = defaultQuantumP.toNat := by decide
  rw [BoundsProcess, tenure.holder, consistent.home_current, total, signed]
  have range := tenure.counts.toInt (by decide)
  have few := tenure.counts.lt
  exact ⟨by exact_mod_cast few, range.1, range.2⟩

end Tenure

end Zeos
