import Zeos.Affinity
import Zeos.Switching
import Zeos.Rotation

/-!
# Round robin

The processes take turns, and so do the threads of each process.
-/

namespace Zeos

open IntrusiveList GuardedRun Kernel Rotation

variable {layout : Layout} {s s' : Kernel} {q q' : Queues} {action : Action} {result : Result}
  {p : TaskId} {t : ThreadPtr} {u : ThreadSlot}

/-! ## What the scheduler keeps -/

namespace Scheduled

theorem separate_pushed (scheduled : Scheduled s q) :
    (q.threads.push (.ready s.cr3) s.current).Separate :=
  scheduled.represents.separate_threads.push scheduled.absent

theorem separate_pushedProcess (scheduled : Scheduled s q) :
    (q.processes.push .ready s.cr3).Separate :=
  scheduled.represents.separate_processes.push scheduled.processAbsent

/-- The threads that are ready once the running one has joined its ready list. -/
theorem waits_pushed (scheduled : Scheduled s q)
    (member : t ∈ (q.pushThread (.ready s.cr3) s.current).threads (.ready p)) :
    (s.suspend .stReady).Waits p t := by
  obtain ⟨slot, current⟩ := scheduled.slot
  rcases Lanes.mem_push.mp member with before | ⟨own, rfl⟩
  · have other := scheduled.ne_of_mem before
    exact (scheduled.waits before).of_eq (by simp [Ne.symm other]) (by simp [Ne.symm other])
      (by simp [Ne.symm other])
  · obtain rfl : p = s.cr3 := by simpa using own
    refine ⟨by simp, .inr ⟨by simpa using scheduled.process, .inr ⟨s.ebp, by simp⟩⟩, ?_⟩
    intro page image
    exact absurd (current.symm.trans image) (by simp)

theorem owns_pushed (scheduled : Scheduled s q)
    (member : .slot u ∈ (q.pushThread (.ready s.cr3) s.current).threads (.ready p)) :
    (s.thread (.slot u)).p = .slot p := by
  rcases Lanes.mem_push.mp member with before | ⟨own, same⟩
  · exact scheduled.owns before
  · rw [same, ThreadQueue.ready.inj own]
    exact scheduled.process

/-- The running thread makes room for the first ready one of its process. -/
theorem nextThread (scheduled : Scheduled s q) {rest : List ThreadPtr} {heap : Heap Node}
    (first : q.threads (.ready s.cr3) ++ [s.current] = .slot u :: rest)
    (represents : Represents heap
      ((q.pushThread (.ready s.cr3) s.current).removeThread (.slot u))) :
    Scheduled { (s.suspend .stReady).resume s.cr3 (.slot u) with heap }
      ((q.pushThread (.ready s.cr3) s.current).removeThread (.slot u)) := by
  have separate := scheduled.separate_pushed
  have pushed : ∀ {p t}, t ∈ q.threads (.ready p) →
      t ∈ (q.pushThread (.ready s.cr3) s.current).threads (.ready p) :=
    fun member => Lanes.mem_push.mpr (.inl member)
  have chosen : .slot u ∈ (q.pushThread (.ready s.cr3) s.current).threads (.ready s.cr3) := by
    simp [first]
  have owns := scheduled.owns_pushed chosen
  have process : ∀ t, ((s.suspend .stReady).thread t).p = (s.thread t).p := by
    intro t
    rw [thread_suspend, Function.update_apply]
    split_ifs with own
    · rw [own]
    · rfl
  constructor
  case represents => exact represents
  case waits =>
    intro p t member
    obtain ⟨other, before⟩ := separate.mem_remove.mp member
    exact (scheduled.waits_pushed before).of_eq (by simp [other]) (by simp [other])
      (by simp [other])
  case owns =>
    intro p slot member
    obtain ⟨other, before⟩ := separate.mem_remove.mp member
    have owns := scheduled.owns_pushed before
    rw [← process] at owns
    simpa [other] using owns
  case readyProcess =>
    intro p member
    obtain ⟨directory, waits⟩ := scheduled.readyProcess p member
    refine ⟨directory, ?_⟩
    obtain ⟨t, ready⟩ := List.exists_mem_of_ne_nil _ waits
    have other : t ≠ .slot u := by
      rintro rfl
      have same := ThreadQueue.ready.inj (separate.unique (pushed ready) chosen)
      exact scheduled.cr3_ne_of_mem member same.symm
    exact List.ne_nil_of_mem (separate.mem_remove.mpr ⟨other, pushed ready⟩)
  case slot => exact ⟨u, rfl⟩
  case absent => exact separate.absent_remove.mpr (.inr rfl)
  case last =>
    rintro m slot unlisted same
    have absent := (scheduled.represents.unlisted unlisted).2.2 slot rfl
    rcases Lanes.mem_push.mp chosen with ready | ⟨_, own⟩
    · exact absent _ (ThreadPtr.slot.inj same ▸ ready)
    · exact scheduled.last unlisted (own.symm.trans same)
  case running => simp
  case process =>
    rw [← process] at owns
    simpa using owns
  case processRunning => exact scheduled.processRunning
  case processAbsent => exact scheduled.processAbsent
  case ownDirectory => exact scheduled.ownDirectory
  case saved =>
    rcases (scheduled.waits_pushed chosen).2.1 with wild | ⟨_, saved⟩
    · rw [process, owns] at wild
      exact absurd wild (by simp)
    · simpa using saved

/-- The running process makes room for the first ready one. -/
theorem nextProcess (scheduled : Scheduled s q) {processes : List TaskId} {rest : List ThreadPtr}
    {heap : Heap Node} (firstProcess : q.processes .ready = p :: processes)
    (first : q.threads (.ready p) = .slot u :: rest)
    (represents : Represents heap ((((q.pushProcess .ready s.cr3).pushThread (.ready s.cr3)
      s.current).removeProcess p).removeThread (.slot u))) :
    Scheduled { (((s.setTask s.cr3 fun c => { c with state := .stReady }).suspend
        .stReady).resumeProcess p).resume p (.slot u) with heap }
      ((((q.pushProcess .ready s.cr3).pushThread (.ready s.cr3) s.current).removeProcess
        p).removeThread (.slot u)) := by
  have separate := scheduled.separate_pushed
  have separateP := scheduled.separate_pushedProcess
  have ready : p ∈ q.processes .ready := by simp [firstProcess]
  have different := scheduled.cr3_ne_of_mem ready
  obtain ⟨directory, _⟩ := scheduled.readyProcess p ready
  have pushed : ∀ {p t}, t ∈ q.threads (.ready p) →
      t ∈ (q.pushThread (.ready s.cr3) s.current).threads (.ready p) :=
    fun member => Lanes.mem_push.mpr (.inl member)
  have chosen : .slot u ∈ q.threads (.ready p) := by simp [first]
  have other_current := scheduled.ne_of_mem chosen
  constructor
  case represents => exact represents
  case waits =>
    intro p' t member
    obtain ⟨other, before⟩ := separate.mem_remove.mp member
    exact (scheduled.waits_pushed before).of_eq (by simp [other]) (by simp [other])
      (by simp [other])
  case owns =>
    intro p' slot member
    obtain ⟨other, before⟩ := separate.mem_remove.mp member
    have owns := scheduled.owns_pushed before
    by_cases own : s.current = .slot slot
    · simpa [other, ← own, other_current] using own ▸ owns
    · simpa [other, Ne.symm own] using owns
  case readyProcess =>
    intro p' member
    have member : p' ∈ (q.processes.push .ready s.cr3).remove p .ready := member
    obtain ⟨other, before⟩ := separateP.mem_remove.mp member
    rcases Lanes.mem_push.mp before with before | ⟨_, own⟩
    · obtain ⟨directory', waits⟩ := scheduled.readyProcess p' before
      obtain ⟨t, waiting⟩ := List.exists_mem_of_ne_nil _ waits
      have apart : t ≠ .slot u := by
        rintro rfl
        exact other (ThreadQueue.ready.inj
          (scheduled.represents.separate_threads.unique waiting chosen))
      refine ⟨?_, List.ne_nil_of_mem (separate.mem_remove.mpr ⟨apart, pushed waiting⟩)⟩
      simpa [other, (scheduled.cr3_ne_of_mem before).symm] using directory'
    · subst own
      refine ⟨by simpa [other] using scheduled.ownDirectory, List.ne_nil_of_mem
        (separate.mem_remove.mpr ⟨other_current, Lanes.mem_push.mpr (.inr ⟨rfl, rfl⟩)⟩)⟩
  case slot => exact ⟨u, rfl⟩
  case absent => exact separate.absent_remove.mpr (.inr rfl)
  case last =>
    rintro m slot unlisted same
    have absent := (scheduled.represents.unlisted unlisted).2.2 slot rfl
    exact absent _ (ThreadPtr.slot.inj same ▸ chosen)
  case running => simp
  case process => simpa [other_current.symm] using scheduled.owns chosen
  case processRunning => simp
  case processAbsent => exact separateP.absent_remove.mpr (.inr rfl)
  case ownDirectory => simpa [different.symm] using directory
  case saved =>
    rcases (scheduled.waits chosen).2.1 with wild | ⟨_, saved⟩
    · rw [scheduled.owns chosen] at wild
      exact absurd wild (by simp)
    · simpa [other_current.symm] using saved

end Scheduled

/-! ## Turns -/

/-- The processes that the clock has switched to, and the threads that have been dispatched with
their processes, in order. -/
structure Turns where
  processes : List TaskId
  threads : List (TaskId × ThreadPtr)

namespace Turns

/-- No one has been dispatched yet. -/
def none : Turns where
  processes := []
  threads := []

/-- The threads of a process that have been dispatched. -/
def of (turns : Turns) (p : TaskId) : List ThreadPtr :=
  (turns.threads.filter fun turn => turn.1 = p).map Prod.snd

theorem of_append (turns : Turns) (processes : List TaskId) (own p : TaskId) (t : ThreadPtr) :
    Turns.of { processes, threads := turns.threads ++ [(own, t)] } p =
      turns.of p ++ if own = p then [t] else [] := by
  rw [of, of, List.filter_append, List.map_append]
  by_cases same : own = p <;> simp [same]

end Turns

namespace Kernel

/-- A clock tick finds the process quantum expired and another process ready. -/
def SwitchesProcess (s : Kernel) : Action → Prop
  | .tick => s.remainingQuantumP - 1 = 0 ∧ s.listEmpty .readyqueue = false
  | _ => False

instance (s : Kernel) : DecidablePred s.SwitchesProcess
  | .tick => inferInstanceAs (Decidable (_ = _ ∧ _ = _))
  | .fork _ | .pthreadCreate _ _ _ | .pthreadJoin _ | .pthreadExit | .yield | .exit | .mutexInit _
  | .mutexLock _ | .mutexUnlock _ | .mutexDestroy _ | .store _ _ | .others _ => isFalse id

/-- Clock ticks and yields. -/
def TicksOrYields : Action → Prop
  | .tick | .yield => True
  | _ => False

instance : DecidablePred TicksOrYields
  | .tick | .yield => isTrue trivial
  | .fork _ | .pthreadCreate _ _ _ | .pthreadJoin _ | .pthreadExit | .exit | .mutexInit _
  | .mutexLock _ | .mutexUnlock _ | .mutexDestroy _ | .store _ _ | .others _ => isFalse id

/-- The ready processes and the running one. -/
def processRound (s : Kernel) (q : Queues) : List TaskId := q.processes .ready ++ [s.cr3]

/-- The ready threads of a process, and the running one if it is one of them. -/
def threadRound (s : Kernel) (q : Queues) (p : TaskId) : List ThreadPtr :=
  q.threads (.ready p) ++ if p = s.cr3 then [s.current] else []

end Kernel

/-- Every call of `task_switch` is a turn. -/
def recordTurn (layout : Layout) (turns : Turns) (s : Kernel) (action : Action) (s' : Kernel)
    (_ : Result) : Turns :=
  match s.upToSwitch layout action with
  | .ok (.inr _) =>
      { processes := if s.SwitchesProcess action then turns.processes ++ [s'.cr3]
          else turns.processes
        threads := turns.threads ++ [(s'.cr3, s'.current)] }
  | _ => turns

namespace Scheduled

/-- No process is in the round twice. -/
theorem nodup_processRound (scheduled : Scheduled s q) : (s.processRound q).Nodup := by
  have separate := scheduled.separate_pushedProcess
  have nodup := separate.nodup .ready
  rwa [Lanes.push_same] at nodup

/-- No thread is in the round of its process twice. -/
theorem nodup_threadRound (scheduled : Scheduled s q) (p : TaskId) :
    (s.threadRound q p).Nodup := by
  have separate := scheduled.separate_pushed
  have nodup := separate.nodup (.ready p)
  rw [threadRound]
  split_ifs with own
  · subst own
    rwa [Lanes.push_same] at nodup
  · rwa [Lanes.push_other (by simpa using own), ← List.append_nil (q.threads _)] at nodup

/-- Whether a clock tick calls `task_switch`. -/
theorem tick_switches (scheduled : Scheduled s q) {next : (Kernel × Result) ⊕ (Kernel × ThreadPtr)}
    (reached : s.upToSwitch layout .tick = .ok next) : (∃ switch, next = .inr switch) ↔
      (s.remainingQuantumP - 1 = 0 ∧ q.processes .ready ≠ []) ∨
        (s.remainingQuantumT - 1 = 0 ∧ q.threads (.ready s.cr3) ≠ []) := by
  have entered : Scheduled (s.enter layout .clock).updateSchedDataRr q :=
    scheduled.of_eq rfl rfl rfl rfl rfl
  simp only [upToSwitch] at reached
  rw [entered.needsSchedRr_eq, ok_bind] at reached
  have switching : ∀ {first : Except Fault (Kernel × ThreadPtr)},
      (first >>= fun switch => pure (.inr switch)) = .ok next → ∃ switch, next = .inr switch :=
    fun {first} chosen =>
      have switches : Ensures (fun next : (Kernel × Result) ⊕ (Kernel × ThreadPtr) =>
          ∃ switch, next = .inr switch) (first >>= fun switch => pure (.inr switch)) :=
        Ensures.skip fun switch => .ok ⟨switch, rfl⟩
      switches next chosen
  show _ ↔ ((s.enter layout .clock).updateSchedDataRr.remainingQuantumP = 0 ∧ _) ∨
    ((s.enter layout .clock).updateSchedDataRr.remainingQuantumT = 0 ∧ _)
  by_cases expired : (s.enter layout .clock).updateSchedDataRr.remainingQuantumP = 0 ∧
      q.processes .ready ≠ []
  · simp only [if_pos expired, if_true, ← bind_assoc] at reached
    exact ⟨fun _ => .inl expired, fun _ => switching reached⟩
  · by_cases expiredT : (s.enter layout .clock).updateSchedDataRr.remainingQuantumT = 0 ∧
        q.threads (.ready (s.enter layout .clock).updateSchedDataRr.cr3) ≠ []
    · simp only [if_neg expired, if_pos expiredT, ← bind_assoc] at reached
      exact ⟨fun _ => .inr expiredT, fun _ => switching reached⟩
    · simp only [if_neg expired, if_neg expiredT] at reached
      obtain rfl := Except.ok.inj reached
      constructor
      · rintro ⟨_, wrong⟩
        exact absurd wrong (by simp)
      · rintro (holds | holds)
        · exact absurd holds expired
        · exact absurd holds expiredT

/-- `yield` always calls `task_switch`. -/
theorem yield_switches {next : (Kernel × Result) ⊕ (Kernel × ThreadPtr)}
    (reached : s.upToSwitch layout .yield = .ok next) : ∃ switch, next = .inr switch := by
  have switches : Ensures (fun next => ∃ switch, next = .inr switch)
      (s.upToSwitch layout .yield) := by
    simp only [upToSwitch]
    exact Ensures.skip fun p => Ensures.skip fun s₁ => Ensures.skip fun switch => .ok ⟨switch, rfl⟩
  exact switches next reached

/-- A switch to a thread of the running process serves that thread. -/
theorem threadRound_nextThread (scheduled : Scheduled s q) {rest : List ThreadPtr}
    (first : q.threads (.ready s.cr3) ++ [s.current] = .slot u :: rest)
    (current : s'.current = .slot u) (cr3 : s'.cr3 = s.cr3) (p : TaskId) :
    let q' := (q.pushThread (.ready s.cr3) s.current).removeThread (.slot u)
    (p = s.cr3 → s.threadRound q p = .slot u :: rest ∧ s'.threadRound q' p = rest ++ [.slot u]) ∧
      (p ≠ s.cr3 → s'.threadRound q' p = s.threadRound q p) := by
  have separate := scheduled.separate_pushed
  have pushed : (q.threads.push (.ready s.cr3) s.current) (.ready s.cr3) = .slot u :: rest := by
    rw [Lanes.push_same, first]
  constructor
  · rintro rfl
    constructor
    · rw [threadRound, if_pos rfl, first]
    · rw [threadRound, cr3, if_pos rfl, current]
      show (q.threads.push (.ready s.cr3) s.current).remove (.slot u) (.ready s.cr3) ++ _ = _
      rw [Lanes.remove_first pushed]
  · intro other
    rw [threadRound, threadRound, cr3, if_neg other, if_neg other]
    show (q.threads.push (.ready s.cr3) s.current).remove (.slot u) (.ready p) ++ _ = _
    rw [separate.remove_other (by rw [pushed]; simp) (by simpa using other),
      Lanes.push_other (by simpa using other)]

/-- A switch to another process serves its first ready thread. -/
theorem threadRound_nextProcess (scheduled : Scheduled s q) {rest : List ThreadPtr}
    {own : TaskId} (different : s.cr3 ≠ own) (first : q.threads (.ready own) = .slot u :: rest)
    (current : s'.current = .slot u) (cr3 : s'.cr3 = own) (p : TaskId) :
    let q' := (((q.pushProcess .ready s.cr3).pushThread (.ready s.cr3) s.current).removeProcess
      own).removeThread (.slot u)
    (p = own → s.threadRound q p = .slot u :: rest ∧ s'.threadRound q' p = rest ++ [.slot u]) ∧
      (p ≠ own → s'.threadRound q' p = s.threadRound q p) := by
  have separate := scheduled.separate_pushed
  have pushed : (q.threads.push (.ready s.cr3) s.current) (.ready own) = .slot u :: rest := by
    rw [Lanes.push_other (by simpa using different.symm), first]
  constructor
  · rintro rfl
    constructor
    · rw [threadRound, if_neg different.symm, first, List.append_nil]
    · rw [threadRound, cr3, if_pos rfl, current]
      show (q.threads.push (.ready s.cr3) s.current).remove (.slot u) (.ready p) ++ _ = _
      rw [Lanes.remove_first pushed]
  · intro other
    rw [threadRound, threadRound, cr3, if_neg other, List.append_nil]
    show (q.threads.push (.ready s.cr3) s.current).remove (.slot u) (.ready p) = _
    rw [separate.remove_other (by rw [pushed]; simp) (by simpa using other)]
    split_ifs with same
    · rw [same, Lanes.push_same]
    · rw [Lanes.push_other (by simpa using same), List.append_nil]

end Scheduled

/-- The turns since a state, and what the rounds have become by them. -/
structure RoundRobin (s₀ : Kernel) (q₀ : Queues) (s : Kernel) (q : Queues) (turns : Turns) :
    Prop where
  scheduled : Scheduled s q
  processes : Turning (s₀.processRound q₀) turns.processes (s.processRound q)
  threads : ∀ p, Turning (s₀.threadRound q₀ p) (turns.of p) (s.threadRound q p)

namespace RoundRobin

variable {s₀ : Kernel} {q₀ : Queues} {turns : Turns}

theorem start (scheduled : Scheduled s q) : RoundRobin s q s q Turns.none where
  scheduled := scheduled
  processes := Turning.start _
  threads _ := Turning.start _

theorem recordTurn_inl {ended : Kernel × Result}
    (reached : s.upToSwitch layout action = .ok (.inl ended)) :
    recordTurn layout turns s action s' result = turns := by
  rw [recordTurn, reached]

theorem recordTurn_inr {switch : Kernel × ThreadPtr}
    (reached : s.upToSwitch layout action = .ok (.inr switch)) :
    recordTurn layout turns s action s' result =
      { processes := if s.SwitchesProcess action then turns.processes ++ [s'.cr3]
          else turns.processes
        threads := turns.threads ++ [(s'.cr3, s'.current)] } := by
  rw [recordTurn, reached]

/-- A switch to a thread of the running process. -/
theorem nextThread (robin : RoundRobin s₀ q₀ s q turns) {switch : Kernel × ThreadPtr}
    {rest : List ThreadPtr} (reached : s.upToSwitch layout action = .ok (.inr switch))
    (same : ¬s.SwitchesProcess action)
    (first : q.threads (.ready s.cr3) ++ [s.current] = .slot u :: rest)
    (current : s'.current = .slot u) (cr3 : s'.cr3 = s.cr3)
    (scheduled : Scheduled s'
      ((q.pushThread (.ready s.cr3) s.current).removeThread (.slot u))) :
    RoundRobin s₀ q₀ s' ((q.pushThread (.ready s.cr3) s.current).removeThread (.slot u))
      (recordTurn layout turns s action s' result) := by
  rw [recordTurn_inr reached, if_neg same]
  refine ⟨scheduled, ?_, fun p => ?_⟩
  · have round : s'.processRound
        ((q.pushThread (.ready s.cr3) s.current).removeThread (.slot u)) = s.processRound q := by
      rw [processRound, processRound, cr3]
      rfl
    exact round ▸ robin.processes
  · obtain ⟨own, others⟩ := robin.scheduled.threadRound_nextThread first current cr3 p
    have turning := robin.threads p
    rw [Turns.of_append, cr3, current]
    by_cases here : p = s.cr3
    · rw [if_pos here.symm, (own here).2]
      rw [(own here).1] at turning
      exact turning.serve
    · rw [if_neg (Ne.symm here), List.append_nil, others here]
      exact turning

/-- A switch to another process. -/
theorem nextProcess (robin : RoundRobin s₀ q₀ s q turns) {switch : Kernel × ThreadPtr}
    {processes : List TaskId} {rest : List ThreadPtr}
    (reached : s.upToSwitch layout action = .ok (.inr switch)) (other : s.SwitchesProcess action)
    (firstProcess : q.processes .ready = p :: processes)
    (first : q.threads (.ready p) = .slot u :: rest)
    (current : s'.current = .slot u) (cr3 : s'.cr3 = p)
    (scheduled : Scheduled s' ((((q.pushProcess .ready s.cr3).pushThread (.ready s.cr3)
      s.current).removeProcess p).removeThread (.slot u))) :
    RoundRobin s₀ q₀ s' ((((q.pushProcess .ready s.cr3).pushThread (.ready s.cr3)
      s.current).removeProcess p).removeThread (.slot u))
        (recordTurn layout turns s action s' result) := by
  have ready : p ∈ q.processes .ready := by simp [firstProcess]
  have different := robin.scheduled.cr3_ne_of_mem ready
  rw [recordTurn_inr reached, if_pos other]
  refine ⟨scheduled, ?_, fun p' => ?_⟩
  · have pushed : q.processes.push .ready s.cr3 .ready = p :: (processes ++ [s.cr3]) := by
      rw [Lanes.push_same, firstProcess, List.cons_append]
    have before : s.processRound q = p :: (processes ++ [s.cr3]) := by
      rw [processRound, firstProcess, List.cons_append]
    have after : s'.processRound ((((q.pushProcess .ready s.cr3).pushThread (.ready s.cr3)
        s.current).removeProcess p).removeThread (.slot u)) = processes ++ [s.cr3] ++ [p] := by
      rw [processRound, cr3]
      show (q.processes.push .ready s.cr3).remove p .ready ++ [p] = _
      rw [Lanes.remove_first pushed]
    have turning := robin.processes
    rw [before] at turning
    rw [after]
    simpa [cr3] using turning.serve
  · obtain ⟨own, others⟩ :=
      robin.scheduled.threadRound_nextProcess different first current cr3 p'
    have turning := robin.threads p'
    rw [Turns.of_append, cr3, current]
    by_cases here : p' = p
    · rw [if_pos here.symm, (own here).2]
      rw [(own here).1] at turning
      exact turning.serve
    · rw [if_neg (Ne.symm here), List.append_nil, others here]
      exact turning

theorem yield (robin : RoundRobin s₀ q₀ s q turns)
    (performed : s.perform layout .yield = .ok (s', result)) :
    ∃ q', RoundRobin s₀ q₀ s' q' (recordTurn layout turns s .yield s' result) := by
  obtain rfl : result = .switches := Kernel.yield_switches layout s _ performed
  have outcome : Outcome layout s q .yield (s.perform layout .yield) :=
    robin.scheduled.outcome_yield
  rw [perform_eq] at performed
  obtain ⟨next, reached, _⟩ := bind_eq_ok.mp performed
  obtain ⟨switch, rfl⟩ := Scheduled.yield_switches reached
  rw [perform_eq, performed] at outcome
  obtain ⟨q', transition, represents⟩ := outcome
  cases transition with
  | yielded first =>
      have entered : Scheduled (s.enter layout .yield) q :=
        robin.scheduled.of_eq rfl rfl rfl rfl rfl
      exact ⟨_, robin.nextThread reached id first rfl rfl (entered.nextThread first represents)⟩

theorem tick (robin : RoundRobin s₀ q₀ s q turns)
    (performed : s.perform layout .tick = .ok (s', result)) :
    ∃ q', RoundRobin s₀ q₀ s' q' (recordTurn layout turns s .tick s' result) := by
  obtain rfl : result = .switches := Kernel.tick_switches layout s _ performed
  have outcome : Outcome layout s q .tick (s.perform layout .tick) :=
    robin.scheduled.outcome_tick
  rw [perform_eq] at performed
  obtain ⟨next, reached, _⟩ := bind_eq_ok.mp performed
  have switches := robin.scheduled.tick_switches reached
  have empty_eq := robin.scheduled.represents.empty_processes .ready
  rw [ProcessQueue.node_ready] at empty_eq
  have entered : Scheduled (s.enter layout .clock).updateSchedDataRr q :=
    robin.scheduled.of_eq rfl rfl rfl rfl rfl
  rw [perform_eq, performed] at outcome
  obtain ⟨q', transition, represents⟩ := outcome
  cases transition with
  | ticked noProcess noThread =>
      cases next with
      | inr switch => exact absurd (switches.mp ⟨_, rfl⟩) (not_or.mpr ⟨noProcess, noThread⟩)
      | inl ended =>
          rw [recordTurn_inl reached]
          exact ⟨q, robin.scheduled.of_eq rfl rfl rfl rfl rfl, robin.processes, robin.threads⟩
  | @tickedThread t rest heap noProcess expired first =>
      obtain ⟨switch, rfl⟩ := switches.mpr (.inr ⟨expired, by simp [first]⟩)
      have same : ¬s.SwitchesProcess .tick := by
        rintro ⟨zero, some_ready⟩
        refine noProcess ⟨zero, ?_⟩
        rw [empty_eq] at some_ready
        exact List.isEmpty_eq_false_iff.mp some_ready
      have first : q.threads (.ready s.cr3) ++ [s.current] = .slot t :: (rest ++ [s.current]) := by
        rw [first, List.cons_append]
      exact ⟨_, robin.nextThread reached same first rfl rfl (entered.nextThread first represents)⟩
  | @tickedProcess p processes t rest heap expired firstProcess first =>
      obtain ⟨switch, rfl⟩ := switches.mpr (.inl ⟨expired, by simp [firstProcess]⟩)
      have other : s.SwitchesProcess .tick := ⟨expired, by rw [empty_eq, firstProcess]; rfl⟩
      exact ⟨_, robin.nextProcess reached other firstProcess first rfl rfl
        (entered.nextProcess firstProcess first represents)⟩

end RoundRobin

/-- From any state the scheduler can work with, clock ticks and yields dispatch the ready processes
and then the running one in rotation, and so for the threads of each process; none joins or leaves
these rounds. -/
theorem roundRobin_of_scheduled (layout : Layout) (s₀ s : Kernel) (q₀ : Queues) (turns : Turns)
    (scheduled : Scheduled s₀ q₀)
    (reaches : Reaches (recordStep (perform layout) (recordTurn layout))
      (fun _ action => TicksOrYields action) (s₀, Turns.none) (s, turns)) :
    (Cyclic (s₀.processRound q₀) turns.processes ∧ (s₀.processRound q₀).Nodup) ∧
      (∀ p, Cyclic (s₀.threadRound q₀ p) (turns.of p) ∧ (s₀.threadRound q₀ p).Nodup) ∧
      ∃ q, Represents s.heap q ∧ (s.processRound q).Perm (s₀.processRound q₀) ∧
        ∀ p, (s.threadRound q p).Perm (s₀.threadRound q₀ p) := by
  have robin : ∃ q, RoundRobin s₀ q₀ s q turns := by
    refine reaches.invariant (fun state => ∃ q, RoundRobin s₀ q₀ state.1 q state.2) ?_
      ⟨q₀, RoundRobin.start scheduled⟩
    rintro ⟨s, turns⟩ after action ⟨q, robin⟩ admitted taken
    obtain ⟨s', result, performed, rfl⟩ := recordStep_eq_ok.mp taken
    cases action with
    | tick => exact robin.tick performed
    | yield => exact robin.yield performed
    | _ => exact admitted.elim
  obtain ⟨q, robin⟩ := robin
  refine ⟨⟨robin.processes.cyclic, ?_⟩, fun p => ⟨(robin.threads p).cyclic, ?_⟩, q,
    robin.scheduled.represents, robin.processes.perm, fun p => (robin.threads p).perm⟩
  · exact scheduled.nodup_processRound
  · exact scheduled.nodup_threadRound p

/-- The first process creates a thread and forks; then both processes run, and both threads of the
first one. -/
theorem roundRobin_of_scheduled_two :
    ∃ s₀ q₀ s turns, Scheduled s₀ q₀ ∧
      Reaches (recordStep (perform plainLayout) (recordTurn plainLayout))
        (fun _ action => TicksOrYields action) (s₀, Turns.none) (s, turns) ∧
      turns.processes = [2, 1] ∧ turns.of 1 = [.slot 2, .slot 1, .slot 2] ∧
      Cyclic (s₀.processRound q₀) turns.processes := by
  obtain ⟨s₀, reachable, goal⟩ := reachable_of_checkBoot (UnlocksOwn plainLayout)
    (fun s action => decide (s.UnlocksOwn plainLayout action))
    (fun s => checkRun (recordStep (perform plainLayout) (recordTurn plainLayout))
      (fun _ action => decide (TicksOrYields action))
      (fun state => decide (state.2.processes = [2, 1] ∧
        state.2.of 1 = [.slot 2, .slot 1, .slot 2]))
      (s, Turns.none) (.yield :: List.replicate 40 .tick))
    [.pthreadCreate (fun _ => 0) 0x108000 0x100000, .fork fun _ => 0]
    (fun _ _ => of_decide_eq_true) (by decide +kernel)
  obtain ⟨q₀, consistent, _⟩ := noImage_of_unlocksOwn reachable
  obtain ⟨⟨s, turns⟩, reaches, dispatched⟩ := reaches_of_checkRun
    (fun _ _ => of_decide_eq_true) goal
  obtain ⟨processes, threads⟩ := of_decide_eq_true dispatched
  exact ⟨s₀, q₀, s, turns, consistent.scheduled, reaches, processes, threads,
    (roundRobin_of_scheduled plainLayout s₀ s q₀ turns consistent.scheduled reaches).1.1⟩

end Zeos
