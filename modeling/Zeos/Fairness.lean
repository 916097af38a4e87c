import Zeos.Progress
import Zeos.RoundRobin

/-!
# Waiting for the processor

A clock tick always finds a thread to go on with, and after a bounded number of ticks every ready
thread has been dispatched.
-/

namespace Zeos

open IntrusiveList GuardedRun Kernel Rotation

variable {layout : Layout} {s s' : Kernel} {q q' : Queues} {result : Result} {p : TaskId}
  {t : ThreadPtr} {u : ThreadSlot}

/-! ## Threads that can be dispatched -/

/-- The threads in the ready lists are threads of the array that have been switched out before. -/
def Kernel.Dispatchable (s : Kernel) : Prop :=
  ∀ p, ∀ node ∈ s.linked (.ready p), ∃ u index, node = .thread (.slot u) ∧
    (s.thread (.slot u)).registerEsp = .on (.slot u) index

theorem Represents.dispatchable_iff (represents : Represents s.heap q) : s.Dispatchable ↔
    ∀ p, ∀ t ∈ q.threads (.ready p), ∃ u index, t = .slot u ∧
      (s.thread t).registerEsp = .on t index := by
  have linked : ∀ p, s.linked (.ready p) = (q.threads (.ready p)).map .thread := fun p =>
    represents.linked_threads (.ready p)
  constructor
  · intro dispatchable p t member
    obtain ⟨u, index, same, saved⟩ := dispatchable p (.thread t)
      (by rw [linked]; simpa using member)
    obtain rfl := thread_injective same
    exact ⟨u, index, rfl, saved⟩
  · intro dispatchable p node member
    rw [linked] at member
    obtain ⟨t, found, rfl⟩ := List.mem_map.mp member
    obtain ⟨u, index, rfl, saved⟩ := dispatchable p t found
    exact ⟨u, index, rfl, saved⟩

/-- As long as no page of the kernel image has become a thread, all ready threads can be
dispatched. -/
theorem Consistent.dispatchable (consistent : Consistent s q)
    (noImage : ∀ queue page, .image page ∉ q.threads queue) : s.Dispatchable := by
  refine consistent.represents.dispatchable_iff.mpr fun p t member => ?_
  cases t with
  | image page => exact absurd member (noImage _ page)
  | slot u =>
      obtain ⟨_, _, index, saved⟩ := consistent.fits member
      exact ⟨u, index, rfl, saved⟩

/-- The first ready thread of the first ready process can run if it has been switched out before. -/
theorem Kernel.schedNextProcessRr_ok (layout : Layout) (represents : Represents s.heap q)
    {processes : List TaskId} {rest : List ThreadPtr}
    (firstProcess : q.processes .ready = p :: processes)
    (first : q.threads (.ready p) = .slot u :: rest)
    (directory : (s.task p).dirPagesBaseAddr = some p)
    (own : (s.thread (.slot u)).p = .slot p)
    (saved : ∃ index, (s.thread (.slot u)).registerEsp = .on (.slot u) index) :
    ∃ s', s.schedNextProcessRr layout = .ok s' := by
  have some_ready : s.listEmpty .readyqueue = false := by
    simpa [firstProcess] using represents.empty_processes .ready
  have node : s.listFirst .readyqueue = .task p := by
    simpa [firstProcess] using represents.first_processes .ready
  have ready : p ∈ q.processes .ready := by simp [firstProcess]
  obtain ⟨heap, deleted, represents'⟩ := represents.removeProcess ready
  have node' : { s with heap }.listFirst (.ready p) = .thread (.slot u) := by
    simpa [first] using Represents.first_threads (s := { s with heap }) represents' (.ready p)
      trivial
  have member : .slot u ∈ (q.removeProcess p).threads (.ready p) := by simp [first]
  obtain ⟨heap', deleted', _⟩ :=
    Represents.removeThread (s := { s with heap }) represents' member
  rw [schedNextProcessRr, if_pos (by simp [some_ready])]
  simp only [node, deleted, ok_bind, listHeadToTaskStruct, node', listHeadToThreadStruct,
    deleted']
  exact taskSwitch_ok (p := p) (by simpa [setThread, setTask] using own)
    (by simpa [setThread, setTask] using directory) (by simpa [setThread, setTask] using saved)

namespace Scheduled

theorem nextThread_ok (scheduled : Scheduled s q) (dispatchable : s.Dispatchable) (layout : Layout)
    (waiting : q.threads (.ready s.cr3) ≠ []) :
    ∃ s', (do
      let s₁ ← s.updateThreadStateRr s.current (some (.ready s.cr3))
      s₁.schedNextThreadRr layout) = .ok s' := by
  obtain ⟨t, rest, first⟩ := List.exists_cons_of_ne_nil waiting
  have member : t ∈ q.threads (.ready s.cr3) := by simp [first]
  have other : t ≠ s.current := (scheduled.ne_of_mem member).symm
  obtain ⟨u, index, rfl, saved⟩ := scheduled.represents.dispatchable_iff.mp dispatchable _ t member
  obtain ⟨heap, pushed, represents⟩ := scheduled.push_current (.ready s.cr3) trivial
    (show queueState s.cr3 (.ready s.cr3) = .stReady from if_pos rfl)
  have queued : (q.pushThread (.ready s.cr3) s.current).threads (.ready s.cr3) =
      .slot u :: (rest ++ [s.current]) := by simp [first, Lanes.push]
  rw [ThreadQueue.node_ready] at pushed
  rw [pushed, ok_bind]
  refine schedNextThreadRr_ok (p := s.cr3) layout represents (by simpa using scheduled.process)
    scheduled.ownDirectory queued ?_ ?_
  · simpa [other] using scheduled.owns member
  · simpa [other, Parked, saved] using (scheduled.waits member).1

theorem nextProcess_ok (scheduled : Scheduled s q) (dispatchable : s.Dispatchable) (layout : Layout)
    (waiting : q.processes .ready ≠ []) :
    ∃ s', (do
      let s₁ ← s.updateProcessStateRr s.cr3 (some .readyqueue)
      let s₂ ← s₁.updateThreadStateRr s₁.current (some (.ready s.cr3))
      s₂.schedNextProcessRr layout) = .ok s' := by
  obtain ⟨p, processes, firstProcess⟩ := List.exists_cons_of_ne_nil waiting
  have ready : p ∈ q.processes .ready := by simp [firstProcess]
  have different := scheduled.cr3_ne_of_mem ready
  obtain ⟨directory, someThread⟩ := scheduled.readyProcess p ready
  obtain ⟨t, rest, first⟩ := List.exists_cons_of_ne_nil someThread
  have member : t ∈ q.threads (.ready p) := by simp [first]
  have other : t ≠ s.current := (scheduled.ne_of_mem member).symm
  obtain ⟨u, index, rfl, saved⟩ := scheduled.represents.dispatchable_iff.mp dispatchable _ t member
  obtain ⟨heap, pushed, represents⟩ := updateProcessStateRr_ready scheduled.represents
    scheduled.processAbsent scheduled.processRunning
  obtain ⟨heap', parked, represents'⟩ := updateThreadStateRr_push
    (s := { s with heap }.setTask s.cr3 fun c => { c with state := .stReady })
    (q := q.pushProcess .ready s.cr3) represents (.ready s.cr3) trivial
    scheduled.absent (fun _ _ => scheduled.last) scheduled.running scheduled.process
  simp only [ThreadQueue.node_ready, current_setTask] at parked
  rw [pushed, ok_bind]
  simp only [current_setTask, parked, ok_bind]
  have firstProcess' : ((q.pushProcess .ready s.cr3).pushThread (.ready s.cr3)
      s.current).processes .ready = p :: (processes ++ [s.cr3]) := by simp [firstProcess]
  have first' : ((q.pushProcess .ready s.cr3).pushThread (.ready s.cr3)
      s.current).threads (.ready p) = .slot u :: rest := by simp [different.symm, first]
  refine schedNextProcessRr_ok layout represents' firstProcess' first' ?_ ?_ ?_
  · simpa [different.symm] using directory
  · simpa [other] using scheduled.owns member
  · simpa [other] using ⟨index, saved⟩

/-- A clock tick does not fault. -/
theorem tick_ok (scheduled : Scheduled s q) (dispatchable : s.Dispatchable) (layout : Layout) :
    ∃ s', s.perform layout .tick = .ok (s', .switches) := by
  have entered : Scheduled (s.enter layout .clock).updateSchedDataRr q :=
    scheduled.of_eq rfl rfl rfl rfl rfl
  have dispatchable : (s.enter layout .clock).updateSchedDataRr.Dispatchable := dispatchable
  rw [perform, schedule, entered.needsSchedRr_eq, ok_bind]
  by_cases expired : (s.enter layout .clock).updateSchedDataRr.remainingQuantumP = 0 ∧
      q.processes .ready ≠ []
  · obtain ⟨s', switched⟩ := entered.nextProcess_ok dispatchable layout expired.2
    rw [if_pos expired]
    dsimp only
    rw [if_pos rfl, currentP_eq entered.process, ok_bind]
    exact ⟨s', by rw [show _ = Except.ok s' from switched]; rfl⟩
  · rw [if_neg expired]
    by_cases expiredT : (s.enter layout .clock).updateSchedDataRr.remainingQuantumT = 0 ∧
        q.threads (.ready (s.enter layout .clock).updateSchedDataRr.cr3) ≠ []
    · obtain ⟨s', switched⟩ := entered.nextThread_ok dispatchable layout expiredT.2
      rw [if_pos expiredT]
      dsimp only
      rw [if_neg (by decide), if_pos rfl, currentP_eq entered.process, ok_bind]
      exact ⟨s', by rw [show _ = Except.ok s' from switched]; rfl⟩
    · rw [if_neg expiredT]
      exact ⟨_, rfl⟩

end Scheduled

/-! ## What a tick and a yield do -/

/-- The running thread is switched out with its stack pointer. -/
theorem Kernel.Dispatchable.switched (dispatchable : s.Dispatchable) (scheduled : Scheduled s q)
    (represents : Represents s'.heap q')
    (moved : ∀ {p t}, t ∈ q'.threads (.ready p) → t ∈ q.threads (.ready p) ∨ t = s.current)
    (kept : ∀ t, t ≠ s.current → (s'.thread t).registerEsp = (s.thread t).registerEsp)
    (saved : ∃ index, (s'.thread s.current).registerEsp = .on s.current index) :
    s'.Dispatchable := by
  refine represents.dispatchable_iff.mpr fun p t member => ?_
  rcases moved member with before | rfl
  · obtain ⟨u, index, rfl, on⟩ := scheduled.represents.dispatchable_iff.mp dispatchable p t before
    exact ⟨u, index, rfl, (kept _ (scheduled.ne_of_mem before).symm).trans on⟩
  · obtain ⟨u, current⟩ := scheduled.slot
    obtain ⟨index, on⟩ := saved
    exact ⟨u, index, current, on⟩

/-- A field that one thread keeps is kept by all of them. -/
theorem field_update {β : Type} {threads : ThreadPtr → ThreadStruct} {value : ThreadStruct}
    (field : ThreadStruct → β) (same : field value = field (threads t)) (t' : ThreadPtr) :
    field (Function.update threads t value t') = field (threads t') := by
  rw [Function.apply_update (fun _ => field), same]
  exact congrFun (Function.update_eq_self t fun k => field (threads k)) t'

theorem Kernel.registerEsp_resume (s : Kernel) (p : TaskId) (t t' : ThreadPtr) :
    ((s.resume p t).thread t').registerEsp = (s.thread t').registerEsp := by
  rw [thread_resume]
  exact field_update ThreadStruct.registerEsp (by rfl) t'

theorem Queues.mem_switchThread (member : t ∈ ((q.pushThread (.ready s.cr3)
      s.current).removeThread (.slot u)).threads (.ready p)) :
    t ∈ q.threads (.ready p) ∨ t = s.current :=
  (Lanes.mem_push.mp (Lanes.mem_of_mem_remove member)).imp_right And.right

namespace Scheduled

theorem dispatchable_tick (scheduled : Scheduled s q) (dispatchable : s.Dispatchable)
    (performed : s.perform layout .tick = .ok (s', result)) : s'.Dispatchable := by
  obtain rfl : result = .switches := Kernel.tick_switches layout s _ performed
  have outcome : Outcome layout s q .tick (s.perform layout .tick) := scheduled.outcome_tick
  rw [performed] at outcome
  obtain ⟨q', transition, represents⟩ := outcome
  cases transition with
  | ticked => exact dispatchable
  | tickedThread | tickedProcess =>
      refine dispatchable.switched scheduled represents Queues.mem_switchThread (fun t other => ?_)
        ⟨layout.frame .clock, ?_⟩
      · exact (registerEsp_resume _ s.cr3 _ _).trans (by simp [other])
      · exact (registerEsp_resume _ s.cr3 _ _).trans (by simp; rfl)

theorem dispatchable_yield (scheduled : Scheduled s q) (dispatchable : s.Dispatchable)
    (performed : s.perform layout .yield = .ok (s', result)) : s'.Dispatchable := by
  obtain rfl : result = .switches := Kernel.yield_switches layout s _ performed
  have outcome : Outcome layout s q .yield (s.perform layout .yield) := scheduled.outcome_yield
  rw [performed] at outcome
  obtain ⟨q', transition, represents⟩ := outcome
  cases transition with
  | yielded =>
      refine dispatchable.switched scheduled represents Queues.mem_switchThread (fun t other => ?_)
        ⟨layout.frame .yield, ?_⟩
      · exact (registerEsp_resume _ s.cr3 _ _).trans (by simp [other])
      · exact (registerEsp_resume _ s.cr3 _ _).trans (by simp; rfl)

end Scheduled

/-! ## Ticks until the process is switched -/

/-- The ticks until a counter is zero, which is decremented before it is compared. -/
def ticksLeft (counter : Word) : Nat := (counter - 1).toNat + 1

theorem ticksLeft_of_expired {counter : Word} (expired : counter - 1 = 0) :
    ticksLeft counter = 1 := by
  rw [ticksLeft, expired]
  rfl

theorem ticksLeft_pred {counter : Word} (more : counter - 1 ≠ 0) :
    ticksLeft (counter - 1) + 1 = ticksLeft counter := by
  rw [ticksLeft, ticksLeft]
  generalize counter - 1 = left at *
  bv_omega

section Turns

variable {turns : Turns} {action : Action}

theorem processes_recordTurn (same : ¬s.SwitchesProcess action) :
    (recordTurn layout turns s action s' result).processes = turns.processes := by
  rw [recordTurn]
  split
  · exact if_neg same
  · rfl

/-- With every process that is dispatched goes a thread. -/
theorem sublist_recordTurn (sublist : turns.processes.Sublist (turns.threads.map Prod.fst)) :
    (recordTurn layout turns s action s' result).processes.Sublist
      ((recordTurn layout turns s action s' result).threads.map Prod.fst) := by
  rw [recordTurn]
  split
  · rw [List.map_append]
    dsimp only
    split_ifs
    · exact sublist.append (.refl _)
    · exact sublist.trans (List.sublist_append_left _ _)
  · exact sublist

end Turns

namespace Scheduled

/-- A tick switches the process when its quantum has expired, and loads that of the next one. -/
theorem tick_turns (scheduled : Scheduled s q) (several : q.processes .ready ≠ [])
    (performed : s.perform layout .tick = .ok (s', result)) (turns : Turns) :
    (∀ p, (s'.task p).totalQuantum = (s.task p).totalQuantum) ∧
      (s.remainingQuantumP - 1 = 0 ∧ s'.cr3 ∈ q.processes .ready ∧
          (recordTurn layout turns s .tick s' result).processes = turns.processes ++ [s'.cr3] ∧
          s'.remainingQuantumP = (s.task s'.cr3).totalQuantum ∨
        s.remainingQuantumP - 1 ≠ 0 ∧
          (recordTurn layout turns s .tick s' result).processes = turns.processes ∧
          s'.remainingQuantumP = s.remainingQuantumP - 1) := by
  obtain rfl : result = .switches := Kernel.tick_switches layout s _ performed
  have outcome : Outcome layout s q .tick (s.perform layout .tick) := scheduled.outcome_tick
  have empty_eq := scheduled.represents.empty_processes .ready
  rw [ProcessQueue.node_ready] at empty_eq
  have more : ∀ {left : Word}, ¬(left - 1 = 0 ∧ q.processes .ready ≠ []) → left - 1 ≠ 0 :=
    fun noProcess zero => noProcess ⟨zero, several⟩
  rw [perform_eq] at performed
  obtain ⟨next, reached, _⟩ := bind_eq_ok.mp performed
  rw [perform_eq, performed] at outcome
  obtain ⟨q', transition, represents⟩ := outcome
  cases transition with
  | ticked noProcess noThread =>
      refine ⟨fun _ => rfl, .inr ⟨more noProcess, processes_recordTurn ?_, ?_⟩⟩
      · exact fun switches => more noProcess switches.1
      · exact if_neg (more noProcess)
  | tickedThread noProcess expired first =>
      refine ⟨fun _ => rfl, .inr ⟨more noProcess, processes_recordTurn ?_, rfl⟩⟩
      exact fun switches => more noProcess switches.1
  | @tickedProcess p processes t rest heap expired firstProcess first =>
      obtain ⟨switch, rfl⟩ := (scheduled.tick_switches reached).mpr (.inl ⟨expired, several⟩)
      have switches : s.SwitchesProcess .tick := ⟨expired, by rw [empty_eq, firstProcess]; rfl⟩
      have different := scheduled.cr3_ne_of_mem
        (show p ∈ q.processes .ready by simp [firstProcess])
      refine ⟨fun p' => ?_, .inl ⟨expired, by simp [firstProcess], ?_, ?_⟩⟩
      · by_cases next : p' = p
        · subst next
          simp [different.symm]
        · by_cases before : p' = s.cr3
          · subst before
            simp [next]
          · simp [next, before]
      · rw [RoundRobin.recordTurn_inr reached, if_pos switches]
      · show (((s.setTask s.cr3 fun c => { c with state := .stReady }).suspend .stReady).task
          p).totalQuantum = _
        simp [different.symm]

theorem yield_turns (scheduled : Scheduled s q)
    (performed : s.perform layout .yield = .ok (s', result)) :
    (∀ p, (s'.task p).totalQuantum = (s.task p).totalQuantum) ∧
      s'.remainingQuantumP = s.remainingQuantumP := by
  obtain rfl : result = .switches := Kernel.yield_switches layout s _ performed
  have outcome : Outcome layout s q .yield (s.perform layout .yield) := scheduled.outcome_yield
  rw [performed] at outcome
  obtain ⟨q', transition, represents⟩ := outcome
  cases transition with
  | yielded => exact ⟨fun _ => rfl, rfl⟩

theorem quantum_resume (s : Kernel) (p : TaskId) (t t' : ThreadPtr) :
    ((s.resume p t).thread t').quantum = (s.thread t').quantum := by
  rw [thread_resume]
  exact field_update ThreadStruct.quantum (by rfl) t'

theorem quantum_suspend (s : Kernel) (t : ThreadPtr) :
    ((s.suspend .stReady).thread t).quantum = (s.thread t).quantum := by
  rw [thread_suspend]
  exact field_update ThreadStruct.quantum (by rfl) t

/-- In the only process that is ready a tick switches the thread when its quantum has expired. -/
theorem tick_alone (scheduled : Scheduled s q) (alone : q.processes .ready = [])
    (waiting : q.threads (.ready s.cr3) ≠ [])
    (performed : s.perform layout .tick = .ok (s', result)) (turns : Turns) :
    s'.cr3 = s.cr3 ∧ (∀ t, (s'.thread t).quantum = (s.thread t).quantum) ∧
      (s.remainingQuantumT - 1 = 0 ∧ s'.current ∈ q.threads (.ready s.cr3) ∧
          (recordTurn layout turns s .tick s' result).threads =
            turns.threads ++ [(s'.cr3, s'.current)] ∧
          s'.remainingQuantumT = (s.thread s'.current).quantum ∨
        s.remainingQuantumT - 1 ≠ 0 ∧
          (recordTurn layout turns s .tick s' result).threads = turns.threads ∧
          s'.remainingQuantumT = s.remainingQuantumT - 1) := by
  obtain rfl : result = .switches := Kernel.tick_switches layout s _ performed
  have outcome : Outcome layout s q .tick (s.perform layout .tick) := scheduled.outcome_tick
  rw [perform_eq] at performed
  obtain ⟨next, reached, _⟩ := bind_eq_ok.mp performed
  rw [perform_eq, performed] at outcome
  obtain ⟨q', transition, represents⟩ := outcome
  have switches := scheduled.tick_switches reached
  cases transition with
  | ticked noProcess noThread =>
      have more : s.remainingQuantumT - 1 ≠ 0 := fun zero => noThread ⟨zero, waiting⟩
      cases next with
      | inr switch => exact absurd (switches.mp ⟨_, rfl⟩) (not_or.mpr ⟨noProcess, noThread⟩)
      | inl ended =>
          rw [RoundRobin.recordTurn_inl reached]
          exact ⟨rfl, fun _ => rfl, .inr ⟨more, rfl, if_neg more⟩⟩
  | @tickedThread t rest heap noProcess expired first =>
      obtain ⟨switch, rfl⟩ := switches.mpr (.inr ⟨expired, waiting⟩)
      rw [RoundRobin.recordTurn_inr reached]
      refine ⟨rfl, fun t' => ?_, .inl ⟨expired, by simp [first], rfl, ?_⟩⟩
      · exact (quantum_resume _ s.cr3 _ _).trans (quantum_suspend _ _)
      · exact quantum_suspend _ _
  | tickedProcess expired firstProcess first =>
      exact absurd (alone.symm.trans firstProcess) (by simp)

theorem yield_alone (scheduled : Scheduled s q)
    (performed : s.perform layout .yield = .ok (s', result)) (turns : Turns) :
    s'.cr3 = s.cr3 ∧ (∀ t, (s'.thread t).quantum = (s.thread t).quantum) ∧
      (s'.current ∈ q.threads (.ready s.cr3) ∨ s'.current = s.current) ∧
      (recordTurn layout turns s .yield s' result).threads =
        turns.threads ++ [(s'.cr3, s'.current)] ∧
      s'.remainingQuantumT = (s.thread s'.current).quantum := by
  obtain rfl : result = .switches := Kernel.yield_switches layout s _ performed
  have outcome : Outcome layout s q .yield (s.perform layout .yield) := scheduled.outcome_yield
  rw [perform_eq] at performed
  obtain ⟨next, reached, _⟩ := bind_eq_ok.mp performed
  obtain ⟨switch, rfl⟩ := Scheduled.yield_switches reached
  rw [perform_eq, performed] at outcome
  obtain ⟨q', transition, represents⟩ := outcome
  rw [RoundRobin.recordTurn_inr reached]
  cases transition with
  | @yielded t rest heap first =>
      have member : ThreadPtr.slot t ∈ q.threads (.ready s.cr3) ++ [s.current] := by simp [first]
      refine ⟨rfl, fun t' => ?_, by simpa using member, rfl, ?_⟩
      · exact (quantum_resume _ s.cr3 _ _).trans (quantum_suspend _ _)
      · exact quantum_suspend _ _

end Scheduled

/-! ## Runs -/

/-- The turns, and the number of ticks. -/
def recordTicks (layout : Layout) (history : Turns × Nat) (s : Kernel) (action : Action)
    (s' : Kernel) (result : Result) : Turns × Nat :=
  (recordTurn layout history.1 s action s' result,
    match action with
    | .tick => history.2 + 1
    | _ => history.2)

theorem Turns.length_of (turns : Turns) (p : TaskId) :
    (turns.of p).length = (turns.threads.map Prod.fst).count p := by
  rw [of, List.length_map, ← List.countP_eq_length_filter, List.count, List.countP_map]
  exact List.countP_congr fun turn _ => by simp

variable {s₀ : Kernel} {q₀ : Queues} {turns turns' : Turns} {ticks longest k : Nat}

theorem Turns.of_eq (same : turns'.threads = turns.threads) (p : TaskId) :
    turns'.of p = turns.of p := by
  rw [of, of, same]

theorem Turns.of_eq_append (next : turns'.threads = turns.threads ++ [(p, t)]) :
    turns'.of p = turns.of p ++ [t] := by
  simp [of, next]

/-- The processes are switched in time. -/
structure ByProcess (s₀ : Kernel) (longest : Nat) (s : Kernel) (turns : Turns) (ticks : Nat) :
    Prop where
  quanta : ∀ p, (s.task p).totalQuantum = (s₀.task p).totalQuantum
  sublist : turns.processes.Sublist (turns.threads.map Prod.fst)
  paced : Paced (ticksLeft s₀.remainingQuantumP) longest ticks (ticksLeft s.remainingQuantumP)
    turns.processes.length

/-- The threads of the only process are switched in time. -/
structure ByThread (s₀ : Kernel) (longest : Nat) (s : Kernel) (turns : Turns) (ticks : Nat) :
    Prop where
  cr3 : s.cr3 = s₀.cr3
  quanta : ∀ t, (s.thread t).quantum = (s₀.thread t).quantum
  paced : Paced (ticksLeft s₀.remainingQuantumT) longest ticks (ticksLeft s.remainingQuantumT)
    (turns.of s₀.cr3).length

theorem ticksLeft_pos (counter : Word) : 0 < ticksLeft counter := Nat.succ_pos _

namespace ByProcess

theorem start (s₀ : Kernel) (longest : Nat) : ByProcess s₀ longest s₀ Turns.none 0 where
  quanta _ := rfl
  sublist := .slnil
  paced := .begin (ticksLeft_pos _)

theorem tick (before : ByProcess s₀ longest s turns ticks) (robin : RoundRobin s₀ q₀ s q turns)
    (several : q.processes .ready ≠ [])
    (short : ∀ p ∈ s₀.processRound q₀, ticksLeft (s₀.task p).totalQuantum ≤ longest)
    (performed : s.perform layout .tick = .ok (s', result)) :
    ByProcess s₀ longest s' (recordTurn layout turns s .tick s' result) (ticks + 1) := by
  obtain ⟨quanta, turn⟩ := robin.scheduled.tick_turns several performed turns
  refine ⟨fun p => (quanta p).trans (before.quanta p), sublist_recordTurn before.sublist, ?_⟩
  have paced := before.paced
  rcases turn with ⟨expired, ready, processes, loaded⟩ | ⟨more, processes, left⟩
  · have member : s'.cr3 ∈ s₀.processRound q₀ :=
      robin.processes.perm.mem_iff.mp (List.mem_append_left _ ready)
    rw [ticksLeft_of_expired expired] at paced
    rw [processes, loaded, before.quanta, List.length_append]
    exact paced.serve (short _ member) (ticksLeft_pos _)
  · rw [processes, left]
    exact paced.tick (ticksLeft_pred more) (ticksLeft_pos _)

theorem yield (before : ByProcess s₀ longest s turns ticks) (scheduled : Scheduled s q)
    (performed : s.perform layout .yield = .ok (s', result)) :
    ByProcess s₀ longest s' (recordTurn layout turns s .yield s' result) ticks := by
  obtain ⟨quanta, left⟩ := scheduled.yield_turns performed
  refine ⟨fun p => (quanta p).trans (before.quanta p), sublist_recordTurn before.sublist, ?_⟩
  rw [processes_recordTurn id, left]
  exact before.paced

/-- After `k` rounds of all processes and one more turn the next thread of a process has run. -/
theorem dispatched (before : ByProcess s₀ longest s turns ticks)
    (robin : RoundRobin s₀ q₀ s q turns) (process : p ∈ s₀.processRound q₀)
    (thread : (s₀.threadRound q₀ p)[k]? = some t)
    (enough : ticksLeft s₀.remainingQuantumP +
      longest * ((k + 1) * (s₀.processRound q₀).length - 1) ≤ ticks) : t ∈ turns.of p := by
  have turned := before.paced.lt_turns enough
  have rounds : k + 1 ≤ turns.processes.count p :=
    robin.processes.cyclic.le_count process (by omega)
  have served : k < (turns.of p).length := by
    rw [turns.length_of]
    exact rounds.trans (before.sublist.count_le p)
  exact (robin.threads p).cyclic.mem thread served

end ByProcess

namespace ByThread

theorem start (s₀ : Kernel) (longest : Nat) : ByThread s₀ longest s₀ Turns.none 0 where
  cr3 := rfl
  quanta _ := rfl
  paced := .begin (ticksLeft_pos _)

theorem tick (before : ByThread s₀ longest s turns ticks) (robin : RoundRobin s₀ q₀ s q turns)
    (alone : q.processes .ready = []) (waiting : q.threads (.ready s.cr3) ≠ [])
    (short : ∀ t ∈ s₀.threadRound q₀ s₀.cr3, ticksLeft (s₀.thread t).quantum ≤ longest)
    (performed : s.perform layout .tick = .ok (s', result)) :
    ByThread s₀ longest s' (recordTurn layout turns s .tick s' result) (ticks + 1) := by
  obtain ⟨cr3, quanta, turn⟩ := robin.scheduled.tick_alone alone waiting performed turns
  refine ⟨cr3.trans before.cr3, fun t => (quanta t).trans (before.quanta t), ?_⟩
  have paced := before.paced
  rcases turn with ⟨expired, ready, threads, loaded⟩ | ⟨more, threads, left⟩
  · have member : s'.current ∈ s₀.threadRound q₀ s₀.cr3 := by
      refine (robin.threads s₀.cr3).perm.mem_iff.mp (List.mem_append_left _ ?_)
      rwa [← before.cr3]
    rw [cr3, before.cr3] at threads
    rw [ticksLeft_of_expired expired] at paced
    rw [Turns.of_eq_append threads, loaded, before.quanta, List.length_append]
    exact paced.serve (short _ member) (ticksLeft_pos _)
  · rw [Turns.of_eq threads, left]
    exact paced.tick (ticksLeft_pred more) (ticksLeft_pos _)

theorem yield (before : ByThread s₀ longest s turns ticks) (robin : RoundRobin s₀ q₀ s q turns)
    (short : ∀ t ∈ s₀.threadRound q₀ s₀.cr3, ticksLeft (s₀.thread t).quantum ≤ longest)
    (performed : s.perform layout .yield = .ok (s', result)) :
    ByThread s₀ longest s' (recordTurn layout turns s .yield s' result) ticks := by
  obtain ⟨cr3, quanta, ready, threads, loaded⟩ := robin.scheduled.yield_alone performed turns
  refine ⟨cr3.trans before.cr3, fun t => (quanta t).trans (before.quanta t), ?_⟩
  have member : s'.current ∈ s₀.threadRound q₀ s₀.cr3 := by
    refine (robin.threads s₀.cr3).perm.mem_iff.mp ?_
    rw [← before.cr3, threadRound, if_pos rfl]
    simpa using ready
  rw [cr3, before.cr3] at threads
  rw [Turns.of_eq_append threads, loaded, before.quanta, List.length_append]
  exact before.paced.yield (short _ member) (ticksLeft_pos _)

end ByThread

/-- Ticks and yields since a state in which the running thread is not the only one. -/
structure Clocked (s₀ : Kernel) (q₀ : Queues) (longestP longestT : Nat) (s : Kernel) (q : Queues)
    (turns : Turns) (ticks : Nat) : Prop where
  robin : RoundRobin s₀ q₀ s q turns
  dispatchable : s.Dispatchable
  several : q₀.processes .ready ≠ [] → ByProcess s₀ longestP s turns ticks
  alone : q₀.processes .ready = [] → q₀.threads (.ready s₀.cr3) ≠ [] →
    ByThread s₀ longestT s turns ticks

namespace Clocked

variable {longestP longestT : Nat}

theorem start (scheduled : Scheduled s q) (dispatchable : s.Dispatchable)
    (longestP longestT : Nat) :
    Clocked s q longestP longestT s q Turns.none 0 where
  robin := RoundRobin.start scheduled
  dispatchable := dispatchable
  several _ := ByProcess.start s longestP
  alone _ _ := ByThread.start s longestT

/-- As many processes are ready as at the start. -/
theorem processes_eq_nil (clocked : Clocked s₀ q₀ longestP longestT s q turns ticks) :
    q.processes .ready = [] ↔ q₀.processes .ready = [] := by
  have length := clocked.robin.processes.perm.length_eq
  simp only [processRound, List.length_append, List.length_singleton] at length
  rw [← List.length_eq_zero_iff, ← List.length_eq_zero_iff]
  omega

theorem threads_ne_nil (clocked : Clocked s₀ q₀ longestP longestT s q turns ticks)
    (cr3 : s.cr3 = s₀.cr3) (waiting : q₀.threads (.ready s₀.cr3) ≠ []) :
    q.threads (.ready s.cr3) ≠ [] := by
  have length := (clocked.robin.threads s.cr3).perm.length_eq
  rw [← cr3] at waiting
  simp only [threadRound, cr3, if_true, List.length_append, List.length_singleton] at length
  rw [← cr3] at length
  rw [← List.length_pos_iff] at waiting ⊢
  omega

theorem tick (clocked : Clocked s₀ q₀ longestP longestT s q turns ticks)
    (shortP : ∀ p ∈ s₀.processRound q₀, ticksLeft (s₀.task p).totalQuantum ≤ longestP)
    (shortT : ∀ t ∈ s₀.threadRound q₀ s₀.cr3, ticksLeft (s₀.thread t).quantum ≤ longestT)
    (performed : s.perform layout .tick = .ok (s', result)) :
    ∃ q', Clocked s₀ q₀ longestP longestT s' q' (recordTurn layout turns s .tick s' result)
      (ticks + 1) := by
  obtain ⟨q', robin⟩ := clocked.robin.tick performed
  refine ⟨q', robin, clocked.robin.scheduled.dispatchable_tick clocked.dispatchable performed,
    fun several => ?_, fun alone waiting => ?_⟩
  · exact (clocked.several several).tick clocked.robin
      (fun none => several (clocked.processes_eq_nil.mp none)) shortP performed
  · have before := clocked.alone alone waiting
    exact before.tick clocked.robin (clocked.processes_eq_nil.mpr alone)
      (clocked.threads_ne_nil before.cr3 waiting) shortT performed

theorem yield (clocked : Clocked s₀ q₀ longestP longestT s q turns ticks)
    (shortT : ∀ t ∈ s₀.threadRound q₀ s₀.cr3, ticksLeft (s₀.thread t).quantum ≤ longestT)
    (performed : s.perform layout .yield = .ok (s', result)) :
    ∃ q', Clocked s₀ q₀ longestP longestT s' q' (recordTurn layout turns s .yield s' result)
      ticks := by
  obtain ⟨q', robin⟩ := clocked.robin.yield performed
  refine ⟨q', robin, clocked.robin.scheduled.dispatchable_yield clocked.dispatchable performed,
    fun several => ?_, fun alone waiting => ?_⟩
  · exact (clocked.several several).yield clocked.robin.scheduled performed
  · exact (clocked.alone alone waiting).yield clocked.robin shortT performed

end Clocked

/-- The ticks until the thread with `k` others before it in its process is dispatched at the
latest, when no quantum is longer than those given: all of the processes have their turns before
the next thread, or where there is only one process, all of the threads before it. -/
def waitingTime (s : Kernel) (q : Queues) (longestP longestT k : Nat) : Nat :=
  if q.processes .ready = [] then ticksLeft s.remainingQuantumT + longestT * k
  else ticksLeft s.remainingQuantumP + longestP * ((k + 1) * (s.processRound q).length - 1)

/-- A clock tick, or a `yield` by a thread that has a ready sibling.  Without one the thread would
be switched to itself, to a frame that it has left. -/
def Kernel.TicksOrYieldsToSibling (s : Kernel) : Action → Prop
  | .tick => True
  | .yield => s.listEmpty (.ready s.cr3) = false
  | _ => False

instance (s : Kernel) : DecidablePred s.TicksOrYieldsToSibling
  | .tick => isTrue trivial
  | .yield => inferInstanceAs (Decidable (_ = _))
  | .fork _ | .pthreadCreate _ _ _ | .pthreadJoin _ | .pthreadExit | .exit | .mutexInit _
  | .mutexLock _ | .mutexUnlock _ | .mutexDestroy _ | .store _ _ | .others _ => isFalse id

/-- From any state the scheduler can work with, if another thread is ready there, the clock can
always tick again, and whatever the threads yield to their siblings meanwhile, no thread of a ready
process or of the running one waits for longer. -/
theorem dispatched_of_ticks (layout : Layout) (s₀ s : Kernel) (q₀ : Queues) (turns : Turns)
    (ticks longestP longestT k : Nat) (p : TaskId) (t : ThreadPtr)
    (scheduled : Scheduled s₀ q₀) (dispatchable : s₀.Dispatchable)
    (others : q₀.processes .ready ≠ [] ∨ q₀.threads (.ready s₀.cr3) ≠ [])
    (shortP : ∀ p ∈ s₀.processRound q₀, ticksLeft (s₀.task p).totalQuantum ≤ longestP)
    (shortT : ∀ t ∈ s₀.threadRound q₀ s₀.cr3, ticksLeft (s₀.thread t).quantum ≤ longestT)
    (reaches : Reaches (recordStep (perform layout) (recordTicks layout))
      (fun state action => state.1.TicksOrYieldsToSibling action) (s₀, Turns.none, 0)
      (s, turns, ticks))
    (process : p ∈ s₀.processRound q₀) (thread : (s₀.threadRound q₀ p)[k]? = some t) :
    (∃ s', s.perform layout .tick = .ok (s', .switches)) ∧
      (waitingTime s₀ q₀ longestP longestT k ≤ ticks → t ∈ turns.of p) := by
  have clocked : ∃ q, Clocked s₀ q₀ longestP longestT s q turns ticks := by
    refine reaches.invariant (fun state =>
      ∃ q, Clocked s₀ q₀ longestP longestT state.1 q state.2.1 state.2.2) ?_
      ⟨q₀, Clocked.start scheduled dispatchable longestP longestT⟩
    rintro ⟨s, turns, ticks⟩ after action ⟨q, clocked⟩ admitted taken
    obtain ⟨s', result, performed, rfl⟩ := recordStep_eq_ok.mp taken
    cases action with
    | tick => exact clocked.tick shortP shortT performed
    | yield => exact clocked.yield shortT performed
    | _ => exact admitted.elim
  obtain ⟨q, clocked⟩ := clocked
  refine ⟨clocked.robin.scheduled.tick_ok clocked.dispatchable layout, fun enough => ?_⟩
  rw [waitingTime] at enough
  split_ifs at enough with alone
  · have waiting := others.resolve_left (not_not_intro alone)
    rw [processRound, alone, List.nil_append, List.mem_singleton] at process
    subst process
    exact (clocked.robin.threads _).cyclic.mem thread
      ((clocked.alone alone waiting).paced.lt_turns enough)
  · exact (clocked.several alone).dispatched clocked.robin process thread enough

/-- The first process creates a thread and forks.  The thread is dispatched when the child has had
its turn, after 40 ticks. -/
theorem dispatched_of_ticks_two : ∃ s₀ q₀ s turns, Scheduled s₀ q₀ ∧
    Reaches (recordStep (perform plainLayout) (recordTicks plainLayout))
      (fun state action => state.1.TicksOrYieldsToSibling action) (s₀, Turns.none, 0)
      (s, turns, 40) ∧
    s₀.linked .readyqueue = [.task 2] ∧ .slot 2 ∈ turns.of 1 := by
  obtain ⟨s₀, reachable, goal⟩ := reachable_of_checkBoot (UnlocksOwn plainLayout)
    (fun s action => decide (s.UnlocksOwn plainLayout action))
    (fun s => decide ((s.linked .readyqueue = [.task 2] ∧ s.linked (.ready 1) =
        [.thread (.slot 2)]) ∧ (s.cr3 = 1 ∧ s.current = .slot 1) ∧ s.remainingQuantumP = 20 ∧
        ((s.task 1).totalQuantum = 20 ∧ (s.task 2).totalQuantum = 20) ∧
        (s.thread (.slot 1)).quantum = 10 ∧ (s.thread (.slot 2)).quantum = 10) &&
      checkRun (recordStep (perform plainLayout) (recordTicks plainLayout))
        (fun state action => decide (state.1.TicksOrYieldsToSibling action))
        (fun state => decide (state.2.2 = 40)) (s, Turns.none, 0)
        (.yield :: .yield :: List.replicate 40 .tick))
    [.pthreadCreate (fun _ => 0) 0x108000 0x100000, .fork fun _ => 0]
    (fun _ _ => of_decide_eq_true) (by decide +kernel)
  obtain ⟨start, run⟩ := Bool.and_eq_true_iff.mp goal
  obtain ⟨⟨ready, waiting⟩, ⟨cr3, current⟩, left, quanta, quantaT⟩ := of_decide_eq_true start
  obtain ⟨q₀, consistent, noImage⟩ := noImage_of_unlocksOwn reachable
  obtain ⟨⟨s, turns, ticks⟩, reaches, counted⟩ := reaches_of_checkRun
    (fun _ _ => of_decide_eq_true) run
  obtain rfl : ticks = 40 := of_decide_eq_true counted
  have processes : q₀.processes .ready = [2] := by
    have linked := consistent.linked_processes .ready
    rw [ProcessQueue.node_ready, ready] at linked
    exact List.map_injective_iff.mpr task_injective linked.symm
  have threads : q₀.threads (.ready 1) = [.slot 2] := by
    have linked := consistent.linked_threads (.ready 1)
    rw [ThreadQueue.node_ready, waiting] at linked
    exact List.map_injective_iff.mpr thread_injective linked.symm
  have round : s₀.processRound q₀ = [2, 1] := by rw [processRound, processes, cr3]; rfl
  have roundT : s₀.threadRound q₀ 1 = [.slot 2, .slot 1] := by
    rw [threadRound, threads, cr3, if_pos rfl, current]
    rfl
  refine ⟨s₀, q₀, s, turns, consistent.scheduled, reaches, ready, ?_⟩
  refine (dispatched_of_ticks plainLayout s₀ s q₀ turns 40 20 10 0 1 (.slot 2) consistent.scheduled
    (consistent.dispatchable noImage) (.inl (by simp [processes])) ?_ ?_ reaches (by simp [round])
    (by simp [roundT])).2 ?_
  · rw [round]
    intro p member
    rcases List.mem_pair.mp member with rfl | rfl
    · rw [quanta.2]; decide
    · rw [quanta.1]; decide
  · rw [cr3, roundT]
    intro t member
    rcases List.mem_pair.mp member with rfl | rfl
    · rw [quantaT.2]; decide
    · rw [quantaT.1]; decide
  · rw [waitingTime, if_neg (by simp [processes]), round, left]
    decide

end Zeos
