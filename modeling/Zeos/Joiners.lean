import Zeos.Loops
import Zeos.Observation

/-!
# Joiners of a thread that ends

The loop of `pthread_exit` wakes every blocked thread that joins the one that ends, but puts all it
visits back on the blocked list.  Only the first blocked thread, which it treats last, stays awake.
-/

namespace Zeos

open IntrusiveList GuardedRun

namespace Kernel

/-- `sys_pthread_exit` up to the point where it calls `sched_next_thread_rr`. -/
def endThread (layout : Layout) (s : Kernel) : Except Fault Kernel := do
  let s ← s.listAddTail (.thread s.current) .freeThreadqueue
  let p ← s.currentP
  s.wakeJoiners layout p

theorem sysPthreadExit_eq (layout : Layout) (s : Kernel) : s.sysPthreadExit layout = do
    let s ← s.endThread layout
    let s ← s.schedNextThreadRr layout
    return (s, .switches) := by
  simp only [sysPthreadExit, endThread, bind_assoc]

/-- The lists are well formed, the running thread of process `p` is in none of them, and the blocked
threads of `p` are in state blocked. -/
structure Exiting (s : Kernel) (q : Queues) (p : TaskId) : Prop where
  represents : Represents s.heap q
  process : (s.thread s.current).p = .slot p
  absent : q.threads.Absent s.current
  last : ∀ m slot, q.head m = .unlisted (some slot) → s.current ≠ .slot slot
  blocked : ∀ t ∈ q.threads (.blocked p), (s.thread t).state = .stBlocked

/-- Exactly the blocked threads that join the running one have been moved to the end of the ready
list; the others are blocked in the order in which they were. -/
structure WakesJoiners (s : Kernel) (q : Queues) (p : TaskId) (s' : Kernel) : Prop where
  ready : s'.linked (.ready p) = (q.threads (.ready p) ++
    (q.threads (.blocked p)).filter fun t => s.Joins t).map .thread
  blocked : s'.linked (.blocked p) =
    ((q.threads (.blocked p)).filter fun t => ¬s.Joins t).map .thread
  states : ∀ t ∈ q.threads (.blocked p),
    (s'.thread t).state = if s.Joins t then .stReady else .stBlocked

end Kernel

open Kernel

namespace Queues

variable {q : Queues} {p : TaskId} {t : ThreadPtr} {rest : List ThreadPtr}

/-- What waking the first blocked thread does to the two lists. -/
theorem threads_wakeFirst_cons (wakes : ThreadPtr → Prop) [DecidablePred wakes]
    (separate : q.threads.Separate)
    (blocked : q.threads (.blocked p) = t :: rest) :
    (q.wakeFirst p wakes).threads (.ready p) =
        q.threads (.ready p) ++ (if wakes t then [t] else []) ∧
      (q.wakeFirst p wakes).threads (.blocked p) = if wakes t then rest else t :: rest := by
  have member : t ∈ q.threads (.blocked p) := by simp [blocked]
  rw [wakeFirst, blocked]
  dsimp only
  split_ifs with woken
  · rw [threads_moveThread, Lanes.push_same, Lanes.push_other (by simp),
      separate.remove_other member (by simp), Lanes.remove_first blocked]
    exact ⟨rfl, rfl⟩
  · exact ⟨(List.append_nil _).symm, blocked⟩

/-- The first blocked thread is the only one to be woken exactly if this wakes all that are to be
woken, and no others. -/
theorem wakeFirst_eq_filter_iff (p : TaskId) (wakes : ThreadPtr → Prop) [DecidablePred wakes]
    (separate : q.threads.Separate) :
    ((q.wakeFirst p wakes).threads (.ready p) =
          q.threads (.ready p) ++ (q.threads (.blocked p)).filter (wakes ·) ∧
        (q.wakeFirst p wakes).threads (.blocked p) =
          (q.threads (.blocked p)).filter (¬wakes ·)) ↔
      ∀ t ∈ (q.threads (.blocked p)).tail, ¬wakes t := by
  cases blocked : q.threads (.blocked p) with
  | nil =>
      rw [wakeFirst, blocked]
      simp [blocked]
  | cons t rest =>
      obtain ⟨ready_eq, blocked_eq⟩ := threads_wakeFirst_cons wakes separate blocked
      rw [ready_eq, blocked_eq, List.tail_cons]
      constructor
      · rintro ⟨_, others⟩ x inside woken
        have stays : x ∈ (t :: rest).filter (¬wakes ·) := by
          rw [← others]
          split_ifs
          · exact inside
          · exact List.mem_cons_of_mem t inside
        exact of_decide_eq_true (List.mem_filter.mp stays).2 woken
      · intro nobody
        have none_woken : rest.filter (wakes ·) = [] :=
          List.filter_eq_nil_iff.mpr fun x inside => by simpa using nobody x inside
        have all_kept : rest.filter (¬wakes ·) = rest :=
          List.filter_eq_self.mpr fun x inside => by simpa using nobody x inside
        rw [List.filter_cons, List.filter_cons, none_woken, all_kept]
        split_ifs <;> simp_all

end Queues

variable {layout : Layout} {s : Kernel} {q : Queues} {p : TaskId}

/-- The end of a thread up to the switch. -/
theorem endThread_eq (layout : Layout) (exiting : s.Exiting q p) :
    ∃ heap, s.endThread layout = .ok { s.readyJoiners (q.threads (.blocked p)) with heap } ∧
      Represents heap ((q.pushThread .free s.current).wakeFirst p s.Joins) := by
  obtain ⟨heap, pushed, represents⟩ :=
    exiting.represents.pushThread .free trivial exiting.absent exiting.last
  have blocked : (q.pushThread .free s.current).threads (.blocked p) = q.threads (.blocked p) := by
    simp
  obtain ⟨heap', woken, represents'⟩ := wakeJoiners_eq (s := { s with heap }) layout represents
    exiting.process (fun t member => by simp [exiting.blocked t (blocked ▸ member)])
    (fun member => exiting.absent _ (blocked ▸ member))
  rw [blocked] at woken
  simp only [ThreadQueue.node_free] at pushed
  refine ⟨heap', ?_, represents'⟩
  rw [endThread, pushed, ok_bind, show Kernel.currentP { s with heap } = .ok p from
    currentP_eq exiting.process, ok_bind]
  exact woken

/-- The loop ends, and the exit wakes the joiners as it should exactly if none of them is behind the
first blocked thread. -/
theorem wakesJoiners_iff (layout : Layout) (s : Kernel) (q : Queues) (p : TaskId)
    (exiting : s.Exiting q p) :
    ∃ s', s.endThread layout = .ok s' ∧
      (s.WakesJoiners q p s' ↔ ∀ t ∈ (q.threads (.blocked p)).tail, ¬s.Joins t) := by
  obtain ⟨heap, ended, represents⟩ := endThread_eq layout exiting
  generalize result : ({ s.readyJoiners (q.threads (.blocked p)) with heap } : Kernel) = s' at ended
  have heap_eq : s'.heap = heap := result ▸ rfl
  have thread_eq : s'.thread = (s.readyJoiners (q.threads (.blocked p))).thread := result ▸ rfl
  rw [← heap_eq] at represents
  have separate : (q.pushThread .free s.current).threads.Separate :=
    exiting.represents.separate_threads.push exiting.absent
  have blocked : (q.pushThread .free s.current).threads (.blocked p) = q.threads (.blocked p) := by
    simp
  have ready : (q.pushThread .free s.current).threads (.ready p) = q.threads (.ready p) := by simp
  have decided := Queues.wakeFirst_eq_filter_iff p s.Joins separate
  rw [blocked, ready] at decided
  have ready_eq := represents.linked_threads (.ready p)
  have blocked_eq := represents.linked_threads (.blocked p)
  rw [ThreadQueue.node_ready] at ready_eq
  rw [ThreadQueue.node_blocked] at blocked_eq
  refine ⟨s', ended, decided.symm.trans ?_ |>.symm⟩
  constructor
  · rintro ⟨readies, stays⟩
    refine ⟨by rw [ready_eq, readies], by rw [blocked_eq, stays], fun t member => ?_⟩
    rw [thread_eq, readyJoiners]
    dsimp only
    by_cases joins : s.Joins t
    · rw [if_pos ⟨member, joins⟩, if_pos joins]
    · rw [if_neg (fun both => joins both.2), if_neg joins, exiting.blocked t member]
  · intro wakes
    exact ⟨List.map_injective_iff.mpr thread_injective (ready_eq.symm.trans wakes.ready),
      List.map_injective_iff.mpr thread_injective (blocked_eq.symm.trans wakes.blocked)⟩

/-- The running thread of a state in a run without `mutex_unlock` can end. -/
theorem exiting_of_checkBoot (goal : Kernel → Bool) (actions : List Action)
    (check : checkBoot
      (fun _ action => match action with
        | .mutexUnlock _ => false
        | _ => true)
      (fun s => decide (∀ t, .thread t ∈ s.linked (.blocked s.cr3) →
        (s.thread t).state = .stBlocked) && goal s) actions = true) :
    ∃ s q, s.Exiting q s.cr3 ∧ goal s = true := by
  have admits : ∀ (s : Kernel) (action : Action), (match action with
      | .mutexUnlock _ => false
      | _ => true) = true → s.WakesOwn action := by
    intro s action allowed
    cases action with
    | mutexUnlock => exact absurd allowed (by simp)
    | _ => trivial
  obtain ⟨s, reachable, met⟩ := reachable_of_checkBoot WakesOwn _ _ actions admits check
  obtain ⟨q, consistent, _⟩ := reachable.induct (fun _ _ => True) (fun _ _ => trivial)
    (fun _ _ wakes => wakes) fun _ _ _ _ _ _ => trivial
  obtain ⟨blocked, met⟩ := Bool.and_eq_true_iff.mp met
  have blocked := of_decide_eq_true blocked
  refine ⟨s, q, ⟨consistent.represents, consistent.process, consistent.absent,
    fun _ _ => consistent.last, fun t member => blocked t ?_⟩, met⟩
  exact (consistent.linked_thread_iff (.blocked s.cr3) t).mpr member

/-- The first thread waits for the second one, which ends, and the third thread for the first. -/
theorem wakesJoiners_iff_one :
    ∃ (s : Kernel) (q : Queues) (s' : Kernel), s.Exiting q s.cr3 ∧
      s.linked (.blocked s.cr3) = [.thread (.slot 1), .thread (.slot 3)] ∧
      s.Joins (.slot 1) ∧ (s.thread (.slot 3)).blockedBy = (s.thread (.slot 1)).tid ∧
      s.endThread plainLayout = .ok s' ∧ s.WakesJoiners q s.cr3 s' := by
  obtain ⟨s, q, exiting, goal⟩ := exiting_of_checkBoot
    (fun s => decide (s.linked (.blocked s.cr3) = [.thread (.slot 1), .thread (.slot 3)] ∧
      s.Joins (.slot 1) ∧ ¬s.Joins (.slot 3) ∧
      (s.thread (.slot 3)).blockedBy = (s.thread (.slot 1)).tid))
    [.pthreadCreate (fun _ => 0) 0x108000 0x108000, .pthreadCreate (fun _ => 0) 0x108004 0x108000,
      .store 0x108008 1, .pthreadJoin 0x108000, .yield, .pthreadJoin 0x108008] (by decide +kernel)
  obtain ⟨waiting, first, second, names⟩ := of_decide_eq_true goal
  obtain ⟨s', ended, wakes⟩ := wakesJoiners_iff plainLayout s q s.cr3 exiting
  have two := exiting.represents.linked_threads (.blocked s.cr3)
  rw [ThreadQueue.node_blocked, waiting] at two
  have blocked : q.threads (.blocked s.cr3) = [.slot 1, .slot 3] :=
    List.map_injective_iff.mpr thread_injective two.symm
  refine ⟨s, q, s', exiting, waiting, first, names, ended, wakes.mpr ?_⟩
  rw [blocked]
  simpa using second

/-- Two threads wait for a third one, which ends: the second stays on the blocked list. -/
theorem not_wakesJoiners :
    ¬∀ (layout : Layout) (s : Kernel) (q : Queues) (p : TaskId), s.Exiting q p →
      ∃ s', s.endThread layout = .ok s' ∧ s.WakesJoiners q p s' := by
  intro wakes
  obtain ⟨s, q, exiting, goal⟩ := exiting_of_checkBoot
    (fun s => passes (s.endThread plainLayout) fun s' =>
      decide (s.Joins (.slot 3) ∧ .thread (.slot 3) ∈ s'.linked (.blocked s.cr3)))
    [.pthreadCreate (fun _ => 0) 0x108000 0x108000, .pthreadCreate (fun _ => 0) 0x108004 0x108000,
      .pthreadJoin 0x108000, .yield, .pthreadJoin 0x108000] (by decide +kernel)
  obtain ⟨s', ended, woken⟩ := wakes plainLayout s q s.cr3 exiting
  rw [ended] at goal
  obtain ⟨joins, stays⟩ := of_decide_eq_true (show decide _ = true from goal)
  rw [woken.blocked, List.mem_map_of_injective thread_injective] at stays
  exact of_decide_eq_true (List.mem_filter.mp stays).2 joins

end Zeos
