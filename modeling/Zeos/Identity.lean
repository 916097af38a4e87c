import Zeos.KernelImage
import Zeos.Observation
import Zeos.Slots

/-!
# Identities of processes and threads

`fork` takes PIDs from one counter and `pthread_create` TIDs from one counter for each process. 
What `exit` does not find in the lists of its process keeps its number, while the number of the
process goes.
-/

namespace Zeos

open IntrusiveList GuardedRun Kernel

/-! ## What identifies a thread -/

namespace Kernel

/-- A thread runs, or is linked in a list of ready or blocked threads or of the waiters of a mutex.
-/
def Busy (s : Kernel) (t : ThreadSlot) : Prop :=
  s.current = .slot t ∨ (∃ p, .thread (.slot t) ∈ s.linked (.ready p)) ∨
    (∃ p, .thread (.slot t) ∈ s.linked (.blocked p)) ∨ ∃ m, .thread (.slot t) ∈ s.waiters m

/-- The PID of a thread's process, if it has one, and the TID of the thread. -/
def identity (s : Kernel) (t : ThreadSlot) : Option Word × Word :=
  (match (s.thread (.slot t)).p with
    | .slot p => some (s.task p).pid
    | _ => none, (s.thread (.slot t)).tid)

/-- Live processes have different PIDs, and threads that run or wait differ in the PID of their
process or in their TID. -/
structure UniqueIds (s : Kernel) : Prop where
  processes : ∀ p p', s.Live p → s.Live p' → p ≠ p' → (s.task p).pid ≠ (s.task p').pid
  threads : ∀ t t', s.Busy t → s.Busy t' → t ≠ t' → s.identity t ≠ s.identity t'

end Kernel

/-- How many processes have been made, and how many threads each process has created. -/
structure Births where
  forks : Nat
  creations : TaskId → Nat

/-- Neither has been done in a run yet. -/
def Births.none : Births := ⟨0, fun _ => 0⟩

/-- Fewer than 2^30 of each. -/
def Births.Few (births : Births) : Prop :=
  births.forks < 2 ^ 30 ∧ ∀ p, births.creations p < 2 ^ 30

instance (births : Births) : Decidable births.Few :=
  inferInstanceAs (Decidable (_ ∧ _))

/-- A `fork` that returns a PID makes the first free process anew, and a `pthread_create` that
returns 0 adds a thread to its caller's. -/
def recordBirths (births : Births) (s : Kernel) (action : Action) (_ : Kernel) (result : Result) :
    Births :=
  match action, result with
  | .fork _, .returns value =>
      if 0 ≤ value then
        { forks := births.forks + 1
          creations := fun p => if s.listFirst .freequeue = .task p then 0 else births.creations p }
      else births
  | .pthreadCreate _ _ _, .returns value =>
      if value = 0 then
        { births with
          creations := fun p =>
            if s.currentP = .ok p then births.creations p + 1 else births.creations p }
      else births
  | _, _ => births

/-- There are few processes and threads, no process exits while a thread of it waits for a mutex,
and `mutex_unlock` wakes no thread of another process. -/
def KeepsIds (state : Kernel × Births) (action : Action) : Prop :=
  state.2.Few ∧ state.1.WakesOwn action ∧ (action = .exit → ∀ m t, .thread t ∈ state.1.waiters m →
    (state.1.thread t).p ≠ (state.1.thread state.1.current).p)

/-! ## Threads that run or wait -/

/-- A thread runs or is in a queue other than that of the free ones. -/
def Queues.Busy (q : Queues) (current t : ThreadPtr) : Prop :=
  current = t ∨ ∃ queue, queue ≠ .free ∧ t ∈ q.threads queue

namespace Queues.Busy

variable {q : Queues} {c t u : ThreadPtr} {lane : ThreadQueue}

/-- Another thread runs now, and the one that ran has joined a queue. -/
theorem of_push_remove (busy : ((q.pushThread lane c).removeThread u).Busy u t)
    (next : q.Busy c u) : q.Busy c t := by
  rcases busy with rfl | ⟨queue, waits, member⟩
  · exact next
  · rcases Lanes.mem_push.mp (Lanes.mem_of_mem_remove member) with member | ⟨_, same⟩
    · exact .inr ⟨queue, waits, member⟩
    · exact .inl same.symm

theorem of_moveThread (busy : (q.moveThread u lane).Busy c t) (moved : q.Busy c u) :
    q.Busy c t := by
  rcases busy with running | ⟨queue, waits, member⟩
  · exact .inl running
  · rcases Lanes.mem_push.mp member with member | ⟨_, rfl⟩
    · exact .inr ⟨queue, waits, Lanes.mem_of_mem_remove member⟩
    · exact moved

theorem of_mem_ready {p : TaskId} (member : t ∈ q.threads (.ready p)) : q.Busy c t :=
  .inr ⟨.ready p, by simp, member⟩

theorem of_first {rest : List ThreadPtr} (first : q.threads lane = t :: rest)
    (waits : lane ≠ .free) : q.Busy c t :=
  .inr ⟨lane, waits, by simp [first]⟩

end Queues.Busy

variable {layout : Layout} {s s' : Kernel} {q q' : Queues} {action : Action} {result : Result}

/-- A thread that runs or waits after an `exit` waited before, and not in a list of the process that
exits. -/
theorem mem_exited {p cr3 : TaskId} {t u : ThreadPtr} {rest : List ThreadPtr}
    (first : q.threads (.ready p) = u :: rest) (different : p ≠ cr3)
    (busy : (((((q.pushProcess .free cr3).drainThreads (.ready cr3)).drainThreads
      (.blocked cr3)).removeProcess p).removeThread u).Busy u t) :
    ∃ queue, queue ≠ .free ∧ t ∈ q.threads queue ∧ queue ≠ .ready cr3 ∧ queue ≠ .blocked cr3 := by
  rcases busy with rfl | ⟨queue, waits, member⟩
  · exact ⟨.ready p, by simp, by simp [first], by simp [different], by simp⟩
  · have drained := Lanes.mem_of_mem_remove member
    simp only [Queues.threads_removeProcess, Queues.threads_drainThreads,
      Queues.threads_pushProcess] at drained
    rw [Lanes.mem_drain (by simp), Lanes.mem_drain (by simp)] at drained
    obtain ⟨not_blocked, (⟨not_ready, kept⟩ | ⟨free, _⟩)⟩ := drained
    · exact ⟨queue, waits, kept.resolve_right fun freed => waits freed.1, not_ready, not_blocked⟩
    · exact absurd free waits

/-- A thread that runs or waits did so before, or is the first free one, which `fork` or
`pthread_create` has taken. -/
theorem Transition.busy (transition : Transition layout s q action s' q' result)
    (consistent : Consistent s q) {t : ThreadSlot} (busy : q'.Busy s'.current (.slot t)) :
    q.Busy s.current (.slot t) ∨ (∃ rest, q.threads .free = .slot t :: rest) ∧
      (s'.globalPID = s.globalPID + 1 ∨
        ∃ stack id startRoutine, action = .pthreadCreate stack id startRoutine) := by
  cases transition with
  | refused | stored | others | ticked | locked | unlockedFree => exact .inl busy
  | tickedThread _ _ first | joined _ _ first | waited _ _ _ _ first =>
      exact .inl (busy.of_push_remove (.of_first first (by simp)))
  | @yielded u rest heap first =>
      refine .inl (busy.of_push_remove ?_)
      have member : .slot u ∈ q.threads (.ready s.cr3) ++ [s.current] := by simp [first]
      rcases List.mem_append.mp member with ready | own
      · exact .of_mem_ready ready
      · exact .inl (List.mem_singleton.mp own).symm
  | tickedProcess _ _ first =>
      exact .inl (busy.of_push_remove (.of_first first (by simp)))
  | forked freeProcess freeThread =>
      rcases busy with running | ⟨queue, waits, member⟩
      · exact .inl (.inl running)
      · rcases Lanes.mem_push.mp member with member | ⟨_, same⟩
        · exact .inl (.inr ⟨queue, waits, Lanes.mem_of_mem_remove member⟩)
        · exact .inr ⟨⟨_, same ▸ freeThread⟩, .inl rfl⟩
  | forkFailed =>
      rcases busy with running | ⟨queue, waits, member⟩
      · exact .inl (.inl running)
      · exact .inl (.inr ⟨queue, waits, Lanes.mem_of_mem_remove member⟩)
  | created freeThread =>
      rcases busy with running | ⟨queue, waits, member⟩
      · exact .inl (.inl running)
      · rcases Lanes.mem_push.mp member with member | ⟨_, same⟩
        · exact .inl (.inr ⟨queue, waits, Lanes.mem_of_mem_remove member⟩)
        · exact .inr ⟨⟨_, same ▸ freeThread⟩, .inr ⟨_, _, _, rfl⟩⟩
  | @ended u rest heap first =>
      have woken : ∀ {queue x}, queue ≠ .free →
          x ∈ ((q.pushThread .free s.current).wakeFirst s.cr3 s.Joins).threads queue →
          q.Busy s.current x := by
        intro queue x waits member
        by_cases ready : queue = .ready s.cr3
        · subst ready
          rcases mem_ready_wakeFirst member with ready | blocked
          · exact .of_mem_ready (by simpa using ready)
          · exact .inr ⟨.blocked s.cr3, by simp, by simpa using blocked⟩
        · have kept := Coherent.wakeFirst_subset ready member
          rw [Queues.threads_pushThread, Lanes.push_other waits] at kept
          exact .inr ⟨queue, waits, kept⟩
      rcases busy with running | ⟨queue, waits, member⟩
      · exact .inl (@woken (.ready s.cr3) _ (by simp) (by simp [first, ← running]))
      · exact .inl (woken waits (Lanes.mem_of_mem_remove member))
  | @exited p _ _ _ _ _ firstProcess first =>
      have ready : p ∈ q.processes .ready := by simp [firstProcess]
      obtain ⟨queue, waits, member, _⟩ :=
        mem_exited first (consistent.cr3_ne_of_mem ready).symm busy
      exact .inl (.inr ⟨queue, waits, member⟩)
  | initialised =>
      rcases busy with running | ⟨queue, waits, member⟩
      · exact .inl (.inl running)
      · exact .inl (.inr ⟨queue, waits, (Lanes.mem_clear.mp member).2⟩)
  | lost _ _ _ _ _ first =>
      rcases busy with running | ⟨queue, waits, member⟩
      · have running : .slot _ = ThreadPtr.slot t := running
        exact .inl (.of_first (running ▸ first) (by simp))
      · exact .inl (.inr ⟨queue, waits, Lanes.mem_of_mem_remove member⟩)
  | unlocked _ _ _ first =>
      exact .inl (busy.of_moveThread (.of_first first (by simp)))
  | unlockedNobody =>
      rcases busy with running | ⟨queue, waits, member⟩
      · exact .inl (.inl running)
      · rcases Lanes.mem_push.mp member with member | ⟨_, same⟩
        · exact .inl (.inr ⟨queue, waits, Lanes.mem_of_mem_remove member⟩)
        · exact absurd same (by simp)
  | destroyed =>
      rcases busy with running | ⟨queue, waits, member⟩
      · exact .inl (.inl running)
      · rw [mem_moveHome consistent.threads] at member
        split at member
        · rename_i woken
          exact .inl (.inr ⟨_, by simp, woken⟩)
        · exact .inl (.inr ⟨queue, waits, member⟩)

/-- A thread that is not free keeps its process and its number, unless `exit` frees it. -/
theorem Transition.names_kept (transition : Transition layout s q action s' q' result)
    {t : ThreadPtr} (taken : t ∉ q.threads .free) :
    (s'.thread t).p = (s.thread t).p ∧ (s'.thread t).tid = (s.thread t).tid ∨
      action = .exit ∧ (t ∈ q.threads (.ready s.cr3) ∨ t ∈ q.threads (.blocked s.cr3)) := by
  have other : ∀ {u rest}, q.threads .free = u :: rest → t ≠ u := by
    rintro u rest free rfl
    exact taken (by simp [free])
  cases transition with
  | refused | stored | others | ticked | initialised | locked | unlockedFree =>
      exact .inl ⟨rfl, rfl⟩
  | forked _ freeThread => exact .inl (by simp [other freeThread])
  | forkFailed _ freeThread => exact .inl (by simp [other freeThread, allocateDIR])
  | created freeThread => exact .inl (by simp [other freeThread])
  | exited =>
      by_cases cleared : t ∈ q.threads (.ready s.cr3) ++ q.threads (.blocked s.cr3)
      · exact .inr ⟨rfl, List.mem_append.mp cleared⟩
      · left
        simp only [thread_resume, thread_resumeProcess, saveEsp, clearTids, thread_setThread,
          Function.update_apply]
        constructor <;> split_ifs <;> simp_all
  | tickedThread | tickedProcess | joined | yielded | waited | lost | ended | unlocked
  | unlockedNobody | destroyed =>
      left
      simp only [thread_resume, thread_suspend, thread_setThread, thread_setState,
        thread_setMutex, thread_resumeProcess, saveEsp, readyJoiners, releaseStates,
        Function.update_apply]
      constructor <;> split_ifs <;> simp_all

theorem Consistent.not_free_of_busy (consistent : Consistent s q) {t : ThreadPtr}
    (busy : q.Busy s.current t) : t ∉ q.threads .free := by
  intro free
  rcases busy with rfl | ⟨queue, waits, member⟩
  · exact consistent.absent .free free
  · exact waits (consistent.threads.unique member free)

/-! ## The numbers -/

/-- A counter that has not run out. -/
theorem toNat_succ {counter : Word} (bound : counter.toNat + 1 < 2 ^ 32) :
    (counter + 1).toNat = counter.toNat + 1 := by
  rw [BitVec.toNat_add]
  exact Nat.mod_eq_of_lt bound

/-- All PIDs and TIDs in use have been taken from their counters, and not twice. -/
structure Numbers (s : Kernel) (q : Queues) (births : Births) : Prop where
  counter : s.globalPID.toNat = 1000 + births.forks
  pid : ∀ {p}, p ∉ q.processes .free → (s.task p).pid.toNat ≤ 1000 + births.forks
  pids : ∀ {p p'}, p ∉ q.processes .free → p' ∉ q.processes .free →
    (s.task p).pid = (s.task p').pid → p = p'
  counters : ∀ {p}, p ∉ q.processes .free → (s.task p).nthread.toNat ≤ 2 + births.creations p
  tid : ∀ {t : ThreadSlot}, q.Busy s.current (.slot t) → ∃ p, (s.thread (.slot t)).p = .slot p ∧
    p ∉ q.processes .free ∧ (s.thread (.slot t)).tid.toNat < (s.task p).nthread.toNat
  tids : ∀ {t t' : ThreadSlot}, q.Busy s.current (.slot t) → q.Busy s.current (.slot t') →
    (s.thread (.slot t)).p = (s.thread (.slot t')).p →
    (s.thread (.slot t)).tid = (s.thread (.slot t')).tid → t = t'

namespace Numbers

variable {births : Births}

/-- After boot there are the idle process and the first one. -/
theorem live_booted (layout : Layout) (heap : Heap Node) {p : TaskId}
    (live : p ∉ bootQueues.processes .free) :
    p = idleProcess ∧ ((Kernel.booted layout heap).task p).pid = 0 ∧
        ((Kernel.booted layout heap).task p).nthread = 0 ∨
      p = 1 ∧ ((Kernel.booted layout heap).task p).pid = 1 ∧
        ((Kernel.booted layout heap).task p).nthread = 2 := by
  rw [Coherent.mem_free_bootQueues, not_and_or, not_not, not_not] at live
  rcases live with rfl | rfl
  · exact .inl ⟨rfl, rfl, rfl⟩
  · exact .inr ⟨rfl, rfl, rfl⟩

theorem busy_booted (layout : Layout) (heap : Heap Node) {t : ThreadSlot}
    (busy : bootQueues.Busy (Kernel.booted layout heap).current (.slot t)) : t = 1 := by
  rcases busy with running | ⟨queue, waits, member⟩
  · exact (ThreadPtr.slot.inj running).symm
  · exact absurd (mem_bootQueues member).1 waits

theorem booted (layout : Layout) (heap : Heap Node) :
    Numbers (Kernel.booted layout heap) bootQueues .none where
  counter := rfl
  pid live := by
    rcases live_booted layout heap live with ⟨_, pid, _⟩ | ⟨_, pid, _⟩
    · rw [pid]
      decide
    · rw [pid]
      decide
  pids live live' same := by
    rcases live_booted layout heap live with ⟨rfl, pid, _⟩ | ⟨rfl, pid, _⟩ <;>
    rcases live_booted layout heap live' with ⟨rfl, pid', _⟩ | ⟨rfl, pid', _⟩
    · rfl
    · exact absurd (pid.symm.trans (same.trans pid')) (by decide)
    · exact absurd (pid.symm.trans (same.trans pid')) (by decide)
    · rfl
  counters live := by
    rcases live_booted layout heap live with ⟨_, _, nthread⟩ | ⟨_, _, nthread⟩
    · rw [nthread]
      exact Nat.zero_le _
    · rw [nthread]
      exact Nat.le_add_right _ _
  tid busy := by
    obtain rfl := busy_booted layout heap busy
    refine ⟨1, rfl, by rw [Coherent.mem_free_bootQueues]; simp, ?_⟩
    show (1 : Word).toNat < (2 : Word).toNat
    decide
  tids busy busy' _ _ := (busy_booted layout heap busy).trans (busy_booted layout heap busy').symm

/-- A step that makes neither a process nor a thread, and after which the processes of the threads
that run or wait are live. -/
theorem keep (numbers : Numbers s q births) (counter : s'.globalPID = s.globalPID)
    (live : ∀ {p}, p ∉ q'.processes .free → p ∉ q.processes .free ∧
      (s'.task p).pid = (s.task p).pid ∧ (s'.task p).nthread = (s.task p).nthread)
    (busy : ∀ {t : ThreadSlot}, q'.Busy s'.current (.slot t) → q.Busy s.current (.slot t) ∧
      (s'.thread (.slot t)).p = (s.thread (.slot t)).p ∧
      (s'.thread (.slot t)).tid = (s.thread (.slot t)).tid)
    (stays : ∀ {t : ThreadSlot} {p}, q'.Busy s'.current (.slot t) →
      (s.thread (.slot t)).p = .slot p → p ∉ q.processes .free → p ∉ q'.processes .free) :
    Numbers s' q' births where
  counter := by rw [counter]; exact numbers.counter
  pid unfree := by
    obtain ⟨before, pid, _⟩ := live unfree
    rw [pid]
    exact numbers.pid before
  pids unfree unfree' same := by
    obtain ⟨before, pid, _⟩ := live unfree
    obtain ⟨before', pid', _⟩ := live unfree'
    rw [pid, pid'] at same
    exact numbers.pids before before' same
  counters unfree := by
    obtain ⟨before, _, nthread⟩ := live unfree
    rw [nthread]
    exact numbers.counters before
  tid running := by
    obtain ⟨before, process, tid⟩ := busy running
    obtain ⟨p, own, unfree, below⟩ := numbers.tid before
    have stay := stays running own unfree
    rw [process, tid]
    exact ⟨p, own, stay, by rw [(live stay).2.2]; exact below⟩
  tids running running' sameProcess sameTid := by
    obtain ⟨before, process, tid⟩ := busy running
    obtain ⟨before', process', tid'⟩ := busy running'
    rw [process, process'] at sameProcess
    rw [tid, tid'] at sameTid
    exact numbers.tids before before' sameProcess sameTid

/-- A step that makes a thread: it belongs to a live process, and its number is below the counter of
the process and not that of another thread of it. -/
theorem make_thread (numbers : Numbers s q births) {u : ThreadSlot} (own : TaskId)
    (busy : ∀ {t : ThreadSlot}, q'.Busy s'.current (.slot t) → t ≠ u →
      q.Busy s.current (.slot t) ∧ (s'.thread (.slot t)).p = (s.thread (.slot t)).p ∧
      (s'.thread (.slot t)).tid = (s.thread (.slot t)).tid)
    (stays : ∀ {p}, p ∉ q.processes .free → p ∉ q'.processes .free ∧
      (s.task p).nthread.toNat ≤ (s'.task p).nthread.toNat)
    (process : (s'.thread (.slot u)).p = .slot own) (live : own ∉ q'.processes .free)
    (below : (s'.thread (.slot u)).tid.toNat < (s'.task own).nthread.toNat)
    (fresh : ∀ {t : ThreadSlot}, q.Busy s.current (.slot t) → (s.thread (.slot t)).p = .slot own →
      (s.thread (.slot t)).tid ≠ (s'.thread (.slot u)).tid) :
    (∀ {t : ThreadSlot}, q'.Busy s'.current (.slot t) → ∃ p, (s'.thread (.slot t)).p = .slot p ∧
        p ∉ q'.processes .free ∧ (s'.thread (.slot t)).tid.toNat < (s'.task p).nthread.toNat) ∧
      ∀ {t t' : ThreadSlot}, q'.Busy s'.current (.slot t) → q'.Busy s'.current (.slot t') →
        (s'.thread (.slot t)).p = (s'.thread (.slot t')).p →
        (s'.thread (.slot t)).tid = (s'.thread (.slot t')).tid → t = t' := by
  have others : ∀ {t : ThreadSlot}, q'.Busy s'.current (.slot t) → t ≠ u →
      (s'.thread (.slot t)).p = .slot own →
      (s'.thread (.slot t)).tid ≠ (s'.thread (.slot u)).tid := by
    intro t running other process'
    obtain ⟨before, kept, tid⟩ := busy running other
    rw [tid]
    exact fresh before (kept ▸ process')
  constructor
  · intro t running
    by_cases new : t = u
    · subst new
      exact ⟨own, process, live, below⟩
    · obtain ⟨before, kept, tid⟩ := busy running new
      obtain ⟨p, own', unfree, below'⟩ := numbers.tid before
      rw [kept, tid]
      exact ⟨p, own', (stays unfree).1, below'.trans_le (stays unfree).2⟩
  · intro t t' running running' sameProcess sameTid
    by_cases new : t = u
    · by_cases new' : t' = u
      · rw [new, new']
      · rw [new] at sameProcess sameTid
        exact absurd sameTid.symm (others running' new' (sameProcess.symm.trans process))
    · by_cases new' : t' = u
      · rw [new'] at sameProcess sameTid
        exact absurd sameTid (others running new (sameProcess.trans process))
      · obtain ⟨before, kept, tid⟩ := busy running new
        obtain ⟨before', kept', tid'⟩ := busy running' new'
        rw [kept, kept'] at sameProcess
        rw [tid, tid'] at sameTid
        exact numbers.tids before before' sameProcess sameTid

/-- What runs or waits after `fork` or `pthread_create` other than the new thread. -/
theorem busy_other (consistent : Consistent s q)
    (transition : Transition layout s q action s' q' result) (continues : action ≠ .exit)
    {u t : ThreadSlot} {rest : List ThreadPtr} (freeThread : q.threads .free = .slot u :: rest)
    (busy : q'.Busy s'.current (.slot t)) (other : t ≠ u) : q.Busy s.current (.slot t) ∧
      (s'.thread (.slot t)).p = (s.thread (.slot t)).p ∧
      (s'.thread (.slot t)).tid = (s.thread (.slot t)).tid := by
  rcases transition.busy consistent busy with before | ⟨⟨rest', free⟩, _⟩
  · rcases transition.names_kept (consistent.not_free_of_busy before) with kept | ⟨exit, _⟩
    · exact ⟨before, kept⟩
    · exact absurd exit continues
  · rw [freeThread, List.cons_eq_cons] at free
    exact absurd (ThreadPtr.slot.inj free.1).symm other

/-- A `fork` makes a process with the next PID and a thread with the first TID. -/
theorem forked (numbers : Numbers s q births) (consistent : Consistent s q) (few : births.Few)
    {stack : Nat → Word} {child : TaskId} {processes : List TaskId} {u : ThreadSlot}
    {rest : List ThreadPtr} (freeProcess : q.processes .free = child :: processes)
    (freeThread : q.threads .free = .slot u :: rest)
    (transition : Transition layout s q (.fork stack) s' q' (.returns (s.globalPID + 1).toInt))
    (counter : s'.globalPID = s.globalPID + 1)
    (task : s'.task = Function.update s.task child (s.childTask child))
    (thread : s'.thread (.slot u) = s.childThread child (.slot u))
    (live : ∀ {p}, p ∉ q'.processes .free ↔ p = child ∨ p ∉ q.processes .free) :
    Numbers s' q' (recordBirths births s (.fork stack) s' (.returns (s.globalPID + 1).toInt)) := by
  have bound := few.1
  have before := numbers.counter
  have next : (s.globalPID + 1).toNat = 1000 + births.forks + 1 := by
    rw [toNat_succ (by omega), before]
  have positive : 0 ≤ (s.globalPID + 1).toInt := by
    rw [BitVec.toInt_eq_toNat_of_lt (by omega)]
    exact Int.natCast_nonneg _
  have node : s.listFirst .freequeue = .task child := by
    have first := consistent.represents.first_processes .free
    rw [freeProcess] at first
    exact first
  have taken : child ∈ q.processes .free := by simp [freeProcess]
  have kept : ∀ {p}, p ∉ q.processes .free → s'.task p = s.task p := by
    intro p unfree
    rw [task, Function.update_of_ne]
    rintro rfl
    exact unfree taken
  have made : s'.task child = s.childTask child := by rw [task, Function.update_self]
  obtain ⟨tid, tids⟩ := numbers.make_thread (u := u) child
    (fun busy other => busy_other consistent transition (by simp) freeThread busy other)
    (fun unfree => ⟨live.mpr (.inr unfree), by rw [kept unfree]⟩)
    (by rw [thread]; rfl) (live.mpr (.inl rfl))
    (by rw [thread, made]; show (1 : Word).toNat < (2 : Word).toNat; decide)
    fun busy process => by
      obtain ⟨p, own, unfree, _⟩ := numbers.tid busy
      obtain rfl : p = child := TaskPtr.slot.inj (own.symm.trans process)
      exact absurd taken unfree
  have pid_child : (s'.task child).pid = s.globalPID + 1 := by rw [made]; rfl
  rw [recordBirths, if_pos positive]
  refine ⟨?_, ?_, ?_, ?_, tid, tids⟩
  · rw [counter, next, Nat.add_assoc]
  · intro p alive
    rcases live.mp alive with rfl | unfree
    · rw [pid_child, next, Nat.add_assoc]
    · rw [kept unfree]
      exact (numbers.pid unfree).trans (Nat.add_le_add_left (Nat.le_succ _) _)
  · intro p p' alive alive' same
    rcases live.mp alive with rfl | unfree
    · rcases live.mp alive' with rfl | unfree'
      · rfl
      · have old := numbers.pid unfree'
        rw [pid_child, kept unfree'] at same
        rw [← same, next] at old
        omega
    · rcases live.mp alive' with rfl | unfree'
      · have old := numbers.pid unfree
        rw [pid_child, kept unfree] at same
        rw [same, next] at old
        omega
      · rw [kept unfree, kept unfree'] at same
        exact numbers.pids unfree unfree' same
  · intro p alive
    rcases live.mp alive with rfl | unfree
    · rw [made]
      exact Nat.le_add_right _ _
    · have other : p ≠ child := by
        rintro rfl
        exact unfree taken
      dsimp only
      rw [kept unfree, node, if_neg (by simpa using other.symm)]
      exact numbers.counters unfree

/-- A `pthread_create` makes a thread with the next TID of its process. -/
theorem created (numbers : Numbers s q births) (consistent : Consistent s q) (few : births.Few)
    {stack : Nat → Word} {id startRoutine : Word} {u : ThreadSlot} {rest : List ThreadPtr}
    (freeThread : q.threads .free = .slot u :: rest)
    (transition : Transition layout s q (.pthreadCreate stack id startRoutine) s' q' (.returns 0))
    (counter : s'.globalPID = s.globalPID)
    (task : s'.task = Function.update s.task s.cr3
      { s.task s.cr3 with nthread := (s.task s.cr3).nthread + 1 })
    (thread : s'.thread (.slot u) = s.newThread (.slot u))
    (processes : q'.processes = q.processes) :
    Numbers s' q'
      (recordBirths births s (.pthreadCreate stack id startRoutine) s' (.returns 0)) := by
  have current : s.currentP = .ok s.cr3 := currentP_eq consistent.process
  have bound := few.2 s.cr3
  have unfree : s.cr3 ∉ q.processes .free := consistent.processAbsent .free
  have count := numbers.counters unfree
  have next : ((s.task s.cr3).nthread + 1).toNat = (s.task s.cr3).nthread.toNat + 1 :=
    toNat_succ (by omega)
  have pid : ∀ p, (s'.task p).pid = (s.task p).pid := by
    intro p
    rw [task, Function.update_apply]
    split_ifs with same
    · rw [same]
    · rfl
  have nthread : ∀ p, (s'.task p).nthread.toNat =
      (s.task p).nthread.toNat + if p = s.cr3 then 1 else 0 := by
    intro p
    rw [task, Function.update_apply]
    split_ifs with same
    · rw [same]
      exact next
    · rfl
  obtain ⟨tid, tids⟩ := numbers.make_thread (u := u) s.cr3
    (fun busy other => busy_other consistent transition (by simp) freeThread busy other)
    (fun unfree => ⟨by rwa [processes], by rw [nthread]; exact Nat.le_add_right _ _⟩)
    (by rw [thread]; exact consistent.process) (by rwa [processes])
    (by rw [thread, nthread, if_pos rfl]; exact Nat.lt_succ_self _)
    fun busy process same => by
      obtain ⟨p, own, _, below⟩ := numbers.tid busy
      obtain rfl : p = s.cr3 := TaskPtr.slot.inj (own.symm.trans process)
      rw [same, thread] at below
      exact absurd below (lt_irrefl _)
  rw [recordBirths, if_pos rfl]
  refine ⟨by rw [counter]; exact numbers.counter, ?_, ?_, ?_, tid, tids⟩
  · intro p alive
    rw [pid]
    exact numbers.pid (processes ▸ alive)
  · intro p p' alive alive' same
    rw [pid, pid] at same
    exact numbers.pids (processes ▸ alive) (processes ▸ alive') same
  · intro p alive
    have old := numbers.counters (p := p) (processes ▸ alive)
    dsimp only
    rw [nthread, current]
    by_cases own : p = s.cr3
    · subst own
      rw [if_pos rfl, if_pos rfl]
      omega
    · rw [if_neg own, if_neg fun same => own (Except.ok.inj same).symm]
      exact old

/-- Every other step but an `exit` makes nothing and frees no process. -/
theorem unmade (numbers : Numbers s q births) (consistent : Consistent s q)
    (transition : Transition layout s q action s' q' result) (continues : action ≠ .exit)
    (notCreate : ∀ stack id startRoutine, action ≠ .pthreadCreate stack id startRoutine)
    (counter : s'.globalPID = s.globalPID)
    (task : ∀ p, (s'.task p).pid = (s.task p).pid ∧ (s'.task p).nthread = (s.task p).nthread) :
    Numbers s' q' births := by
  have counts : s'.globalPID ≠ s.globalPID + 1 := by
    rw [counter]
    simp
  refine numbers.keep counter (fun {p} live => ⟨fun free => ?_, task p⟩) (fun {t} busy => ?_)
    fun {t p} _ _ unfree free => ?_
  · rcases transition.free_stays consistent free with free | ⟨numbered, _⟩
    · exact live free
    · exact counts numbered
  · rcases transition.busy consistent busy with before | ⟨_, numbered | ⟨_, _, _, create⟩⟩
    · rcases transition.names_kept (consistent.not_free_of_busy before) with kept | ⟨exit, _⟩
      · exact ⟨before, kept⟩
      · exact absurd exit continues
    · exact absurd numbered counts
    · exact absurd create (notCreate _ _ _)
  · rcases transition.free_process free with free | ⟨exit, _⟩
    · exact unfree free
    · exact continues exit

theorem recordBirths_negative (births : Births) (s : Kernel) (action : Action) (s' : Kernel)
    {value : Int} (negative : value < 0) :
    recordBirths births s action s' (.returns value) = births := by
  cases action with
  | fork stack => exact if_neg (Int.not_le.mpr negative)
  | pthreadCreate stack id startRoutine => exact if_neg negative.ne
  | _ => rfl

theorem names_setTask (s : Kernel) (p : TaskId) {g : TaskStruct → TaskStruct}
    (same : ∀ c, (g c).pid = c.pid ∧ (g c).nthread = c.nthread) (x : TaskId) :
    ((s.setTask p g).task x).pid = (s.task x).pid ∧
      ((s.setTask p g).task x).nthread = (s.task x).nthread := by
  rw [task_setTask, Function.update_apply]
  split_ifs with equal
  · rw [equal]
    exact same _
  · exact ⟨rfl, rfl⟩

/-- A step keeps the numbers. -/
theorem step (numbers : Numbers s q births) (consistent : Consistent s q)
    (keeps : KeepsIds (s, births) action) (transition : Transition layout s q action s' q' result) :
    Numbers s' q' (recordBirths births s action s' result) := by
  have whole := transition
  cases transition with
  | refused negative =>
      rw [recordBirths_negative births s action _ negative]
      exact numbers.keep rfl (fun live => ⟨live, rfl, rfl⟩) (fun busy => ⟨busy, rfl, rfl⟩)
        fun _ _ live => live
  | @forked stack child processes u threads heap stack' mem freeProcess freeThread =>
      refine numbers.forked consistent keeps.1 freeProcess freeThread whole rfl rfl (by simp) ?_
      intro p
      have removed : p ∈ q.processes.remove child .free ↔ p ≠ child ∧ p ∈ q.processes .free :=
        consistent.processes.mem_remove
      simp only [Queues.processes_pushThread, Queues.processes_pushProcess,
        Queues.processes_removeThread, Queues.processes_removeProcess, Lanes.mem_push, removed]
      simp
      tauto
  | created freeThread =>
      exact numbers.created consistent keeps.1 freeThread whole rfl rfl (by simp) rfl
  | @exited p processes t rest heap mem firstProcess first =>
      have ready : p ∈ q.processes .ready := by simp [firstProcess]
      have different := consistent.cr3_ne_of_mem ready
      refine numbers.keep rfl (fun {x} live => ?_) (fun {x} busy => ?_)
        fun {x own} busy process _ => ?_
      · have removed : x ∉ (q.processes.push .free s.cr3) .free := fun free =>
          live ((List.mem_erase_of_ne fun same => by
            rw [same] at free
            rcases Lanes.mem_push.mp free with free | ⟨_, running⟩
            · exact absurd (consistent.processes.unique ready free) (by simp)
            · exact different running.symm).mpr free)
        obtain ⟨unfree, other⟩ := not_or.mp (mt Lanes.mem_push.mpr removed)
        have other : x ≠ s.cr3 := fun same => other ⟨rfl, same⟩
        refine ⟨unfree, ?_⟩
        by_cases next : x = p
        · subst next
          simp [resumeProcess, other]
        · simp [resumeProcess, other, next]
      · obtain ⟨queue, waits, member, not_ready, not_blocked⟩ :=
          mem_exited first different.symm busy
        have before : q.Busy s.current (.slot x) := .inr ⟨queue, waits, member⟩
        rcases whole.names_kept (consistent.not_free_of_busy before) with kept | ⟨_, freed | freed⟩
        · exact ⟨before, kept⟩
        · exact absurd (consistent.threads.unique member freed) not_ready
        · exact absurd (consistent.threads.unique member freed) not_blocked
      · obtain ⟨queue, waits, member, not_ready, not_blocked⟩ :=
          mem_exited first different.symm busy
        have other : own ≠ s.cr3 := by
          rintro rfl
          cases queue with
          | free => exact waits rfl
          | ready other =>
              have home := (consistent.fits member).1
              obtain rfl := TaskPtr.slot.inj (process.symm.trans home)
              exact not_ready rfl
          | blocked other =>
              have home := (consistent.fits member).1
              obtain rfl := TaskPtr.slot.inj (process.symm.trans home)
              exact not_blocked rfl
          | mutex m =>
              refine keeps.2.2 rfl m (.slot x) ?_ (process.trans consistent.process.symm)
              exact (consistent.linked_thread_iff (.mutex m) _).mpr member
        intro free
        rcases whole.free_process free with free | ⟨_, own⟩
        · contradiction
        · exact other own
  | @forkFailed _ child =>
      rw [recordBirths_negative births s _ _ (by decide)]
      exact numbers.unmade consistent whole (by simp) (by simp) rfl (names_setTask s child
        (g := fun c => { c with dirPagesBaseAddr := some child }) fun _ => ⟨rfl, rfl⟩)
  | @tickedProcess p processes t rest heap expired firstProcess first =>
      refine numbers.unmade consistent whole (by simp) (by simp) rfl fun x => ?_
      obtain ⟨pid, nthread⟩ := names_setTask s s.cr3
        (g := fun c => { c with state := .stReady }) (fun _ => ⟨rfl, rfl⟩) x
      obtain ⟨pid', nthread'⟩ :=
        names_setTask (s.setTask s.cr3 fun c => { c with state := .stReady })
        p (g := fun c => { c with state := .stRun }) (fun _ => ⟨rfl, rfl⟩) x
      exact ⟨pid'.trans pid, nthread'.trans nthread⟩
  | _ => exact numbers.unmade consistent whole (by simp) (by simp) rfl fun p => ⟨rfl, rfl⟩

end Numbers

theorem Consistent.busy_of_busy (consistent : Consistent s q) {t : ThreadSlot} (busy : s.Busy t) :
    q.Busy s.current (.slot t) := by
  have linked := fun queue => (consistent.linked_thread_iff queue (.slot t)).mp
  rcases busy with running | ⟨p, ready⟩ | ⟨p, blocked⟩ | ⟨m, waits⟩
  · exact .inl running
  · exact .inr ⟨.ready p, by simp, linked (.ready p) ready⟩
  · exact .inr ⟨.blocked p, by simp, linked (.blocked p) blocked⟩
  · exact .inr ⟨.mutex m, by simp, linked (.mutex m) waits⟩

/-- As long as no process exits while a thread of it waits for a mutex, `mutex_unlock` wakes no
thread of another process and the frames of the kernel are spared, PIDs and pairs of a PID and a TID
are unique. -/
theorem uniqueIds_of_keepsIds (image : Image) (s : Kernel) (births : Births)
    (reachable : image.ReachableWith recordBirths .none (SparingWith KeepsIds) (s, births)) :
    s.UniqueIds := by
  obtain ⟨q, consistent, numbers⟩ := reachable.spared.induct
    (fun s q births => Numbers s q births)
    (fun heap _ => Numbers.booted image.layout heap) (fun _ _ keeps => keeps.2.1)
    fun consistent numbers keeps _ _ transition => numbers.step consistent keeps transition
  refine ⟨fun p p' live live' different same => ?_, fun t t' busy busy' different same => ?_⟩
  · rw [consistent.live_iff] at live live'
    exact different (numbers.pids live live' same)
  · have busy := consistent.busy_of_busy busy
    have busy' := consistent.busy_of_busy busy'
    obtain ⟨p, process, live, _⟩ := numbers.tid busy
    obtain ⟨p', process', live', _⟩ := numbers.tid busy'
    obtain ⟨pid, tid⟩ := Prod.mk.inj same
    rw [process, process'] at pid
    obtain rfl := numbers.pids live live' (Option.some.inj pid)
    exact different (numbers.tids busy busy' (process.trans process'.symm) tid)

/-- The first process has a child. -/
theorem uniqueIds_of_keepsIds_fork :
    ∃ s births, plainImage.ReachableWith recordBirths .none (SparingWith KeepsIds) (s, births) ∧
      s.Live 2 ∧ s.UniqueIds := by
  obtain ⟨⟨s, births⟩, reachable, live⟩ := sparedWith_of_checkBoot recordBirths .none KeepsIds
    (fun state action => match action with
      | .fork _ => decide state.2.Few
      | _ => false)
    (fun state => decide (state.1.Live 2)) [.fork fun _ => 0]
    (fun state action allowed => by
      cases action with
      | fork stack => exact ⟨of_decide_eq_true allowed, trivial, by simp⟩
      | _ => exact absurd allowed (by simp))
    (by decide +kernel)
  exact ⟨s, births, reachable, of_decide_eq_true live,
    uniqueIds_of_keepsIds plainImage s births reachable⟩

/-- Two children exit while their first threads wait for a mutex.  Both threads stay there with TID
1, and the PIDs of both processes are -1. -/
theorem not_uniqueIds :
    ¬∀ layout s births,
      ReachableWith layout recordBirths .none (fun state _ => state.2.Few) (s, births) →
        s.UniqueIds := by
  intro unique
  obtain ⟨⟨s, births⟩, reachable, goal⟩ := reachableWith_of_checkBoot recordBirths .none
    (fun state _ => state.2.Few) (fun state _ => decide state.2.Few)
    (fun state => decide (state.1.waiters 3 = [.thread (.slot 2), .thread (.slot 3)] ∧
      state.1.identity 2 = (some (-1), 1) ∧ state.1.identity 3 = (some (-1), 1)))
    ([.mutexInit 3, .mutexLock 3, .fork fun _ => 0, .fork fun _ => 0] ++ List.replicate 20 .tick ++
      [.pthreadCreate (fun _ => 0) 0x108000 0x100000, .mutexLock 3, .exit,
        .pthreadCreate (fun _ => 0) 0x108000 0x100000, .mutexLock 3, .exit])
    (fun _ _ => of_decide_eq_true) (by decide +kernel)
  obtain ⟨waits, identity, identity'⟩ := of_decide_eq_true goal
  dsimp only at waits identity identity'
  refine (unique plainLayout s births reachable).threads 2 3 ?_ ?_ (by decide)
    (identity.trans identity'.symm)
  · exact .inr (.inr (.inr ⟨3, by simp [waits]⟩))
  · exact .inr (.inr (.inr ⟨3, by simp [waits]⟩))

end Zeos
