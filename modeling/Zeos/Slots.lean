import Zeos.Coherence

/-!
# Free slots

Which transitions put processes and threads among the free ones, and which take them from there.
-/

namespace Zeos

open IntrusiveList GuardedRun Kernel

variable {layout : Layout} {s s' : Kernel} {q q' : Queues} {action : Action} {result : Result}

/-- Only `exit` frees a process, the one of its caller. -/
theorem Transition.free_process (transition : Transition layout s q action s' q' result)
    {p : TaskId} (free : p ∈ q'.processes .free) :
    p ∈ q.processes .free ∨ action = .exit ∧ p = s.cr3 := by
  cases transition with
  | tickedProcess => exact .inl (by simpa using Lanes.mem_of_mem_remove free)
  | forked freeProcess freeThread =>
      simp only [Queues.processes_pushThread, Queues.processes_pushProcess,
        Queues.processes_removeThread, Queues.processes_removeProcess] at free
      rcases Lanes.mem_push.mp free with free | ⟨wrong, _⟩
      · exact .inl (Lanes.mem_of_mem_remove free)
      · exact absurd wrong (by simp)
  | forkFailed freeProcess freeThread =>
      simp only [Queues.processes_pushProcess, Queues.processes_removeThread,
        Queues.processes_removeProcess] at free
      rcases Lanes.mem_push.mp free with free | ⟨_, rfl⟩
      · exact .inl (Lanes.mem_of_mem_remove free)
      · exact .inl (by simp [freeProcess])
  | exited firstProcess first =>
      have pushed := Lanes.mem_of_mem_remove free
      simp only [Queues.processes_drainThreads, Queues.processes_pushProcess] at pushed
      rcases Lanes.mem_push.mp pushed with before | ⟨_, own⟩
      · exact .inl before
      · exact .inr ⟨rfl, own⟩
  | ended => exact .inl (by simpa using free)
  | destroyed => exact .inl (by simpa using free)
  | _ => exact .inl free

/-- The child of a successful `fork` is not free. -/
theorem Transition.child_not_free (transition : Transition layout s q action s' q' result)
    (consistent : Consistent s q) (numbered : s'.globalPID = s.globalPID + 1) {p : TaskId}
    (taken : listHeadToTaskStruct (s.listFirst .freequeue) = .ok p) :
    p ∉ q'.processes .free := by
  have counts : s.globalPID + 1 ≠ s.globalPID := by
    intro same
    simp at same
  cases transition with
  | @forked stack child processes u threads heap stack' mem freeProcess freeThread =>
      have first := consistent.represents.first_processes .free
      rw [freeProcess] at first
      have node : s.listFirst .freequeue = .task child := first
      rw [node] at taken
      obtain rfl : child = p := Except.ok.inj taken
      intro free
      have removed : child ∈ q.processes.remove child .free := by simpa using free
      exact (consistent.processes.mem_remove.mp removed).1 rfl
  | _ => exact absurd numbered.symm counts

/-- A free process stays free unless a `fork` has taken it, and then it gets its own page
directory. -/
theorem Transition.free_stays (transition : Transition layout s q action s' q' result)
    (consistent : Consistent s q) {p : TaskId} (free : p ∈ q.processes .free) :
    p ∈ q'.processes .free ∨
      s'.globalPID = s.globalPID + 1 ∧ (s'.task p).dirPagesBaseAddr = some p := by
  have other : ∀ {x rest}, q.processes .ready = x :: rest → p ≠ x := by
    rintro x rest ready rfl
    have member : p ∈ q.processes .ready := by simp [ready]
    exact absurd (consistent.processes.unique free member) (by simp)
  cases transition with
  | @forked _ child _ u _ _ _ _ freeProcess freeThread =>
      by_cases taken : p = child
      · subst taken
        exact .inr ⟨rfl, by simp [childTask]⟩
      · have kept := consistent.processes.mem_remove.mpr ⟨taken, free⟩
        exact .inl (by simpa using kept)
  | @forkFailed _ child _ u _ _ _ _ freeProcess freeThread =>
      by_cases taken : p = child
      · exact .inl (by simp [taken])
      · have kept := consistent.processes.mem_remove.mpr ⟨taken, free⟩
        exact .inl (by simp [kept])
  | tickedProcess expired firstProcess first =>
      exact .inl ((List.mem_erase_of_ne (other firstProcess)).mpr (by simpa using free))
  | exited firstProcess first =>
      exact .inl ((List.mem_erase_of_ne (other firstProcess)).mpr (by simp [free]))
  | ended => exact .inl (by simpa using free)
  | destroyed => exact .inl (by simpa using free)
  | _ => exact .inl free

/-- A thread belongs to the process it belonged to before, or to the one of the running thread,
unless it is the child's thread of a successful `fork`. -/
theorem Transition.thread_p (transition : Transition layout s q action s' q' result)
    (t : ThreadPtr) : (s'.thread t).p = (s.thread t).p ∨
      (s'.thread t).p = (s.thread s.current).p ∨ s'.globalPID = s.globalPID + 1 := by
  cases transition with
  | forked => exact .inr (.inr rfl)
  | @forkFailed _ child _ u threads _ _ _ freeProcess freeThread =>
      by_cases taken : t = .slot u
      · exact .inr (.inl (by simp [taken, allocateDIR]))
      · exact .inl (by simp [taken, allocateDIR])
  | @created _ _ _ u threads _ _ _ freeThread =>
      by_cases taken : t = .slot u
      · exact .inr (.inl (by simp [taken, newThread]))
      · exact .inl (by simp [taken])
  | refused | stored | others | ticked | initialised | locked | unlockedFree => exact .inl rfl
  | tickedThread | tickedProcess | joined | yielded | waited | lost | ended | exited | unlocked
  | unlockedNobody | destroyed =>
      left
      simp only [thread_resume, thread_suspend, thread_setThread, thread_setState,
        thread_setMutex, thread_resumeProcess, saveEsp, readyJoiners, clearTids, releaseStates,
        Function.update_apply]
      split_ifs <;> simp_all

/-- Threads become free in `pthread_exit` and `exit` only. -/
theorem Transition.free_thread (transition : Transition layout s q action s' q' result)
    (consistent : Consistent s q) {t : ThreadPtr} (free : t ∈ q'.threads .free) :
    t ∈ q.threads .free ∨ action = .pthreadExit ∧ t = s.current ∨
      action = .exit ∧ (t ∈ q.threads (.ready s.cr3) ∨ t ∈ q.threads (.blocked s.cr3)) := by
  cases transition with
  | refused | stored | others | ticked | locked | unlockedFree => exact .inl free
  | tickedThread | joined | yielded | waited | tickedProcess =>
      have pushed := Lanes.mem_of_mem_remove free
      exact .inl (by simpa using pushed)
  | forked =>
      simp only [Queues.threads_pushThread, Queues.threads_pushProcess] at free
      rcases Lanes.mem_push.mp free with free | ⟨wrong, _⟩
      · exact .inl (Lanes.mem_of_mem_remove free)
      · exact absurd wrong (by simp)
  | forkFailed => exact .inl (Lanes.mem_of_mem_remove free)
  | created | unlocked | unlockedNobody =>
      rw [Queues.threads_moveThread, Lanes.push_other (by simp)] at free
      exact .inl (Lanes.mem_of_mem_remove free)
  | ended first =>
      have woken := Coherent.wakeFirst_subset (by simp) (Lanes.mem_of_mem_remove free)
      rw [Queues.threads_pushThread, Lanes.mem_push] at woken
      exact woken.imp id fun own => .inl ⟨rfl, own.2⟩
  | exited =>
      have drained := Lanes.mem_of_mem_remove free
      simp only [Queues.threads_removeProcess, Queues.threads_drainThreads,
        Queues.threads_pushProcess] at drained
      rw [Lanes.mem_drain (by simp), Lanes.mem_drain (by simp), Lanes.mem_drain (by simp)]
        at drained
      rcases drained.2 with ⟨_, before | ⟨_, ready⟩⟩ | ⟨_, _, blocked | ⟨wrong, _⟩⟩
      · exact .inl before
      · exact .inr (.inr ⟨rfl, .inl ready⟩)
      · exact .inr (.inr ⟨rfl, .inr blocked⟩)
      · exact absurd wrong (by simp)
  | initialised =>
      simp only [Lanes.mem_clear] at free
      exact .inl free.2
  | lost => exact .inl (Lanes.mem_of_mem_remove free)
  | destroyed =>
      rw [mem_moveHome consistent.threads] at free
      split at free
      · exact absurd free (by simp)
      · exact .inl free

/-- A thread keeps its process and its quantum unless it is taken from the free ones. -/
theorem Transition.thread_kept (transition : Transition layout s q action s' q' result)
    (consistent : Consistent s q) (t : ThreadPtr) :
    ((s'.thread t).p = (s.thread t).p ∧ (s'.thread t).quantum = (s.thread t).quantum) ∨
      (∃ rest, q.threads .free = t :: rest) ∧ t ∉ q'.threads .free := by
  cases transition with
  | refused | stored | others | ticked | initialised | locked | unlockedFree =>
      exact .inl ⟨rfl, rfl⟩
  | tickedThread | tickedProcess | joined | yielded | waited | lost | ended | exited | unlocked
  | unlockedNobody | destroyed =>
      left
      simp only [thread_resume, thread_suspend, thread_setThread, thread_setState,
        thread_setMutex, thread_resumeProcess, saveEsp, readyJoiners, clearTids, releaseStates,
        Function.update_apply]
      constructor <;> split_ifs <;> simp_all
  | @forked _ child _ u threads _ _ _ freeProcess freeThread =>
      by_cases taken : t = .slot u
      · subst taken
        refine .inr ⟨⟨threads, freeThread⟩, fun free => ?_⟩
        simp only [Queues.threads_pushThread, Queues.threads_pushProcess] at free
        rcases Lanes.mem_push.mp free with free | ⟨wrong, _⟩
        · exact (consistent.threads.mem_remove.mp free).1 rfl
        · exact absurd wrong (by simp)
      · exact .inl (by simp [taken])
  | @forkFailed _ child _ u threads _ _ _ freeProcess freeThread =>
      by_cases taken : t = .slot u
      · subst taken
        exact .inr ⟨⟨threads, freeThread⟩, fun free =>
          (consistent.threads.mem_remove.mp free).1 rfl⟩
      · exact .inl (by simp [taken, allocateDIR])
  | @created _ _ _ u threads _ _ _ freeThread =>
      by_cases taken : t = .slot u
      · subst taken
        refine .inr ⟨⟨threads, freeThread⟩, fun free => ?_⟩
        rw [Queues.threads_moveThread, Lanes.push_other (by simp)] at free
        exact (consistent.threads.mem_remove.mp free).1 rfl
      · exact .inl (by simp [taken])

end Zeos
