import Zeos.WakeOrder

/-!
# Mutual exclusion

`mutex_unlock` hands a mutex over to the first of its waiters, and leaves it locked only if there
are others.
-/

namespace Zeos

open IntrusiveList GuardedRun Kernel

/-- The threads that hold a mutex, and the ones that have been woken to hold it and have not run
since. -/
structure Hold where
  granted : List ThreadPtr
  holders : List ThreadPtr

namespace Hold

/-- A granted thread runs, so that its call of `mutex_lock` returns. -/
def resume (hold : Hold) (t : ThreadPtr) : Hold :=
  if t ∈ hold.granted then
    { granted := hold.granted.filter (· ≠ t), holders := t :: hold.holders }
  else hold

/-- Threads come to their end. -/
def drop (hold : Hold) (ended : ThreadPtr → Prop) [DecidablePred ended] : Hold where
  granted := hold.granted.filter fun t => ¬ended t
  holders := hold.holders.filter fun t => ¬ended t

/-- The number of threads that hold the mutex or are going to. -/
def count (hold : Hold) : Nat := hold.granted.length + hold.holders.length

end Hold

namespace Kernel

/-- The waiters of a mutex that a step takes out of its queue. -/
def leavers (s s' : Kernel) (m : MutexId) : List ThreadPtr :=
  threadSlots.filter fun t => .thread t ∈ s.waiters m ∧ .thread t ∉ s'.waiters m

end Kernel

/-- The holders of a mutex since its initialisation, after one more step. -/
def recordHold (m : MutexId) (hold : Option Hold) (s : Kernel) (action : Action) (s' : Kernel)
    (result : Result) : Option Hold :=
  match action with
  | .mutexInit n =>
      if mutexIndex n = some m ∧ result = .returns 0 then some { granted := [], holders := [] }
      else hold
  | .mutexLock n =>
      if mutexIndex n = some m ∧ result = .returns 0
      then hold.map fun h => { h with holders := s.current :: h.holders }
      else hold.map fun h => h.resume s'.current
  | .mutexUnlock n =>
      if mutexIndex n = some m
      then hold.map fun h =>
        { granted := h.granted ++ s.leavers s' m, holders := h.holders.filter (· ≠ s.current) }
      else hold
  | .pthreadExit => hold.map fun h => (h.drop (· = s.current)).resume s'.current
  | .exit => hold.map fun h =>
      (h.drop fun t => (s.thread t).p = (s.thread s.current).p).resume s'.current
  | _ => hold.map fun h => h.resume s'.current

/-- An initialised mutex is unlocked by its holders only, and neither initialised again nor
destroyed. -/
def Disciplined (m : MutexId) (state : Kernel × Option Hold) : Action → Prop
  | .mutexUnlock n => mutexIndex n = some m → ∀ h ∈ state.2, state.1.current ∈ h.holders
  | .mutexInit n | .mutexDestroy n => mutexIndex n = some m → state.2.isNone
  | _ => True

instance (m : MutexId) (state : Kernel × Option Hold) : DecidablePred (Disciplined m state)
  | .mutexUnlock _ => inferInstanceAs (Decidable (_ = _ → ∀ h ∈ state.2, _ ∈ _))
  | .mutexInit _ | .mutexDestroy _ => inferInstanceAs (Decidable (_ = _ → state.2.isNone))
  | .tick | .fork _ | .pthreadCreate _ _ _ | .pthreadJoin _ | .pthreadExit | .yield | .exit
  | .mutexLock _ | .store _ _ | .others _ => isTrue trivial

/-- The mutex is not unlocked while exactly one thread waits for it. -/
def SparesSoleWaiter (m : MutexId) (state : Kernel × Option Hold) : Action → Prop
  | .mutexUnlock n => mutexIndex n = some m → (state.1.waiters m).length ≠ 1
  | _ => True

instance (m : MutexId) (state : Kernel × Option Hold) : DecidablePred (SparesSoleWaiter m state)
  | .mutexUnlock _ => inferInstanceAs (Decidable (_ = _ → _ ≠ _))
  | .tick | .fork _ | .pthreadCreate _ _ _ | .pthreadJoin _ | .pthreadExit | .yield | .exit
  | .mutexInit _ | .mutexLock _ | .mutexDestroy _ | .store _ _ | .others _ => isTrue trivial

variable {layout : Layout} {s s' : Kernel} {q q' : Queues} {action : Action} {result : Result}
  {m : MutexId} {hold : Option Hold} {h : Hold}

namespace Hold

theorem count_resume (t : ThreadPtr) : (h.resume t).count ≤ h.count := by
  rw [resume]
  split_ifs with granted
  · have fewer : (h.granted.filter (· ≠ t)).length < h.granted.length :=
      List.length_filter_lt_length_iff_exists.mpr ⟨t, granted, by simp⟩
    simp only [count, List.length_cons]
    omega
  · exact le_rfl

theorem count_drop (ended : ThreadPtr → Prop) [DecidablePred ended] :
    (h.drop ended).count ≤ h.count :=
  Nat.add_le_add (List.length_filter_le _ _) (List.length_filter_le _ _)

/-- The only holder gives the mutex up. -/
theorem release {t : ThreadPtr} (once : h.count ≤ 1) (holds : t ∈ h.holders) :
    h.granted = [] ∧ h.holders.filter (· ≠ t) = [] := by
  have one := List.length_pos_of_mem holds
  rw [count] at once
  obtain ⟨u, single⟩ := List.length_eq_one_iff.mp (by omega : h.holders.length = 1)
  rw [single, List.mem_singleton] at holds
  refine ⟨List.length_eq_zero_iff.mp (by omega), ?_⟩
  rw [single, holds]
  simp

end Hold

/-! ## Steps that hand nothing over -/

/-- The leavers of a step, by what the queues are before and after it. -/
theorem leavers_eq (orderly : Orderly s q) (orderly' : Orderly s' q') :
    s.leavers s' m =
      threadSlots.filter fun t => t ∈ q.threads (.mutex m) ∧ t ∉ q'.threads (.mutex m) := by
  rw [leavers]
  refine List.filter_congr fun t _ => ?_
  have before := orderly.threads.linked_iff (.mutex m) t
  have after := orderly'.threads.linked_iff (.mutex m) t
  exact decide_eq_decide.mpr (and_congr before (not_congr after))

theorem leavers_nobody (orderly : Orderly s q) (orderly' : Orderly s' q')
    (nobody : q.threads (.mutex m) = []) : s.leavers s' m = [] := by
  rw [leavers_eq orderly orderly', nobody]
  simp

theorem leavers_eq_nil (same : s'.waiters m = s.waiters m) : s.leavers s' m = [] := by
  rw [leavers, same, List.filter_eq_nil_iff]
  exact fun t _ chosen => (of_decide_eq_true chosen).2 (of_decide_eq_true chosen).1

/-- Unless the call takes the mutex, or gives it to somebody, the mutex gets no further holder. -/
theorem recordHold_eq_map (hold : Option Hold)
    (untaken : ∀ n, action = .mutexLock n ∨ action = .mutexInit n → mutexIndex n = some m →
      result ≠ .returns 0)
    (nobody : ∀ n, action = .mutexUnlock n → mutexIndex n = some m → s.leavers s' m = []) :
    ∃ f : Hold → Hold, (∀ h, (f h).count ≤ h.count) ∧
      recordHold m hold s action s' result = hold.map f := by
  have unchanged : ∃ f : Hold → Hold, (∀ h, (f h).count ≤ h.count) ∧ hold = hold.map f :=
    ⟨id, fun h => le_rfl, by simp⟩
  cases action with
  | mutexInit n =>
      rw [recordHold, if_neg fun taken => untaken n (.inr rfl) taken.1 taken.2]
      exact unchanged
  | mutexLock n =>
      rw [recordHold, if_neg fun taken => untaken n (.inl rfl) taken.1 taken.2]
      exact ⟨_, fun h => Hold.count_resume _, rfl⟩
  | mutexUnlock n =>
      rw [recordHold]
      split_ifs with accepted
      · rw [nobody n rfl accepted]
        refine ⟨_, fun h => ?_, rfl⟩
        simp only [Hold.count, List.append_nil]
        exact Nat.add_le_add_left (List.length_filter_le _ _) _
      · exact unchanged
  | pthreadExit =>
      exact ⟨_, fun h => (Hold.count_resume _).trans (Hold.count_drop _), rfl⟩
  | exit => exact ⟨_, fun h => (Hold.count_resume _).trans (Hold.count_drop _), rfl⟩
  | _ => exact ⟨_, fun h => Hold.count_resume _, rfl⟩

/-- An initialised mutex is held once at most, and not at all while it is unlocked. -/
structure Held (m : MutexId) (s : Kernel) (hold : Option Hold) : Prop where
  once : ∀ {h}, hold = some h → h.count ≤ 1
  free : ∀ {h}, hold = some h → (s.mutexVector m).locked = 0 → h.count = 0

namespace Held

theorem keep (held : Held m s hold) (locked : (s'.mutexVector m).locked = (s.mutexVector m).locked)
    (untaken : ∀ n, action = .mutexLock n ∨ action = .mutexInit n → mutexIndex n = some m →
      result ≠ .returns 0)
    (nobody : ∀ n, action = .mutexUnlock n → mutexIndex n = some m → s.leavers s' m = []) :
    Held m s' (recordHold m hold s action s' result) := by
  obtain ⟨f, fewer, recorded⟩ := recordHold_eq_map hold untaken nobody
  rw [recorded]
  constructor
  · intro h found
    obtain ⟨before, known, rfl⟩ := Option.map_eq_some_iff.mp found
    exact (fewer before).trans (held.once known)
  · intro h found unlocked
    obtain ⟨before, known, rfl⟩ := Option.map_eq_some_iff.mp found
    rw [locked] at unlocked
    exact Nat.le_zero.mp ((fewer before).trans (held.free known unlocked).le)

/-- A call about another mutex. -/
theorem other (held : Held m s hold) {n : Int} {i : MutexId} (accepted : mutexIndex n = some i)
    (different : i ≠ m) (locked : (s'.mutexVector m).locked = (s.mutexVector m).locked)
    (call : action = .mutexLock n ∨ action = .mutexInit n ∨ action = .mutexUnlock n ∨
      action = .mutexDestroy n) :
    Held m s' (recordHold m hold s action s' result) := by
  have elsewhere : mutexIndex n ≠ some m := fun found =>
    different (Option.some.inj (accepted.symm.trans found))
  apply held.keep locked
  · rintro k called found
    rcases call with rfl | rfl | rfl | rfl <;> simp at called
    · exact absurd (called ▸ found) elsewhere
    · exact absurd (called ▸ found) elsewhere
  · rintro k rfl found
    simp only [reduceCtorEq, Action.mutexUnlock.injEq, false_or, or_false] at call
    exact absurd (call ▸ found) elsewhere

/-- The only holder unlocks the mutex. -/
theorem unlock (held : Held m s hold) {n : Int} (accepted : mutexIndex n = some m)
    (disciplined : Disciplined m (s, hold) (.mutexUnlock n)) (few : (s.leavers s' m).length ≤ 1)
    (free : (s'.mutexVector m).locked = 0 → s.leavers s' m = []) :
    Held m s' (recordHold m hold s (.mutexUnlock n) s' result) := by
  rw [recordHold, if_pos accepted]
  constructor
  · intro h found
    obtain ⟨before, known, rfl⟩ := Option.map_eq_some_iff.mp found
    obtain ⟨granted, released⟩ :=
      Hold.release (held.once known) (disciplined accepted before known)
    simp only [Hold.count, granted, released, List.nil_append, List.length_nil]
    exact few
  · intro h found unlocked
    obtain ⟨before, known, rfl⟩ := Option.map_eq_some_iff.mp found
    obtain ⟨granted, released⟩ :=
      Hold.release (held.once known) (disciplined accepted before known)
    simp only [Hold.count, granted, released, free unlocked, List.nil_append, List.length_nil]

end Held

theorem Stay.held (stay : Stay layout s q action s' q' result) (orderly : Orderly s q)
    (orderly' : Orderly s' q') (held : Held m s hold) (disciplined : Disciplined m (s, hold) action)
    (spares : SparesSoleWaiter m (s, hold) action) :
    Held m s' (recordHold m hold s action s' result) := by
  cases stay with
  | @refused _ ebp stack value negative =>
      refine held.keep rfl (fun _ _ _ same => ?_) fun _ _ _ => leavers_eq_nil rfl
      have := Result.returns.inj same
      omega
  | stored | others | ticked | forked | forkFailed | created =>
      exact held.keep rfl (by simp) (by simp)
  | unlockedFree => exact held.keep rfl (by simp) fun _ _ _ => leavers_eq_nil rfl
  | @locked n i accepted usable unlocked =>
      by_cases same : i = m
      · subst same
        rw [recordHold, if_pos ⟨accepted, rfl⟩]
        constructor
        · intro h found
          obtain ⟨before, known, rfl⟩ := Option.map_eq_some_iff.mp found
          have nobody := held.free known unlocked
          simp only [Hold.count, List.length_cons] at nobody ⊢
          omega
        · intro h found free
          simp at free
      · exact held.other accepted same (by simp [Ne.symm same]) (.inl rfl)
  | @initialised n i heap accepted unowned =>
      by_cases same : i = m
      · subst same
        rw [recordHold, if_pos ⟨accepted, rfl⟩]
        constructor
        · rintro h ⟨⟩
          exact Nat.zero_le 1
        · rintro h ⟨⟩ _
          rfl
      · exact held.other accepted same (by simp [Ne.symm same]) (.inr (.inl rfl))
  | @unlocked n i u others heap accepted usable taken first =>
      by_cases same : i = m
      · subst same
        have waiters : s.waiters i = (q.threads (.mutex i)).map .thread :=
          orderly.threads.linked (.mutex i)
        have several : others ≠ [] := by
          rintro rfl
          refine spares accepted ?_
          rw [waiters, first]
          rfl
        have fresh : .slot u ∉ others :=
          (List.nodup_cons.mp (first ▸ orderly.threads.separate.nodup (.mutex i))).1
        have remaining : (q.moveThread (.slot u) (.ready s.cr3)).threads (.mutex i) = others := by
          rw [Queues.threads_moveThread, Lanes.push_other (by simp), Lanes.remove_first first]
        refine held.unlock accepted disciplined ?_ fun free => ?_
        · rw [leavers_eq orderly orderly', first, remaining, filter_threadSlots (u := u) ?_]
          · exact le_rfl
          · intro v
            by_cases same : v = u
            · simp [same, fresh]
            · simp [same]
        · simp [several] at free
          exact absurd free taken
      · exact held.other accepted same (by simp [Ne.symm same]) (.inr (.inr (.inl rfl)))
  | @unlockedNobody n i heap accepted usable taken listed nobody =>
      by_cases same : i = m
      · subst same
        have leavers := leavers_nobody orderly orderly' nobody
        exact held.unlock accepted disciplined (by rw [leavers]; exact Nat.zero_le 1)
          fun _ => leavers
      · exact held.other accepted same (by simp [Ne.symm same]) (.inr (.inr (.inl rfl)))
  | @destroyed n i heap accepted owned owner listed =>
      by_cases same : i = m
      · subst same
        have unknown : hold = none := Option.isNone_iff_eq_none.mp (disciplined accepted)
        rw [unknown]
        exact ⟨fun found => absurd found (by simp [recordHold]),
          fun found => absurd found (by simp [recordHold])⟩
      · exact held.other accepted same (by simp [Ne.symm same]) (.inr (.inr (.inr rfl)))

theorem Move.held (move : Move layout s q action s' q' result) (orderly : Orderly s q)
    (orderly' : Orderly s' q') (held : Held m s hold) (disciplined : Disciplined m (s, hold) action)
    (spares : SparesSoleWaiter m (s, hold) action) :
    Held m s' (recordHold m hold s action s' result) := by
  cases move with
  | stayed reached stay => exact stay.held orderly orderly' held disciplined spares
  | @switched s₁ u cr3 site threads₀ q₀ reached picked busy process =>
      apply held.keep
      · show (s₁.mutexVector m).locked = _
        rw [picked.mutexVector]
      · simp
      · rintro n rfl _
        cases picked.parks

end Zeos
