import Zeos.Calls
import Zeos.Frame

/-!
# Runs without a guard

Every step of every run moves threads in an orderly way.
-/

namespace Zeos

open IntrusiveList GuardedRun Kernel

variable {layout : Layout} {s s' s₁ : Kernel} {q q' q₀ : Queues} {action : Action} {result : Result}
  {site : Site} {threads₀ : ThreadPtr → ThreadStruct} {p : TaskId} {t : ThreadPtr}
  {queue : ThreadQueue} {u : ThreadSlot} {cr3 : TaskId}

/-! ## The switch -/

namespace Picked

/-- An `exit` without another process chooses the idle thread, everything else a first ready
thread. -/
theorem idle_or_first (picked : Picked layout s q action s₁ t site threads₀ q₀) :
    (action = .exit ∧ s.listEmpty .readyqueue = true ∧ s.idleTask = some t) ∨
      ∃ p others, q₀.threads (.ready p) = t :: others := by
  cases picked.chosen with
  | idle empty idle => exact .inl ⟨rfl, empty, idle⟩
  | thread first => exact .inr ⟨_, _, first⟩
  | processTick due requeued firstProcess first => exact .inr ⟨_, _, first⟩
  | processExit first => exact .inr ⟨_, _, first⟩

theorem first (picked : Picked layout s q action s₁ t site threads₀ q₀)
    (busy : s.idleTask ≠ some t) : ∃ p others, q₀.threads (.ready p) = t :: others :=
  picked.idle_or_first.resolve_left fun idle => busy idle.2.2

/-- The thread that has been chosen waits or is the running one, unless it is the idle thread. -/
theorem source (picked : Picked layout s q action s₁ t site threads₀ q₀)
    (busy : s.idleTask ≠ some t) : (∃ queue, queue ≠ .free ∧ t ∈ q.threads queue) ∨
      t = s.current := by
  obtain ⟨p, others, first⟩ := picked.first busy
  refine (picked.parks.mem (show t ∈ q₀.threads (.ready p) by simp [first])).imp_left ?_
  rintro ⟨before, waiting, member⟩
  exact ⟨before, waiting (by simp), member⟩

theorem process (picked : Picked layout s q action s₁ t site threads₀ q₀) (x : ThreadPtr) :
    (s₁.thread x).p = (s.thread x).p ∧ (s₁.thread x).registerEsp = (s.thread x).registerEsp := by
  rw [picked.thread, Function.update_apply]
  split
  · rename_i same
    subst same
    exact ⟨(picked.parks.same x).1, (picked.parks.same x).2.1⟩
  · exact ⟨(picked.parks.same x).1, (picked.parks.same x).2.1⟩

/-- `task_switch` resumes the thread that has been chosen, which is one of a process. -/
theorem taskSwitch (picked : Picked layout s q action s₁ t site threads₀ q₀)
    (orderly : Orderly s q) : Ensures (fun s' => ∃ u cr3, t = .slot u ∧ s.idleTask ≠ some t ∧
      (s.thread t).p = .slot cr3 ∧ s' = { s₁.saveEsp with current := t, cr3 })
      (s₁.taskSwitch t) := by
  cases own : (s.thread t).p with
  | null =>
      rw [Kernel.taskSwitch, (picked.process t).1, own]
      exact .error _
  | wild =>
      rw [Kernel.taskSwitch, (picked.process t).1, own]
      exact .error _
  | slot p =>
      have busy : s.idleTask ≠ some t := by
        intro idle
        obtain ⟨slot, found, null, _⟩ := orderly.idle
        obtain rfl : ThreadPtr.slot slot = t := Option.some.inj (found.symm.trans idle)
        rw [null] at own
        exact absurd own (by simp)
      have isSlot : ∃ u, t = .slot u := by
        cases t with
        | slot u => exact ⟨u, rfl⟩
        | image page =>
            rw [orderly.imageP] at own
            exact absurd own (by simp)
      obtain ⟨u, rfl⟩ := isSlot
      have saved : (s.thread (.slot u)).registerEsp = .null ∨
          ∃ index, (s.thread (.slot u)).registerEsp = .on (.slot u) index := by
        rcases picked.source busy with ⟨queue, waits, member⟩ | same
        · exact .inr (orderly.fits waits member).2.2
        · exact same ▸ orderly.saved
      rw [← (picked.process (.slot u)).2] at saved
      have directory : (s₁.task p).dirPagesBaseAddr = some p := by
        rw [picked.directory, orderly.owner own]
      have process : (s₁.thread (.slot u)).p = .slot p := (picked.process (.slot u)).1.trans own
      rcases taskSwitch_cases process directory saved with ⟨fault, failed, _⟩ | switched
      · rw [failed]
        exact .error _
      · rw [switched]
        exact .ok ⟨u, p, rfl, busy, rfl, rfl⟩

end Picked

/-- A step that does not fault is a move. -/
theorem Orderly.move_of_perform (orderly : Orderly s q)
    (performed : s.perform layout action = .ok (s', result)) :
    ∃ q', Move layout s q action s' q' result ∧ Threads s'.heap s'.heap q' := by
  rw [perform_eq] at performed
  obtain ⟨next, arrived, switched⟩ := bind_eq_ok.mp performed
  have arrives := orderly.arrives action next arrived
  cases next with
  | inl ended =>
      obtain rfl : ended = (s', result) := Except.ok.inj switched
      obtain ⟨q', stay, threads⟩ := arrives
      exact ⟨q', .stayed arrived stay, threads⟩
  | inr next =>
      obtain ⟨s₁, t⟩ := next
      obtain ⟨site, threads₀, q₀, picked⟩ := arrives
      obtain ⟨s₂, resumed, equal⟩ := bind_eq_ok.mp switched
      obtain ⟨u, cr3, rfl, busy, process, rfl⟩ := picked.taskSwitch orderly s₂ resumed
      obtain ⟨rfl, rfl⟩ := Prod.mk.inj (Except.ok.inj equal)
      exact ⟨_, .switched arrived picked busy process, picked.lists u rfl busy⟩

/-! ## What a move keeps -/

namespace Orderly

/-- Threads that keep their process and their stack pointer move among the queues. -/
theorem rearrange (orderly : Orderly s q) (threads : Threads s'.heap s'.heap q')
    (owner : ∀ {t p}, (s'.thread t).p = .slot p → (s'.task p).dirPagesBaseAddr = some p)
    (current : s'.current = s.current) (cr3 : s'.cr3 = s.cr3) (idleTask : s'.idleTask = s.idleTask)
    (kept : ∀ t, (s'.thread t).p = (s.thread t).p ∧
      (s'.thread t).registerEsp = (s.thread t).registerEsp ∧
      ((s'.thread t).state = .stRun → (s.thread t).state = .stRun))
    (running : (s'.thread s.current).state = .stRun)
    (source : ∀ {queue slot}, .slot slot ∈ q'.threads queue →
      ∃ before, (queue ≠ .free → before ≠ .free) ∧ .slot slot ∈ q.threads before)
    (image : ∀ {queue page}, .image page ∈ q'.threads queue →
      (s'.thread (.image page)).state ≠ .stRun ∧ (queue = .free ∨ ∃ p, queue = .ready p))
    (head : ∀ {m slot}, q'.head m = .unlisted (some slot) → q.head m = .unlisted (some slot)) :
    Orderly s' q' where
  threads := threads
  fits {queue slot} busy member := by
    obtain ⟨before, waiting, member⟩ := source member
    obtain ⟨⟨p, process⟩, stopped, index, saved⟩ := orderly.fits (waiting busy) member
    obtain ⟨kept_p, kept_esp, kept_state⟩ := kept (.slot slot)
    exact ⟨⟨p, kept_p.trans process⟩, fun runs => stopped (kept_state runs), index,
      kept_esp.trans saved⟩
  image := image
  imageP page := (kept _).1.trans (orderly.imageP page)
  idle := by
    obtain ⟨slot, found, null, absent⟩ := orderly.idle
    refine ⟨slot, idleTask.trans found, (kept _).1.trans null, fun queue member => ?_⟩
    obtain ⟨before, _, member⟩ := source member
    exact absent before member
  owner := owner
  slot := current ▸ orderly.slot
  absent := by
    obtain ⟨slot, same⟩ := orderly.slot
    rw [current, same]
    intro queue member
    obtain ⟨before, _, member⟩ := source member
    exact orderly.absent before (same ▸ member)
  last found := current ▸ orderly.last (head found)
  running := current ▸ running
  process := by
    rw [current, cr3, (kept _).1, orderly.process]
  saved := by
    rw [current, (kept _).2.1]
    exact orderly.saved

/-- A free thread is made one of a process and may become ready. -/
theorem take (orderly : Orderly s q) (threads : Threads s'.heap s'.heap q')
    (owner : ∀ {t p}, (s'.thread t).p = .slot p → (s'.task p).dirPagesBaseAddr = some p)
    (current : s'.current = s.current) (cr3 : s'.cr3 = s.cr3) (idleTask : s'.idleTask = s.idleTask)
    {u : ThreadSlot} (free : .slot u ∈ q.threads .free) {c : ThreadStruct}
    (thread : s'.thread = Function.update s.thread (.slot u) c) (head : q'.head = q.head)
    (source : ∀ {queue t}, t ∈ q'.threads queue → t = .slot u ∧ queue ≠ .free ∧
      Waiting (.slot u) c ∨ t ≠ .slot u ∧ t ∈ q.threads queue) : Orderly s' q' where
  threads := threads
  fits {queue slot} busy member := by
    rw [thread]
    rcases source member with ⟨same, _, waiting⟩ | ⟨other, member⟩
    · rw [same, Function.update_self]
      exact waiting
    · rw [Function.update_of_ne other]
      exact orderly.fits busy member
  image {queue page} member := by
    rw [thread, Function.update_of_ne (by simp)]
    rcases source member with ⟨same, _⟩ | ⟨_, member⟩
    · exact absurd same (by simp)
    · exact orderly.image member
  imageP page := by
    rw [thread, Function.update_of_ne (by simp)]
    exact orderly.imageP page
  idle := by
    obtain ⟨slot, found, null, absent⟩ := orderly.idle
    have other : ThreadPtr.slot slot ≠ .slot u := by
      rintro same
      exact absent .free (same ▸ free)
    refine ⟨slot, idleTask.trans found, ?_, fun queue member => ?_⟩
    · rw [thread, Function.update_of_ne other]
      exact null
    · rcases source member with ⟨same, _⟩ | ⟨_, member⟩
      · exact other same
      · exact absent queue member
  owner := owner
  slot := current ▸ orderly.slot
  absent queue member := by
    rw [current] at member
    rcases source member with ⟨same, _⟩ | ⟨_, member⟩
    · exact orderly.ne_of_mem free same.symm
    · exact orderly.absent queue member
  last found := current ▸ orderly.last (head ▸ found)
  running := by
    rw [current, thread, Function.update_of_ne (orderly.ne_of_mem free).symm]
    exact orderly.running
  process := by
    rw [current, cr3, thread, Function.update_of_ne (orderly.ne_of_mem free).symm]
    exact orderly.process
  saved := by
    rw [current, thread, Function.update_of_ne (orderly.ne_of_mem free).symm]
    exact orderly.saved

end Orderly

namespace Parks

/-- What is taken for a thread does not start to run and waits as before or becomes ready or
free. -/
theorem image (parks : Parks s q action site threads₀ q₀) (orderly : Orderly s q) {page : Fin 2}
    (member : .image page ∈ q₀.threads queue) :
    (threads₀ (.image page)).state ≠ .stRun ∧ (queue = .free ∨ ∃ p, queue = .ready p) := by
  obtain ⟨c, current⟩ := orderly.slot
  have other : ThreadPtr.image page ≠ s.current := by simp [current]
  have stopped : (s.thread (.image page)).state ≠ .stRun := by
    obtain ⟨before, _, waits⟩ := (parks.mem member).resolve_right other
    exact (orderly.image waits).1
  cases parks with
  | tick | yield | join | lock =>
      have before := (Lanes.mem_push.mp member).resolve_right fun own => other own.2
      refine ⟨?_, (orderly.image before).2⟩
      simp only [thread_setState, thread_setThread, Function.update_apply, if_neg other]
      exact stopped
  | lost =>
      refine ⟨?_, (orderly.image member).2⟩
      simp only [thread_setState, Function.update_apply, if_neg other]
      exact stopped
  | exitThread =>
      constructor
      · simp only [readyJoiners]
        split
        · simp
        · exact stopped
      · by_cases ready : ∃ p, queue = .ready p
        · exact .inr ready
        · have kept := Coherent.wakeFirst_subset (fun same => ready ⟨_, same⟩) member
          rw [Queues.threads_pushThread] at kept
          exact (orderly.image ((Lanes.mem_push.mp kept).resolve_right fun own => other own.2)).2
  | exit =>
      constructor
      · simp only [clearTids]
        split
        · exact stopped
        · exact stopped
      · rw [Queues.threads_drainThreads, Lanes.mem_drain (by simp)] at member
        rcases member.2 with kept | ⟨free, _⟩
        · rw [Queues.threads_drainThreads, Lanes.mem_drain (by simp)] at kept
          rcases kept.2 with kept | ⟨free, _⟩
          · exact (orderly.image kept).2
          · exact .inl free
        · exact .inl free

end Parks

namespace Picked

theorem saveEsp_thread (picked : Picked layout s q action s₁ t site threads₀ q₀) (x : ThreadPtr) :
    s₁.saveEsp.thread x = if x = s.current
      then { s₁.thread x with registerEsp := .on s.current (layout.frame site) }
      else s₁.thread x := by
  simp only [saveEsp, thread_setThread, picked.current, picked.ebp, Function.update_apply]
  split_ifs with own
  · rw [own]
  · rfl

theorem saveEsp_p (picked : Picked layout s q action s₁ t site threads₀ q₀) (x : ThreadPtr) :
    (s₁.saveEsp.thread x).p = (s.thread x).p := by
  rw [picked.saveEsp_thread]
  split_ifs
  · exact (picked.process x).1
  · exact (picked.process x).1

/-- The switch saves the stack pointer of the thread that has run, and no other one. -/
theorem saveEsp_registerEsp (picked : Picked layout s q action s₁ t site threads₀ q₀)
    (x : ThreadPtr) : (s₁.saveEsp.thread x).registerEsp =
      if x = s.current then .on s.current (layout.frame site) else (s.thread x).registerEsp := by
  rw [picked.saveEsp_thread]
  split_ifs
  · rfl
  · exact (picked.process x).2

theorem saveEsp_state (picked : Picked layout s q action s₁ t site threads₀ q₀) (x : ThreadPtr) :
    (s₁.saveEsp.thread x).state = if x = t then .stRun else (threads₀ x).state := by
  have state : (s₁.thread x).state = if x = t then .stRun else (threads₀ x).state := by
    rw [picked.thread, Function.update_apply]
    split_ifs
    · rfl
    · rfl
  rw [← state, picked.saveEsp_thread]
  split_ifs
  · rfl
  · rfl

/-- The thread that has been chosen is the running one after the switch. -/
theorem orderly (picked : Picked layout s q action s₁ (.slot u) site threads₀ q₀)
    (orderly : Orderly s q) (busy : s.idleTask ≠ some (.slot u))
    (process : (s.thread (.slot u)).p = .slot cr3)
    (threads : Threads s'.heap s'.heap (q₀.removeThread (.slot u)))
    (owner : ∀ {t p}, (s'.thread t).p = .slot p → (s'.task p).dirPagesBaseAddr = some p)
    (resumed : s' = { s₁.saveEsp with current := .slot u, cr3 }) :
    Orderly s' (q₀.removeThread (.slot u)) := by
  obtain ⟨heap, placed⟩ := picked.placed
  obtain ⟨p, others, first⟩ := picked.first busy
  have chosen : .slot u ∈ q₀.threads (.ready p) := by simp [first]
  have gone : (q₀.removeThread (.slot u)).threads.Absent (.slot u) :=
    placed.separate.absent_remove.mpr (.inr rfl)
  have before : ∀ {queue x}, x ∈ (q₀.removeThread (.slot u)).threads queue →
      x ≠ .slot u ∧ x ∈ q₀.threads queue := placed.separate.mem_remove.mp
  subst resumed
  constructor
  case threads => exact threads
  case owner => exact owner
  case slot => exact ⟨u, rfl⟩
  case absent => exact gone
  case fits =>
    intro queue slot waits member
    obtain ⟨other, member⟩ := before member
    have stopped : (s₁.saveEsp.thread (.slot slot)).state ≠ .stRun := by
      rw [picked.saveEsp_state, if_neg other]
      exact picked.parks.stopped orderly waits member
    have registerEsp := picked.saveEsp_registerEsp (.slot slot)
    rcases picked.parks.mem member with ⟨source, waiting, member⟩ | own
    · obtain ⟨⟨p, process⟩, _, index, saved⟩ := orderly.fits (waiting waits) member
      rw [if_neg (orderly.ne_of_mem member)] at registerEsp
      exact ⟨⟨p, (picked.saveEsp_p _).trans process⟩, stopped, index, registerEsp.trans saved⟩
    · rw [if_pos own, ← own] at registerEsp
      have process : (s.thread (.slot slot)).p = .slot s.cr3 := own ▸ orderly.process
      exact ⟨⟨s.cr3, (picked.saveEsp_p _).trans process⟩, stopped, _, registerEsp⟩
  case image =>
    intro queue page member
    obtain ⟨other, member⟩ := before member
    show (s₁.saveEsp.thread _).state ≠ .stRun ∧ _
    rw [picked.saveEsp_state, if_neg other]
    exact picked.parks.image orderly member
  case imageP => exact fun page => (picked.saveEsp_p _).trans (orderly.imageP page)
  case idle =>
    obtain ⟨slot, found, null, absent⟩ := orderly.idle
    refine ⟨slot, picked.idleTask.trans found, (picked.saveEsp_p _).trans null, ?_⟩
    intro queue member
    rcases picked.parks.mem (before member).2 with ⟨source, _, waits⟩ | own
    · exact absent source waits
    · have process := orderly.process
      rw [← own, null] at process
      exact absurd process (by simp)
  case last =>
    rintro m slot found same
    exact (placed.unlisted found).2.2 slot rfl (.ready p) (same ▸ chosen)
  case running =>
    show (s₁.saveEsp.thread _).state = .stRun
    rw [picked.saveEsp_state, if_pos rfl]
  case process => exact (picked.saveEsp_p _).trans process
  case saved =>
    show (s₁.saveEsp.thread _).registerEsp = _ ∨ ∃ index, (s₁.saveEsp.thread _).registerEsp = _
    rw [picked.saveEsp_registerEsp]
    split_ifs with own
    · exact .inr ⟨_, congrArg (StackPtr.on · (layout.frame site)) own.symm⟩
    · obtain ⟨queue, waits, member⟩ := (picked.source busy).resolve_right own
      exact .inr (orderly.fits waits member).2.2

end Picked

theorem Stay.orderly (stay : Stay layout s q action s' q' result) (orderly : Orderly s q)
    (threads : Threads s'.heap s'.heap q')
    (owner : ∀ {t p}, (s'.thread t).p = .slot p → (s'.task p).dirPagesBaseAddr = some p) :
    Orderly s' q' := by
  have separate := orderly.threads.separate
  have same : ∀ t, (s.thread t).p = (s.thread t).p ∧
      (s.thread t).registerEsp = (s.thread t).registerEsp ∧
      ((s.thread t).state = .stRun → (s.thread t).state = .stRun) := fun _ => ⟨rfl, rfl, id⟩
  cases stay with
  | refused | stored | others | ticked | unlockedFree | locked =>
      exact { orderly with threads := threads, owner := owner }
  | @initialised n m heap accepted unowned =>
      refine orderly.rearrange threads owner rfl rfl rfl same orderly.running
        (fun member => ⟨_, id, ?_⟩) (fun member => orderly.image ?_) fun found => ?_
      · exact (Lanes.mem_clear.mp member).2
      · exact (Lanes.mem_clear.mp member).2
      · simp only [Function.update_apply] at found
        split_ifs at found
        exact found
  | forked freeThread own =>
      refine orderly.take threads owner rfl rfl rfl (by simp [freeThread]) rfl rfl fun member => ?_
      rcases Lanes.mem_push.mp member with before | ⟨rfl, rfl⟩
      · exact .inr (separate.mem_remove.mp before)
      · exact .inl ⟨rfl, by simp, ⟨_, rfl⟩, by simp [childThread], _, rfl⟩
  | created freeThread =>
      refine orderly.take threads owner rfl rfl rfl (by simp [freeThread]) rfl rfl fun member => ?_
      rcases Lanes.mem_push.mp member with before | ⟨rfl, rfl⟩
      · exact .inr (separate.mem_remove.mp before)
      · exact .inl ⟨rfl, by simp, ⟨_, orderly.process⟩, by simp [newThread], _, rfl⟩
  | forkFailed freeThread =>
      refine orderly.take threads owner rfl rfl rfl (by simp [freeThread]) rfl rfl fun member => ?_
      exact .inr (separate.mem_remove.mp member)
  | @unlocked n m u others heap accepted usable taken first =>
      have waits : .slot u ∈ q.threads (.mutex m) := by simp [first]
      refine orderly.rearrange threads owner rfl rfl rfl (fun t => ?_) ?_ (fun member => ?_)
        (fun member => ?_) id
      · simp only [thread_setMutex, thread_setState, Function.update_apply]
        split_ifs <;> simp_all
      · simp [(orderly.ne_of_mem waits).symm, orderly.running]
      · rcases Lanes.mem_push.mp member with before | ⟨_, own⟩
        · exact ⟨_, id, Lanes.mem_of_mem_remove before⟩
        · exact ⟨.mutex m, by simp, own ▸ waits⟩
      · rcases Lanes.mem_push.mp member with before | ⟨rfl, wrong⟩
        · simpa using orderly.image (Lanes.mem_of_mem_remove before)
        · exact absurd wrong (by simp)
  | @unlockedNobody n m heap accepted usable taken listed nobody =>
      refine orderly.rearrange threads owner rfl rfl rfl (fun t => ?_) ?_ (fun member => ?_)
        (fun {queue page} member => ?_) id
      · simp only [thread_setMutex, thread_setState, Function.update_apply]
        split_ifs <;> simp_all
      · obtain ⟨c, current⟩ := orderly.slot
        have other : s.current ≠ .image (layout.imagePage m) := by simp [current]
        simp [other, orderly.running]
      · rcases Lanes.mem_push.mp member with before | ⟨_, wrong⟩
        · exact ⟨_, id, Lanes.mem_of_mem_remove before⟩
        · exact absurd wrong (by simp)
      · simp only [thread_setMutex, thread_setState, Function.update_apply]
        rcases Lanes.mem_push.mp member with before | ⟨rfl, same⟩
        · have kept := orderly.image (Lanes.mem_of_mem_remove before)
          split_ifs
          · exact ⟨by simp, kept.2⟩
          · exact kept
        · rw [if_pos same]
          exact ⟨by simp, .inr ⟨_, rfl⟩⟩
  | @destroyed n m heap accepted owned own listed =>
      refine orderly.rearrange threads owner rfl rfl rfl (fun t => ?_) ?_ (fun member => ?_)
        (fun {queue page} member => ?_) (fun found => ?_)
      · simp only [thread_setMutex, releaseStates, releasedState]
        split_ifs <;> simp_all
      · simp [releaseStates, orderly.absent (.mutex m), orderly.running]
      · rw [Transition.mem_moveHome separate] at member
        split_ifs at member with waits
        · exact ⟨.mutex m, by simp, waits⟩
        · exact ⟨_, id, member⟩
      · rw [Transition.mem_moveHome separate, if_neg (orderly.noImage m page)] at member
        simp only [thread_setMutex, releaseStates, if_neg (orderly.noImage m page)]
        exact orderly.image member
      · simpa using found

/-- What a move keeps. -/
theorem Move.orderly (move : Move layout s q action s' q' result) (orderly : Orderly s q)
    (threads : Threads s'.heap s'.heap q')
    (owner : ∀ {t p}, (s'.thread t).p = .slot p → (s'.task p).dirPagesBaseAddr = some p) :
    Orderly s' q' := by
  cases move with
  | stayed reached stay => exact stay.orderly orderly threads owner
  | switched reached picked busy process =>
      exact picked.orderly orderly busy process threads owner rfl

/-! ## The boot -/

section Boot

variable {k : Kind} {head new node : Node}

theorem apart_initListHead (apart : Apart Node.kind s.heap) (node_kind : node.kind = some k) :
    Ensures (fun s' => Apart Node.kind s'.heap) (s.initListHead node) :=
  (apart.initListHead node_kind).bind fun _ result => .ok result.1

theorem apart_listAddTail (apart : Apart Node.kind s.heap) (new_kind : new.kind = some k)
    (head_kind : head.kind = some k) :
    Ensures (fun s' => Apart Node.kind s'.heap) (s.listAddTail new head) :=
  (apart.listAddTail new_kind head_kind).bind fun _ result => .ok result.1

theorem apart_listDel (apart : Apart Node.kind s.heap) (node_kind : node.kind = some k) :
    Ensures (fun s' => Apart Node.kind s'.heap) (s.listDel node) :=
  (apart.listDel node_kind rfl).bind fun _ result => .ok result.1

/-- Both `init_idle` and `init_task1` begin with a free process and a free thread. -/
theorem apart_takeFirst (apart : Apart Node.kind s.heap)
    {next : Kernel → TaskId → ThreadPtr → Except Fault Kernel}
    (continued : ∀ s p t, Apart Node.kind s.heap →
      Ensures (fun s' => Apart Node.kind s'.heap) (next s p t)) :
    Ensures (fun s' => Apart Node.kind s'.heap) (do
      let l := s.listFirst .freequeue
      let s ← s.listDel l
      let c ← listHeadToTaskStruct l
      let lhT := s.listFirst .freeThreadqueue
      let s ← s.listDel lhT
      let ts ← listHeadToThreadStruct layout lhT
      next s c ts) := by
  dsimp only
  have leads : Leads Node.kind .processes (s.listFirst .freequeue) := (apart .freequeue _ rfl).1
  cases found : listHeadToTaskStruct (s.listFirst .freequeue) with
  | error fault => exact Ensures.skip fun _ => .error _
  | ok p =>
      rw [task_of_leads leads found]
      refine (apart_listDel apart rfl).bind fun s₁ apart₁ => ?_
      rw [ok_bind]
      cases found' : listHeadToThreadStruct layout (s₁.listFirst .freeThreadqueue) with
      | error fault => exact Ensures.skip fun _ => .error _
      | ok t =>
          refine (apart_listDel apart₁ (Shadow.kind_of_thread found')).bind fun s₂ apart₂ => ?_
          exact continued s₂ p t apart₂

theorem zeroed_apart (layout : Layout) : Apart Node.kind (zeroed layout).heap := by
  intro node k node_kind
  cases node with
  | thread t =>
      cases t with
      | slot slot => exact ⟨.inr rfl, .inr rfl⟩
      | image page => exact ⟨.inr rfl, .inr rfl⟩
  | _ => exact ⟨.inr rfl, .inr rfl⟩

theorem initSched_apart (apart : Apart Node.kind s.heap) :
    Ensures (fun s' => Apart Node.kind s'.heap) s.initSched := by
  have freequeue : Ensures (fun s' => Apart Node.kind s'.heap) s.initFreequeue := by
    refine (apart_initListHead apart (by rfl)).bind fun s₁ apart₁ => ?_
    refine Ensures.foldlM (fun s₁ p apart₁ => ?_) _ apart₁
    have marked : Apart Node.kind (s₁.setTask p fun c => { c with pid := -1 }).heap := apart₁
    refine (apart_initListHead marked (by rfl)).bind fun s₂ apart₂ => ?_
    refine (apart_initListHead apart₂ (by rfl)).bind fun s₃ apart₃ => ?_
    exact apart_listAddTail (k := .processes) apart₃ rfl rfl
  refine freequeue.bind fun s₁ apart₁ => ?_
  refine (apart_initListHead apart₁ (by rfl)).bind fun s₂ apart₂ => ?_
  refine (apart_initListHead apart₂ (by rfl)).bind fun s₃ apart₃ => ?_
  refine Ensures.foldlM (fun s₄ t apart₄ => ?_) _ apart₃
  have marked : Apart Node.kind (s₄.setThread t fun c => { c with tid := -1 }).heap := apart₄
  exact apart_listAddTail (k := .threads) marked rfl rfl

theorem heap_setCr3 (s : Kernel) (p : TaskId) :
    Ensures (fun s' => s'.heap = s.heap) (s.setCr3 p) := by
  unfold setCr3
  split
  · exact .ok rfl
  · exact .error _

/-- Lists of processes and lists of threads are apart after boot. -/
theorem boot_apart (layout : Layout) : Ensures (fun s => Apart Node.kind s.heap) (boot layout) := by
  have mapped : Ensures (fun s => s.heap = (zeroed layout).heap) ((zeroed layout).initMm layout) :=
    heap_setCr3 ({ zeroed layout with
      mem := ((zeroed layout).mem.initTablePages layout).initFrames }.allocateDIR 0) 0
  refine mapped.bind fun s same => ?_
  refine (initSched_apart (same ▸ zeroed_apart layout)).bind fun s₁ apart₁ => ?_
  refine Ensures.bind (apart_takeFirst apart₁ fun s₂ p t apart₂ => .ok apart₂) fun s₃ apart₃ => ?_
  refine apart_takeFirst apart₃ fun s₄ p t apart₄ => ?_
  refine Ensures.skip fun row => ?_
  refine (heap_setCr3 _ p).bind fun s₅ same₅ => .ok ?_
  rw [show _ = s₄.heap from same₅]
  exact apart₄

theorem booted_orderly (layout : Layout) {heap : Heap Node}
    (represents : Represents heap bootQueues)
    (apart : Apart Node.kind heap) : Orderly (booted layout heap) bootQueues where
  threads := ⟨apart, fun _ _ => rfl, heap, fun _ _ => rfl, represents⟩
  fits {queue slot} busy member := absurd (mem_bootQueues member).1 busy
  image {queue page} member := by
    obtain ⟨_, _, equal, _⟩ := mem_bootQueues member
    exact absurd equal (by simp)
  imageP := (booted_consistent layout represents).imageP
  idle := (booted_consistent layout represents).idle
  owner {t p} process := by
    have nobody : ((zeroed layout).thread t).p ≠ .slot p := by cases t <;> simp [zeroed]
    simp only [booted] at process
    split_ifs at process
    · exact TaskPtr.slot.inj process ▸ rfl
    · exact absurd process nobody
    · exact absurd process nobody
  slot := (booted_consistent layout represents).slot
  absent := (booted_consistent layout represents).absent
  last := (booted_consistent layout represents).last
  running := rfl
  process := rfl
  saved := .inl rfl

theorem boot_orderly (layout : Layout) {start : Kernel} (booting : boot layout = .ok start) :
    ∃ heap, start = booted layout heap ∧ Represents heap bootQueues ∧ Orderly start bootQueues := by
  obtain ⟨heap, boots, represents⟩ := boot_eq layout
  obtain rfl : booted layout heap = start := Except.ok.inj (boots.symm.trans booting)
  exact ⟨heap, rfl, represents, booted_orderly layout represents (boot_apart layout _ boots)⟩

end Boot

/-! ## Lists as they are traversed -/

/-- A traversal finds the threads of a queue. -/
theorem Threads.linked {rest : Heap Node} (threads : Threads rest s.heap q) (queue : ThreadQueue) :
    s.linked queue.node = (q.threads queue).map .thread := by
  obtain ⟨heap₀, agree, represents⟩ := threads.shadow
  have ring : q.Listed queue → s.linked queue.node = (q.threads queue).map .thread := by
    intro listed
    have found := Queues.lists_threadNode listed
    have same : ∀ node ∈ queue.node :: (q.threads queue).map .thread,
        s.heap node = heap₀ node := by
      intro node member
      refine (agree node ?_).symm
      rcases List.mem_cons.mp member with rfl | inner
      · rw [Threads.kind_node]
        simp
      · obtain ⟨t, _, rfl⟩ := List.mem_map.mp inner
        simp [Node.kind]
    refine Represents.linked_of_ring ((represents.family.ring found).frame same)
      (represents.family.valid found) ?_
    rw [List.length_map]
    exact (Kernel.length_lt_listFuel (threads.separate.nodup queue)).le
  cases queue with
  | mutex m =>
      cases head : q.head m with
      | listed => exact ring head
      | unlisted last =>
          obtain ⟨empty, links, _⟩ := threads.unlisted head
          rw [empty, Kernel.linked, if_pos (by rw [ThreadQueue.node_mutex, links])]
          rfl
  | _ => exact ring trivial

theorem Threads.linked_iff {rest : Heap Node} (threads : Threads rest s.heap q)
    (queue : ThreadQueue)
    (t : ThreadPtr) : .thread t ∈ s.linked queue.node ↔ t ∈ q.threads queue := by
  rw [threads.linked, List.mem_map_of_injective thread_injective]

/-! ## Runs -/

theorem Stay.owner (stay : Stay layout s q action s' q' result)
    (process : (s'.thread t).p = .slot p) :
    (∃ x, (s.thread x).p = .slot p) ∨ (s'.task p).dirPagesBaseAddr = some p := by
  cases stay with
  | refused | stored | others | ticked | unlockedFree | locked | initialised =>
      exact .inl ⟨t, process⟩
  | @forked stack child u others task globalPID heap stack' mem value freeThread own =>
      by_cases taken : t = .slot u
      · subst taken
        simp only [thread_setThread, Function.update_self, childThread] at process
        exact .inr (TaskPtr.slot.inj process ▸ own)
      · simp only [thread_setThread, Function.update_of_ne taken] at process
        exact .inl ⟨t, process⟩
  | @forkFailed stack u =>
      by_cases taken : t = .slot u
      · subst taken
        simp only [thread_setThread, Function.update_self] at process
        exact .inl ⟨s.current, process⟩
      · simp only [thread_setThread, Function.update_of_ne taken] at process
        exact .inl ⟨t, process⟩
  | @created stack id start u =>
      by_cases taken : t = .slot u
      · subst taken
        simp only [thread_setThread, Function.update_self, newThread] at process
        exact .inl ⟨s.current, process⟩
      · simp only [thread_setThread, Function.update_of_ne taken] at process
        exact .inl ⟨t, process⟩
  | unlocked | unlockedNobody | destroyed =>
      refine .inl ⟨t, ?_⟩
      rw [← process]
      simp only [thread_setMutex, thread_setState, releaseStates, Function.update_apply]
      split_ifs <;> simp_all

/-- The process of a thread is that of some thread before or has its own page directory. -/
theorem Move.owner (move : Move layout s q action s' q' result)
    (process : (s'.thread t).p = .slot p) :
    (∃ x, (s.thread x).p = .slot p) ∨ (s'.task p).dirPagesBaseAddr = some p := by
  cases move with
  | stayed reached stay => exact stay.owner process
  | switched reached picked => exact .inl ⟨t, (picked.saveEsp_p t).symm.trans process⟩

/-- A step that does not fault is a move to an orderly state. -/
theorem Orderly.step (orderly : Orderly s q)
    (performed : s.perform layout action = .ok (s', result)) :
    ∃ q', Move layout s q action s' q' result ∧ Orderly s' q' := by
  obtain ⟨q', move, threads⟩ := orderly.move_of_perform performed
  refine ⟨q', move, move.orderly orderly threads fun {t p} process => ?_⟩
  rcases move.owner process with ⟨x, before⟩ | own
  · rcases directory_perform layout s action _ performed p with kept | own
    · exact kept.trans (orderly.owner before)
    · exact own
  · exact own

/-- What holds after boot and is kept by every move of a run holds at its end. -/
theorem Kernel.ReachableWith.moves {γ : Type} {layout : Layout}
    {record : γ → Kernel → Action → Kernel → Result → γ} {start : γ}
    {guard : Kernel × γ → Action → Prop} {state : Kernel × γ}
    (reachable : ReachableWith layout record start guard state)
    (holds : Kernel → Queues → γ → Prop)
    (initial : ∀ heap, Represents heap bootQueues → holds (booted layout heap) bootQueues start)
    (preserved : ∀ {s q history action s' q' result}, Orderly s q → holds s q history →
      guard (s, history) action → Orderly s' q' → s.perform layout action = .ok (s', result) →
      Move layout s q action s' q' result → holds s' q' (record history s action s' result)) :
    ∃ q, Orderly state.1 q ∧ holds state.1 q state.2 := by
  obtain ⟨s₀, booting, reaches⟩ := reachable
  obtain ⟨heap, rfl, represents, orderly⟩ := boot_orderly layout booting
  refine reaches.invariant (fun state => ∃ q, Orderly state.1 q ∧ holds state.1 q state.2) ?_
    ⟨bootQueues, orderly, initial heap represents⟩
  rintro ⟨s, history⟩ after action ⟨q, orderly, held⟩ admitted taken
  obtain ⟨s', result, performed, rfl⟩ := recordStep_eq_ok.mp taken
  obtain ⟨q', move, orderly'⟩ := orderly.step performed
  exact ⟨q', orderly', preserved orderly held admitted orderly' performed move⟩

theorem Kernel.Reachable.moves {layout : Layout} {guard : Kernel → Action → Prop} {s : Kernel}
    (reachable : Reachable layout guard s) (holds : Kernel → Queues → Prop)
    (initial : ∀ heap, Represents heap bootQueues → holds (booted layout heap) bootQueues)
    (preserved : ∀ {s q action s' q' result}, Orderly s q → holds s q → guard s action →
      Orderly s' q' → s.perform layout action = .ok (s', result) →
      Move layout s q action s' q' result → holds s' q') : ∃ q, Orderly s q ∧ holds s q := by
  obtain ⟨s₀, booting, reaches⟩ := reachable
  obtain ⟨heap, rfl, represents, orderly⟩ := boot_orderly layout booting
  refine reaches.invariant (fun s => ∃ q, Orderly s q ∧ holds s q) ?_
    ⟨bootQueues, orderly, initial heap represents⟩
  rintro s s' action ⟨q, orderly, held⟩ admitted stepped
  obtain ⟨⟨next, result⟩, performed, equal⟩ := bind_eq_ok.mp stepped
  obtain rfl : next = s' := Except.ok.inj equal
  obtain ⟨q', move, orderly'⟩ := orderly.step performed
  exact ⟨q', orderly', preserved orderly held admitted orderly' performed move⟩

/-- In every run the threads are orderly. -/
theorem Kernel.Reachable.orderly {guard : Kernel → Action → Prop}
    (reachable : Reachable layout guard s) : ∃ q, Orderly s q := by
  obtain ⟨q, orderly, _⟩ := reachable.moves (fun _ _ => True) (fun _ _ => trivial)
    fun _ _ _ _ _ _ => trivial
  exact ⟨q, orderly⟩

end Zeos
