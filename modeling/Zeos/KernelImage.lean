import Zeos.NodeAddresses
import Zeos.Pages

/-!
# The variables of the kernel in memory

Every page table maps the frames of the kernel.  The `id` of `pthread_create`, at which nobody
looks, can lead there, and so can the stores of a forked child; then they change the variables of
the kernel.  The runs here have these stores.  Where none of them is made a run is one of those in
`Zeos.Boot`, which do not have them.
-/

namespace Zeos

open GuardedRun Kernel
open NodePlacement (taskBase threadBase)

/-- Where the variables of the kernel lie. -/
structure Image extends NodePlacement where
  layout : Layout
  physMem : Nat
  pagusrTable : Nat
  remainingQuantumT : Nat
  remainingQuantumP : Nat
  globalPID : Nat

/-! ## Stores to the variables -/

/-- The word that lies at `start`, after a byte has been stored. -/
def patch (address : Nat) (value : Byte) (start : Nat) (word : Word) : Word :=
  if start ≤ address ∧ address < start + 4 then
    let shift := 8 * (address - start)
    word &&& ~~~((0xff : Word) <<< shift) ||| value.setWidth 32 <<< shift
  else word

namespace PageTableEntry

/-- The word of an entry in which only the bits that the kernel sets can be set. -/
def word (entry : PageTableEntry) : Word :=
  entry.pbaseAddr.setWidth 32 <<< 12 ||| (if entry.user then 4 else 0) |||
    (if entry.rw then 2 else 0) ||| (if entry.present then 1 else 0)

def ofWord (word : Word) : PageTableEntry :=
  ⟨word.getLsbD 0, word.getLsbD 1, word.getLsbD 2, word.extractLsb' 12 20⟩

end PageTableEntry

/-- A byte of user memory is stored. -/
def Kernel.setByte (s : Kernel) (physical : Nat) (value : Byte) : Kernel :=
  { s with mem := { s.mem with ram := Function.update s.mem.ram physical value } }

namespace Image

variable (image : Image)

/-- The numbers: in each `task_struct` the fields `PID`, `total_quantum` and `nthread`, in each
`thread_struct` `TID`, `quantum` and `blocked_by`, and in each mutex `ID`, `locked` and `owner`. -/
def numbers : List Nat :=
  [image.remainingQuantumT, image.remainingQuantumP, image.globalPID] ++
    (List.finRange nrTasks).flatMap (fun p => [0, 20, 40].map (taskBase image.layout p + ·)) ++
    (List.finRange (nrThreads + 2)).flatMap (fun u =>
      [0, 20, 32].map (threadBase image.layout image.toNodePlacement (.slot u) + ·)) ++
    (List.finRange nrMutex).flatMap fun m =>
      [0, 4, 8].map (image.layout.mutexVector + 20 * m.val + ·)

/-- The byte belongs to a number, to the kernel stack of a thread, to `phys_mem` or to
`pagusr_table`. -/
def Covers (address : Nat) : Prop :=
  (∃ start ∈ image.numbers, start ≤ address ∧ address < start + 4) ∨
    (∃ u : ThreadSlot, threadBase image.layout image.toNodePlacement (.slot u) +
        4 * threadStructWords ≤ address ∧
      address < threadBase image.layout image.toNodePlacement (.slot u) + pageSize) ∨
    (image.physMem ≤ address ∧ address < image.physMem + totalPages) ∨
    image.pagusrTable ≤ address ∧ address < image.pagusrTable + 4 * (nrTasks * totalPages)

instance : DecidablePred image.Covers := fun address =>
  inferInstanceAs (Decidable ((∃ start ∈ image.numbers, start ≤ address ∧ address < start + 4) ∨
    (∃ _u : ThreadSlot, _ ≤ _ ∧ _ < _) ∨ (_ ≤ _ ∧ _ < _) ∨ _ ≤ _ ∧ _ < _))

/-- A byte is stored where variables lie. -/
def patchVariables (s : Kernel) (address : Nat) (value : Byte) : Kernel where
  current := s.current
  ebp := s.ebp
  cr3 := s.cr3
  heap := s.heap
  task p :=
    let base := taskBase image.layout p
    { s.task p with
      pid := patch address value base (s.task p).pid
      totalQuantum := patch address value (base + 20) (s.task p).totalQuantum
      nthread := patch address value (base + 40) (s.task p).nthread }
  thread
    | .slot u =>
        let base := threadBase image.layout image.toNodePlacement (.slot u)
        { s.thread (.slot u) with
          tid := patch address value base (s.thread (.slot u)).tid
          quantum := patch address value (base + 20) (s.thread (.slot u)).quantum
          blockedBy := patch address value (base + 32) (s.thread (.slot u)).blockedBy }
    | .image page => s.thread (.image page)
  stack
    | .slot u => fun index =>
        if threadStructWords ≤ index ∧ index < kernelStackSize then
          patch address value (threadBase image.layout image.toNodePlacement (.slot u) + 4 * index)
            (s.stack (.slot u) index)
        else s.stack (.slot u) index
    | .image page => s.stack (.image page)
  mutexVector m :=
    let base := image.layout.mutexVector + 20 * m.val
    { locked := patch address value (base + 4) (s.mutexVector m).locked
      owner := patch address value (base + 8) (s.mutexVector m).owner }
  idleTask := s.idleTask
  remainingQuantumT := patch address value image.remainingQuantumT s.remainingQuantumT
  remainingQuantumP := patch address value image.remainingQuantumP s.remainingQuantumP
  globalPID := patch address value image.globalPID s.globalPID
  mem :=
    { physMem := fun frame =>
        if frame < totalPages ∧ address = image.physMem + frame then value else s.mem.physMem frame
      pagusrTable := fun index =>
        let start := image.pagusrTable + 4 * index
        if index < nrTasks * totalPages ∧ start ≤ address ∧ address < start + 4 then
          .ofWord (patch address value start (s.mem.pagusrTable index).word)
        else s.mem.pagusrTable index
      ram := s.mem.ram }

/-- A byte store to physical memory.  In the frames of the kernel it can also meet code, pointers,
states and variables of other parts of the system; what follows then is not modelled. -/
def storeByte (s : Kernel) (physical : Nat) (value : Byte) : Except Fault Kernel :=
  if numPagKernel * pageSize ≤ physical then .ok (s.setByte physical value)
  else if image.Covers physical then .ok (image.patchVariables s physical value)
  else .error .foreign

/-- Store an `int` through a pointer of the user.  The pages are looked up before the store. -/
def storeWord (s : Kernel) (addr value : Word) : Except Fault Kernel := do
  let physicals ← (List.range 4).mapM fun offset => s.mem.translate s.cr3 (addr.toNat + offset)
  physicals.zipIdx.foldlM (fun s byte =>
    image.storeByte s byte.1 (value.extractLsb' (8 * byte.2) 8)) s

end Image

/-! ## Steps with these stores -/

namespace Kernel

/-- No frame of the kernel is behind an address. -/
def OutsideKernel (s : Kernel) (address : Nat) : Prop :=
  let entry := s.mem.pagusrTable (entryIndex s.cr3 (address / pageSize))
  address / pageSize < totalPages → entry.present → numPagKernel ≤ entry.pbaseAddr.toNat

instance (s : Kernel) : DecidablePred s.OutsideKernel := fun _ =>
  inferInstanceAs (Decidable (_ < _ → _ → _ ≤ _))

/-- The page of an address can be written by the program. -/
def Writable (s : Kernel) (addr : Word) : Prop :=
  let entry := s.mem.pagusrTable (entryIndex s.cr3 (addr.toNat / pageSize))
  addr.toNat / pageSize < totalPages ∧ entry.present ∧ entry.rw ∧ entry.user

instance (s : Kernel) : DecidablePred s.Writable := fun _ =>
  inferInstanceAs (Decidable (_ < _ ∧ _ = _ ∧ _ = _ ∧ _ = _))

/-- What `pthread_create` writes through its `id` and what a program stores lies outside of the
frames of the kernel. -/
def SparesKernel (s : Kernel) : Action → Prop
  | .pthreadCreate _ id startRoutine => accessOk .read startRoutine 4 = true →
      s.listEmpty .freeThreadqueue = false → ∀ offset < 4, s.OutsideKernel (id.toNat + offset)
  | .store addr _ => s.Writable addr → s.OutsideKernel addr.toNat
  | _ => True

instance (s : Kernel) : DecidablePred s.SparesKernel
  | .pthreadCreate _ _ _ => inferInstanceAs (Decidable (_ = _ → _ = _ → ∀ _ < 4, _))
  | .store addr _ => inferInstanceAs (Decidable (s.Writable addr → s.OutsideKernel addr.toNat))
  | .tick | .fork _ | .pthreadJoin _ | .pthreadExit | .yield | .exit | .mutexInit _ | .mutexLock _
  | .mutexUnlock _ | .mutexDestroy _ | .others _ => isTrue trivial

/-- A condition on the steps, and that they spare the frames of the kernel. -/
def Sparing (guard : Kernel → Action → Prop) (s : Kernel) (action : Action) : Prop :=
  guard s action ∧ s.SparesKernel action

/-- The same for runs with a history. -/
def SparingWith {γ : Type} (guard : Kernel × γ → Action → Prop) (state : Kernel × γ)
    (action : Action) : Prop :=
  guard state action ∧ state.1.SparesKernel action

end Kernel

namespace Image

variable (image : Image)

/-- `sys_pthread_create`, with the store to wherever `id` points. -/
def sysPthreadCreate (s : Kernel) (id startRoutine : Word) : Except Fault (Kernel × Result) := do
  if !accessOk .read startRoutine 4 then return (s, .returns (-EFAULT))
  else if s.listEmpty .freeThreadqueue then return (s, .returns (-ENOMEM))
  else
    let tLh := s.listFirst .freeThreadqueue
    let uthread ← listHeadToThreadStruct image.layout tLh
    let s ← s.listDel tLh
    let s ← s.copyThreadUnion uthread
    let s := s.createContext uthread startRoutine
    let p ← s.currentP
    let processPT ← s.getPT p
    let s ← s.createStack uthread processPT
    let s := s.createThread uthread p
    let s ← image.storeWord s id (s.thread uthread).tid
    let s ← s.listAddTail (.thread uthread) (.ready p)
    return (s, .returns 0)

/-- A byte store of the running program, also to variables of the kernel. -/
def userStore (s : Kernel) (addr : Word) (value : Byte) : Except Fault Kernel :=
  let entry := s.mem.pagusrTable (entryIndex s.cr3 (addr.toNat / pageSize))
  if s.Writable addr then
    image.storeByte s (entry.pbaseAddr.toNat * pageSize + addr.toNat % pageSize) value
  else .ok s

/-- The effect of an action.  What a join reads in the frames of the kernel is any word that
`Action.others` has left there. -/
def perform (s : Kernel) : Action → Except Fault (Kernel × Result)
  | .pthreadCreate stack id startRoutine =>
      image.sysPthreadCreate (s.enterWith stack) id startRoutine
  | .store addr value => do return (← image.userStore s addr value, .returns 0)
  | action => s.perform image.layout action

def step (s : Kernel) (action : Action) : Except Fault Kernel := do
  let (s, _) ← image.perform s action
  return s

/-- The states reached from boot by steps that all meet the guard. -/
def Reachable (guard : Kernel → Action → Prop) (s : Kernel) : Prop :=
  ∃ start, boot image.layout = .ok start ∧ Reaches image.step guard start s

/-- The same with what a history records of the run. -/
def ReachableWith {γ : Type} (record : γ → Kernel → Action → Kernel → Result → γ) (initial : γ)
    (guard : Kernel × γ → Action → Prop) (state : Kernel × γ) : Prop :=
  ∃ start, boot image.layout = .ok start ∧
    Reaches (recordStep image.perform record) guard (start, initial) state

end Image

/-! ## Runs that spare the kernel -/

namespace Kernel

variable {s s' : Kernel} {address : Nat}

theorem OutsideKernel.congr (outside : s.OutsideKernel address)
    (tables : s'.mem.pagusrTable = s.mem.pagusrTable) (cr3 : s'.cr3 = s.cr3) :
    s'.OutsideKernel address := by
  unfold OutsideKernel
  rw [tables, cr3]
  exact outside

theorem OutsideKernel.above (outside : s.OutsideKernel address) {physical : Nat}
    (translated : s.mem.translate s.cr3 address = .ok physical) :
    numPagKernel * pageSize ≤ physical := by
  obtain ⟨frame, found, equal⟩ := bind_eq_ok.mp translated
  obtain rfl : frame * pageSize + address % pageSize = physical := Except.ok.inj equal
  simp only [Memory.frameOf] at found
  split at found
  · rename_i present
    rw [← Except.ok.inj found]
    exact (Nat.mul_le_mul_right _ (outside present.1 present.2)).trans (Nat.le_add_right _ _)
  · exact absurd found (by simp)

/-- The frame that `alloc_frame` gives out, and the number that stands for none, is not one of the
kernel. -/
theorem le_allocFrame (m : Memory) : numPagKernel ≤ (BitVec.ofInt 20 m.allocFrame.1).toNat := by
  have sizes := pageConstants
  cases free : Memory.freeFrames m.physMem with
  | nil =>
      rw [Memory.allocFrame_nil free]
      exact (by decide : numPagKernel ≤ (BitVec.ofInt 20 (-1)).toNat)
  | cons f rest =>
      have member : f ∈ Memory.freeFrames m.physMem := free ▸ List.mem_cons_self
      obtain ⟨⟨above, below, _⟩, _⟩ := Memory.mem_freeFrames.mp member
      rw [Memory.allocFrame_cons free, BitVec.ofInt_natCast, BitVec.toNat_ofNat,
        Nat.mod_eq_of_lt (by omega)]
      exact above

theorem outside_createStack (uthread : ThreadPtr) (row : TaskId)
    (outside : s.OutsideKernel address) :
    Ensures (fun s' => s'.OutsideKernel address) (s.createStack uthread row) := by
  rintro s' created
  obtain ⟨entry, _, stacked⟩ := bind_eq_ok.mp created
  have found : s'.mem.pagusrTable (entryIndex s'.cr3 (address / pageSize)) =
      Function.update s.mem.allocFrame.2.pagusrTable entry
        { present := true, rw := true, user := true
          pbaseAddr := BitVec.ofInt 20 s.mem.allocFrame.1 }
        (entryIndex s.cr3 (address / pageSize)) := by
    rw [← Except.ok.inj stacked]
    rfl
  unfold OutsideKernel
  rw [found, Function.update_apply, Memory.pagusrTable_allocFrame]
  by_cases same : entryIndex s.cr3 (address / pageSize) = entry
  · rw [if_pos same]
    exact fun _ _ => le_allocFrame s.mem
  · rw [if_neg same]
    exact outside

theorem outside_listDel (entry : Node) (outside : s.OutsideKernel address) :
    Ensures (fun s' => s'.OutsideKernel address) (s.listDel entry) :=
  Ensures.skip fun _ => .ok (outside.congr rfl rfl)

theorem outside_copyThreadUnion (dest : ThreadPtr) (outside : s.OutsideKernel address) :
    Ensures (fun s' => s'.OutsideKernel address) (s.copyThreadUnion dest) := by
  cases dest with
  | slot u => exact .ok (outside.congr rfl rfl)
  | image page => exact .error _

end Kernel

namespace Image

variable (image : Image) {s : Kernel}

/-- The stores of the bytes from `k` on, by induction on their number. -/
theorem storeBytes_eq (addr value : Word) {k n : Nat} (s : Kernel)
    (outside : ∀ offset ∈ List.range' k n, s.OutsideKernel (addr.toNat + offset)) :
    (((List.range' k n).mapM fun offset => s.mem.translate s.cr3 (addr.toNat + offset)) >>=
      fun physicals => (physicals.zipIdx k).foldlM (fun (s : Kernel) byte =>
        image.storeByte s byte.1 (value.extractLsb' (8 * byte.2) 8)) s) =
    (((List.range' k n).foldlM (fun (m : Memory) offset =>
        m.storeByte s.cr3 (addr.toNat + offset) (value.extractLsb' (8 * offset) 8)) s.mem) >>=
      fun mem => .ok { s with mem }) := by
  induction n generalizing k s with
  | zero => rfl
  | succ n induction =>
      rw [List.range'_succ] at outside ⊢
      rw [List.mapM_cons, List.foldlM_cons, Memory.storeByte]
      cases found : s.mem.translate s.cr3 (addr.toNat + k) with
      | error fault => rfl
      | ok physical =>
          have above := (outside k List.mem_cons_self).above found
          have rest := induction (s.setByte physical (value.extractLsb' (8 * k) 8))
            fun offset member => (outside offset (List.mem_cons_of_mem k member)).congr rfl rfl
          simp only [ok_bind, if_neg (Nat.not_lt.mpr above), pure_eq_ok]
          refine Eq.trans ?_ rest
          -- The pages are the same after the store of the first byte.
          have pages : ((List.range' (k + 1) n).mapM fun offset =>
                (s.setByte physical (value.extractLsb' (8 * k) 8)).mem.translate
                  (s.setByte physical (value.extractLsb' (8 * k) 8)).cr3 (addr.toNat + offset)) =
              (List.range' (k + 1) n).mapM fun offset =>
                s.mem.translate s.cr3 (addr.toNat + offset) := rfl
          rw [pages]
          cases (List.range' (k + 1) n).mapM fun offset =>
              s.mem.translate s.cr3 (addr.toNat + offset) with
          | error fault => rfl
          | ok physicals =>
              rw [ok_bind, ok_bind, ok_bind, List.zipIdx_cons, List.foldlM_cons, storeByte,
                if_pos above, ok_bind]

/-- Above the frames of the kernel a word is stored as `Memory.storeWord` stores it. -/
theorem storeWord_eq {addr : Word} (value : Word)
    (outside : ∀ offset < 4, s.OutsideKernel (addr.toNat + offset)) :
    image.storeWord s addr value = do
      let mem ← s.mem.storeWord s.cr3 addr value
      return { s with mem } := by
  have offsets : List.range 4 = List.range' 0 4 := List.range_eq_range'
  rw [storeWord, Memory.storeWord, offsets]
  exact image.storeBytes_eq addr value s fun offset member =>
    outside offset (by simpa using (List.mem_range'_1.mp member).2)

theorem sysPthreadCreate_eq {id startRoutine : Word}
    (spares : accessOk .read startRoutine 4 = true → s.listEmpty .freeThreadqueue = false →
      ∀ offset < 4, s.OutsideKernel (id.toNat + offset)) :
    image.sysPthreadCreate s id startRoutine = s.sysPthreadCreate image.layout id startRoutine := by
  unfold sysPthreadCreate Kernel.sysPthreadCreate
  split
  · rfl
  · rename_i accepted
    split
    · rfl
    · rename_i someThread
      have outside := spares (by simpa using accepted) (by simpa using someThread)
      refine bind_congr_ok fun uthread _ => bind_congr_ok fun s₁ deleted =>
        bind_congr_ok fun s₂ copied => bind_congr_ok fun p _ => bind_congr_ok fun row _ =>
        bind_congr_ok fun s₃ stacked => ?_
      have outside' : ∀ offset < 4,
          (s₃.createThread uthread p).OutsideKernel (id.toNat + offset) := by
        intro offset bound
        have deleted := outside_listDel _ (outside offset bound) s₁ deleted
        have copied := outside_copyThreadUnion _ deleted s₂ copied
        have context : (s₂.createContext uthread startRoutine).OutsideKernel
            (id.toNat + offset) := copied.congr rfl rfl
        exact (outside_createStack _ _ context s₃ stacked).congr rfl rfl
      simp only [image.storeWord_eq _ outside']
      cases (s₃.createThread uthread p).mem.storeWord (s₃.createThread uthread p).cr3 id _ with
      | ok mem => rfl
      | error fault => rfl

theorem userStore_eq {addr : Word} {value : Byte}
    (spares : s.Writable addr → s.OutsideKernel addr.toNat) :
    image.userStore s addr value = .ok (s.userStore addr value) := by
  show (if s.Writable addr then image.storeByte s _ value else .ok s) =
    .ok (if s.Writable addr then _ else s)
  by_cases writable : s.Writable addr
  · have frame := spares writable writable.1 writable.2.1
    rw [if_pos writable, if_pos writable]
    exact if_pos ((Nat.mul_le_mul_right _ frame).trans (Nat.le_add_right _ _))
  · rw [if_neg writable, if_neg writable]

/-- An action that spares the kernel's frames has the effect it has in `Kernel.perform`. -/
theorem perform_eq {action : Action} (spares : s.SparesKernel action) :
    image.perform s action = s.perform image.layout action := by
  cases action with
  | pthreadCreate stack id startRoutine =>
      refine image.sysPthreadCreate_eq fun accepted some offset bound => ?_
      exact (spares accepted some offset bound).congr rfl rfl
  | store addr value =>
      show (image.userStore s addr value >>= fun s => .ok (s, Result.returns 0)) = _
      rw [image.userStore_eq spares]
      rfl
  | _ => rfl

theorem step_eq {action : Action} (spares : s.SparesKernel action) :
    image.step s action = s.step image.layout action := by
  rw [step, Kernel.step, image.perform_eq spares]

variable {image : Image} {guard : Kernel → Action → Prop} {γ : Type}
  {record : γ → Kernel → Action → Kernel → Result → γ} {initial : γ}
  {guardWith : Kernel × γ → Action → Prop} {state : Kernel × γ}

/-- A run that spares the frames of the kernel is one of `Zeos.Boot`. -/
theorem Reachable.spared (reachable : image.Reachable (Sparing guard) s) :
    Kernel.Reachable image.layout guard s := by
  obtain ⟨start, booted, reaches⟩ := reachable
  exact ⟨start, booted, reaches.congr fun spares => ⟨(image.step_eq spares.2).symm, spares.1⟩⟩

theorem Reachable.of_spared (reachable : Kernel.Reachable image.layout (Sparing guard) s) :
    image.Reachable (Sparing guard) s := by
  obtain ⟨start, booted, reaches⟩ := reachable
  exact ⟨start, booted, reaches.congr fun spares => ⟨image.step_eq spares.2, spares⟩⟩

theorem ReachableWith.spared
    (reachable : image.ReachableWith record initial (SparingWith guardWith) state) :
    Kernel.ReachableWith image.layout record initial guardWith state := by
  obtain ⟨start, booted, reaches⟩ := reachable
  exact ⟨start, booted, reaches.congr fun spares =>
    ⟨recordStep_congr (image.perform_eq spares.2).symm, spares.1⟩⟩

theorem ReachableWith.of_spared
    (reachable : Kernel.ReachableWith image.layout record initial (SparingWith guardWith) state) :
    image.ReachableWith record initial (SparingWith guardWith) state := by
  obtain ⟨start, booted, reaches⟩ := reachable
  exact ⟨start, booted, reaches.congr fun spares =>
    ⟨recordStep_congr (image.perform_eq spares.2), spares⟩⟩

end Image

/-! ## Concrete runs -/

/-- An image for concrete runs. -/
def plainImage : Image where
  toNodePlacement := .plain
  layout := plainLayout
  physMem := 0x18000
  pagusrTable := 0x50000
  remainingQuantumT := 0x16020
  remainingQuantumP := 0x16024
  globalPID := 0x16028

/-- Boot and take actions that pass a test and spare the frames of the kernel. -/
theorem spared_of_checkBoot (guard : Kernel → Action → Prop) (allowed : Kernel → Action → Bool)
    (goal : Kernel → Bool) (actions : List Action)
    (admits : ∀ s action, allowed s action = true → guard s action)
    (check : checkBoot (fun s action => allowed s action && decide (s.SparesKernel action)) goal
      actions = true) :
    ∃ s, plainImage.Reachable (Sparing guard) s ∧ goal s = true := by
  obtain ⟨s, reachable, met⟩ := reachable_of_checkBoot (Sparing guard) _ goal actions
    (fun s action admitted => by
      rw [Bool.and_eq_true] at admitted
      exact ⟨admits s action admitted.1, of_decide_eq_true admitted.2⟩) check
  exact ⟨s, .of_spared reachable, met⟩

theorem sparedWith_of_checkBoot {γ : Type} (record : γ → Kernel → Action → Kernel → Result → γ)
    (initial : γ) (guard : Kernel × γ → Action → Prop) (allowed : Kernel × γ → Action → Bool)
    (goal : Kernel × γ → Bool) (actions : List Action)
    (admits : ∀ state action, allowed state action = true → guard state action)
    (check : checkBootWith record initial
      (fun state action => allowed state action && decide (state.1.SparesKernel action)) goal
      actions = true) :
    ∃ state, plainImage.ReachableWith record initial (SparingWith guard) state ∧
      goal state = true := by
  obtain ⟨state, reachable, met⟩ := reachableWith_of_checkBoot record initial (SparingWith guard)
    _ goal actions (fun state action admitted => by
      rw [Bool.and_eq_true] at admitted
      exact ⟨admits state action admitted.1, of_decide_eq_true admitted.2⟩) check
  exact ⟨state, .of_spared reachable, met⟩

/-- Boot the concrete image and take the actions of a list as long as the test allows them. -/
def checkImage (allowed : Kernel → Action → Bool) (goal : Kernel → Bool) (actions : List Action) :
    Bool :=
  match boot plainLayout with
  | .ok start => checkRun plainImage.step allowed goal start actions
  | .error _ => false

theorem reachable_of_checkImage (guard : Kernel → Action → Prop)
    (allowed : Kernel → Action → Bool) (goal : Kernel → Bool) (actions : List Action)
    (admits : ∀ s action, allowed s action = true → guard s action)
    (check : checkImage allowed goal actions = true) :
    ∃ s, plainImage.Reachable guard s ∧ goal s = true := by
  unfold checkImage at check
  split at check
  · rename_i start booted
    obtain ⟨final, reaches, met⟩ := reaches_of_checkRun admits check
    exact ⟨final, ⟨start, booted, reaches⟩, met⟩
  · exact absurd check (by simp)

end Zeos
