import Zeos.Buffers
import Zeos.Creation

/-!
# Pointers of the user

Which addresses the kernel uses for a program that passes pointers.  `write` and `pthread_create`
look at a pointer with `access_ok`, whose last comparison lets a page too much through; nobody looks
at the `id` of `pthread_create` and `pthread_join`.
-/

namespace Zeos

open GuardedRun Kernel

/-- The calls with pointers. -/
inductive PointerCall
  | pthreadCreate (stack : Nat → Word) (id startRoutine : Word)
  | pthreadJoin (id : Word)
  | write (fd : Int) (buffer nbytes : Word)

/-- The pointers of a call, and how many bytes they stand for. -/
def PointerCall.pointers : PointerCall → List (Word × Nat)
  | .pthreadCreate _ id startRoutine => [(id, 4), (startRoutine, 4)]
  | .pthreadJoin id => [(id, 4)]
  | .write _ buffer nbytes => [(buffer, nbytes.toInt.toNat)]

/-- The first page after the user's data. -/
abbrev pagLogEndData : Nat := pagLogInitData + numPagData

namespace Kernel

/-- An address of the user's code or data, or in a stack page that the page table of the caller's
process maps for the user. -/
def ConfinedAt (s : Kernel) (address : Nat) : Prop :=
  pagLogInitCode * pageSize ≤ address ∧ address < pagLogEndData * pageSize ∨
    pagLogEndData ≤ address / pageSize ∧
      ∃ row, s.callerTable = .ok row ∧ s.mem.UserPage row (address / pageSize)

def Confined (s : Kernel) (addr : Word) (size : Nat) : Prop :=
  ∀ offset < size, s.ConfinedAt (addr.toNat + offset)

/-- What a call reads or writes through the pointers of its caller. -/
def accesses (s : Kernel) : PointerCall → List (Word × Nat)
  | .pthreadCreate _ id startRoutine =>
      if !accessOk .read startRoutine 4 then []
      else if s.listEmpty .freeThreadqueue then []
      else [(id, 4)]
  | .pthreadJoin id =>
      match s.currentP with
      | .ok p => if (s.task p).nthread.toNat < 2 then [] else [(id, 4)]
      | .error _ => []
  | .write fd buffer nbytes =>
      if checkFd fd ≠ 0 then []
      else if nbytes.toInt < 0 then []
      else if !accessOk .read buffer nbytes then []
      else [(buffer, nbytes.toInt.toNat)]

/-- The call returns an error and changes nothing. -/
def Refuses (layout : Layout) (s : Kernel) : PointerCall → Prop
  | .pthreadCreate stack id startRoutine =>
      ∃ value < 0, s.perform layout (.pthreadCreate stack id startRoutine) =
        .ok (s.enterWith stack, .returns value)
  | .pthreadJoin id =>
      ∃ value < 0, s.perform layout (.pthreadJoin id) =
        .ok (s.enter layout .pthreadJoin, .returns value)
  | .write fd buffer nbytes => ∃ value < 0, s.sysWrite fd buffer nbytes.toInt = .ok ([], value)

/-- The call uses only addresses which its caller may pass, and refuses pointers to others. -/
structure Confines (layout : Layout) (s : Kernel) (call : PointerCall) : Prop where
  inside : ∀ access ∈ s.accesses call, s.Confined access.1 access.2
  refuses : ∀ pointer ∈ call.pointers, ¬s.Confined pointer.1 pointer.2 → s.Refuses layout call

/-- Bytes that do not reach the page after the data, or this page is mapped for the user. -/
def EndsInside (s : Kernel) (addr : Word) (size : Nat) : Prop :=
  (∀ offset < size, addr.toNat + offset < pagLogEndData * pageSize) ∨
    ∃ row, s.callerTable = .ok row ∧ s.mem.UserPage row pagLogEndData

/-- A check of the call fails before it uses a pointer. -/
def FailsCheck (s : Kernel) : PointerCall → Prop
  | .pthreadCreate _ _ startRoutine =>
      accessOk .read startRoutine 4 = false ∨ s.listEmpty .freeThreadqueue = true
  | .pthreadJoin _ => ∃ p, s.currentP = .ok p ∧ (s.task p).nthread.toNat < 2
  | .write fd buffer nbytes =>
      checkFd fd ≠ 0 ∨ nbytes.toInt < 0 ∨ accessOk .read buffer nbytes = false

/-- The pointers at which nobody looks are right, and the others stay clear of the page after the
data, if that is not mapped. -/
def PointsInside (s : Kernel) : PointerCall → Prop
  | .pthreadCreate _ id startRoutine => s.Confined id 4 ∧ s.EndsInside startRoutine 4
  | .pthreadJoin id => s.Confined id 4
  | .write _ buffer nbytes => s.EndsInside buffer nbytes.toInt.toNat

end Kernel

variable {layout : Layout} {s : Kernel} {m : Memory} {row : TaskId} {address : Nat}
  {id startRoutine buffer addr nbytes size : Word} {stack : Nat → Word} {fd : Int}

/-! ## What `access_ok` accepts -/

theorem toNat_toInt (nonneg : 0 ≤ nbytes.toInt) :
    nbytes.toInt.toNat = nbytes.toNat ∧ nbytes.toNat < 2 ^ 31 := by
  have bound := nbytes.isLt
  rw [BitVec.toInt_eq_toNat_cond] at nonneg ⊢
  split_ifs at nonneg ⊢ with low
  · omega
  · omega

/-- `access_ok` accepts bytes up to the end of the page after the data. -/
theorem pages_of_accessOk (small : size.toNat < 2 ^ 31)
    (accepted : accessOk .read addr size = true) :
    pagLogInitCode ≤ addr.toNat / pageSize ∧
      (addr.toNat + size.toNat) / pageSize ≤ pagLogEndData := by
  have bound := addr.isLt
  have shifted : ∀ a : Word, (a >>> 12).toNat = a.toNat / 4096 := fun a => by
    rw [BitVec.toNat_ushiftRight, Nat.shiftRight_eq_div_pow]
  simp only [accessOk, userPages, shifted, BitVec.toNat_add] at accepted
  split_ifs at accepted with overflow
  simp only [decide_eq_true_eq] at accepted
  simp only [pagLogInitCode, pagLogEndData, pagLogInitData, numPagCode, numPagData, pageSize]
    at accepted ⊢
  omega

/-- Of the bytes that `access_ok` accepts, only those in the page after the data can be others than
the user's code and data. -/
theorem confined_iff_endsInside (size : Word) (small : size.toNat < 2 ^ 31)
    (accepted : accessOk .read addr size = true) :
    s.Confined addr size.toNat ↔ s.EndsInside addr size.toNat := by
  have pages := pages_of_accessOk small accepted
  have sizes := pageConstants
  have endPage : pagLogEndData = 284 := by decide
  simp only [pageSize, endPage] at pages
  simp only [Confined, ConfinedAt, EndsInside, pageSize, endPage]
  constructor
  · intro confined
    by_cases inside : ∀ offset < size.toNat, addr.toNat + offset < 284 * 4096
    · exact .inl inside
    · push Not at inside
      obtain ⟨offset, below, beyond⟩ := inside
      obtain before | ⟨_, row, table, page⟩ := confined offset below
      · omega
      · rw [show (addr.toNat + offset) / 4096 = 284 by omega] at page
        exact .inr ⟨row, table, page⟩
  · intro ends offset below
    by_cases inside : addr.toNat + offset < 284 * 4096
    · exact .inl ⟨by omega, inside⟩
    · obtain before | ⟨row, table, page⟩ := ends
      · exact absurd (before offset below) inside
      · rw [show (addr.toNat + offset) / 4096 = 284 by omega]
        exact .inr ⟨le_rfl, row, table, page⟩

/-! ## The accesses are made -/

namespace Memory

/-- The page of an address is present. -/
def PresentAt (m : Memory) (row : TaskId) (address : Nat) : Prop :=
  address / pageSize < totalPages ∧ (m.entry row (address / pageSize)).present = true

theorem translate_present :
    Ensures (fun _ => m.PresentAt row address) (m.translate row address) := by
  rw [translate, frameOf]
  split
  · rename_i present
    exact .ok present
  · exact .error _

theorem loadWord_present :
    Ensures (fun _ => ∀ offset < 4, m.PresentAt row (addr.toNat + offset))
      (m.loadWord row addr) := by
  have byte : ∀ offset, Ensures (fun _ => m.PresentAt row (addr.toNat + offset))
      (do return m.ram (← m.translate row (addr.toNat + offset)) : Except Fault Byte) :=
    fun offset => translate_present.bind fun _ present => .ok present
  refine (byte 3).bind fun _ third => (byte 2).bind fun _ second => (byte 1).bind fun _ first =>
    (byte 0).bind fun _ zeroth => .ok fun offset below => ?_
  match offset, below with
  | 0, _ => exact zeroth
  | 1, _ => exact first
  | 2, _ => exact second
  | 3, _ => exact third

theorem storeWord_present (value : Word) :
    Ensures (fun m' => ∀ offset < 4, m'.PresentAt row (addr.toNat + offset))
      (m.storeWord row addr value) := by
  have stored : ∀ (offsets : List Nat) (m : Memory), Ensures
      (fun m' => m'.pagusrTable = m.pagusrTable ∧
        ∀ offset ∈ offsets, m.PresentAt row (addr.toNat + offset))
      (offsets.foldlM (fun m offset =>
        m.storeByte row (addr.toNat + offset) (value.extractLsb' (8 * offset) 8)) m) := by
    intro offsets
    induction offsets with
    | nil => exact fun m => .ok ⟨rfl, by simp⟩
    | cons offset rest induction =>
        intro m
        have byte : Ensures
            (fun m' => m'.pagusrTable = m.pagusrTable ∧ m.PresentAt row (addr.toNat + offset))
            (m.storeByte row (addr.toNat + offset) (value.extractLsb' (8 * offset) 8)) := by
          refine translate_present.bind fun physical present => ?_
          split
          · exact .error _
          · exact .ok ⟨rfl, present⟩
        refine byte.bind fun m₁ outcome => (induction m₁).mono fun m₂ outcome' => ?_
        refine ⟨outcome'.1.trans outcome.1, fun other member => ?_⟩
        rcases List.mem_cons.mp member with rfl | member
        · exact outcome.2
        · have present := outcome'.2 other member
          rwa [PresentAt, entry, outcome.1] at present
  refine (stored (List.range 4) m).mono fun m' outcome offset below => ?_
  have present := outcome.2 offset (List.mem_range.mpr below)
  rwa [PresentAt, entry, ← outcome.1] at present

theorem copyFromUser_present {start : Word} {size : Nat} (noWrap : start.toNat + size ≤ 2 ^ 32) :
    Ensures (fun _ => ∀ offset < size, m.PresentAt row (start.toNat + offset))
      (m.copyFromUser row start size) := by
  have bytes : ∀ offsets : List Nat, Ensures
      (fun _ => ∀ offset ∈ offsets, m.PresentAt row (start + BitVec.ofNat 32 offset).toNat)
      (offsets.mapM fun i => do
        return m.ram (← m.translate row (start + BitVec.ofNat 32 i).toNat)) := by
    intro offsets
    induction offsets with
    | nil => exact .ok (by simp)
    | cons offset rest induction =>
        have byte : Ensures
            (fun _ => m.PresentAt row (start + BitVec.ofNat 32 offset).toNat)
            (do return m.ram (← m.translate row (start + BitVec.ofNat 32 offset).toNat)) :=
          translate_present.bind fun _ present => .ok present
        rw [List.mapM_cons]
        refine byte.bind fun _ present => induction.bind fun _ presents =>
          .ok fun other member => ?_
        rcases List.mem_cons.mp member with rfl | member
        · exact present
        · exact presents other member
  refine (bytes (List.range size)).mono fun _ presents offset below => ?_
  have present := presents offset (List.mem_range.mpr below)
  have address := X86.toNat_advance start offset (by omega)
  rwa [address] at present

end Memory

theorem writeBlocks_present (bytesLeft : Nat) (buffer : Word)
    (noWrap : buffer.toNat + bytesLeft ≤ 2 ^ 32) :
    Ensures (fun _ => ∀ offset < bytesLeft, m.PresentAt row (buffer.toNat + offset))
      (writeBlocks m row buffer bytesLeft) := by
  induction bytesLeft using Nat.strongRecOn generalizing buffer with
  | ind bytesLeft induction =>
      rw [writeBlocks]
      split_ifs with more some_left
      · have next := X86.toNat_advance buffer tamBuffer (by omega)
        refine (Memory.copyFromUser_present (by omega)).bind fun _ block => ?_
        refine (induction _ (Nat.sub_lt (Nat.zero_lt_of_lt more) (by decide)) _
          (by omega)).bind fun _ rest => .ok fun offset below => ?_
        by_cases first : offset < tamBuffer
        · exact block offset first
        · have later := rest (offset - tamBuffer) (by omega)
          rwa [next, Nat.add_assoc, Nat.add_sub_cancel' (by omega)] at later
      · exact Memory.copyFromUser_present noWrap
      · exact .ok fun offset below => absurd (Nat.zero_lt_of_lt below) some_left

/-- The page of each byte that is accessed is present. -/
def Memory.Present (m : Memory) (row : TaskId) (accesses : List (Word × Nat)) : Prop :=
  ∀ access ∈ accesses, ∀ offset < access.2, m.PresentAt row (access.1.toNat + offset)

namespace Kernel

theorem made_sysWrite (s : Kernel) (fd : Int) (buffer nbytes : Word) :
    Ensures (fun _ => s.mem.Present s.cr3 (s.accesses (.write fd buffer nbytes)))
      (s.sysWrite fd buffer nbytes.toInt) := by
  rw [sysWrite, accesses, BitVec.ofInt_toInt]
  split_ifs with closed negative rejected
  · exact .ok (by simp [Memory.Present])
  · exact .ok (by simp [Memory.Present])
  · exact .ok (by simp [Memory.Present])
  · obtain ⟨size, small⟩ := toNat_toInt (not_lt.mp negative)
    obtain ⟨_, last⟩ := pages_of_accessOk small (by simpa using rejected)
    have endPage : pagLogEndData = 284 := by decide
    simp only [pageSize, endPage] at last
    rw [size]
    refine (writeBlocks_present _ _ (by omega)).bind fun _ present => .ok ?_
    simpa [Memory.Present] using present

theorem made_sysPthreadJoin (layout : Layout) (s : Kernel) (id : Word) :
    Ensures (fun _ => s.mem.Present s.cr3 (s.accesses (.pthreadJoin id)))
      (s.sysPthreadJoin layout id) := by
  intro next performed
  obtain ⟨p, current, performed⟩ := bind_eq_ok.mp performed
  rw [accesses, current]
  simp only
  split_ifs with few
  · simp [Memory.Present]
  · rw [if_neg few] at performed
    obtain ⟨tid, loaded, _⟩ := bind_eq_ok.mp performed
    simpa [Memory.Present] using Memory.loadWord_present tid loaded

theorem made_sysPthreadCreate (layout : Layout) (s : Kernel) (stack : Nat → Word)
    (id startRoutine : Word) :
    Ensures (fun next => next.1.mem.Present next.1.cr3
        (s.accesses (.pthreadCreate stack id startRoutine)))
      (s.sysPthreadCreate layout id startRoutine) := by
  rw [sysPthreadCreate, accesses]
  split
  · exact .ok (by simp [Memory.Present])
  · split
    · exact .ok (by simp [Memory.Present])
    · refine .skip fun _ => .skip fun _ => .skip fun s₁ => .skip fun p => .skip fun _ =>
        .skip fun s₂ => (Memory.storeWord_present _).bind fun mem present => ?_
      refine (relinks_listAddTail _ _ _).bind ?_
      rintro s₃ ⟨heap, rfl⟩
      refine .ok ?_
      simpa [Memory.Present] using present

end Kernel

/-! ## Refused calls -/

namespace Kernel

theorem accesses_of_failsCheck {call : PointerCall} (fails : s.FailsCheck call) :
    s.accesses call = [] := by
  cases call with
  | pthreadCreate stack id startRoutine =>
      rw [accesses]
      rcases fails with rejected | full
      · rw [rejected]
        exact if_pos rfl
      · rw [if_pos full]
        exact ite_self _
  | pthreadJoin id =>
      obtain ⟨p, current, few⟩ := fails
      rw [accesses, current]
      exact if_pos few
  | write fd buffer nbytes =>
      rw [accesses]
      split_ifs with closed negative rejected
      · rfl
      · rfl
      · rfl
      · rcases fails with failed | failed | failed
        · exact absurd failed closed
        · exact absurd failed negative
        · exact absurd failed (by simpa using rejected)

theorem mem_pointers_of_mem_accesses {call : PointerCall} {access : Word × Nat}
    (member : access ∈ s.accesses call) : access ∈ call.pointers := by
  cases call with
  | pthreadCreate stack id startRoutine =>
      rw [accesses] at member
      split_ifs at member
      · exact absurd member List.not_mem_nil
      · exact absurd member List.not_mem_nil
      · exact List.mem_cons.mpr (.inl (List.mem_singleton.mp member))
  | pthreadJoin id =>
      rw [accesses] at member
      split at member
      · split_ifs at member
        · exact absurd member List.not_mem_nil
        · exact member
      · exact absurd member List.not_mem_nil
  | write fd buffer nbytes =>
      rw [accesses] at member
      split_ifs at member
      · exact absurd member List.not_mem_nil
      · exact absurd member List.not_mem_nil
      · exact absurd member List.not_mem_nil
      · exact member

theorem refuses_iff_failsCheck (layout : Layout) (directories : s.OwnDirectories)
    (call : PointerCall) : s.Refuses layout call ↔ s.FailsCheck call := by
  cases call with
  | pthreadCreate stack id startRoutine =>
      constructor
      · rintro ⟨value, negative, performed⟩
        exact refused_of_negative directories negative performed
      · exact refused_pthreadCreate layout stack id
  | pthreadJoin id =>
      constructor
      · rintro ⟨value, _, performed⟩
        obtain ⟨p, current, performed⟩ := bind_eq_ok.mp performed
        refine ⟨p, current, ?_⟩
        by_contra several
        have joined := (if_neg several).symm.trans performed
        obtain ⟨tid, _, joined⟩ := bind_eq_ok.mp joined
        obtain ⟨s₁, _, joined⟩ := bind_eq_ok.mp joined
        obtain ⟨s₂, _, joined⟩ := bind_eq_ok.mp joined
        rw [pure_eq_ok] at joined
        simp at joined
      · rintro ⟨p, current, few⟩
        refine ⟨-EFAULT, by decide, bind_eq_ok.mpr ⟨p, current, ?_⟩⟩
        exact if_pos few
  | write fd buffer nbytes =>
      rw [Refuses, sysWrite, BitVec.ofInt_toInt]
      constructor
      · rintro ⟨value, negative, written⟩
        split_ifs at written with closed below rejected
        · exact .inl closed
        · exact .inr (.inl below)
        · exact .inr (.inr (by simpa using rejected))
        · obtain ⟨printed, _, written⟩ := bind_eq_ok.mp written
          rw [pure_eq_ok] at written
          simp only [Except.ok.injEq, Prod.mk.injEq] at written
          omega
      · rintro fails
        split_ifs with closed below rejected
        · refine ⟨checkFd fd, ?_, rfl⟩
          rw [checkFd] at closed ⊢
          split_ifs at closed ⊢
          · decide
          · exact absurd rfl closed
        · exact ⟨-EINVAL, by decide, rfl⟩
        · exact ⟨-EFAULT, by decide, rfl⟩
        · rcases fails with failed | failed | failed
          · exact absurd failed closed
          · exact absurd failed below
          · exact absurd failed (by simpa using rejected)

theorem confines_iff_confined {call : PointerCall}
    (refuses : s.Refuses layout call ↔ s.FailsCheck call) :
    s.Confines layout call ↔
      s.FailsCheck call ∨ ∀ pointer ∈ call.pointers, s.Confined pointer.1 pointer.2 := by
  constructor
  · intro confines
    refine or_iff_not_imp_left.mpr fun used pointer member => ?_
    by_contra outside
    exact used (refuses.mp (confines.refuses pointer member outside))
  · rintro (fails | confined)
    · refine ⟨?_, fun _ _ _ => refuses.mpr fails⟩
      rw [accesses_of_failsCheck fails]
      exact fun _ member => absurd member List.not_mem_nil
    · exact ⟨fun access member => confined access (mem_pointers_of_mem_accesses member),
        fun pointer member outside => absurd (confined pointer member) outside⟩

/-- For a call that uses its pointers. -/
theorem pointsInside_iff {call : PointerCall} (used : ¬s.FailsCheck call) :
    s.PointsInside call ↔ ∀ pointer ∈ call.pointers, s.Confined pointer.1 pointer.2 := by
  cases call with
  | pthreadCreate stack id startRoutine =>
      have accepted : accessOk .read startRoutine 4 = true := by
        simpa using (not_or.mp used).1
      have start := confined_iff_endsInside (s := s) 4 (by decide) accepted
      simpa [PointsInside, PointerCall.pointers] using fun _ => start.symm
  | pthreadJoin id => simp [PointsInside, PointerCall.pointers]
  | write fd buffer nbytes =>
      obtain ⟨_, used⟩ := not_or.mp used
      obtain ⟨nonneg, rejected⟩ := not_or.mp used
      obtain ⟨size, small⟩ := toNat_toInt (not_lt.mp nonneg)
      have inside := confined_iff_endsInside (s := s) nbytes small (by simpa using rejected)
      rw [← size] at inside
      simpa [PointsInside, PointerCall.pointers] using inside.symm

end Kernel

/-- In every reachable state a call confines its accesses exactly if one of its checks fails, or its
pointers are inside. -/
theorem confines_iff (layout : Layout) (s : Kernel) (call : PointerCall)
    (reachable : Reachable layout anyStep s) :
    s.Confines layout call ↔ s.FailsCheck call ∨ s.PointsInside call := by
  have refuses := refuses_iff_failsCheck layout reachable.ownDirectories call
  rw [confines_iff_confined refuses]
  exact or_congr_right' fun used => (pointsInside_iff used).symm

/-- The first process writes from its first data page. -/
theorem confines_iff_data :
    ∃ s, Reachable plainLayout anyStep s ∧ s.Confines plainLayout (.write 1 userData 4) := by
  obtain ⟨s, reachable, _⟩ := reachable_of_checkBoot anyStep (fun _ _ => true) (fun _ => true) []
    (fun _ _ _ => trivial) (by decide +kernel)
  exact ⟨s, reachable, (confines_iff plainLayout s (.write 1 userData 4) reachable).mpr
    (.inr (.inl (by decide)))⟩

/-- The first process creates a thread and passes an address of the kernel for its number. -/
theorem not_confines :
    ¬∀ layout s call, Reachable layout anyStep s → s.Confines layout call := by
  intro confines
  obtain ⟨s, reachable, goal⟩ := reachable_of_checkBoot anyStep (fun _ _ => true)
    (fun s => !s.listEmpty .freeThreadqueue) [] (fun _ _ _ => trivial) (by decide +kernel)
  have someThread : s.listEmpty .freeThreadqueue = false := by simpa using goal
  have accessed : (0x10000, 4) ∈ s.accesses (.pthreadCreate (fun _ => 0) 0x10000 userData) := by
    rw [accesses, if_neg (by decide), if_neg (by simp [someThread])]
    exact List.mem_singleton_self _
  obtain ⟨above, _⟩ | ⟨above, _⟩ :=
    (confines plainLayout s (.pthreadCreate (fun _ => 0) 0x10000 userData) reachable).inside _
      accessed 0 (by decide)
  · exact absurd above (by decide)
  · exact absurd above (by decide)

end Zeos
