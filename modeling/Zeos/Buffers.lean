import Zeos.Observation
import Zeos.Rounds
import Zeos.X86

/-!
# Buffers of the user

The ranges of user memory that a page table maps, and those which `access_ok` and `write` accept.
-/

namespace Zeos

open GuardedRun Kernel

namespace Memory

variable {m : Memory} {row : TaskId} {page address addr size : Nat}

/-- A code, data or stack page that the page table maps for the user. -/
def UserPage (m : Memory) (row : TaskId) (page : Nat) : Prop :=
  pagLogInitCode ≤ page ∧ page < totalPages ∧ (m.entry row page).present = true ∧
    (m.entry row page).user = true

instance : Decidable (m.UserPage row page) :=
  inferInstanceAs (Decidable (_ ∧ _ ∧ _ ∧ _))

/-- A range with at least one byte, not wrapping around, all of whose pages are mapped for the
user. -/
structure MapsRange (m : Memory) (row : TaskId) (addr size : Nat) : Prop where
  nonempty : 0 < size
  noWrap : addr + size ≤ 2 ^ 32
  mapped : ∀ address, addr ≤ address → address < addr + size → m.UserPage row (address / pageSize)

/-- A range in a single page. -/
theorem MapsRange.of_page (page : m.UserPage row (addr / pageSize)) (nonempty : 0 < size)
    (fits : addr % pageSize + size ≤ pageSize) : m.MapsRange row addr size := by
  have sizes := pageConstants
  have inside := page.2.1
  simp only [pageSize] at fits page inside
  refine ⟨nonempty, by omega, fun address above below => ?_⟩
  simp only [pageSize]
  rwa [show address / 4096 = addr / 4096 by omega]

/-- What is left of a range after its first block. -/
theorem MapsRange.drop (maps : m.MapsRange row addr size) {block : Nat} (more : block < size) :
    m.MapsRange row (addr + block) (size - block) where
  nonempty := Nat.sub_pos_of_lt more
  noWrap := by
    have := maps.noWrap
    omega
  mapped address above below := maps.mapped address (by omega) (by omega)

/-- The first block of a range. -/
theorem MapsRange.take (maps : m.MapsRange row addr size) {block : Nat} (nonempty : 0 < block)
    (bound : block ≤ size) : m.MapsRange row addr block where
  nonempty := nonempty
  noWrap := by
    have := maps.noWrap
    omega
  mapped address above below := maps.mapped address above (by omega)

theorem UserPage.translate_ok (page : m.UserPage row (address / pageSize)) :
    ∃ physical, m.translate row address = .ok physical := by
  obtain ⟨_, inside, present, _⟩ := page
  rw [Memory.translate, Memory.frameOf, if_pos ⟨inside, present⟩]
  exact ⟨_, rfl⟩

/-- The bytes of a mapped range can be copied. -/
theorem copyFromUser_ok {start : Word} (maps : m.MapsRange row start.toNat size) :
    ∃ block, m.copyFromUser row start size = .ok block ∧ block.length = size := by
  have bytes : ∀ offsets : List Nat, (∀ offset ∈ offsets, offset < size) →
      ∃ block : List Byte, (offsets.mapM fun i => do
        return m.ram (← m.translate row (start + BitVec.ofNat 32 i).toNat)) =
          (Except.ok block : Except Fault (List Byte)) ∧ block.length = offsets.length := by
    intro offsets
    induction offsets with
    | nil => exact fun _ => ⟨[], rfl, rfl⟩
    | cons offset rest induction =>
        intro bounds
        have bound := bounds offset List.mem_cons_self
        have noWrap := maps.noWrap
        have address := X86.toNat_advance start offset (by omega)
        obtain ⟨physical, found⟩ :=
          (maps.mapped (start.toNat + offset) (by omega) (by omega)).translate_ok
        obtain ⟨block, copied, length⟩ :=
          induction fun other member => bounds other (List.mem_cons_of_mem _ member)
        rw [List.mapM_cons, address, found, ok_bind, pure_eq_ok, ok_bind, copied]
        exact ⟨_, rfl, by rw [List.length_cons, length, List.length_cons]⟩
  obtain ⟨block, copied, length⟩ := bytes (List.range size) fun _ => List.mem_range.mp
  exact ⟨block, copied, by rw [length, List.length_range]⟩

end Memory

variable {s : Kernel} {m : Memory} {row : TaskId} {buffer size : Word}

/-- The loop of `write` prints every byte of a mapped range. -/
theorem Kernel.writeBlocks_ok (bytesLeft : Nat) (buffer : Word)
    (maps : m.MapsRange row buffer.toNat bytesLeft) :
    ∃ printed, writeBlocks m row buffer bytesLeft = .ok printed ∧ printed.length = bytesLeft := by
  induction bytesLeft using Nat.strongRecOn generalizing buffer with
  | ind bytesLeft induction =>
      rw [writeBlocks]
      split_ifs with more some_left
      · have noWrap := maps.noWrap
        have next := X86.toNat_advance buffer tamBuffer (by omega)
        obtain ⟨block, copied, blockLength⟩ :=
          Memory.copyFromUser_ok (maps.take (by decide) more.le)
        have remaining := maps.drop more
        rw [← next] at remaining
        obtain ⟨rest, printed, restLength⟩ :=
          induction _ (Nat.sub_lt maps.nonempty (Nat.succ_pos _)) _ remaining
        rw [copied, ok_bind, printed]
        refine ⟨_, rfl, ?_⟩
        rw [List.length_append, blockLength, restLength]
        exact Nat.add_sub_cancel' more.le
      · exact Memory.copyFromUser_ok maps
      · exact absurd maps.nonempty some_left

/-- For a range that does not wrap around, `access_ok` compares its ends with the code and data
pages and the page after them. -/
theorem accessOk_read (noWrap : buffer.toNat + size.toNat ≤ 2 ^ 32) (nonempty : 0 < size.toNat)
    (above : pagLogInitCode * pageSize ≤ buffer.toNat) :
    accessOk .read buffer size = true ↔
      buffer.toNat + size.toNat < (pagLogInitData + numPagData + 1) * pageSize := by
  have bound := buffer.isLt
  have shifted : ∀ a : Word, (a >>> 12).toNat = a.toNat / 4096 := fun a => by
    rw [BitVec.toNat_ushiftRight, Nat.shiftRight_eq_div_pow]
  simp only [accessOk, userPages, shifted, BitVec.toNat_add]
  simp only [pagLogInitCode, pagLogInitData, numPagCode, numPagData, pageSize] at above ⊢
  split_ifs with overflow
  · simp only [false_iff]
    omega
  · simp only [decide_eq_true_eq]
    omega

/-- `access_ok` accepts the range, and if it lies in the address space in use, `write` prints all of
it. -/
def Kernel.AcceptsBuffer (s : Kernel) (row : TaskId) (buffer size : Word) : Prop :=
  accessOk .read buffer size = true ∧
    (row = s.cr3 → ∃ printed, s.sysWrite 1 buffer size.toNat = .ok (printed, size.toNat))

/-- Of the ranges that a page table maps for the user, the call accepts exactly those which end
before the second page after the data pages. -/
theorem acceptsBuffer_iff (s : Kernel) (row : TaskId) (buffer size : Word)
    (maps : s.mem.MapsRange row buffer.toNat size.toNat) :
    s.AcceptsBuffer row buffer size ↔
      buffer.toNat + size.toNat < (pagLogInitData + numPagData + 1) * pageSize := by
  have sizes := pageConstants
  have first := (maps.mapped _ le_rfl (Nat.lt_add_of_pos_right maps.nonempty)).1
  have accepts := accessOk_read maps.noWrap maps.nonempty
    ((Nat.le_div_iff_mul_le (by decide)).mp first)
  rw [← accepts]
  constructor
  · exact And.left
  · intro accepted
    refine ⟨accepted, ?_⟩
    rintro rfl
    obtain ⟨printed, prints, _⟩ := writeBlocks_ok _ _ maps
    have value : BitVec.ofInt 32 (size.toNat : Int) = size := by simp
    refine ⟨printed, ?_⟩
    rw [sysWrite, if_neg (by decide), if_neg (by simp), value, accepted, if_neg (by simp),
      Int.toNat_natCast, prints]
    rfl

/-- The first process writes from its first data page. -/
theorem acceptsBuffer_iff_data :
    ∃ s, Reachable plainLayout anyStep s ∧ s.AcceptsBuffer 1 userData 4 := by
  obtain ⟨s, reachable, page⟩ := reachable_of_checkBoot anyStep (fun _ _ => true)
    (fun s => decide (s.mem.UserPage 1 pagLogInitData)) [] (fun _ _ _ => trivial)
    (by decide +kernel)
  refine ⟨s, reachable, (acceptsBuffer_iff s 1 userData 4 ?_).mpr (by decide)⟩
  exact .of_page (of_decide_eq_true page) (by decide) (by decide)

/-- The second thread that a process creates writes from its own stack. -/
theorem not_acceptsBuffer :
    ¬∀ layout s p row buffer size, Reachable layout anyStep s → s.Live p → s.getPT p = .ok row →
      s.mem.MapsRange row buffer.toNat size.toNat → s.AcceptsBuffer row buffer size := by
  intro accepts
  obtain ⟨s, reachable, goal⟩ := reachable_of_checkBoot anyStep (fun _ _ => true)
    (fun s => decide (s.Live 1 ∧ s.getPT 1 = .ok 1 ∧
      s.mem.UserPage 1 (pagLogInitData + numPagData + 1)))
    [.pthreadCreate (fun _ => 0) userData userData, .pthreadCreate (fun _ => 0) userData userData,
      .yield, .yield] (fun _ _ _ => trivial) (by decide +kernel)
  obtain ⟨live, table, page⟩ := of_decide_eq_true goal
  have accepted := accepts plainLayout s 1 1 0x11d000 4 reachable live table
    (.of_page page (by decide) (by decide))
  exact absurd accepted.1 (by decide)

end Zeos
