import Zeos.CallingConvention
import Zeos.ListWords
import Zeos.Observation

/-!
# List nodes in structures

Where the list nodes of the kernel are in its image, and how the page of a node leads to the
structure that holds it.
-/

namespace Zeos

open IntrusiveList GuardedRun ListWords
open Kernel (plainLayout reachable_of_checkBoot anyStep)

/-- Addresses that the linker decides, beside those of the layout. -/
structure NodePlacement where
  /-- Page number of `thread_tasks`. -/
  threadTasks : Nat
  freequeue : Nat
  readyqueue : Nat
  freeThreadqueue : Nat

namespace NodePlacement

def taskBase (layout : Layout) (p : TaskId) : Nat := pageSize * (layout.protectedTasks + 1 + p)

def threadBase (layout : Layout) (place : NodePlacement) : ThreadPtr → Nat
  | .slot u => pageSize * (place.threadTasks + u)
  | .image page => (layout.mutexVector + 12) / pageSize * pageSize + pageSize * page

/-- The address of a node: that of its structure, and the offset of its field. -/
def address (layout : Layout) (place : NodePlacement) : Node → Nat
  | .null | .wild => 0
  | .freequeue => place.freequeue
  | .readyqueue => place.readyqueue
  | .freeThreadqueue => place.freeThreadqueue
  | .task p => taskBase layout p + 8
  | .ready p => taskBase layout p + 24
  | .blocked p => taskBase layout p + 32
  | .thread t => threadBase layout place t + 24
  | .mutex m => layout.mutexVector + 20 * m + 12

def Apart (a b : Nat) : Prop := a + 8 ≤ b ∨ b + 8 ≤ a

/-- The nodes that are not in a page with a kernel stack. -/
def globals : List Node :=
  [.freequeue, .readyqueue, .freeThreadqueue] ++
    (List.finRange 2).map (fun page => .thread (.image page)) ++
    (List.finRange nrMutex).map .mutex

/-- The image begins after the pages that the loader uses, and the structures with kernel stacks
are its last ones.  Also where a `thread_struct` at the beginning of a page of `mutex_vector` would
have its node is no other one. -/
structure Linked (layout : Layout) (place : NodePlacement) : Prop where
  separate : globals.Pairwise fun a b => Apart (address layout place a) (address layout place b)
  above : ∀ node ∈ globals, 0x10000 ≤ address layout place node
  below : ∀ node ∈ globals, address layout place node + 8 ≤ pageSize * layout.protectedTasks ∧
    address layout place node + 8 ≤ pageSize * place.threadTasks
  unions : layout.protectedTasks + (nrTasks + 2) ≤ place.threadTasks ∨
    place.threadTasks + (nrThreads + 2) ≤ layout.protectedTasks
  system : layout.protectedTasks + (nrTasks + 2) ≤ pagLogInitCode ∧
    place.threadTasks + (nrThreads + 2) ≤ pagLogInitCode

/-- A `task_union` or a `thread_union`, which fills a page. -/
inductive StackUnion
  | task (p : TaskId)
  | thread (u : ThreadSlot)

namespace StackUnion

def page (layout : Layout) (place : NodePlacement) : StackUnion → Nat
  | task p => layout.protectedTasks + 1 + p
  | thread u => place.threadTasks + u

/-- Its nodes, with their offsets. -/
def nodes : StackUnion → List (Node × Nat)
  | task p => [(.task p, 8), (.ready p, 24), (.blocked p, 32)]
  | thread u => [(.thread (.slot u), 24)]

end StackUnion

variable {layout : Layout} {place : NodePlacement} {node other : Node} {a b offset offset' : Nat}
  {union union' : StackUnion}

theorem symm_apart (layout : Layout) (place : NodePlacement) :
    Std.Symm fun a b => Apart (address layout place a) (address layout place b) :=
  ⟨fun _ _ => Or.symm⟩

theorem StackUnion.address_eq (holds : (node, offset) ∈ union.nodes) :
    address layout place node = pageSize * union.page layout place + offset := by
  cases union with
  | task p =>
      simp only [nodes, List.mem_cons, Prod.mk.injEq, List.not_mem_nil, or_false] at holds
      obtain ⟨rfl, rfl⟩ | ⟨rfl, rfl⟩ | ⟨rfl, rfl⟩ := holds <;> rfl
  | thread u =>
      obtain ⟨rfl, rfl⟩ := Prod.mk.inj (List.mem_singleton.mp holds)
      rfl

theorem StackUnion.offset_mem (holds : (node, offset) ∈ union.nodes) :
    offset = 8 ∨ offset = 24 ∨ offset = 32 := by
  cases union with
  | task p =>
      simp only [nodes, List.mem_cons, Prod.mk.injEq, List.not_mem_nil, or_false] at holds
      omega
  | thread u => exact .inr (.inl (Prod.mk.inj (List.mem_singleton.mp holds)).2)

/-- An offset in a union is that of one node. -/
theorem StackUnion.unique (holds : (node, offset) ∈ union.nodes)
    (holds' : (other, offset) ∈ union.nodes) : node = other := by
  cases union with
  | task p =>
      simp only [nodes, List.mem_cons, Prod.mk.injEq, List.not_mem_nil, or_false] at holds holds'
      obtain ⟨rfl, rfl⟩ | ⟨rfl, rfl⟩ | ⟨rfl, rfl⟩ := holds <;> exact Eq.symm (by simpa using holds')
  | thread u =>
      rw [(Prod.mk.inj (List.mem_singleton.mp holds)).1,
        (Prod.mk.inj (List.mem_singleton.mp holds')).1]

/-- Every pointer that leads somewhere is in one of the areas. -/
theorem null_or_global_or_union (known : node ≠ .wild) : node = .null ∨ node ∈ globals ∨
    ∃ (union : StackUnion) (offset : Nat), (node, offset) ∈ union.nodes := by
  cases node with
  | null => exact .inl rfl
  | freequeue | readyqueue | freeThreadqueue => exact .inr (.inl (by decide))
  | task p => exact .inr (.inr ⟨.task p, 8, .head _⟩)
  | ready p => exact .inr (.inr ⟨.task p, 24, .tail _ (.head _)⟩)
  | blocked p => exact .inr (.inr ⟨.task p, 32, .tail _ (.tail _ (.head _))⟩)
  | mutex m =>
      refine .inr (.inl (List.mem_append_right _ ?_))
      exact List.mem_map_of_mem (List.mem_finRange m)
  | thread t =>
      cases t with
      | slot u => exact .inr (.inr ⟨.thread u, 24, .head _⟩)
      | image page =>
          refine .inr (.inl (List.mem_append_left _ (List.mem_append_right _ ?_)))
          exact List.mem_map_of_mem (List.mem_finRange page)
  | wild => exact absurd rfl known

namespace Linked

variable (linked : Linked layout place)
include linked

theorem page_bounds (union : StackUnion) :
    (layout.protectedTasks ≤ union.page layout place ∨
      place.threadTasks ≤ union.page layout place) ∧ union.page layout place < pagLogInitCode := by
  have system := linked.system
  cases union with
  | task p =>
      have bound : p.val < 10 := p.isLt
      simp only [StackUnion.page, nrTasks] at *
      omega
  | thread u =>
      have bound : u.val < 22 := u.isLt
      simp only [StackUnion.page, nrThreads] at *
      omega

theorem page_injective (same : union.page layout place = union'.page layout place) :
    union = union' := by
  have unions := linked.unions
  simp only [nrTasks, nrThreads] at unions
  cases union with
  | task p =>
      have bound : p.val < 10 := p.isLt
      cases union' with
      | task p' =>
          simp only [StackUnion.page] at same
          rw [Fin.ext (show p.val = p'.val by omega)]
      | thread u =>
          have bound' : u.val < 22 := u.isLt
          simp only [StackUnion.page] at same
          omega
  | thread u =>
      have bound : u.val < 22 := u.isLt
      cases union' with
      | task p =>
          have bound' : p.val < 10 := p.isLt
          simp only [StackUnion.page] at same
          omega
      | thread u' =>
          simp only [StackUnion.page] at same
          rw [Fin.ext (show u.val = u'.val by omega)]

theorem apart_unions (holds : (node, offset) ∈ union.nodes)
    (holds' : (other, offset') ∈ union'.nodes) (different : node ≠ other) :
    Apart (address layout place node) (address layout place other) := by
  have small := StackUnion.offset_mem holds
  have small' := StackUnion.offset_mem holds'
  rw [Apart, StackUnion.address_eq holds, StackUnion.address_eq holds']
  simp only [pageSize]
  by_cases same : union.page layout place = union'.page layout place
  · obtain rfl := linked.page_injective same
    have distinct : offset ≠ offset' := by
      rintro rfl
      exact different (StackUnion.unique holds holds')
    omega
  · omega

theorem global_below (isGlobal : node ∈ globals) (holds : (other, offset) ∈ union.nodes) :
    address layout place node + 8 ≤ address layout place other := by
  have below := linked.below node isGlobal
  have bounds := (linked.page_bounds union).1
  rw [StackUnion.address_eq holds]
  simp only [pageSize] at *
  omega

theorem null_below (known : node ≠ .wild) (different : node ≠ .null) :
    8 ≤ address layout place node := by
  obtain isNull | isGlobal | ⟨union, offset, holds⟩ := null_or_global_or_union known
  · exact absurd isNull different
  · have above := linked.above node isGlobal
    omega
  · have small := StackUnion.offset_mem holds
    rw [StackUnion.address_eq holds]
    omega

/-- Different nodes have no byte in common. -/
theorem apart (known : node ≠ .wild) (known' : other ≠ .wild) (different : node ≠ other) :
    Apart (address layout place node) (address layout place other) := by
  obtain rfl | isGlobal | ⟨union, offset, holds⟩ := null_or_global_or_union known
  · exact .inl (by simpa [address] using linked.null_below known' different.symm)
  · obtain rfl | isGlobal' | ⟨union', offset', holds'⟩ := null_or_global_or_union known'
    · exact .inr (by simpa [address] using linked.null_below known different)
    · have := symm_apart layout place
      exact linked.separate.forall isGlobal isGlobal' different
    · exact .inl (linked.global_below isGlobal holds')
  · obtain rfl | isGlobal' | ⟨union', offset', holds'⟩ := null_or_global_or_union known'
    · exact .inr (by simpa [address] using linked.null_below known different)
    · exact .inr (linked.global_below isGlobal' holds)
    · exact linked.apart_unions holds holds' different

theorem address_lt (node : Node) : address layout place node + 8 ≤ pageSize * pagLogInitCode := by
  by_cases known : node = .wild
  · rw [known, address]
    decide
  obtain rfl | isGlobal | ⟨union, offset, holds⟩ := null_or_global_or_union known
  · rw [address]
    decide
  · have below := linked.below node isGlobal
    have system := linked.system
    simp only [pageSize, pagLogInitCode] at *
    omega
  · have small := StackUnion.offset_mem holds
    have bounds := (linked.page_bounds union).2
    rw [StackUnion.address_eq holds]
    simp only [pageSize, pagLogInitCode] at *
    omega

end Linked

/-! ## The structure of a node -/

theorem page_of_task {p : TaskId} (converts : listHeadToTaskStruct node = .ok p) :
    address layout place node / pageSize * pageSize = taskBase layout p := by
  cases node with
  | task | ready | blocked =>
      obtain rfl := Except.ok.inj converts
      simp only [address, taskBase, pageSize]
      omega
  | _ => exact absurd converts (by simp [listHeadToTaskStruct])

theorem page_of_thread {t : ThreadPtr} (converts : listHeadToThreadStruct layout node = .ok t) :
    address layout place node / pageSize * pageSize = threadBase layout place t := by
  cases node with
  | thread t' =>
      obtain rfl := Except.ok.inj converts
      cases t' <;> simp only [address, threadBase, pageSize] <;> omega
  | mutex m =>
      obtain rfl := Except.ok.inj converts
      have bound : m.val < 20 := m.isLt
      simp only [address, threadBase, Layout.imagePage, pageSize]
      split_ifs <;> simp only [Fin.val_zero, Fin.val_one] <;> omega
  | _ => exact absurd converts (by simp [listHeadToThreadStruct])

/-! ## Words -/

def word (layout : Layout) (place : NodePlacement) (node : Node) : Word :=
  BitVec.ofNat 32 (address layout place node)

theorem Linked.toNat_word (linked : Linked layout place) (node : Node) :
    (word layout place node).toNat = address layout place node := by
  have below := linked.address_lt node
  simp only [pageSize, pagLogInitCode] at below
  rw [word, BitVec.toNat_ofNat, Nat.mod_eq_of_lt (by omega)]

theorem Linked.inside (linked : Linked layout place) (node : Node) :
    (word layout place node).toNat + 8 ≤ 2 ^ 32 := by
  have below := linked.address_lt node
  simp only [pageSize, pagLogInitCode] at below
  rw [linked.toNat_word]
  omega

theorem Linked.word_injective (linked : Linked layout place) (known : node ≠ .wild)
    (known' : other ≠ .wild) (same : word layout place node = word layout place other) :
    node = other := by
  by_contra different
  have apart := linked.apart known known' different
  rw [← linked.toNat_word, ← linked.toNat_word, same, Apart] at apart
  omega

/-- A node with a name is in memory, and null is where the page table in use maps page 0. -/
def places (linked : Linked layout place) (page0 : Bool) : Places Node where
  address := word layout place
  Known node := node ≠ .wild
  Stored node := node ≠ .wild ∧ (node = .null → page0 = true)
  known stored := stored.1
  inside {node} _ := linked.inside node
  apart stored stored' different := by
    rw [linked.toNat_word, linked.toNat_word]
    exact linked.apart stored.1 stored'.1 different
  distinct known known' same := linked.word_injective known known' same

theorem stored_of_access (linked : Linked layout place) {s : Kernel}
    (accessed : s.access node = .ok ()) : (places linked s.page0Present).Stored node := by
  cases node with
  | null =>
      refine ⟨by simp, fun _ => ?_⟩
      by_contra absent
      simp [Kernel.access, absent] at accessed
  | wild => exact absurd accessed (by simp [Kernel.access])
  | _ => exact ⟨by simp, by simp⟩

end NodePlacement

open NodePlacement

/-- Calls of the list functions that succeed on the nodes do the same to the words of memory.  Then
`list_empty` reads the words as it reads the nodes, and the page of the address that `list_first`
reads is the structure to which its node is converted. -/
theorem lists_in_memory {layout : Layout} {place : NodePlacement} (linked : Linked layout place)
    {s : Kernel} {heap : Heap Node} {rest mem : X86.Memory} (calls : List (Call Node))
    (stands : (places linked s.page0Present).Stands rest mem s.heap)
    (run : calls.foldlM (Call.onHeap s.access .null) s.heap = .ok heap) :
    let mem' := (calls.map (Call.map (word layout place))).foldl Call.onWords mem
    (places linked s.page0Present).Stands rest mem' heap ∧
      ∀ head, s.access head = .ok () → (heap head).next ≠ .wild →
        ListWords.listEmpty (word layout place head) mem' = IntrusiveList.listEmpty heap head ∧
        (∀ p, listHeadToTaskStruct (listFirst heap head) = .ok p →
          (ListWords.listFirst (word layout place head) mem' &&& 0xfffff000).toNat =
            taskBase layout p) ∧
        ∀ t, listHeadToThreadStruct layout (listFirst heap head) = .ok t →
          (ListWords.listFirst (word layout place head) mem' &&& 0xfffff000).toNat =
            threadBase layout place t := by
  intro mem'
  have follows : (places linked s.page0Present).Stands rest mem' heap :=
    stands.run (stored_of_access linked) rfl calls run
  refine ⟨follows, fun head accessed known => ?_⟩
  have stored := stored_of_access linked accessed
  have first : ListWords.listFirst (word layout place head) mem' =
      word layout place (heap head).next := follows.next stored known
  refine ⟨follows.listEmpty_eq stored known, fun p converts => ?_, fun t converts => ?_⟩
  · rw [first, X86.toNat_pageMask, linked.toNat_word]
    exact page_of_task converts
  · rw [first, X86.toNat_pageMask, linked.toNat_word]
    exact page_of_thread converts

namespace NodePlacement

def plain : NodePlacement := ⟨0x30, 0x16000, 0x16008, 0x16010⟩

instance (a b : Nat) : Decidable (Apart a b) := inferInstanceAs (Decidable (_ ∨ _))

theorem plain_linked : Linked plainLayout plain where
  separate := by decide +kernel
  above := by decide +kernel
  below := by decide +kernel
  unions := by decide
  system := by decide

end NodePlacement

/-- After boot the third process is moved to the ready queue. -/
theorem lists_in_memory_requeued : ∃ s, Kernel.Reachable plainLayout anyStep s ∧
    ∃ mem, (places plain_linked s.page0Present).Stands (fun _ => 0) mem s.heap ∧
      (ListWords.listFirst (word plainLayout plain .readyqueue)
        (ListWords.listAddTail (word plainLayout plain (.task 2))
          (word plainLayout plain .readyqueue)
          (ListWords.listDel (word plainLayout plain (.task 2)) mem)) &&& 0xfffff000).toNat =
        taskBase plainLayout 2 := by
  obtain ⟨s, reachable, goal⟩ := reachable_of_checkBoot anyStep (fun _ _ => true)
    (fun s => passes ([Call.listDel (.task 2), .listAddTail (.task 2) .readyqueue].foldlM
      (Call.onHeap s.access .null) s.heap) fun heap => decide ((heap .readyqueue).next = .task 2))
    [] (fun _ _ _ => trivial) (by decide +kernel)
  obtain ⟨heap, run, goal⟩ := passes_eq_true.mp goal
  have next : (heap .readyqueue).next = .task 2 := of_decide_eq_true goal
  have stands : (places plain_linked s.page0Present).Stands (fun _ => 0) _ s.heap :=
    Places.stands_memoryOf _ _
  have found := (lists_in_memory plain_linked _ stands run).2 .readyqueue rfl (by simp [next])
  refine ⟨s, reachable, _, stands, found.2.1 2 ?_⟩
  rw [IntrusiveList.listFirst, next]
  rfl

end Zeos
