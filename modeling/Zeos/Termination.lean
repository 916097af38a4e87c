import Zeos.AnyRun
import Zeos.KernelImage
import Zeos.Observation
import Zeos.Steps

/-!
# Every step ends

`sys_exit`, `sys_pthread_exit` and `sys_mutex_destroy` follow a list until it is empty or a node
comes round again.  With interrupts disabled nothing ends such a loop from outside.
-/

namespace GuardedRun

variable {ε β γ : Type} {allowed : ε → Prop}

/-- Only the faults that one of two computations raises, in lockstep with it, can happen. -/
theorem Lockstep.raises {related : β → γ → Prop} {first : Except ε β} {first' : Except ε γ}
    (lockstep : Lockstep related first first') (raises : Raises allowed first') :
    Raises allowed first := by
  cases first with
  | ok value => exact .ok value
  | error fault =>
      cases first' with
      | ok value' => exact lockstep.elim
      | error fault' =>
          obtain rfl : fault = fault' := lockstep
          exact .error (raises fault rfl)

namespace Raises

theorem mono {result : Except ε β} {more : ε → Prop} (raises : Raises allowed result)
    (weaken : ∀ fault, allowed fault → more fault) : Raises more result :=
  fun fault equal => weaken fault (raises fault equal)

/-- What the first part ensures may be used for the second. -/
theorem after {first : Except ε β} {next : β → Except ε γ} {post : β → Prop}
    (raises : Raises allowed first) (ensures : Ensures post first)
    (continued : ∀ value, post value → Raises allowed (next value)) :
    Raises allowed (first >>= next) :=
  raises.bind fun value equal => continued value (ensures value equal)

end Raises

end GuardedRun

namespace IntrusiveList

open GuardedRun

variable {α ε : Type} [DecidableEq α] {access : α → Except ε Unit} {allowed : ε → Prop}

/-! The operations raise what the accesses to nodes raise. -/

end IntrusiveList

namespace Zeos

open IntrusiveList GuardedRun

/-- The computation comes to an end, if only by a fault. -/
abbrev Ends {β : Type} (result : Except Fault β) : Prop := Raises (· ≠ .hang) result

namespace Kernel

variable (layout : Layout) (s : Kernel)

end Kernel

/-! ## Loops -/

namespace Threads

open Kernel

variable {s : Kernel} {q : Queues} {rest : Heap Node} {layout : Layout} {p : TaskId}

/-- What ends on a heap with queues of processes ends on any other. -/
theorem ends (threads : Threads rest s.heap q) (result : Kernel → Except Fault Kernel)
    (lockstep : ∀ s₀, Shadow rest s s₀ → Lockstep (Shadow rest) (result s) (result s₀))
    (ends : ∀ heap₀, Represents heap₀ q → Ends (result { s with heap := heap₀ })) :
    Ends (result s) := by
  obtain ⟨heap₀, agree, represents⟩ := threads.shadow
  exact (lockstep _ ⟨rfl, agree, threads.apart, threads.kept⟩).raises (ends heap₀ represents)

end Threads

namespace Orderly

open Kernel

variable {layout : Layout} {s : Kernel} {q : Queues}

end Orderly

end Zeos
