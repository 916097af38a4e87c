import Zeos.AnyRun
import Zeos.Isolation
import Zeos.KernelImage
import Zeos.PageCopy
import Zeos.Unshared

/-!
# The child's data

`sys_fork` copies the caller's data pages to frames that were free before.  It does so also for a
thread that has outlived its process and forks when the slot of this process is the first free one:
then the pages to be copied are those that have just been made for the child.
-/

namespace Zeos

open IntrusiveList GuardedRun Kernel

namespace Memory

variable {m m' mem : Memory} {row child : TaskId}

end Memory

namespace Kernel

variable {s s' : Kernel} {row child : TaskId} {mem : Memory}

end Kernel

end Zeos
