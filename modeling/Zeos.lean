import Zeos.IntrusiveList
import Zeos.GuardedRun
import Zeos.ListKinds
import Zeos.Boot
import Zeos.Coherence
import Zeos.Runnable
import Zeos.Loops
import Zeos.Rejection
import Zeos.AddressSpace
import Zeos.Pages
import Zeos.Paging
import Zeos.Duplication
import Zeos.Isolation
import Zeos.Stacks
import Zeos.Statistics
import Zeos.Accounting
import Zeos.Protection
import Zeos.Departure
import Zeos.Ownership
import Zeos.Resumption
import Zeos.RoundRobin
import Zeos.Quanta
import Zeos.WakeOrder
import Zeos.Exclusion
import Zeos.Awaited
import Zeos.Capacity
import Zeos.Rollback
import Zeos.Creation
import Zeos.Joiners
import Zeos.Bootsect
import Zeos.Buffers
import Zeos.Pointers
import Zeos.Initialisers
import Zeos.Identity
import Zeos.SystemCall
import Zeos.WrapperErrors
import Zeos.Suspension
import Zeos.SwitchStack
import Zeos.TwoReturns
import Zeos.CreatedThread
import Zeos.ThreadStates
import Zeos.UserRange
import Zeos.FrameMap
import Zeos.ServiceNumbers
import Zeos.Release
import Zeos.Destruction
import Zeos.Console
import Zeos.PageWalk
import Zeos.PageCopy
import Zeos.Unshared
import Zeos.ChildCopy
import Zeos.ForwardCopy
import Zeos.BuildImage
import Zeos.Decimal
import Zeos.Screen
import Zeos.ListSequences
import Zeos.CallingConvention
import Zeos.TaskSwitch
import Zeos.Preemption
import Zeos.Segmentation
import Zeos.Interrupts
import Zeos.Termination
import Zeos.ListWords
import Zeos.NodeAddresses
import Zeos.Fairness
import Zeos.KernelImage
import Zeos.Keyboard
