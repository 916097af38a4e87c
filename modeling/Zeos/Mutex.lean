import Zeos.Sched

/-!
# Mutexes

The system calls of `mutex.c`.
-/

namespace Zeos

open GuardedRun

/-- The range check at the beginning of every mutex call. -/
def mutexIndex (n : Int) : Option MutexId :=
  if h : n ≥ 20 ∨ n < 0 then none else some ⟨n.toNat, by simp only [nrMutex]; omega⟩

/-- Rounds after which a loop over a list of threads is taken not to end: a list without a repeated
node has at most as many nodes as there are threads. -/
abbrev listFuel : Nat := Fintype.card ThreadPtr + 1

namespace Kernel

/-- `sys_mutex_init`. -/
def sysMutexInit (s : Kernel) (n : Int) : Except Fault (Kernel × Result) :=
  match mutexIndex n with
  | none => return (s, .returns (-EINVAL))
  | some m =>
      if (s.mutexVector m).owner ≠ 0 then return (s, .returns (-EBUSY))
      else do
        let s := s.setMutex m fun _ => { locked := 0, owner := (s.thread s.current).tid }
        let s ← s.initListHead (.mutex m)
        return (s, .returns 0)

/-- `sys_mutex_lock`. -/
def sysMutexLock (layout : Layout) (s : Kernel) (n : Int) : Except Fault (Kernel × Result) :=
  match mutexIndex n with
  | none => return (s, .returns (-EINVAL))
  | some m =>
      if (s.mutexVector m).owner.toInt < 0 then return (s, .returns (-EINVAL))
      else if (s.mutexVector m).locked ≠ 0 then do
        let s := s.setThread s.current fun t => { t with state := .stBlocked }
        let s ← s.listAddTail (.thread s.current) (.mutex m)
        let s ← s.schedNextThreadRr layout
        return (s, .switches)
      else
        return (s.setMutex m fun mutex => { mutex with locked := 1 }, .returns 0)

/-- `sys_mutex_unlock`. -/
def sysMutexUnlock (layout : Layout) (s : Kernel) (n : Int) : Except Fault (Kernel × Result) :=
  match mutexIndex n with
  | none => return (s, .returns (-EINVAL))
  | some m =>
      if (s.mutexVector m).owner.toInt < 0 then return (s, .returns (-EINVAL))
      else if (s.mutexVector m).locked = 0 then return (s, .returns 0)
      else do
        let l := s.listFirst (.mutex m)
        let t ← listHeadToThreadStruct layout l
        let p ← s.currentP
        let s ← s.updateThreadStateRr t (some (.ready p))
        if s.listEmpty (.mutex m) then
          return (s.setMutex m fun mutex => { mutex with locked := 0 }, .returns 0)
        else return (s, .returns 0)

/-- The loop of `sys_mutex_destroy`. -/
def releaseWaiters (layout : Layout) (m : MutexId) : Nat → Kernel → Except Fault Kernel
  | 0, _ => .error .hang
  | fuel + 1, s =>
      if s.listEmpty (.mutex m) then .ok s
      else do
        let l := s.listFirst (.mutex m)
        let t ← listHeadToThreadStruct layout l
        let s ← s.listDel l
        let p ← s.deref (s.thread t).p
        let s ← s.updateThreadStateRr t (some (.ready p))
        releaseWaiters layout m fuel s

/-- `sys_mutex_destroy`. -/
def sysMutexDestroy (layout : Layout) (s : Kernel) (n : Int) : Except Fault (Kernel × Result) :=
  match mutexIndex n with
  | none => return (s, .returns (-EINVAL))
  | some m =>
      if (s.mutexVector m).owner.toInt ≤ 0 then return (s, .returns (-EINVAL))
      else if (s.thread s.current).tid ≠ (s.mutexVector m).owner then
        return (s, .returns (-EPERM))
      else do
        let s ← releaseWaiters layout m listFuel s
        return (s.setMutex m fun _ => { locked := 0, owner := 0 }, .returns 0)

end Kernel

end Zeos
