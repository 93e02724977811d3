/-! # The global lock

One lock serialises all threads. It belongs to a thread and not to a guard: a thread may hold any
number of guards, drop them in any order, and the lock is free again once the last one is gone.
-/

namespace Activation
set_option autoImplicit false

abbrev ThreadId := Nat

/-- The lock, with the number of guards that each thread has taken and not yet dropped. -/
structure Lock where
  owner : Option ThreadId := none
  depths : List (ThreadId × Nat) := []

/-- A guard knows whether it was the first one of its thread. -/
structure LockGuard where
  outermost : Bool
deriving DecidableEq, Repr

namespace Lock

/-- How many guards a thread holds. -/
def depth (l : Lock) (t : ThreadId) : Nat := (l.depths.lookup t).getD 0

def setDepth (l : Lock) (t : ThreadId) (n : Nat) : Lock :=
  { l with depths := (t, n) :: l.depths.filter fun d => d.1 != t }

def isHeld (l : Lock) (t : ThreadId) : Bool := decide (0 < l.depth t)

/-- Takes a guard. `none` means that the thread has to wait for another one. -/
def acquire (l : Lock) (t : ThreadId) : Option (LockGuard × Lock) :=
  if l.depth t = 0 then
    match l.owner with
    | none => some (⟨true⟩, { l with owner := some t }.setDepth t 1)
    | some _ => none
  else some (⟨false⟩, l.setDepth t (l.depth t + 1))

/-- Drops one guard of a thread; the lock becomes free when no guard is left. -/
def drop (l : Lock) (t : ThreadId) : Lock :=
  let remaining := l.depth t - 1
  let rest := l.setDepth t remaining
  if remaining = 0 then { rest with owner := none } else rest

end Lock

end Activation
