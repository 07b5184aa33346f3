/-!
# Rotation

Three things are renewed from time to time: the min-count window, the seen edges and the insertion
budget. Between two wake-ups the schedule waits for the earliest deadline, each counted from the
last renewal with the interval in force when the wait began. A deadline past the end of the clock
never comes.
-/

namespace TraceSampling

inductive Item where
  | window
  | cache
  | budget
  deriving DecidableEq, Repr

def Item.all : List Item := [.window, .cache, .budget]

structure PerItem (α : Type) where
  window : α
  cache : α
  budget : α
  deriving DecidableEq, Repr

namespace PerItem

variable {α : Type}

def get (p : PerItem α) : Item → α
  | .window => p.window
  | .cache => p.cache
  | .budget => p.budget

def ofFn (f : Item → α) : PerItem α := ⟨f .window, f .cache, f .budget⟩

@[simp] theorem get_ofFn (f : Item → α) (i : Item) : (ofFn f).get i = f i := by
  cases i <;> rfl

end PerItem

/-- The last nanosecond of a clock whose seconds are signed words. -/
def clockEnd : Nat := 0x8000000000000000 * 1_000_000_000 - 1

/-- Where the schedule stands in a wait. -/
structure Rotation where
  last : PerItem Nat
  waiting : PerItem Nat
  stopped : Bool := false
  deriving DecidableEq, Repr

inductive WakeUp where
  /-- A deadline was reached, now or a while ago. -/
  | timeout (now : Nat)
  /-- Intervals may have changed. -/
  | reschedule
  | stop
  deriving DecidableEq, Repr

namespace Rotation

def startAt (now : Nat) (intervals : PerItem Nat) : Rotation :=
  { last := .ofFn fun _ => now, waiting := intervals }

def deadline? (r : Rotation) (i : Item) : Option Nat :=
  let due := r.last.get i + r.waiting.get i
  if due ≤ clockEnd then some due else none

def isDue (r : Rotation) (now : Nat) (i : Item) : Bool :=
  (r.deadline? i).any (· ≤ now)

def dueItems (r : Rotation) (now : Nat) : List Item := Item.all.filter (r.isDue now)

/-- One wake-up: the items it renews, and the next wait with the intervals then in force. -/
def wake (r : Rotation) (w : WakeUp) (intervals : PerItem Nat) : Rotation × List Item :=
  if r.stopped then (r, [])
  else
    match w with
    | .timeout now =>
      ({ r with
          last := .ofFn fun i => if r.isDue now i then now else r.last.get i
          waiting := intervals },
        r.dueItems now)
    | .reschedule => ({ r with waiting := intervals }, [])
    | .stop => ({ r with stopped := true }, [])

end Rotation

end TraceSampling
