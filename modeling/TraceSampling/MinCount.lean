import TraceSampling.Word

/-!
# Floors per interface

Every window keeps a number of spans of each interface, however rare its calls are. Interfaces are
told apart by a hash of service and method; once as many are tracked as allowed, new ones are left
to the other stages until the window rotates.
-/

namespace TraceSampling.MinCount

/-- The spans kept under each tracked key since the window was opened. `distinct` counts the keys; a
place is taken for a key before it is tracked. -/
structure Window where
  counts : List (UInt64 × Nat) := []
  distinct : Nat := 0
  started : Nat := 0
  deriving DecidableEq, Repr

def key (service method : String) : UInt64 :=
  Hash.fnv Hash.offsetBasis (Hash.utf8 service ++ Hash.separator :: Hash.utf8 method)

namespace Window

/-- How many spans were kept under a key, if it is tracked. -/
def count? (w : Window) (k : UInt64) : Option Nat := w.counts.lookup k

/-- Takes a place for a new key, if there is one left. -/
def reserve? (w : Window) (maxKeys : Nat) : Option Window :=
  if w.distinct < maxKeys then some { w with distinct := w.distinct + 1 } else none

/-- Tracks a key for which a place was taken. -/
def track (w : Window) (k : UInt64) : Window := { w with counts := (k, 0) :: w.counts }

def increment (k : UInt64) : List (UInt64 × Nat) → List (UInt64 × Nat)
  | [] => []
  | (k', n) :: rest => if k' = k then (k', n + 1) :: rest else (k', n) :: increment k rest

/-- Counts a span under a tracked key that has not reached its floor yet. -/
def keep (w : Window) (k : UInt64) (floor : Nat) : Window × Bool :=
  if (w.count? k).any (· < floor) then ({ w with counts := increment k w.counts }, true)
  else (w, false)

/-- A new key needs room and is not kept without it. -/
def take (w : Window) (k : UInt64) (floor maxKeys : Nat) : Window × Bool :=
  if (w.count? k).isSome then w.keep k floor
  else
    match w.reserve? maxKeys with
    | none => (w, false)
    | some w => (w.track k).keep k floor

end Window

/-- The window in which spans are counted and the one it replaced. -/
structure Windows where
  current : Window := {}
  previous : Window := {}
  deriving DecidableEq, Repr

namespace Windows

def openedAt (now : Nat) : Windows := ⟨{ started := now }, { started := now }⟩

/-- A floor of zero keeps nothing and tracks nothing. -/
def take (w : Windows) (service method : String) (floor maxKeys : Nat) : Windows × Bool :=
  if floor = 0 then (w, false)
  else
    let (current, kept) := w.current.take (key service method) floor maxKeys
    ({ w with current }, kept)

/-- Opens a new window and retires the current one as it is. -/
def rotate (w : Windows) (now : Nat) : Windows := ⟨{ started := now }, w.current⟩

end Windows

end TraceSampling.MinCount
