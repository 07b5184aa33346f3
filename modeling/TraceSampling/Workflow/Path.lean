import TraceSampling.Word

/-!
# Path ids

A node of the call graph is named by 64 bits: sixteen that all nodes below one root edge share, and
forty-eight that hash the edge into the node. Zero means that there is no path, so no id is zero.
-/

namespace TraceSampling.Workflow

def edgeMask : UInt64 := 0xffffffffffff

def nonZero (path : UInt64) : UInt64 := if path = 0 then 1 else path

/-- The four quarters of a word laid over each other. -/
def foldPrefix (seed : UInt64) : UInt64 :=
  (seed ^^^ (seed >>> 16) ^^^ (seed >>> 32) ^^^ (seed >>> 48)) &&& 0xffff

/-- The id under which the calls of a method of a service start. -/
def rootPath (service method : String) : UInt64 :=
  let seed := Hash.fnv Hash.offsetBasis (Hash.utf8 service ++ Hash.separator :: Hash.utf8 method)
  nonZero ((foldPrefix seed <<< 48) ||| (seed &&& edgeMask))

/-- The id of the edge from a node into a method of a service. -/
def childPath (parent : UInt64) (service method : String) : UInt64 :=
  let edge := Hash.fnv Hash.offsetBasis (Hash.bigEndian parent ++ Hash.separator ::
    (Hash.utf8 service ++ Hash.separator :: Hash.utf8 method))
  nonZero ((parent &&& ~~~edgeMask) ||| (edge &&& edgeMask))

theorem nonZero_ne_zero (path : UInt64) : nonZero path ≠ 0 := by
  unfold nonZero
  split
  · decide
  · next hpath => exact hpath

theorem childPath_ne_zero (parent : UInt64) (service method : String) :
    childPath parent service method ≠ 0 := nonZero_ne_zero _

/-- What the ids below one root edge share. -/
def rootPrefix (path : UInt64) : UInt64 := path >>> 48

end TraceSampling.Workflow
