import TraceSampling.Attribute
import TraceSampling.Dyeing.BloomFilter

/-!
# Dyeing

Spans are kept by the text of an attribute: because the attribute forces it, because the text is
among the values of a rule, or because the filter of a rule contains it. Every matcher answers with
the key of the first attribute that dyes the span.
-/

namespace TraceSampling

/-- The key of the first attribute that passes a test of key and text. -/
def firstKey? (attributes : List Attribute) (dyes : String → String → Bool) : Option String :=
  (attributes.find? fun a => dyes a.key a.text).map (·.key)

/-- Whether a text asks for a span to be kept. -/
def isTruthy (text : String) : Bool := text ≠ "" && text ≠ "0" && text ≠ "false"

def forcedKey? (attributes : List Attribute) : Option String :=
  firstKey? attributes fun key text => key = Key.force && isTruthy text

/-! ## Exact rules -/

/-- The values under each key. -/
structure ExactRules where
  sets : List (String × List String) := []
  deriving DecidableEq, Repr

namespace ExactRules

def addTo (key : String) (values : List String) :
    List (String × List String) → List (String × List String)
  | [] => [(key, values)]
  | (k, vs) :: rest =>
    if k = key then (k, vs ++ values) :: rest else (k, vs) :: addTo key values rest

/-- Rules of one key are put together. -/
def add (r : ExactRules) (key : String) (values : List String) : ExactRules :=
  ⟨addTo key values r.sets⟩

def dyes (r : ExactRules) (key text : String) : Bool :=
  (r.sets.lookup key).any (·.contains text)

def isEmpty (r : ExactRules) : Bool := r.sets.all (·.2.isEmpty)

def match? (r : ExactRules) (attributes : List Attribute) : Option String :=
  firstKey? attributes r.dyes

end ExactRules

/-! ## Bloom rules -/

/-- The filter of each key. -/
structure BloomRules where
  filters : List (String × BloomFilter) := []
  deriving DecidableEq, Repr

namespace BloomRules

/-- A filter takes the place of the one its key may have had. -/
def add (r : BloomRules) (key : String) (filter : BloomFilter) : BloomRules :=
  ⟨(key, filter) :: r.filters.filter (·.1 ≠ key)⟩

def dyes (r : BloomRules) (key text : String) : Bool :=
  (r.filters.lookup key).any (·.contains text)

def isEmpty (r : BloomRules) : Bool := r.filters.isEmpty

def match? (r : BloomRules) (attributes : List Attribute) : Option String :=
  firstKey? attributes r.dyes

end BloomRules

end TraceSampling
