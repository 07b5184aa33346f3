import TraceSampling.Attribute

/-!
# Decisions and stage results

A stage answers with a decision and attributes for the span. Results of two stages are joined: the
decision that keeps more wins, and the attributes follow each other.
-/

namespace TraceSampling

inductive Decision where
  | drop
  | recordOnly
  | recordAndSample
  deriving DecidableEq, Repr, Inhabited

namespace Decision

def rank : Decision → Nat
  | drop => 0
  | recordOnly => 1
  | recordAndSample => 2

def name : Decision → String
  | drop => "drop"
  | recordOnly => "record_only"
  | recordAndSample => "record_and_sample"

def all : List Decision := [drop, recordOnly, recordAndSample]

def ofName? (s : String) : Option Decision := all.find? (·.name = s)

def merge (a b : Decision) : Decision := if b.rank ≤ a.rank then a else b

@[simp] theorem rank_merge (a b : Decision) : (merge a b).rank = max a.rank b.rank := by
  cases a <;> cases b <;> rfl

end Decision

structure StageResult where
  decision : Decision
  attributes : List Attribute := []

namespace StageResult

def dropped : StageResult := { decision := .drop }

def add (r : StageResult) (a : Attribute) : StageResult :=
  { r with attributes := r.attributes ++ [a] }

def merge (a b : StageResult) : StageResult where
  decision := a.decision.merge b.decision
  attributes := a.attributes ++ b.attributes

@[simp] theorem merge_decision (a b : StageResult) :
    (a.merge b).decision = a.decision.merge b.decision := rfl

@[simp] theorem merge_attributes (a b : StageResult) :
    (a.merge b).attributes = a.attributes ++ b.attributes := rfl

end StageResult

end TraceSampling
