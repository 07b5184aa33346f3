/-!
# Sampling strategies

The reason a span was kept, or was not. Strategies are ordered by their rank, and every strategy
from `matched` on means that the span is kept.
-/

namespace TraceSampling

inductive Strategy where
  /-- The caller speaks an older protocol and carried no strategy. -/
  | notExist
  /-- No strategy applied. -/
  | notMatch
  /-- Kept, the first reason being unknown. -/
  | matched
  /-- Kept by a rule on attribute values. -/
  | dyeing
  /-- Kept for the floor of its interface. -/
  | minCount
  /-- Kept by the fraction of trace ids. -/
  | random
  /-- Kept because the parent was. -/
  | follow
  /-- Kept because the span failed. -/
  | error
  /-- Kept because the span took long. -/
  | slow
  /-- Kept by a decision stage of the user. -/
  | user
  deriving DecidableEq, Repr, Inhabited

namespace Strategy

/-- The number that stands for the strategy on the wire. -/
def rank : Strategy → Int
  | notExist => -1
  | notMatch => 0
  | matched => 1
  | dyeing => 2
  | minCount => 3
  | random => 4
  | follow => 5
  | error => 6
  | slow => 7
  | user => 8

def name : Strategy → String
  | notExist => "not_exist"
  | notMatch => "not_match"
  | matched => "match"
  | dyeing => "dyeing"
  | minCount => "min_count"
  | random => "random"
  | follow => "follow"
  | error => "error"
  | slow => "slow"
  | user => "user"

def all : List Strategy :=
  [notExist, notMatch, matched, dyeing, minCount, random, follow, error, slow, user]

/-- What holds when nothing was decided. -/
def fallback : Strategy := notMatch

def ofRank? (n : Int) : Option Strategy := all.find? (·.rank = n)

/-- Names are matched without regard to the case of ASCII letters. -/
def ofName? (s : String) : Option Strategy :=
  all.find? (·.name.toList = s.toList.map Char.toLower)

def isSampled (s : Strategy) : Bool := decide (1 ≤ s.rank)

def compare (a b : Strategy) : Ordering := Ord.compare a.rank b.rank

/-- The strategy of higher rank. -/
def max (a b : Strategy) : Strategy := if a.rank ≤ b.rank then b else a

@[simp] theorem ofRank?_rank (s : Strategy) : ofRank? s.rank = some s := by
  cases s <;> rfl

@[simp] theorem rank_max (a b : Strategy) : (max a b).rank = Max.max a.rank b.rank := by
  cases a <;> cases b <;> rfl

theorem rank_injective {a b : Strategy} (h : a.rank = b.rank) : a = b := by
  have := congrArg ofRank? h
  simpa using this

end Strategy

end TraceSampling
