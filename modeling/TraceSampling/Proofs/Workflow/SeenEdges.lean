import Mathlib.Data.Finset.Card
import TraceSampling.Workflow.EdgeCache

/-!
# What a cache of seen edges remembers

Calls to a cache and its answers make a log. The log alone says which paths are recorded, how much
of the budget is used and what the next insertion comes to. The cache keeps just that, although it
counts its paths apart from them and takes a place before it knows whether the budget allows it.
-/

namespace TraceSampling.Workflow

/-! ## One side -/

/-- Every path is recorded once and has taken one place. -/
structure EdgeSet.Tidy (s : EdgeSet) : Prop where
  nodup : s.paths.Nodup
  size_eq : s.size = s.paths.length

namespace EdgeSet

theorem tidy_empty : Tidy {} := ⟨List.nodup_nil, rfl⟩

theorem Tidy.size_eq_card {s : EdgeSet} (h : s.Tidy) : s.size = s.paths.toFinset.card := by
  rw [h.size_eq, List.toFinset_card_of_nodup h.nodup]

/-- The side with a place taken and a path on it. -/
def extend (s : EdgeSet) (path : UInt64) : EdgeSet := ⟨path :: s.paths, s.size + 1⟩

theorem Tidy.extend {s : EdgeSet} (h : s.Tidy) {path : UInt64} (hpath : path ∉ s.paths) :
    (s.extend path).Tidy where
  nodup := List.nodup_cons.mpr ⟨hpath, h.nodup⟩
  size_eq := by simp [EdgeSet.extend, h.size_eq]

end EdgeSet

/-! ## One insertion -/

namespace EdgeCache

theorem side_setSide_of_ne (c : EdgeCache) {side other : Side} (h : other ≠ side) (s : EdgeSet) :
    (c.setSide side s).side other = c.side other := by
  cases side <;> cases other <;> first | rfl | exact absurd rfl h

@[simp] theorem setSide_setSide (c : EdgeCache) (side : Side) (s t : EdgeSet) :
    (c.setSide side s).setSide side t = c.setSide side t := by
  cases side <;> rfl

@[simp] theorem setSide_side (c : EdgeCache) (side : Side) : c.setSide side (c.side side) = c := by
  cases side <;> rfl

@[simp] theorem used_setSide (c : EdgeCache) (side : Side) (s : EdgeSet) :
    (c.setSide side s).used = c.used := by
  cases side <;> rfl

@[simp] theorem limit_setSide (c : EdgeCache) (side : Side) (s : EdgeSet) :
    (c.setSide side s).limit = c.limit := by
  cases side <;> rfl

/-- What an attempt to record a path comes to. -/
def attempt (c : EdgeCache) (side : Side) (path : UInt64) (maxPaths : Nat) (budgeted : Bool) :
    Insertion :=
  if c.contains side path then .seen
  else if maxPaths ≤ c.size side then .full
  else if budgeted ∧ c.limit ≤ c.used then .overBudget
  else .inserted

/-- The cache with one path more. -/
def extend (c : EdgeCache) (side : Side) (path : UInt64) (budgeted : Bool) : EdgeCache :=
  { c.setSide side ((c.side side).extend path) with used := if budgeted then c.used + 1 else c.used }

/-- A place that was taken in vain is given back, so a refusal leaves no trace. -/
theorem insertWith_eq (c : EdgeCache) (side : Side) (path : UInt64) (maxPaths : Nat)
    (budgeted : Bool) :
    c.insertWith side path maxPaths budgeted =
      (if c.attempt side path maxPaths budgeted = .inserted then c.extend side path budgeted else c,
        c.attempt side path maxPaths budgeted) := by
  -- The tests one after the other; only the last refusal comes after a place was taken.
  by_cases hseen : c.contains side path = true
  · have hattempt : c.attempt side path maxPaths budgeted = .seen := if_pos hseen
    rw [insertWith, if_pos hseen, hattempt]
    rfl
  rw [insertWith, if_neg hseen]
  by_cases hfull : maxPaths ≤ c.size side
  · have hattempt : c.attempt side path maxPaths budgeted = .full := by
      rw [attempt, if_neg hseen, if_pos hfull]
    have hreserve : (c.side side).reserve? maxPaths = none := if_neg (Nat.not_lt.mpr hfull)
    rw [hreserve, hattempt]
    rfl
  have hreserve : (c.side side).reserve? maxPaths =
      some ⟨(c.side side).paths, c.size side + 1⟩ := if_pos (Nat.lt_of_not_le hfull)
  rw [hreserve]
  by_cases hbudget : budgeted = true ∧ c.limit ≤ c.used
  · have hattempt : c.attempt side path maxPaths budgeted = .overBudget := by
      rw [attempt, if_neg hseen, if_neg hfull, if_pos hbudget]
    have hcharge : (c.setSide side ⟨(c.side side).paths, c.size side + 1⟩).charge? = none := by
      simp [charge?, hbudget.2]
    have hback : (⟨(c.side side).paths, c.size side + 1⟩ : EdgeSet).release = c.side side := rfl
    rw [hattempt]
    simp [hbudget.1, hcharge, hback]
  · have hattempt : c.attempt side path maxPaths budgeted = .inserted := by
      rw [attempt, if_neg hseen, if_neg hfull, if_neg hbudget]
    rw [hattempt]
    cases budgeted with
    | false =>
      simp only [Bool.false_eq_true, if_false, setSide_setSide, if_true]
      cases side <;> rfl
    | true =>
      have hused : c.used < c.limit := by simpa using hbudget
      simp only [if_true, charge?, used_setSide, limit_setSide, hused]
      cases side <;> rfl

theorem side_extend (c : EdgeCache) (side : Side) (path : UInt64) (budgeted : Bool) :
    (c.extend side path budgeted).side side = (c.side side).extend path := by
  cases side <;> rfl

theorem side_extend_of_ne (c : EdgeCache) {side other : Side} (h : other ≠ side) (path : UInt64)
    (budgeted : Bool) : (c.extend side path budgeted).side other = c.side other :=
  side_setSide_of_ne c h _

end EdgeCache

/-! ## Calls and their log -/

inductive CacheCall where
  | insert (side : Side) (path : UInt64) (maxPaths : Nat) (budgeted : Bool)
  | setLimit (limit : Nat)
  | reset
  | resetBudget
  deriving DecidableEq, Repr

/-- The cache behind a call, and the answer if the call is an insertion. -/
def EdgeCache.serve (c : EdgeCache) : CacheCall → EdgeCache × Option Insertion
  | .insert side path maxPaths budgeted =>
    let (c, answer) :=
      if budgeted then c.insert side path maxPaths else c.insertUnbudgeted side path maxPaths
    (c, some answer)
  | .setLimit limit => (c.setLimit limit, none)
  | .reset => (c.reset, none)
  | .resetBudget => (c.resetBudget, none)

theorem EdgeCache.serve_insert (c : EdgeCache) (side : Side) (path : UInt64) (maxPaths : Nat)
    (budgeted : Bool) :
    c.serve (.insert side path maxPaths budgeted) =
      ((c.insertWith side path maxPaths budgeted).1,
        some (c.insertWith side path maxPaths budgeted).2) := by
  cases budgeted <;> rfl

/-- Calls with their answers, the latest first. -/
abbrev CacheLog := List (CacheCall × Option Insertion)

namespace CacheLog

/-- The paths that were recorded on a side and not forgotten since. -/
def recorded (side : Side) : CacheLog → Finset UInt64
  | [] => ∅
  | (.reset, _) :: _ => ∅
  | (.insert s path _ _, some .inserted) :: earlier =>
    if s = side then insert path (recorded side earlier) else recorded side earlier
  | _ :: earlier => recorded side earlier

/-- How many insertions the running budget period has paid for. -/
def charged : CacheLog → Nat
  | [] => 0
  | (.resetBudget, _) :: _ => 0
  | (.insert _ _ _ true, some .inserted) :: earlier => charged earlier + 1
  | _ :: earlier => charged earlier

/-- The limit that was set last. -/
def limit : CacheLog → Nat
  | [] => maxWord
  | (.setLimit limit, _) :: _ => limit
  | _ :: earlier => limit earlier

/-- What an insertion comes to behind these calls. -/
def verdict (log : CacheLog) (side : Side) (path : UInt64) (maxPaths : Nat) (budgeted : Bool) :
    Insertion :=
  if path ∈ log.recorded side then .seen
  else if maxPaths ≤ (log.recorded side).card then .full
  else if budgeted ∧ log.limit ≤ log.charged then .overBudget
  else .inserted

end CacheLog

/-- Serves calls one after the other and logs them. -/
def EdgeCache.run : EdgeCache → CacheLog → List CacheCall → EdgeCache × CacheLog
  | c, log, [] => (c, log)
  | c, log, call :: calls => (c.serve call).1.run ((call, (c.serve call).2) :: log) calls

/-! ## The cache and the log -/

/-- A cache that holds what a log says. -/
structure EdgeCache.Mirrors (c : EdgeCache) (log : CacheLog) : Prop where
  tidy : ∀ side, (c.side side).Tidy
  paths_eq : ∀ side, (c.side side).paths.toFinset = log.recorded side
  used_eq : c.used = log.charged
  limit_eq : c.limit = log.limit

namespace EdgeCache.Mirrors

variable {c : EdgeCache} {log : CacheLog}

theorem empty : Mirrors {} [] where
  tidy side := by cases side <;> exact EdgeSet.tidy_empty
  paths_eq side := by cases side <;> rfl
  used_eq := rfl
  limit_eq := rfl

theorem size_eq (h : c.Mirrors log) (side : Side) : c.size side = (log.recorded side).card := by
  rw [size, (h.tidy side).size_eq_card, h.paths_eq side]

theorem contains_iff (h : c.Mirrors log) (side : Side) (path : UInt64) :
    c.contains side path = true ↔ path ∈ log.recorded side := by
  rw [← h.paths_eq side, List.mem_toFinset]
  exact List.contains_iff_mem

theorem attempt_eq (h : c.Mirrors log) (side : Side) (path : UInt64) (maxPaths : Nat)
    (budgeted : Bool) :
    c.attempt side path maxPaths budgeted = log.verdict side path maxPaths budgeted := by
  simp only [attempt, CacheLog.verdict, h.contains_iff, h.size_eq, h.used_eq, h.limit_eq]

theorem refuse (h : c.Mirrors log) (side : Side) (path : UInt64) (maxPaths : Nat) (budgeted : Bool)
    {answer : Insertion} (hanswer : answer ≠ .inserted) :
    c.Mirrors ((.insert side path maxPaths budgeted, some answer) :: log) := by
  cases answer with
  | inserted => exact absurd rfl hanswer
  | seen | full | overBudget =>
    exact ⟨h.tidy, h.paths_eq, by simpa [CacheLog.charged] using h.used_eq, h.limit_eq⟩

theorem extend (h : c.Mirrors log) {side : Side} {path : UInt64} (hpath : path ∉ log.recorded side)
    (maxPaths : Nat) (budgeted : Bool) :
    (c.extend side path budgeted).Mirrors
      ((.insert side path maxPaths budgeted, some .inserted) :: log) where
  tidy other := by
    by_cases hother : other = side
    · subst hother
      have hnew : path ∉ (c.side other).paths := by
        rwa [← List.mem_toFinset, h.paths_eq other]
      rw [side_extend]
      exact (h.tidy other).extend hnew
    · rw [side_extend_of_ne c hother]
      exact h.tidy other
  paths_eq other := by
    by_cases hother : other = side
    · subst hother
      simp [side_extend, EdgeSet.extend, CacheLog.recorded, h.paths_eq]
    · rw [side_extend_of_ne c hother, h.paths_eq other]
      simp [CacheLog.recorded, Ne.symm hother]
  used_eq := by
    cases budgeted with
    | false => simpa [EdgeCache.extend, CacheLog.charged] using h.used_eq
    | true => simpa [EdgeCache.extend, CacheLog.charged] using h.used_eq
  limit_eq := by simpa [EdgeCache.extend, CacheLog.limit] using h.limit_eq

theorem serve (h : c.Mirrors log) (call : CacheCall) :
    (c.serve call).1.Mirrors ((call, (c.serve call).2) :: log) := by
  cases call with
  | insert side path maxPaths budgeted =>
    rw [serve_insert, insertWith_eq]
    by_cases hin : c.attempt side path maxPaths budgeted = .inserted
    · have hnew : path ∉ log.recorded side := by
        intro hmem
        rw [h.attempt_eq, CacheLog.verdict, if_pos hmem] at hin
        cases hin
      simp only [hin, if_true]
      exact h.extend hnew maxPaths budgeted
    · simp only [hin, if_false]
      exact h.refuse side path maxPaths budgeted hin
  | setLimit limit => exact ⟨h.tidy, h.paths_eq, h.used_eq, rfl⟩
  | reset =>
    exact ⟨empty.tidy, empty.paths_eq, h.used_eq, h.limit_eq⟩
  | resetBudget => exact ⟨h.tidy, h.paths_eq, rfl, h.limit_eq⟩

theorem run (h : c.Mirrors log) (calls : List CacheCall) :
    (c.run log calls).1.Mirrors (c.run log calls).2 := by
  induction calls generalizing c log with
  | nil => exact h
  | cons call calls ih => exact ih (h.serve call)

end EdgeCache.Mirrors

/-- Behind any calls to a fresh cache its paths, sizes and budget are those of the log, and so is the
answer to the next insertion. A refusal changes nothing, and nothing reaches the other side. -/
theorem EdgeCache.run_fresh_eq_log (calls : List CacheCall) :
    let c := (EdgeCache.run {} [] calls).1
    let log := (EdgeCache.run {} [] calls).2
    (∀ side, c.size side = (log.recorded side).card ∧
      ∀ path, c.contains side path = true ↔ path ∈ log.recorded side) ∧
    c.used = log.charged ∧ c.limit = log.limit ∧
    ∀ side path maxPaths budgeted,
      let next := c.serve (.insert side path maxPaths budgeted)
      next.2 = some (log.verdict side path maxPaths budgeted) ∧
      (next.2 ≠ some .inserted → next.1 = c) ∧
      ∀ other, other ≠ side → next.1.side other = c.side other := by
  intro c log
  have h : c.Mirrors log := Mirrors.empty.run calls
  refine ⟨fun side => ⟨h.size_eq side, h.contains_iff side⟩, h.used_eq, h.limit_eq, ?_⟩
  intro side path maxPaths budgeted next
  have hnext : next = (if c.attempt side path maxPaths budgeted = .inserted then
      c.extend side path budgeted else c, some (c.attempt side path maxPaths budgeted)) := by
    simp only [next, serve_insert, insertWith_eq]
  rw [hnext]
  refine ⟨congrArg some (h.attempt_eq side path maxPaths budgeted), ?_, ?_⟩
  · intro hanswer
    have hrefused : c.attempt side path maxPaths budgeted ≠ .inserted :=
      fun hin => hanswer (congrArg some hin)
    exact if_neg hrefused
  · intro other hother
    dsimp only
    split
    · exact side_extend_of_ne c hother path budgeted
    · rfl

end TraceSampling.Workflow
