import TraceSampling.HopState.Wire
import TraceSampling.Proofs.Workflow.SeenEdges
import TraceSampling.Workflow.Stage

/-!
# Which edges a run of the workflow stage covers

A run mixes evaluations with new limits and resets. Every step makes at most one call to the cache,
so the log of these calls is the history on which an answer depends: an edge is discovered if it is
not recorded, its side has room and the running period has insertions left, and until the cache is
reset it is not discovered again.
-/

namespace TraceSampling.Workflow

/-! ## One evaluation -/

/-- What the stage is asked about. -/
structure Evaluation where
  settings : WorkflowSettings
  request : Request
  interface : Interface
  hop : HopState

namespace Evaluation

variable (e : Evaluation)

/-- The end of an edge at which the stage looks, if it is enabled and the span is at one. -/
def side? : Option Side := if e.settings.enabled then Side.of? e.request.kind else none

def edge (side : Side) : Edge := .of side e.hop.workflow e.interface

/-- The parent speaks the older protocol and was kept. -/
def legacySampled : Bool := e.hop.isLegacy && e.request.parent.any (·.sampled)

/-- The caller has discovered the edge on whose other end the span is. -/
def secondHalf (side : Side) : Bool := side = .server && e.hop.workflow.result = .path

def run (c : EdgeCache) : EdgeCache × HopState × StageResult :=
  sample e.settings e.request e.interface c e.hop

/-- The answer that an edge was found to be something. -/
def found (side : Side) (result : EdgeResult) (decision : Decision) : HopState × StageResult :=
  let mark := { result, path := (e.edge side).path, parentPath := (e.edge side).parentPath }
  ({ e.hop with workflow := mark }, { decision, attributes := attributes mark })

theorem run_of_side?_eq_none (c : EdgeCache) (h : e.side? = none) :
    e.run c = (c, e.hop, .dropped) := by
  unfold side? at h
  unfold run sample
  split
  · rfl
  · next henabled =>
    rw [Bool.not_eq_false] at henabled
    rw [if_pos henabled] at h
    rw [h]

theorem run_of_side?_eq_some (c : EdgeCache) {side : Side} (h : e.side? = some side) :
    e.run c =
      let (c, result, decision) := visit c side (e.edge side) e.legacySampled e.hop.workflow
        e.settings.maxPaths
      (c, e.found side result decision) := by
  unfold side? at h
  split at h
  · next henabled =>
    have hnot : ¬ e.settings.enabled = false := by simp [henabled]
    rw [run, sample, if_neg hnot, h]
    rfl
  · cases h

variable {e} {side : Side} (c : EdgeCache) (h : e.side? = some side)

include h in
theorem run_of_legacySampled (hlegacy : e.legacySampled = true) :
    e.run c = (c, e.found side .randomLegacy .drop) := by
  rw [e.run_of_side?_eq_some c h, visit, hlegacy]
  rfl

include h in
theorem run_of_secondHalf (hlegacy : e.legacySampled = false) (hsecond : e.secondHalf side = true) :
    e.run c = ((c.insertUnbudgeted side (e.edge side).path e.settings.maxPaths).1,
      e.found side .sample .recordOnly) := by
  have hpair : side = .server ∧ e.hop.workflow.result = .path := by
    simpa [secondHalf] using hsecond
  rw [e.run_of_side?_eq_some c h, visit, if_neg (by simp [hlegacy]), if_pos hpair, hpair.1]

include h in
theorem run_of_firstHalf (hlegacy : e.legacySampled = false) (hfirst : e.secondHalf side = false) :
    e.run c =
      if c.attempt side (e.edge side).path e.settings.maxPaths true = .inserted then
        (c.extend side (e.edge side).path true, e.found side .path .recordOnly)
      else (c, e.found side .drop .drop) := by
  have hpair : ¬ (side = .server ∧ e.hop.workflow.result = .path) := by
    simpa [secondHalf] using hfirst
  rw [e.run_of_side?_eq_some c h, visit, if_neg (by simp [hlegacy]), if_neg hpair,
    EdgeCache.insert, EdgeCache.insertWith_eq]
  cases hattempt : c.attempt side (e.edge side).path e.settings.maxPaths true <;> rfl

variable (e)

/-- What an evaluation asks of the cache. -/
def cacheCall? : Option CacheCall :=
  match e.side? with
  | none => none
  | some side =>
    if e.legacySampled then none
    else some (.insert side (e.edge side).path e.settings.maxPaths (!e.secondHalf side))

theorem cache_run :
    (e.run c).1 = (e.cacheCall?.map fun call => (c.serve call).1).getD c := by
  cases hside : e.side? with
  | none => rw [e.run_of_side?_eq_none c hside, cacheCall?, hside, Option.map_none, Option.getD_none]
  | some side =>
    simp only [cacheCall?, hside]
    cases hlegacy : e.legacySampled with
    | true =>
      rw [run_of_legacySampled c hside hlegacy]
      rfl
    | false =>
      simp only [Bool.false_eq_true, if_false, Option.map_some, Option.getD_some,
        EdgeCache.serve_insert]
      cases hsecond : e.secondHalf side with
      | true =>
        rw [run_of_secondHalf c hside hlegacy hsecond]
        rfl
      | false =>
        rw [run_of_firstHalf c hside hlegacy hsecond, Bool.not_false, EdgeCache.insertWith_eq]
        split <;> rfl

theorem cacheCall?_ne_reset : e.cacheCall? ≠ some .reset := by
  unfold cacheCall?
  split
  · simp
  · split <;> simp

end Evaluation

/-! ## Runs -/

inductive StageCall where
  | evaluate (e : Evaluation)
  | configure (settings : WorkflowSettings)
  | resetCache
  | resetBudget

namespace StageCall

/-- The cache behind a call to the stage. -/
def after (c : EdgeCache) : StageCall → EdgeCache
  | evaluate e => (e.run c).1
  | configure settings => c.setLimit settings.maxInsertionsPerMinute
  | resetCache => c.reset
  | resetBudget => c.resetBudget

def cacheCall? : StageCall → Option CacheCall
  | evaluate e => e.cacheCall?
  | configure settings => some (.setLimit settings.maxInsertionsPerMinute)
  | resetCache => some .reset
  | resetBudget => some .resetBudget

theorem after_eq (c : EdgeCache) (call : StageCall) :
    call.after c = (call.cacheCall?.map fun cacheCall => (c.serve cacheCall).1).getD c := by
  cases call with
  | evaluate e => exact e.cache_run c
  | configure settings => rfl
  | resetCache => rfl
  | resetBudget => rfl

end StageCall

/-- The cache behind a run of the stage. -/
def EdgeCache.afterAll (c : EdgeCache) (calls : List StageCall) : EdgeCache :=
  calls.foldl StageCall.after c

/-- The calls that a run of the stage makes to a fresh cache, with their answers. -/
def StageCall.history (calls : List StageCall) : CacheLog :=
  (EdgeCache.run {} [] (calls.filterMap StageCall.cacheCall?)).2

theorem EdgeCache.afterAll_eq (c : EdgeCache) (log : CacheLog) (calls : List StageCall) :
    c.afterAll calls = (c.run log (calls.filterMap StageCall.cacheCall?)).1 := by
  induction calls generalizing c log with
  | nil => rfl
  | cons call calls ih =>
    rw [afterAll, List.foldl_cons, ← afterAll, call.after_eq]
    cases hcall : call.cacheCall? with
    | none =>
      rw [List.filterMap_cons_none hcall]
      exact ih c log
    | some cacheCall =>
      rw [List.filterMap_cons_some hcall, EdgeCache.run]
      exact ih _ _

theorem EdgeCache.afterAll_mirrors (calls : List StageCall) :
    (EdgeCache.afterAll {} calls).Mirrors (StageCall.history calls) := by
  rw [EdgeCache.afterAll_eq {} [] calls]
  exact Mirrors.empty.run _

/-! ## Discoveries -/

/-- Whether an evaluation discovers a path on a side. -/
def Evaluation.discovers (e : Evaluation) (c : EdgeCache) (side : Side) (path : UInt64) : Bool :=
  e.side? = some side && (e.edge side).path = path && (e.run c).2.1.workflow.result = .path

/-- How often the evaluations of a run discover a path on a side. -/
def EdgeCache.discoveries (side : Side) (path : UInt64) : EdgeCache → List StageCall → Nat
  | _, [] => 0
  | c, .evaluate e :: calls =>
    (if e.discovers c side path then 1 else 0) + discoveries side path (e.run c).1 calls
  | c, call :: calls => discoveries side path (call.after c) calls

namespace EdgeCache

variable {c : EdgeCache} {side : Side} {path : UInt64}

theorem contains_insertWith (h : c.contains side path = true) (s : Side) (p : UInt64)
    (maxPaths : Nat) (budgeted : Bool) :
    (c.insertWith s p maxPaths budgeted).1.contains side path = true := by
  rw [insertWith_eq]
  dsimp only
  split
  · by_cases hs : side = s
    · subst hs
      rw [contains, side_extend, EdgeSet.extend, EdgeSet.contains, List.contains_cons]
      exact Bool.or_eq_true_iff.mpr (.inr h)
    · rw [contains, side_extend_of_ne c hs]
      exact h
  · exact h

theorem contains_serve (h : c.contains side path = true) {call : CacheCall} (hcall : call ≠ .reset) :
    (c.serve call).1.contains side path = true := by
  cases call with
  | insert s p maxPaths budgeted =>
    rw [serve_insert]
    exact contains_insertWith h s p maxPaths budgeted
  | setLimit limit => exact h
  | reset => exact absurd rfl hcall
  | resetBudget => exact h

end EdgeCache

theorem StageCall.cacheCall?_ne_reset {call : StageCall} (h : call ≠ .resetCache) :
    call.cacheCall? ≠ some .reset := by
  cases call with
  | evaluate e => exact e.cacheCall?_ne_reset
  | configure settings => simp [cacheCall?]
  | resetCache => exact absurd rfl h
  | resetBudget => simp [cacheCall?]

section
variable {c : EdgeCache} {side : Side} {path : UInt64}

/-- Only a reset of the cache makes it forget. -/
theorem StageCall.contains_after (h : c.contains side path = true) {call : StageCall}
    (hcall : call ≠ .resetCache) : (call.after c).contains side path = true := by
  have hreset := cacheCall?_ne_reset hcall
  rw [call.after_eq]
  cases hcache : call.cacheCall? with
  | none => exact h
  | some cacheCall =>
    rw [hcache] at hreset
    exact EdgeCache.contains_serve h fun hcacheCall => hreset (congrArg some hcacheCall)

/-- What is discovered was not recorded before, and is from then on. -/
theorem Evaluation.contains_of_discovers {e : Evaluation} (h : e.discovers c side path = true) :
    c.contains side path = false ∧ (e.run c).1.contains side path = true := by
  simp only [discovers, Bool.and_eq_true, decide_eq_true_eq] at h
  obtain ⟨⟨hside, rfl⟩, hresult⟩ := h
  cases hlegacy : e.legacySampled with
  | true =>
    rw [run_of_legacySampled c hside hlegacy] at hresult
    cases hresult
  | false =>
    cases hsecond : e.secondHalf side with
    | true =>
      rw [run_of_secondHalf c hside hlegacy hsecond] at hresult
      cases hresult
    | false =>
      rw [run_of_firstHalf c hside hlegacy hsecond] at hresult ⊢
      split at hresult
      · next hin =>
        rw [if_pos hin]
        refine ⟨?_, ?_⟩
        · rw [EdgeCache.attempt] at hin
          split at hin
          · cases hin
          · next hnew => exact Bool.not_eq_true _ ▸ hnew
        · rw [EdgeCache.contains, EdgeCache.side_extend, EdgeSet.extend, EdgeSet.contains,
            List.contains_cons]
          exact Bool.or_eq_true_iff.mpr (.inl (beq_self_eq_true _))
      · cases hresult

theorem EdgeCache.discoveries_eq_zero {calls : List StageCall} (h : c.contains side path = true)
    (hcalls : .resetCache ∉ calls) : c.discoveries side path calls = 0 := by
  induction calls generalizing c with
  | nil => rfl
  | cons call calls ih =>
    obtain ⟨hcall, hrest⟩ := not_or.mp (mt List.mem_cons.mpr hcalls)
    have hlater := ih (StageCall.contains_after h (Ne.symm hcall)) hrest
    cases call with
    | evaluate e =>
      have hknown : ¬ e.discovers c side path = true := by
        intro hnew
        rw [(Evaluation.contains_of_discovers hnew).1] at h
        cases h
      rw [discoveries, if_neg hknown, Nat.zero_add]
      exact hlater
    | configure settings => exact hlater
    | resetCache => exact absurd rfl hcall
    | resetBudget => exact hlater

theorem EdgeCache.discoveries_le_one {calls : List StageCall} (hcalls : .resetCache ∉ calls) :
    c.discoveries side path calls ≤ 1 := by
  induction calls generalizing c with
  | nil => exact Nat.zero_le 1
  | cons call calls ih =>
    obtain ⟨hcall, hrest⟩ := not_or.mp (mt List.mem_cons.mpr hcalls)
    cases call with
    | evaluate e =>
      rw [discoveries]
      by_cases hnew : e.discovers c side path = true
      · have hlater := discoveries_eq_zero (Evaluation.contains_of_discovers hnew).2 hrest
        rw [if_pos hnew, hlater]
      · rw [if_neg hnew, Nat.zero_add]
        exact ih hrest
    | configure settings => exact ih hrest
    | resetCache => exact absurd rfl hcall
    | resetBudget => exact ih hrest

end

/-! ## Coverage -/

theorem EdgeCache.used_insertUnbudgeted (c : EdgeCache) (side : Side) (path : UInt64)
    (maxPaths : Nat) : (c.insertUnbudgeted side path maxPaths).1.used = c.used := by
  rw [insertUnbudgeted, insertWith_eq]
  dsimp only
  split <;> rfl

theorem CacheLog.verdict_eq_inserted_iff (log : CacheLog) (side : Side) (path : UInt64)
    (maxPaths : Nat) :
    log.verdict side path maxPaths true = .inserted ↔
      path ∉ log.recorded side ∧ (log.recorded side).card < maxPaths ∧ log.charged < log.limit := by
  unfold verdict
  split
  · next h => exact iff_of_false nofun fun hnew => hnew.1 h
  · next hnew =>
    split
    · next hfull => exact iff_of_false nofun fun hroom => by omega
    · next hroom =>
      split
      · next hspent => exact iff_of_false nofun fun hleft => by omega
      · next hleft =>
        have hbudget : log.charged < log.limit := by simpa using hleft
        exact iff_of_true rfl ⟨hnew, Nat.lt_of_not_le hroom, hbudget⟩

/-- Behind any run of the stage the cache holds what the history of its calls says, and the history
tells what the stage answers next: the first half of an edge is discovered if it is new, has room
and is within the budget, and else leaves no trace; the second half is always kept, free of charge;
anything else leaves the cache as it is. Without a reset an edge is discovered once at most. -/
theorem stage_covers_edges (calls : List StageCall) :
    let c := EdgeCache.afterAll {} calls
    let history := StageCall.history calls
    ((∀ side, c.size side = (history.recorded side).card ∧
        ∀ path, c.contains side path = true ↔ path ∈ history.recorded side) ∧
      c.used = history.charged ∧ c.limit = history.limit) ∧
    (∀ e : Evaluation,
      (e.side? = none → e.run c = (c, e.hop, .dropped)) ∧
      ∀ side, e.side? = some side →
        let path := (e.edge side).path
        (e.legacySampled = true → e.run c = (c, e.found side .randomLegacy .drop)) ∧
        (e.legacySampled = false → e.secondHalf side = true →
          (e.run c).2 = e.found side .sample .recordOnly ∧ (e.run c).1.used = c.used) ∧
        (e.legacySampled = false → e.secondHalf side = false →
          if path ∉ history.recorded side ∧ (history.recorded side).card < e.settings.maxPaths ∧
              history.charged < history.limit then
            (e.run c).2 = e.found side .path .recordOnly
          else e.run c = (c, e.found side .drop .drop))) ∧
    ∀ side path stretch, .resetCache ∉ stretch → c.discoveries side path stretch ≤ 1 := by
  intro c history
  have h : c.Mirrors history := EdgeCache.afterAll_mirrors calls
  refine ⟨⟨fun side => ⟨h.size_eq side, h.contains_iff side⟩, h.used_eq, h.limit_eq⟩, ?_,
    fun side path stretch => EdgeCache.discoveries_le_one⟩
  intro e
  refine ⟨e.run_of_side?_eq_none c, ?_⟩
  intro side hside path
  refine ⟨Evaluation.run_of_legacySampled c hside, ?_, ?_⟩
  · intro hlegacy hsecond
    rw [Evaluation.run_of_secondHalf c hside hlegacy hsecond]
    exact ⟨rfl, c.used_insertUnbudgeted ..⟩
  · intro hlegacy hfirst
    have hverdict := history.verdict_eq_inserted_iff side path e.settings.maxPaths
    rw [Evaluation.run_of_firstHalf c hside hlegacy hfirst, h.attempt_eq]
    split
    · next hnew => rw [if_pos (hverdict.mpr hnew)]
    · next hknown => rw [if_neg (mt hverdict.mp hknown)]

/-- A span whose kept caller has discovered an edge, and says that it carries no strategy. -/
def keptByLegacyCaller : Evaluation where
  settings := {}
  request :=
    { traceId := 1, name := "x", kind := .server,
      parent := some { sampled := true, carried := "w:4:abc:12;s:-1" } }
  interface := ⟨"", "", "checkout", "x"⟩
  hop := HopState.decode "w:4:abc:12;s:-1"

/-- The second half of an edge is not kept if the parent was already. -/
theorem second_half_of_kept_caller :
    keptByLegacyCaller.side? = some .server ∧
      keptByLegacyCaller.hop.workflow.result = .path ∧
      (keptByLegacyCaller.run {}).2.1.workflow.result = .randomLegacy ∧
      (keptByLegacyCaller.run {}).2.2.decision = .drop := by
  decide +kernel

end TraceSampling.Workflow
