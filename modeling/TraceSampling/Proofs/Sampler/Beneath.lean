import TraceSampling.Proofs.Sampler.Trail

/-!
# The search for edges beneath a decision stage

The workflow stage runs before the decision stage, on a cache that no decision stage gets hold of.
So two samplers that search alike go on doing so whatever their decision stages are, and write and
answer. What the search has found on a span can be added to, but not taken back.
-/

namespace TraceSampling

/-- A result holds what was found and what was answered, and keeps a span as far as either wants. -/
structure SamplingResult.Joins (result : SamplingResult) (found answer : StageResult) : Prop where
  attributes_eq : result.attributes = found.attributes ++ answer.attributes
  rank_decision : result.decision.rank = max found.decision.rank answer.decision.rank

/-- What comes to a sampler. -/
inductive SamplerCall where
  | request (r : Request) (now : Nat)
  | update (settings : Settings) (now : Nat)
  /-- The owner renews something. -/
  | renew (item : Item) (now : Nat)
  /-- The rotation does. -/
  | wake (w : WakeUp) (now : Nat)

namespace Sampler

def withStage (s : Sampler) (d : DecisionStage) : Sampler := { s with stage := d }

def serve (s : Sampler) : SamplerCall → Sampler
  | .request r now => (s.sample r now).1
  | .update settings now => s.update settings now
  | .renew item now => s.renew now item
  | .wake w now => s.wake w now

/-- Serves calls, each under a decision stage of its own. -/
def serveAll (s : Sampler) (calls : List (SamplerCall × DecisionStage)) : Sampler :=
  calls.foldl (fun s call => (s.withStage call.2).serve call.1) s

/-- Samplers in which the search for edges stands at the same point. -/
structure Alongside (s t : Sampler) : Prop where
  service_eq : s.service = t.service
  snapshot_eq : s.snapshot = t.snapshot
  edges_eq : s.edges = t.edges
  rotation_eq : s.rotation = t.rotation

/-! ## One decision -/

variable (s : Sampler) (r : Request) (now : Nat)

/-- The cache, the state and the answer of the workflow stage on a request. -/
def search : Workflow.EdgeCache × HopState × StageResult := (s.evaluation r).run s.edges

theorem sample_edges : (s.sample r now).1.edges = (s.search r).1 := rfl

theorem search_hop : (s.search r).2.1 = (s.entering r).hop :=
  Workflow.sample_hop s.snapshot.settings.workflow r (r.interface s.service) s.edges (incoming r)

theorem sample_joins :
    (s.sample r now).2.Joins (s.search r).2.2 (s.stage (s.occasion r now) (s.entering r)).2 := by
  have hanswer : (s.stage (s.occasion r now) (s.entering r)).2 =
      (s.stage (s.occasion r now) ⟨s.resources, (s.search r).2.1⟩).2 := by
    rw [search_hop]
    rfl
  rw [hanswer]
  exact ⟨rfl, Decision.rank_merge _ _⟩

/-! ## Two runs -/

namespace Alongside

variable {s t : Sampler}

theorem refl (s : Sampler) : s.Alongside s := ⟨rfl, rfl, rfl, rfl⟩

theorem withStage (h : s.Alongside t) (d d' : DecisionStage) :
    (s.withStage d).Alongside (t.withStage d') :=
  ⟨h.service_eq, h.snapshot_eq, h.edges_eq, h.rotation_eq⟩

theorem search_eq (h : s.Alongside t) (r : Request) : s.search r = t.search r := by
  rw [search, search, evaluation, evaluation, h.service_eq, h.snapshot_eq, h.edges_eq]

theorem sample (h : s.Alongside t) (r : Request) (now : Nat) :
    (s.sample r now).1.Alongside (t.sample r now).1 where
  service_eq := h.service_eq
  snapshot_eq := h.snapshot_eq
  edges_eq := by rw [sample_edges, sample_edges, h.search_eq]
  rotation_eq := h.rotation_eq

theorem renew (h : s.Alongside t) (now : Nat) (i : Item) :
    (s.renew now i).Alongside (t.renew now i) := by
  cases i with
  | window => exact ⟨h.service_eq, h.snapshot_eq, h.edges_eq, h.rotation_eq⟩
  | cache =>
    exact ⟨h.service_eq, h.snapshot_eq, congrArg Workflow.EdgeCache.reset h.edges_eq, h.rotation_eq⟩
  | budget =>
    exact ⟨h.service_eq, h.snapshot_eq, congrArg Workflow.EdgeCache.resetBudget h.edges_eq,
      h.rotation_eq⟩

theorem renewAll (h : s.Alongside t) (now : Nat) (items : List Item) :
    (items.foldl (·.renew now) s).Alongside (items.foldl (·.renew now) t) := by
  induction items generalizing s t with
  | nil => exact h
  | cons i items ih => exact ih (h.renew now i)

theorem wake (h : s.Alongside t) (w : WakeUp) (now : Nat) :
    (s.wake w now).Alongside (t.wake w now) := by
  unfold Sampler.wake
  rw [h.rotation_eq, h.snapshot_eq]
  cases t.rotation with
  | none => exact h
  | some r =>
    apply renewAll
    exact ⟨h.service_eq, rfl, h.edges_eq, rfl⟩

theorem publish (h : s.Alongside t) (settings : Settings) (now : Nat) :
    (s.publish settings now).Alongside (t.publish settings now) where
  service_eq := h.service_eq
  snapshot_eq := rfl
  edges_eq := congrArg (Workflow.EdgeCache.setLimit · _) h.edges_eq
  rotation_eq := h.rotation_eq

theorem catchUp (h : s.Alongside t) (now : Nat) : (s.catchUp now).Alongside (t.catchUp now) := by
  unfold Sampler.catchUp
  rw [h.rotation_eq]
  split
  · exact h.wake _ _
  · exact h

theorem serve (h : s.Alongside t) (call : SamplerCall) :
    (s.serve call).Alongside (t.serve call) := by
  cases call with
  | request r now => exact h.sample r now
  | update settings now => exact ((h.publish settings now).wake _ _).catchUp now
  | renew item now => exact h.renew now item
  | wake w now => exact h.wake w now

/-- The same calls under any stages keep samplers alongside each other. -/
theorem serveAll (h : s.Alongside t) (turns : List (SamplerCall × DecisionStage × DecisionStage)) :
    (s.serveAll (turns.map fun turn => (turn.1, turn.2.1))).Alongside
      (t.serveAll (turns.map fun turn => (turn.1, turn.2.2))) := by
  induction turns generalizing s t with
  | nil => exact h
  | cons turn turns ih => exact ih ((h.withStage turn.2.1 turn.2.2).serve turn.1)

end Alongside

/-- However a sampler has been called, and under whatever two stages each time, one more decision
leaves the same cache and budget behind under any two stages. Both results begin with what the search
has found, and both decisions are the higher one of what was found and what the stage answers. -/
theorem search_beneath_stages (turns : List (SamplerCall × DecisionStage × DecisionStage))
    (d d' : DecisionStage) :
    let a := (s.serveAll (turns.map fun turn => (turn.1, turn.2.1))).withStage d
    let b := (s.serveAll (turns.map fun turn => (turn.1, turn.2.2))).withStage d'
    let found := (a.search r).2.2
    (a.sample r now).1.edges = (b.sample r now).1.edges ∧
      (a.sample r now).2.Joins found (d (a.occasion r now) (a.entering r)).2 ∧
      (b.sample r now).2.Joins found (d' (b.occasion r now) (b.entering r)).2 ∧
      found.decision.rank ≤ (a.sample r now).2.decision.rank ∧
      found.decision.rank ≤ (b.sample r now).2.decision.rank := by
  intro a b found
  have h : a.Alongside b := ((Alongside.refl s).serveAll turns).withStage d d'
  have hfound : found = (b.search r).2.2 := by rw [← h.search_eq r]
  have ha : (a.sample r now).2.Joins found (d (a.occasion r now) (a.entering r)).2 :=
    a.sample_joins r now
  have hb : (b.sample r now).2.Joins found (d' (b.occasion r now) (b.entering r)).2 := by
    rw [hfound]
    exact b.sample_joins r now
  refine ⟨(h.sample r now).edges_eq, ha, hb, ?_, ?_⟩
  · rw [ha.rank_decision]
    exact Nat.le_max_left _ _
  · rw [hb.rank_decision]
    exact Nat.le_max_left _ _

end Sampler

end TraceSampling
