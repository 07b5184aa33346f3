import TraceSampling.Proofs.HopState.Header
import TraceSampling.Proofs.Sampler.Chain
import TraceSampling.Proofs.Workflow.Coverage

/-!
# The trail of a chain through the call graph

Where a hop stands in the call graph is a function of where the hop before it stood and of the call
between them. Caches, budgets and decisions only change what is said about an edge, and never which
edge it is.
-/

namespace TraceSampling

namespace Workflow

/-! ## One step in the call graph -/

/-- A span as the call graph sees it. -/
structure GraphCall where
  kind : SpanKind
  interface : Interface
  deriving DecidableEq

/-- The edge behind a call, from the one before it: spans inside a service stay on their edge, a
caller goes one edge on, and whoever is called is on the edge of its caller. Without an edge before
it a call starts at the root of the caller. -/
def Edge.next (before : Option Edge) (call : GraphCall) : Option Edge :=
  let i := call.interface
  let parentPath := (before.map (·.path)).getD (rootPath i.callerService i.callerMethod)
  let below : Edge := ⟨childPath parentPath i.calleeService i.calleeMethod, parentPath⟩
  match call.kind with
  | .internal => before
  | .client | .producer => some below
  | .server | .consumer => some (before.getD below)

/-- The edges behind the calls one after the other. -/
def trail : Option Edge → List GraphCall → List (Option Edge)
  | _, [] => []
  | before, call :: calls => Edge.next before call :: trail (Edge.next before call) calls

end Workflow

open Workflow

/-- The edge of which a mark tells, if any. -/
def WorkflowMark.edge? (m : WorkflowMark) : Option Edge :=
  if m.path = 0 then none else some ⟨m.path, m.parentPath⟩

theorem WorkflowMark.edge?_eq_none {m : WorkflowMark} (h : m.path = 0) : m.edge? = none := if_pos h

theorem WorkflowMark.edge?_eq_some {m : WorkflowMark} (h : m.path ≠ 0) :
    m.edge? = some ⟨m.path, m.parentPath⟩ := if_neg h

namespace Workflow

theorem Edge.of_path_ne_zero (side : Side) (m : WorkflowMark) (i : Interface) :
    (Edge.of side m i).path ≠ 0 := by
  unfold Edge.of
  split
  · exact childPath_ne_zero _ _ _
  · next hpath =>
    cases side with
    | client => exact childPath_ne_zero _ _ _
    | server => exact hpath

/-- The edge that the stage computes is the next one. -/
theorem Edge.next_eq_of {side : Side} {call : GraphCall} (h : Side.of? call.kind = some side)
    (m : WorkflowMark) : Edge.next m.edge? call = some (Edge.of side m call.interface) := by
  obtain ⟨kind, i⟩ := call
  unfold Edge.of
  split
  · next hpath =>
    rw [WorkflowMark.edge?_eq_none hpath]
    cases kind <;> first | rfl | cases h
  · next hpath =>
    rw [WorkflowMark.edge?_eq_some hpath]
    cases kind <;> cases h <;> rfl

theorem Side.of?_eq_none_iff (kind : SpanKind) : Side.of? kind = none ↔ kind = .internal := by
  cases kind <;> simp [Side.of?]

namespace Evaluation

variable {e : Evaluation} (c : EdgeCache)

def call (e : Evaluation) : GraphCall := ⟨e.request.kind, e.interface⟩

theorem side?_of_enabled (h : e.settings.enabled = true) : e.side? = Side.of? e.request.kind :=
  if_pos h

theorem edge?_found (side : Side) (result : EdgeResult) (decision : Decision) :
    (e.found side result decision).1.workflow.edge? = some (e.edge side) :=
  WorkflowMark.edge?_eq_some (Edge.of_path_ne_zero _ _ _)

theorem edge?_run (h : e.settings.enabled = true) :
    (e.run c).2.1.workflow.edge? = Edge.next e.hop.workflow.edge? e.call := by
  cases hside : Side.of? e.request.kind with
  | none =>
    have hkind : e.call.kind = .internal := (Side.of?_eq_none_iff _).mp hside
    rw [e.run_of_side?_eq_none c ((side?_of_enabled h).trans hside), Edge.next, hkind]
  | some side =>
    have hnext : Edge.next e.hop.workflow.edge? e.call = some (e.edge side) :=
      Edge.next_eq_of hside _
    rw [e.run_of_side?_eq_some c ((side?_of_enabled h).trans hside), hnext]
    exact edge?_found side _ _

/-- The attributes at an end of an edge are those of the mark. -/
theorem attributes_run {side : Side} (h : e.side? = some side) :
    (e.run c).2.2.attributes = attributes (e.run c).2.1.workflow := by
  rw [e.run_of_side?_eq_some c h]
  rfl

end Evaluation

end Workflow

/-! ## One hop -/

namespace Sampler

variable (s : Sampler) (r : Request)

/-- What the workflow stage of a sampler is asked about a request. -/
def evaluation : Evaluation where
  settings := s.snapshot.settings.workflow
  request := r
  interface := r.interface s.service
  hop := incoming r

theorem mark_eq : s.mark r = ((s.evaluation r).run s.edges).2.1.workflow := rfl

/-- Of the attributes of a span, the ones that the workflow stage adds stand in front. -/
theorem sample_attributes {s : Sampler} (hstage : s.stage = defaultStage) (r : Request)
    (now : Nat) :
    ∃ rest : List Attribute, (∀ a ∈ rest, a.key = Key.strategy) ∧
      (s.sample r now).2.attributes = ((s.evaluation r).run s.edges).2.2.attributes ++ rest := by
  refine ⟨(defaultStage (s.occasion r now) (s.entering r)).2.attributes, ?_, ?_⟩
  · rw [Occasion.defaultStage_eq]
    dsimp only
    split
    · split <;> simp [strategyAttribute, StageResult.dropped]
    · simp
  · have hhop := Workflow.sample_hop s.snapshot.settings.workflow r (r.interface s.service) s.edges
      (incoming r)
    unfold entering mark
    rw [← hhop, ← hstage]
    rfl

end Sampler

/-- The call that a hop serves. -/
def Hop.call (h : Hop) : GraphCall := ⟨h.request.kind, h.request.interface h.sampler.service⟩

namespace Attribute

/-- All the values under a key. -/
def values (attributes : List Attribute) (key : String) : List Value :=
  (attributes.filter (·.key = key)).map (·.value)

theorem values_append (as bs : List Attribute) (key : String) :
    values (as ++ bs) key = values as key ++ values bs key := by
  simp [values]

theorem values_eq_nil {attributes : List Attribute} {key : String}
    (h : ∀ a ∈ attributes, a.key ≠ key) : values attributes key = [] := by
  simpa [values, List.filter_eq_nil_iff] using h

end Attribute

namespace Link

variable (l : Link)

/-- The span of a hop has the bits of its path ids, and each of them once. -/
structure ShowsIds : Prop where
  path : ∃ i : Int64, i.toBitVec = l.result.state.workflow.path.toBitVec ∧
    Attribute.values l.result.attributes Key.workflowPath = [.int i]
  parentPath : ∃ i : Int64, i.toBitVec = l.result.state.workflow.parentPath.toBitVec ∧
    Attribute.values l.result.attributes Key.workflowParentPath = [.int i]

theorem arriving_eq : l.arriving = (l.carried.map HopState.decode).getD {} := by
  rw [arriving, Sampler.incoming, request, Option.map_map]
  rfl

theorem state_workflow : l.result.state.workflow = l.hop.sampler.mark l.request := by
  rw [result, Sampler.sample_state l.hop.default_stage]

variable {l}

theorem edge?_next (h : l.hop.sampler.snapshot.settings.workflow.enabled = true) :
    l.result.state.workflow.edge? = Edge.next l.arriving.workflow.edge? l.hop.call := by
  have henabled : (l.hop.sampler.evaluation l.request).settings.enabled = true := h
  rw [state_workflow, Sampler.mark_eq, Evaluation.edge?_run _ henabled]
  -- The parent of a request has no part in its interface.
  rfl

theorem workflow_of_internal (h : Side.of? l.hop.request.kind = none) :
    l.result.state.workflow = l.arriving.workflow := by
  have hside : (l.hop.sampler.evaluation l.request).side? = none := by
    unfold Evaluation.side?
    split
    · exact h
    · rfl
  rw [state_workflow, Sampler.mark_eq, Evaluation.run_of_side?_eq_none _ _ hside]
  rfl

theorem showsIds {side : Side} (h : l.hop.sampler.snapshot.settings.workflow.enabled = true)
    (hside : Side.of? l.hop.request.kind = some side) : l.ShowsIds := by
  have hat : (l.hop.sampler.evaluation l.request).side? = some side :=
    (Evaluation.side?_of_enabled h).trans hside
  obtain ⟨rest, hrest, hattributes⟩ :=
    Sampler.sample_attributes l.hop.default_stage l.request l.hop.now
  rw [Evaluation.attributes_run _ hat, ← Sampler.mark_eq, ← state_workflow] at hattributes
  have hvalues (key : String) (hkey : Key.strategy ≠ key) :
      Attribute.values l.result.attributes key =
        Attribute.values (attributes l.result.state.workflow) key := by
    have hnone : Attribute.values rest key = [] :=
      Attribute.values_eq_nil fun a ha => hrest a ha ▸ hkey
    rw [result, hattributes, Attribute.values_append, hnone, List.append_nil]
    rfl
  exact ⟨⟨_, UInt64.toBitVec_toInt64 _, hvalues _ (by decide)⟩,
    ⟨_, UInt64.toBitVec_toInt64 _, hvalues _ (by decide)⟩⟩

end Link

/-! ## Hops one after the other -/

namespace Link.Calls

variable {a b : Link}

theorem arriving_workflow (h : a.Calls b) : b.arriving.workflow = a.result.state.workflow := by
  rw [h.arriving_eq, HopState.egress_workflow]

/-- The two ends of an edge agree on it. -/
theorem edge?_eq (h : a.Calls b)
    (ha : a.hop.sampler.snapshot.settings.workflow.enabled = true)
    (hb : b.hop.sampler.snapshot.settings.workflow.enabled = true)
    (hclient : Side.of? a.hop.request.kind = some .client)
    (hserver : Side.of? b.hop.request.kind = some .server) :
    b.result.state.workflow.edge? = a.result.state.workflow.edge? := by
  obtain ⟨e, he⟩ : ∃ e, a.result.state.workflow.edge? = some e :=
    ⟨_, (Link.edge?_next ha).trans (Edge.next_eq_of hclient _)⟩
  rw [Link.edge?_next hb, h.arriving_workflow, he]
  unfold Edge.next Hop.call
  cases hkind : b.hop.request.kind <;> rw [hkind] at hserver <;> first | rfl | cases hserver

end Link.Calls

section Chain

variable {carried : Option String} {hops : List Hop}

theorem hop_mem_of_mem_chain {l : Link} (h : l ∈ chain carried hops) : l.hop ∈ hops := by
  induction hops generalizing carried with
  | nil => cases h
  | cons hop hops ih =>
    obtain rfl | h := List.mem_cons.mp h
    · exact List.mem_cons_self
    · exact List.mem_cons_of_mem _ (ih h)

/-- From whatever the first hop has read, the edges are the trail of the calls. -/
theorem edges_chain (carried : Option String)
    (h : ∀ hop ∈ hops, hop.sampler.snapshot.settings.workflow.enabled = true) :
    (chain carried hops).map (·.result.state.workflow.edge?) =
      trail ((carried.map HopState.decode).getD {}).workflow.edge? (hops.map Hop.call) := by
  induction hops generalizing carried with
  | nil => rfl
  | cons hop hops ih =>
    have hfirst := Link.edge?_next (l := ⟨hop, carried⟩) (h hop List.mem_cons_self)
    rw [Link.arriving_eq] at hfirst
    have hread : ((some (Link.leaving ⟨hop, carried⟩)).map HopState.decode).getD {} =
        (Link.result ⟨hop, carried⟩).state.egress := HopState.decode_encode _
    rw [chain, List.map_cons, ih _ fun next hnext => h next (List.mem_cons_of_mem _ hnext), hread,
      HopState.egress_workflow, hfirst]
    rfl

/-- Chains of the same calls go along the same edges, whatever their samplers have seen. -/
theorem edges_chain_congr {hops' : List Hop} (hcalls : hops.map Hop.call = hops'.map Hop.call)
    (h : ∀ hop ∈ hops, hop.sampler.snapshot.settings.workflow.enabled = true)
    (h' : ∀ hop ∈ hops', hop.sampler.snapshot.settings.workflow.enabled = true) :
    (chain carried hops).map (·.result.state.workflow.edge?) =
      (chain carried hops').map (·.result.state.workflow.edge?) := by
  rw [edges_chain carried h, edges_chain carried h', hcalls]

/-- What a chain of calls says of its edges. -/
theorem chain_trail (hempty : carried.getD "" = "")
    (henabled : ∀ hop ∈ hops, hop.sampler.snapshot.settings.workflow.enabled = true) :
    (∀ l ∈ (chain carried hops).head?, l.arriving.workflow.edge? = none) ∧
      (chain carried hops).map (·.result.state.workflow.edge?) = trail none (hops.map Hop.call) ∧
      (chain carried hops).IsChain (fun a b =>
        b.arriving.workflow = a.result.state.workflow ∧
        (Side.of? a.hop.request.kind = some .client → Side.of? b.hop.request.kind = some .server →
          b.result.state.workflow.edge? = a.result.state.workflow.edge?)) ∧
      ∀ l ∈ chain carried hops,
        if l.hop.request.kind = .internal then l.result.state.workflow = l.arriving.workflow
        else l.ShowsIds := by
  have hread : ((carried.map HopState.decode).getD {}).workflow.edge? = none := by
    cases carried with
    | none => rfl
    | some text =>
      obtain rfl : text = "" := hempty
      rfl
  have hmem {l : Link} (hl : l ∈ chain carried hops) := henabled l.hop (hop_mem_of_mem_chain hl)
  refine ⟨fun l hl => ?_, ?_, ?_, fun l hl => ?_⟩
  · cases hops with
    | nil => cases hl
    | cons hop hops =>
      obtain rfl : Link.mk hop carried = l := Option.some_inj.mp hl
      rw [Link.arriving_eq, hread]
  · rw [edges_chain carried henabled, hread]
  · refine (chain_calls carried hops).imp_of_mem_imp fun a b ha hb h => ?_
    exact ⟨h.arriving_workflow, h.edge?_eq (hmem ha) (hmem hb)⟩
  · cases hside : Side.of? l.hop.request.kind with
    | none =>
      rw [if_pos ((Side.of?_eq_none_iff _).mp hside)]
      exact Link.workflow_of_internal hside
    | some side =>
      have hkind : l.hop.request.kind ≠ .internal := fun h => by
        rw [(Side.of?_eq_none_iff _).mpr h] at hside
        cases hside
      rw [if_neg hkind]
      exact Link.showsIds (hmem hl) hside

end Chain

/-- A hop of a fresh sampler. -/
def Hop.fresh (service : String) (request : Request) : Hop where
  sampler := .make { service, background := false } 0
  request := request
  now := 0
  default_stage := rfl

/-- A checkout that charges through the billing of a shop, which tells the ledger. -/
def checkout : List Hop :=
  let billing : List Attribute :=
    [⟨Key.callerMethod, .text "checkout"⟩, ⟨Key.peerService, .text "billing"⟩]
  let ledger : List Attribute := [⟨Key.peerService, .text "ledger"⟩]
  [.fresh "shop" { traceId := 1, name := "checkout", kind := .internal },
    .fresh "shop" { traceId := 1, name := "charge", kind := .client, attributes := billing },
    .fresh "billing" { traceId := 1, name := "charge", kind := .server },
    .fresh "billing" { traceId := 1, name := "record", kind := .producer, attributes := ledger }]

theorem call_checkout :
    checkout.map Hop.call =
      [⟨.internal, ⟨"shop", "checkout", "shop", "checkout"⟩⟩,
        ⟨.client, ⟨"shop", "checkout", "billing", "charge"⟩⟩,
        ⟨.server, ⟨"", "", "billing", "charge"⟩⟩,
        ⟨.producer, ⟨"billing", "record", "ledger", "record"⟩⟩] := by
  decide +kernel

/-- The billing cannot tell who calls, but it is on the edge of its caller and goes on from there. -/
theorem chain_checkout :
    let root := rootPath "shop" "checkout"
    let charge := childPath root "billing" "charge"
    let record := childPath charge "ledger" "record"
    (chain none checkout).map (·.result.state.workflow.edge?) =
      [none, some ⟨charge, root⟩, some ⟨charge, root⟩, some ⟨record, charge⟩] := by
  intro root charge record
  have hedges := (@chain_trail none checkout rfl (by decide +kernel)).2.1
  rw [hedges, call_checkout]
  simp [trail, Edge.next, root, charge, record]

end TraceSampling
