import TraceSampling.Proofs.HopState.Header
import TraceSampling.Proofs.Sampler.DefaultStage

/-!
# The decision and the header handed on

A header can only tell of a decision if it takes the state that leaves with it. If that is too long,
what the parent has written stays in force, and the next hop may read of a span that was refused
that it was kept.
-/

namespace TraceSampling

/-- The next hop reads from the header what was decided and which edge was found. -/
structure VendorList.Tells (l : VendorList) (result : SamplingResult) : Prop where
  not_legacy : (HopState.ofVendorList l).isLegacy = false
  sampled_iff : (HopState.ofVendorList l).lineage.sampled.isSampled = true ↔
    result.decision = .recordAndSample
  workflow_eq : (HopState.ofVendorList l).workflow = result.state.workflow

theorem VendorList.tells_congr {l m : VendorList} {result : SamplingResult}
    (h : HopState.ofVendorList l = HopState.ofVendorList m) : l.Tells result ↔ m.Tells result := by
  constructor
  · rintro ⟨hlegacy, hsampled, hworkflow⟩
    rw [h] at hlegacy hsampled hworkflow
    exact ⟨hlegacy, hsampled, hworkflow⟩
  · rintro ⟨hlegacy, hsampled, hworkflow⟩
    rw [← h] at hlegacy hsampled hworkflow
    exact ⟨hlegacy, hsampled, hworkflow⟩

namespace Sampler

variable (s : Sampler) (r : Request) (now : Nat)

theorem egress_ne_initial : (s.sample r now).2.state.egress ≠ HopState.initial := by
  intro hinitial
  have hsampled : (s.sample r now).2.state.lineage.sampled = .notExist := by
    rw [← HopState.egress_sampled, hinitial]
    rfl
  exact (s.sample_lineage_agrees r now).sampled_ne hsampled

/-- A header that has taken the state tells of the decision. -/
theorem tells_of_egress {l : VendorList}
    (h : HopState.ofVendorList l = (s.sample r now).2.state.egress) :
    l.Tells (s.sample r now).2 := by
  have hagrees := s.sample_lineage_agrees r now
  refine ⟨?_, ?_, ?_⟩
  · rw [h]
    exact HopState.isLegacy_eq_false (by rw [HopState.egress_sampled]; exact hagrees.sampled_ne)
  · rw [h, HopState.egress_sampled]
    exact hagrees.sampled_iff.symm
  · rw [h, HopState.egress_workflow]

/-- Extensions pass through a sampler with the default stage. -/
theorem sample_extensions {s : Sampler} (hstage : s.stage = defaultStage) :
    (s.sample r now).2.state.extensions = (incoming r).extensions := by
  rw [sample_state hstage r now]

theorem incoming_parentOf (c : SpanContext) :
    incoming { r with parent := some (parentOf c) } = HopState.ofVendorList c.vendors := rfl

theorem shouldSample_result (parent : Option SpanContext) :
    (s.shouldSample r parent now).2.1 = (s.sample { r with parent := parent.map parentOf } now).2 :=
  rfl

theorem ofVendorList_shouldSample (parent : Option SpanContext) :
    HopState.ofVendorList (s.shouldSample r parent now).2.2 =
      if VendorList.isValidValue (s.shouldSample r parent now).2.1.state.egress.encode then
        (s.shouldSample r parent now).2.1.state.egress
      else HopState.ofVendorList ((parent.map (·.vendors)).getD {}) :=
  HopState.ofVendorList_applyTo _ (s.egress_ne_initial { r with parent := parent.map parentOf } now)

/-- The header tells of the decision if it takes the state, or else if the parent happens to have
written the same. A state takes no harm from a valid header except by its length. -/
theorem shouldSample_tells_iff (parent : Option SpanContext) :
    let received := (parent.map (·.vendors)).getD {}
    let answer := s.shouldSample r parent now
    let value := answer.2.1.state.egress.encode
    (answer.2.2.Tells answer.2.1 ↔
        VendorList.isValidValue value = true ∨ received.Tells answer.2.1) ∧
      (s.stage = defaultStage → (∀ m ∈ received.members, VendorList.isValidValue m.value = true) →
        (VendorList.isValidValue value = true ↔ value.utf8ByteSize ≤ 256)) := by
  intro received answer value
  let request := { r with parent := parent.map parentOf }
  have hread : HopState.ofVendorList answer.2.2 =
      if VendorList.isValidValue value then answer.2.1.state.egress
      else HopState.ofVendorList received := s.ofVendorList_shouldSample r now parent
  constructor
  · by_cases hvalue : VendorList.isValidValue value = true
    · rw [if_pos hvalue] at hread
      exact iff_of_true (s.tells_of_egress request now hread) (.inl hvalue)
    · rw [if_neg hvalue] at hread
      rw [or_iff_right hvalue]
      exact VendorList.tells_congr hread
  · intro hstage hvalid
    have hcarried := VendorList.isValidValue_getD hvalid HopState.vendorKey
    have hextensions : answer.2.1.state.extensions = (incoming request).extensions :=
      sample_extensions request now hstage
    refine HopState.isValidValue_encode_iff hcarried ?_
    rw [HopState.egress_extensions, hextensions]
    cases parent with
    | none => rfl
    | some c => rfl

/-! ## A parent that stays in force -/

/-- No bucket has a token. -/
def refusing : Sampler :=
  make { settings.rateLimit.buckets := [(Default.bucketName, {})] } 0

def filling : Extension where
  text := String.ofList (List.replicate 248 'x')
  fits_text := by
    rw [String.toList_ofList]
    decide +kernel

theorem toList_filling : filling.text.toList = List.replicate 248 'x' := String.toList_ofList

/-- A state whose wire form has 256 bytes. -/
def fullState : HopState where
  lineage := { sampled := .random, root := .random }
  extensions := [filling]

def fullParent : SpanContext where
  flags := 1
  vendors := ⟨[⟨HopState.vendorKey, String.ofList ("s:4;r:4;".toList ++ List.replicate 248 'x')⟩]⟩

def serverSpan : Request where
  traceId := 1
  name := "x"
  kind := .server

theorem encode_fullState :
    fullState.encode = String.ofList ("s:4;r:4;".toList ++ List.replicate 248 'x') := by
  have hinitial : fullState ≠ HopState.initial := by decide
  have hentries : fullState.entries = ["s:4".toList, "r:4".toList, filling.text.toList] := rfl
  rw [HopState.encode, if_neg hinitial, hentries, toList_filling]
  rfl

theorem ofVendorList_fullParent : HopState.ofVendorList fullParent.vendors = fullState := by
  rw [HopState.ofVendorList, fullParent, VendorList.get?_cons_self, Option.getD_some,
    ← encode_fullState, HopState.decode_encode]

/-- What the hop below hands on once it is refused. -/
def refusedState : HopState where
  workflow := ⟨.path, 0x20a07cec4f5f12a5, 0x20a0d24c8601db8e⟩
  lineage := { sampled := .notMatch, root := .notMatch }
  extensions := [filling]

theorem encode_refusedState :
    refusedState.encode = String.ofList
      ("w:4:20a07cec4f5f12a5:20a0d24c8601db8e".toList ++ ';' :: List.replicate 248 'x') := by
  have hinitial : refusedState ≠ HopState.initial := by decide
  have hmark : HopState.workflowEntry refusedState.workflow =
    ["w:4:20a07cec4f5f12a5:20a0d24c8601db8e".toList] := by decide +kernel
  have hentries : refusedState.entries =
      ["w:4:20a07cec4f5f12a5:20a0d24c8601db8e".toList, filling.text.toList] := by
    rw [HopState.entries, hmark]
    rfl
  rw [HopState.encode, if_neg hinitial, hentries, toList_filling]
  rfl

def belowFullParent : Request := { serverSpan with parent := (some fullParent).map parentOf }

theorem incoming_belowFullParent : incoming belowFullParent = fullState :=
  (incoming_parentOf serverSpan fullParent).trans ofVendorList_fullParent

theorem sample_belowFullParent :
    (refusing.sample belowFullParent 0).2.decision ≠ .recordAndSample ∧
      (refusing.sample belowFullParent 0).2.state = refusedState := by
  have hrefuses : refusing.refuses belowFullParent 0 = true := by
    rw [refuses, choice, incoming_belowFullParent]
    decide +kernel
  have hmark : refusing.mark belowFullParent = refusedState.workflow := by
    rw [mark, incoming_belowFullParent]
    decide +kernel
  have hstate := sample_state (s := refusing) rfl belowFullParent 0
  cases sample_answers (s := refusing) rfl belowFullParent 0 with
  | kept _ hgranted =>
    rw [hgranted] at hrefuses
    cases hrefuses
  | refused _ hdecision hlineage =>
    rw [hlineage, hmark, incoming_belowFullParent] at hstate
    exact ⟨hdecision, hstate⟩
  | unkept _ hgranted =>
    rw [hgranted] at hrefuses
    cases hrefuses

/-- A span that was refused passes on that it was kept. -/
theorem shouldSample_stale :
    let answer := refusing.shouldSample serverSpan (some fullParent) 0
    (∀ m ∈ fullParent.vendors.members, VendorList.checkMember m = .ok m) ∧
      answer.2.1.decision ≠ .recordAndSample ∧
      (HopState.ofVendorList answer.2.2).lineage.sampled.isSampled = true ∧
      (HopState.ofVendorList answer.2.2).workflow ≠ answer.2.1.state.workflow := by
  obtain ⟨hdecision, hstate⟩ := sample_belowFullParent
  have hlong : VendorList.isValidValue refusedState.egress.encode = false := by
    rw [show refusedState.egress = refusedState from rfl, encode_refusedState]
    decide +kernel
  have hvalid : ∀ m ∈ fullParent.vendors.members, VendorList.checkMember m = .ok m := by
    have hlegal : VendorList.isValidValue fullState.encode = true := by
      simp only [VendorList.isValidValue_iff, encode_fullState, String.toList_ofList]
      decide +kernel
    intro m hm
    rw [List.mem_singleton.mp hm, VendorList.checkMember, ← encode_fullState, hlegal]
    rfl
  have hresult : (refusing.shouldSample serverSpan (some fullParent) 0).2.1 =
    (refusing.sample belowFullParent 0).2 := shouldSample_result ..
  have hread : HopState.ofVendorList (refusing.shouldSample serverSpan (some fullParent) 0).2.2 =
      fullState := by
    rw [ofVendorList_shouldSample, hresult, hstate, hlong, if_neg Bool.false_ne_true]
    exact ofVendorList_fullParent
  dsimp only
  rw [hread, hresult, hstate]
  exact ⟨hvalid, hdecision, rfl, by decide⟩

end Sampler

end TraceSampling
