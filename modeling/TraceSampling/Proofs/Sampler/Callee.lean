import TraceSampling.Proofs.Hash
import TraceSampling.Proofs.MinCount.Floor
import TraceSampling.Proofs.Sampler.Roots
import TraceSampling.Proofs.Sampler.Spending

/-!
# Under which callee a span is counted

The floor counts a span under the service and the method that its interface calls. A method that the
attributes name is taken for spans of every kind. A service that they name is taken at the ends of a
call only: spans inside a service are all counted under this service, whatever they name, and those
of one method have one floor.
-/

namespace TraceSampling

/-! ## What attributes name -/

namespace Request

/-- The first attribute with a key has a text, and the text is not empty. -/
def Names (r : Request) (key text : String) : Prop :=
  text ≠ "" ∧ ∃ before a after, r.attributes = before ++ a :: after ∧
    (∀ b ∈ before, b.key ≠ key) ∧ a.key = key ∧ a.text = text

variable {r r' : Request} {key text : String}

theorem names_iff : r.Names key text ↔ Attribute.filledText? r.attributes key = some text := by
  simp only [Names, Attribute.filledText?, Attribute.first?, Option.filter_eq_some_iff,
    Option.map_eq_some_iff, List.find?_eq_some_iff_append]
  constructor
  · rintro ⟨hfilled, before, a, after, hattributes, hbefore, hkey, htext⟩
    exact ⟨⟨a, ⟨by simpa using hkey, before, after, hattributes, by simpa using hbefore⟩, htext⟩,
      by simpa using hfilled⟩
  · rintro ⟨⟨a, ⟨hkey, before, after, hattributes, hbefore⟩, htext⟩, hfilled⟩
    exact ⟨by simpa using hfilled, before, a, after, hattributes, by simpa using hbefore,
      by simpa using hkey, htext⟩

/-- Of several keys the first one decides if it names anything. -/
theorem firstOf?_of_names (h : r.Names key text) (others : List String) :
    r.firstOf? (key :: others) = some text := by
  rw [firstOf?, List.findSome?_cons, names_iff.mp h]

/-! ## The callee of a span -/

variable {name name' : String} (service : String)

theorem calleeMethod_of_names (h : r.Names Key.calleeMethod name) :
    (r.interface service).calleeMethod = name := by
  have hmethod : (r.firstOf? [Key.calleeMethod, Key.rpcMethod]).getD r.name = name := by
    rw [firstOf?_of_names h, Option.getD_some]
  unfold interface
  cases r.kind <;> exact hmethod

theorem calleeService_of_names (h : r.Names Key.calleeService name) :
    (r.interface service).calleeService = if r.kind = .internal then service else name := by
  unfold interface
  cases r.kind with
  | client | producer => simp [firstOf?_of_names h]
  | server | consumer => simp [firstOf?_of_names h]
  | internal => rfl

theorem calleeService_eq_iff (h : r.Names Key.calleeService name) :
    (r.interface service).calleeService = name ↔ r.kind ≠ .internal ∨ name = service := by
  rw [calleeService_of_names service h]
  split
  · next hkind => simp [hkind, eq_comm]
  · next hkind => simp [hkind]

theorem calleeService_eq_calleeService_iff (hkind : r'.kind = r.kind)
    (h : r.Names Key.calleeService name) (h' : r'.Names Key.calleeService name')
    (hne : name ≠ name') :
    (r.interface service).calleeService = (r'.interface service).calleeService ↔
      r.kind = .internal := by
  rw [calleeService_of_names service h, calleeService_of_names service h', hkind]
  split
  · next hinternal => exact iff_of_true rfl hinternal
  · next hinternal => exact iff_of_false hne hinternal

/-- The key of the floor of a span. -/
def floorKey (r : Request) : UInt64 :=
  MinCount.key (r.interface service).calleeService (r.interface service).calleeMethod

end Request

/-! ## The count of a span -/

namespace Occasion

variable (o : Occasion)

theorem first?_eq_minCount_iff (hop : HopState) (w : MinCount.Windows) :
    o.first? hop w = some .minCount ↔ o.asksFloor hop w = true ∧ (o.floor w).2 = true := by
  have hasks : o.asksFloor hop w = true ∧ (o.floor w).2 = true ↔
      o.applies hop w .follow = false ∧ o.applies hop w .dyeing = false ∧
        o.applies hop w .minCount = true := by
    have hfloor : o.applies hop w .minCount =
      (o.snapshot.settings.minSample.enabled && (o.floor w).2) := rfl
    simp [asksFloor, hfloor, and_assoc, and_left_comm]
  rw [hasks, first?]
  cases hfollow : o.applies hop w .follow with
  | true => simp [hfollow]
  | false =>
    cases hdyes : o.applies hop w .dyeing with
    | true => simp [hfollow, hdyes]
    | false =>
      cases hfloor : o.applies hop w .minCount <;> cases hrandom : o.applies hop w .random <;>
        simp [hfollow, hdyes, hfloor, hrandom]

/-- The default stage counts a span that it keeps for its floor, under the key of its callee. -/
theorem count?_defaultStage (st : StageState) (k : UInt64) :
    (defaultStage o st).1.resources.windows.current.count? k =
      if k = MinCount.key o.interface.calleeService o.interface.calleeMethod ∧
          o.first? st.hop st.resources.windows = some .minCount then
        some ((st.resources.windows.current.count? k).getD 0 + 1)
      else st.resources.windows.current.count? k := by
  rw [windows_defaultStage]
  by_cases hasks : o.asksFloor st.hop st.resources.windows = true
  · simp only [first?_eq_minCount_iff, hasks, true_and, if_true]
    exact st.resources.windows.count?_take ..
  · simp [first?_eq_minCount_iff, hasks]

end Occasion

namespace Sampler

/-- The sampler behind requests one after the other. -/
def sampleAll (s : Sampler) (requests : List (Request × Nat)) : Sampler :=
  requests.foldl (fun s c => (s.sample c.1 c.2).1) s

theorem count?_sample_of_ne {s : Sampler} (hstage : s.stage = defaultStage) {r : Request}
    {k : UInt64} (hk : r.floorKey s.service ≠ k) (now : Nat) :
    (s.sample r now).1.resources.windows.current.count? k =
      s.resources.windows.current.count? k := by
  rw [sample_resources, hstage, Occasion.count?_defaultStage, if_neg fun h => hk h.1.symm]
  rfl

/-- Spans of other floors leave a floor as it is. -/
theorem count?_sampleAll_of_ne {s : Sampler} (hstage : s.stage = defaultStage) {k : UInt64}
    (requests : List (Request × Nat)) (hk : ∀ c ∈ requests, c.1.floorKey s.service ≠ k) :
    (s.sampleAll requests).resources.windows.current.count? k =
      s.resources.windows.current.count? k := by
  induction requests generalizing s with
  | nil => rfl
  | cons c requests ih =>
    obtain ⟨hfirst, hrest⟩ := List.forall_mem_cons.mp hk
    -- A request changes neither the service nor the stage of a sampler.
    have hnext := ih (s := (s.sample c.1 c.2).1) hstage hrest
    exact hnext.trans (count?_sample_of_ne hstage hfirst c.2)

/-- A span that is kept for the floor adds one to the floor of its callee and nothing to any other.
The method of this callee is the one that the attributes name, and so is the service, unless the span
runs inside another service. Spans of one kind that name different services are counted under
different services exactly if they are ends of calls, and then their floors have one key only by a
collision. Any number of spans of other keys leaves a floor alone. -/
theorem floor_counts_named_callee (s : Sampler) (r : Request) :
    (∀ now st k,
      (defaultStage (s.occasion r now) st).1.resources.windows.current.count? k =
        if k = r.floorKey s.service ∧
            (s.occasion r now).first? st.hop st.resources.windows = some .minCount then
          some ((st.resources.windows.current.count? k).getD 0 + 1)
        else st.resources.windows.current.count? k) ∧
    (∀ name, r.Names Key.calleeMethod name → (r.interface s.service).calleeMethod = name) ∧
    (∀ name, r.Names Key.calleeService name →
      ((r.interface s.service).calleeService = name ↔ r.kind ≠ .internal ∨ name = s.service)) ∧
    (∀ (r' : Request) (name name' : String), r'.kind = r.kind → r.Names Key.calleeService name →
      r'.Names Key.calleeService name' → name ≠ name' →
      ((r.interface s.service).calleeService = (r'.interface s.service).calleeService ↔
        r.kind = .internal) ∧
      (r.kind ≠ .internal → Hash.separatorChar ∉ name.toList →
        Hash.separatorChar ∉ name'.toList → r.floorKey s.service = r'.floorKey s.service →
        Hash.Collide (Hash.separated name (r.interface s.service).calleeMethod)
          (Hash.separated name' (r'.interface s.service).calleeMethod))) ∧
    (s.stage = defaultStage → ∀ k requests,
      (∀ c ∈ requests, c.1.floorKey s.service ≠ k) →
      (s.sampleAll requests).resources.windows.current.count? k =
        s.resources.windows.current.count? k) := by
  refine ⟨fun now => (s.occasion r now).count?_defaultStage,
    fun _ => Request.calleeMethod_of_names s.service,
    fun _ => Request.calleeService_eq_iff s.service, fun r' name name' hkind h h' hne => ⟨?_, ?_⟩,
    fun hstage _ => count?_sampleAll_of_ne hstage⟩
  · exact Request.calleeService_eq_calleeService_iff s.service hkind h h' hne
  · intro hcall hplain hplain' hkey
    have hservice : (r.interface s.service).calleeService = name :=
      (Request.calleeService_eq_iff s.service h).mpr (.inl hcall)
    have hservice' : (r'.interface s.service).calleeService = name' :=
      (Request.calleeService_eq_iff s.service h').mpr (.inl (hkind ▸ hcall))
    rw [Request.floorKey, Request.floorKey, hservice, hservice'] at hkey
    exact ⟨fun heq => hne (Hash.separated_injective hplain hplain' heq).1, hkey⟩

/-- Keeps one span of each callee. -/
def oneEach : Sampler :=
  make
    { service := "checkout"
      settings.fraction := .zero
      settings.workflow.enabled := false
      settings.minSample.enabled := true
      background := false } 0

/-- A span that names the service which it calls. -/
def charging (kind : SpanKind) (callee : String) : Request where
  traceId := 1
  name := "charge"
  kind := kind
  attributes := [⟨Key.calleeService, .text callee⟩]

theorem names_charging (kind : SpanKind) {callee : String} (h : callee ≠ "") :
    (charging kind callee).Names Key.calleeService callee :=
  ⟨h, [], _, [], rfl, by simp, rfl, rfl⟩

/-- The floors of two services that are called are told apart. -/
theorem floors_of_clients :
    let cart := charging .client "cart"
    let billing := charging .client "billing"
    oneEach.stage = defaultStage ∧ billing.kind = cart.kind ∧
      cart.Names Key.calleeService "cart" ∧ billing.Names Key.calleeService "billing" ∧
      (cart.interface oneEach.service).calleeService = "cart" ∧
      (cart.interface oneEach.service).calleeService ≠
        (billing.interface oneEach.service).calleeService ∧
      (oneEach.sampleAll [(billing, 0), (billing, 1)]).resources.windows.current.count?
        (cart.floorKey oneEach.service) = none := by
  intro cart billing
  have hcart : cart.Names Key.calleeService "cart" := names_charging .client (by decide)
  have hbilling : billing.Names Key.calleeService "billing" := names_charging .client (by decide)
  obtain ⟨-, -, hservice, hdiffer, hothers⟩ := floor_counts_named_callee oneEach cart
  have hkey : billing.floorKey oneEach.service ≠ cart.floorKey oneEach.service := by
    decide +kernel
  refine ⟨rfl, rfl, hcart, hbilling, (hservice _ hcart).mpr (.inl (by decide)), ?_, ?_⟩
  · rw [ne_eq, (hdiffer billing _ _ rfl hcart hbilling (by decide)).1]
    decide
  · exact hothers rfl _ [(billing, 0), (billing, 1)] (by simp [hkey])

/-- Inside a service the first span is counted under this service, and it uses up the floor of the
second one. The services that they name have keys of their own. -/
theorem floor_of_internal_spans :
    let cart := charging .internal "cart"
    let billing := charging .internal "billing"
    let behind := (oneEach.sample cart 0).1
    billing.kind = cart.kind ∧
      cart.Names Key.calleeService "cart" ∧ billing.Names Key.calleeService "billing" ∧
      MinCount.key "cart" "charge" ≠ MinCount.key "billing" "charge" ∧
      behind.resources.windows.current.count? (MinCount.key "cart" "charge") = none ∧
      behind.resources.windows.current.count? (MinCount.key "checkout" "charge") = some 1 ∧
      (oneEach.sample cart 0).2.decision = .recordAndSample ∧
      (behind.sample billing 0).2.decision = .drop := by
  intro cart billing behind
  exact ⟨rfl, names_charging .internal (by decide), names_charging .internal (by decide),
    by decide +kernel, by decide +kernel, by decide +kernel, by decide +kernel, by decide +kernel⟩

end Sampler

end TraceSampling
