import TraceSampling.Proofs.HopState.Unknown
import TraceSampling.Proofs.Sampler.Chain
import TraceSampling.Proofs.Sampler.Header

/-!
# What hops hand on unread

Whatever a carried value holds besides entries of a known kind is neither read nor changed: it stands
in the same order in the state of every hop and in everything that the hops put on the wire, whether
spans are kept, dropped or refused.
-/

namespace TraceSampling

namespace Link

theorem extensions_result (l : Link) : l.result.state.extensions = l.arriving.extensions :=
  Sampler.sample_extensions l.request l.hop.now l.hop.default_stage

theorem extensions_arriving (hop : Hop) (carried : Option String) :
    (Link.mk hop carried).arriving.extensions =
      (HopState.decode (carried.getD "")).extensions := by
  cases carried <;> rfl

end Link

/-- The extensions that arrive at the first hop arrive at all. -/
theorem extensions_of_mem_chain {carried : Option String} {hops : List Hop} {l : Link}
    (h : l ∈ chain carried hops) :
    l.arriving.extensions = (HopState.decode (carried.getD "")).extensions := by
  induction hops generalizing carried with
  | nil => cases h
  | cons hop hops ih =>
    obtain rfl | h := List.mem_cons.mp h
    · exact Link.extensions_arriving hop carried
    · rw [ih h, Option.getD_some, Link.leaving, HopState.decode_encode,
        HopState.egress_extensions, Link.extensions_result, Link.extensions_arriving]

/-- The unknown entries of the value that arrives at the first hop are those of every hop of the
chain, and those of every value on the wire. -/
theorem chain_forwards_unknown (carried : Option String) (hops : List Hop) :
    ∀ l ∈ chain carried hops,
      let unknown := Entry.unknownEntries (carried.getD "")
      l.arriving.unknown? = HopState.unknownOf? unknown ∧
        l.result.state.unknown? = HopState.unknownOf? unknown ∧
        Entry.unknownEntries l.leaving = unknown := by
  intro l hl unknown
  have harriving : l.arriving.extensions.map (·.text) = unknown := by
    rw [extensions_of_mem_chain hl, HopState.texts_decode]
  have hresult : l.result.state.extensions.map (·.text) = unknown := by
    rw [l.extensions_result, harriving]
  refine ⟨?_, ?_, ?_⟩
  · rw [HopState.unknown?_eq, harriving]
  · rw [HopState.unknown?_eq, hresult]
  · rw [Link.leaving, HopState.unknownEntries_encode, HopState.egress_extensions, hresult]

/-- A hop that is refused whatever is charged. -/
def refusedHop : Hop where
  sampler :=
    .make { settings.rateLimit.buckets := [(Default.bucketName, {})], background := false } 0
  request := { traceId := 1, name := "GET /cart", kind := .server }
  now := 0
  default_stage := rfl

/-- A kept parent, with entries that are almost of a known kind. -/
def almostKnown : String := ";W:4:a;r:2;s;;s:5; s:5;rs:2;"

/-- The first hop is refused and the second one hands all of that on. -/
theorem chain_forwards_almostKnown :
    let first : Link := ⟨refusedHop, some almostKnown⟩
    let second : Link := ⟨refusedHop, some first.leaving⟩
    first.refused = true ∧ second ∈ chain (some almostKnown) [refusedHop, refusedHop] ∧
      second.result.state.unknown? = some "W:4:a;s; s:5;rs:2" ∧
      Entry.unknownEntries second.leaving = ["W:4:a", "s", " s:5", "rs:2"] := by
  intro first second
  have hmem : second ∈ chain (some almostKnown) [refusedHop, refusedHop] :=
    List.mem_cons_of_mem first List.mem_cons_self
  have hunknown : Entry.unknownEntries almostKnown = ["W:4:a", "s", " s:5", "rs:2"] := by
    decide +kernel
  obtain ⟨-, hresult, hleaving⟩ := chain_forwards_unknown (some almostKnown) _ second hmem
  rw [Option.getD_some, hunknown] at hresult hleaving
  exact ⟨by decide +kernel, hmem, hresult.trans (by decide +kernel), hleaving⟩

end TraceSampling
