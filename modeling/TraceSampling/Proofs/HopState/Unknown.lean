import TraceSampling.Proofs.HopState.RoundTrip

/-!
# Entries of no known kind

An entry is of a known kind if it begins with the letter of the kind and a colon. Everything else in a
carried value is kept by the state, entry by entry and in order.
-/

namespace TraceSampling

namespace Entry

def isKnown (cs : List Char) : Bool := [['w', ':'], ['s', ':'], ['r', ':']].any (·.isPrefixOf cs)

/-- The entries of a carried value that are of no known kind, as they stand there. -/
def unknownEntries (value : String) : List String :=
  ((Split.filled ';' value.toList).filter (!isKnown ·)).map String.ofList

theorem raw?_read (cs : List Char) :
    (read cs).raw? = if isKnown cs then none else some (String.ofList cs) := by
  unfold read
  split
  · simp [readWorkflow, raw?, isKnown]
  · simp [readSample, raw?, isKnown]
  · simp [raw?, isKnown]
  · next hw hs hr =>
    have hunknown : ¬ isKnown cs = true := by
      rcases cs with _ | ⟨c, _ | ⟨d, body⟩⟩
      · decide
      · simp [isKnown]
      · simp only [isKnown, List.any_cons, List.any_nil, List.isPrefixOf, Bool.and_true,
          Bool.or_false, Bool.or_eq_true, Bool.and_eq_true, beq_iff_eq]
        rintro (⟨rfl, rfl⟩ | ⟨rfl, rfl⟩ | ⟨rfl, rfl⟩)
        · exact hw body rfl
        · exact hs body rfl
        · exact hr body rfl
    rw [if_neg hunknown]
    rfl

theorem filterMap_raw?_scan (value : String) :
    (scan value).filterMap raw? = unknownEntries value := by
  unfold scan unknownEntries
  induction Split.filled ';' value.toList with
  | nil => rfl
  | cons entry entries ih =>
    rw [List.map_cons, List.filterMap_cons, raw?_read, List.filter_cons]
    cases isKnown entry with
    | true => exact ih
    | false => exact congrArg (String.ofList entry :: ·) ih

end Entry

namespace HopState

/-- The unknown entries of a value, put together again. -/
def unknownOf? (entries : List String) : Option String :=
  if entries = [] then none else some (";".intercalate entries)

theorem unknown?_eq (s : HopState) : s.unknown? = unknownOf? (s.extensions.map (·.text)) := by
  unfold unknown? unknownOf?
  cases s.extensions <;> rfl

theorem texts_decode (value : String) :
    (decode value).extensions.map (·.text) = Entry.unknownEntries value := by
  rw [extensions_decode, Entry.filterMap_raw?_scan]

theorem unknownEntries_encode (s : HopState) :
    Entry.unknownEntries s.encode = s.extensions.map (·.text) := by
  rw [← texts_decode, decode_encode]

end HopState

end TraceSampling
