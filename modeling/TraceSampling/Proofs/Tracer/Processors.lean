import TraceSampling.Proofs.Tracer.Verdicts

/-!
# Processors that share marks

Every processor is told of every span that ends. Those on one deferred sampler share its marks, and
the first of them uses up the mark of the span; the others judge the span once more, as it is at its
end. So they agree on the spans that come to the same at their end as when they were judged first.
-/

namespace TraceSampling

theorem Strategy.ofName?_name (s : Strategy) : ofName? s.name = some s := by
  cases s <;> decide +kernel

theorem Strategy.name_injective {a b : Strategy} (h : a.name = b.name) : a = b := by
  have := congrArg ofName? h
  simpa [ofName?_name] using this

namespace Deferred

/-! ## One processor -/

theorem evaluate_cases (s : DeferredSettings) (o : Outcome) :
    evaluate s o = .notMatch ∨ evaluate s o = .error ∨ evaluate s o = .slow := by
  unfold evaluate
  split
  · exact .inl rfl
  · split
    · exact .inr (.inl rfl)
    · split
      · exact .inr (.inr rfl)
      · exact .inl rfl

/-- What a judgement can come to. -/
def IsJudgement (strategy : Strategy) : Prop := ∃ s o, evaluate s o = strategy

theorem IsJudgement.eq_notMatch {strategy : Strategy} (h : IsJudgement strategy)
    (hunsampled : strategy.isSampled = false) : strategy = .notMatch := by
  obtain ⟨s, o, rfl⟩ := h
  obtain hnone | herror | hslow := evaluate_cases s o
  · exact hnone
  · rw [herror] at hunsampled
    cases hunsampled
  · rw [hslow] at hunsampled
    cases hunsampled

/-- Marks that judgements have left. -/
def Marks.AreJudgements (m : Marks) : Prop :=
  ∀ key strategy, m.lookup key = some strategy → IsJudgement strategy

theorem handOn_of_isSampled {d : SpanData} (h : d.context.isSampled = true) (strategy : Strategy) :
    handOn d strategy = some d := if_pos (d.context.isSampled_iff.mp h)

section handOn

variable {d : SpanData} (hunsampled : d.context.isSampled = false)

include hunsampled

theorem attributes_handOn {strategy : Strategy} (h : strategy.isSampled = true) :
    (handOn d strategy).map (·.attributes) =
      some (d.attributes ++ [⟨Key.strategy, .text strategy.name⟩]) := by
  simp [handOn, ← SpanContext.isSampled_iff, ← Strategy.isSampled_iff, hunsampled, h]

theorem attributes_handOn_ne {strategy : Strategy} (h : strategy.isSampled = false)
    (a : Attribute) : (handOn d strategy).map (·.attributes) ≠ some (d.attributes ++ [a]) := by
  by_cases hfound : d.TellsNewEdge <;>
    simp [handOn, ← SpanContext.isSampled_iff, ← Strategy.isSampled_iff, hunsampled, h, hfound]

/-- What is handed on tells by which judgement. -/
theorem handOn_inj {a b : Strategy} (ha : IsJudgement a) (hb : IsJudgement b) :
    handOn d a = handOn d b ↔ a = b := by
  refine ⟨fun h => ?_, congrArg (handOn d)⟩
  cases hasampled : a.isSampled with
  | true =>
    have hattributes := attributes_handOn hunsampled hasampled
    rw [h] at hattributes
    cases hbsampled : b.isSampled with
    | true =>
      rw [attributes_handOn hunsampled hbsampled] at hattributes
      have hname : b.name = a.name := by simpa using hattributes
      exact (Strategy.name_injective hname).symm
    | false => exact absurd hattributes (attributes_handOn_ne hunsampled hbsampled _)
  | false =>
    cases hbsampled : b.isSampled with
    | true =>
      have hattributes := attributes_handOn hunsampled hbsampled
      rw [← h] at hattributes
      exact absurd hattributes (attributes_handOn_ne hunsampled hasampled _)
    | false => rw [ha.eq_notMatch hasampled, hb.eq_notMatch hbsampled]

end handOn

/-! ## Processors one after the other -/

/-- Some processors that share marks are told of the same end: what is left of the marks, and what
each of them hands on. -/
def onEndInTurn (s : DeferredSettings) (d : SpanData) : Nat → Marks → Marks × List (Option SpanData)
  | 0, m => (m, [])
  | n + 1, m =>
    let (rest, handedOn) := onEnd s m d
    let (rest, others) := onEndInTurn s d n rest
    (rest, handedOn :: others)

theorem get?_erase_self (m : Marks) (c : SpanContext) : (m.erase c).get? c = none :=
  Table.lookup_filter_self _ m

theorem onEndInTurn_of_unmarked (s : DeferredSettings) (d : SpanData) (n : Nat) {m : Marks}
    (hmark : m.get? d.context = none) :
    (onEndInTurn s d n m).2 = List.replicate n (handOn d (evaluate s (.ofSpan d))) := by
  induction n generalizing m with
  | zero => rfl
  | succ n ih =>
    rw [onEndInTurn, onEnd_eq, hmark, List.replicate_succ]
    dsimp only
    rw [ih (get?_erase_self m d.context)]
    rfl

/-- Only the first processor sees the mark. -/
theorem onEndInTurn_succ (s : DeferredSettings) (d : SpanData) (n : Nat) (m : Marks) :
    (onEndInTurn s d (n + 1) m).2 =
      handOn d ((m.get? d.context).getD (evaluate s (.ofSpan d))) ::
        List.replicate n (handOn d (evaluate s (.ofSpan d))) := by
  rw [onEndInTurn, onEnd_eq]
  dsimp only
  rw [onEndInTurn_of_unmarked s d n (get?_erase_self m d.context)]

theorem erase_erase (m : Marks) (c : SpanContext) : (m.erase c).erase c = m.erase c := by
  simp [Marks.erase, List.filter_filter]

/-- The marks are left as by one processor alone. -/
theorem onEndInTurn_marks (s : DeferredSettings) (d : SpanData) (n : Nat) (m : Marks) :
    (onEndInTurn s d (n + 1) m).1 = m.erase d.context := by
  induction n generalizing m with
  | zero =>
    rw [onEndInTurn, onEnd_eq]
    rfl
  | succ n ih =>
    rw [onEndInTurn, onEnd_eq]
    dsimp only
    rw [ih, erase_erase]

/-- Processors agree on spans that come to the same at their end as they did before. -/
theorem onEndInTurn_agree_iff {m : Marks} (hm : m.AreJudgements) (s : DeferredSettings)
    (d : SpanData) :
    (∀ n, ∀ a ∈ (onEndInTurn s d n m).2, ∀ b ∈ (onEndInTurn s d n m).2, a = b) ↔
      d.context.isSampled = true ∨
        ∀ first, m.get? d.context = some first → first = evaluate s (.ofSpan d) := by
  have htold := onEndInTurn_succ s d (m := m)
  have hagree : (∀ n, ∀ a ∈ (onEndInTurn s d n m).2, ∀ b ∈ (onEndInTurn s d n m).2, a = b) ↔
      handOn d ((m.get? d.context).getD (evaluate s (.ofSpan d))) =
        handOn d (evaluate s (.ofSpan d)) := by
    constructor
    · intro h
      exact h 2 _ (by simp [htold]) _ (by simp [htold])
    · intro hsame n
      have hall : ∀ a ∈ (onEndInTurn s d n m).2, a = handOn d (evaluate s (.ofSpan d)) := by
        cases n with
        | zero => exact nofun
        | succ n =>
          rw [htold, hsame, ← List.replicate_succ]
          exact fun a => List.eq_of_mem_replicate
      exact fun a ha b hb => (hall a ha).trans (hall b hb).symm
  rw [hagree]
  cases hsampled : d.context.isSampled with
  | true => simp [handOn_of_isSampled hsampled]
  | false =>
    cases hmark : m.get? d.context with
    | none => simp
    | some first =>
      have hfirst : IsJudgement first := hm _ _ hmark
      simpa using handOn_inj hsampled hfirst ⟨s, .ofSpan d, rfl⟩

end Deferred

/-! ## Marks along a run -/

namespace Deferred.Marks.AreJudgements

variable {m : Marks} (h : m.AreJudgements)

include h

theorem erase (c : SpanContext) : (m.erase c).AreJudgements := by
  intro key strategy hlookup
  rw [Marks.erase, Table.lookup_remove] at hlookup
  split at hlookup
  · cases hlookup
  · exact h key strategy hlookup

theorem precomputeSpan (s : DeferredSettings) (c : SpanContext) (live : Option SpanData)
    (now : Int) : (precomputeSpan s m c live now).1.AreJudgements := by
  unfold Deferred.precomputeSpan
  cases m.get? c with
  | some strategy => exact h
  | none =>
    cases live with
    | none => exact h
    | some d =>
      intro key strategy hlookup
      dsimp only [Marks.put, Marks.erase] at hlookup
      rw [Table.lookup_replace] at hlookup
      split at hlookup
      · exact ⟨s, .ofSpan { d with endTime := now }, Option.some_inj.mp hlookup⟩
      · exact h key strategy hlookup

end Deferred.Marks.AreJudgements

namespace Tracer

theorem marks_start (t : Tracer) (id : String) (s : SpanStart) (now : Nat) :
    (t.start id s now).1.sampler.marks = t.sampler.marks := by
  cases hup : t.isShutDown with
  | false => exact (start_spec hup id s now).marks_eq
  | true =>
    rw [start, if_pos hup]
    rfl

theorem marks_modify (t : Tracer) (id : String) (f : SpanData → SpanData) :
    (t.modify id f).sampler.marks = t.sampler.marks := by
  unfold modify
  split <;> rfl

theorem areJudgements_serve {t : Tracer} (h : t.sampler.marks.AreJudgements) (call : TracerCall) :
    (t.serve call).1.sampler.marks.AreJudgements := by
  cases call with
  | start id s now =>
    rw [serve, marks_start]
    exact h
  | change id f =>
    rw [serve, marks_modify]
    exact h
  | precompute id now =>
    rw [serve, precompute]
    dsimp only
    split
    · exact h
    · exact h.precomputeSpan _ _ _ _
  | finish id endTime =>
    rw [serve, finish]
    dsimp only
    split
    · exact h
    · split
      · exact h
      · split
        · exact h
        · rw [Deferred.onEnd_eq]
          exact h.erase _
  | update settings now =>
    have hmarks : (t.sampler.update settings now).marks = t.sampler.marks :=
      (Prod.mk.inj (t.sampler.judging_update now settings)).2
    rw [serve, hmarks]
    exact h

theorem areJudgements_run {t : Tracer} (h : t.sampler.marks.AreJudgements) (log : TracerLog)
    (calls : List TracerCall) : (t.run log calls).1.sampler.marks.AreJudgements := by
  induction calls generalizing t log with
  | nil => exact h
  | cons call calls ih => exact ih (areJudgements_serve h call) _

/-- Whatever has happened, the first processor on shared marks goes by the first judgement of a span
that ends and all others by one at its end, and the marks are left as by a single processor. So they
agree exactly on the spans that were sampled, that nobody has judged before, or that come to the
same strategy at their end. -/
theorem run_processors {sampler : Sampler} (hmarks : sampler.marks = []) {calls : List TracerCall}
    (hapart : calls.Pairwise TracerCall.Apart) {id : String} {l : Life} {d : SpanData}
    (hlife : (Tracer.run { sampler } [] calls).2.life id = some l) (hdata : l.span.data = some d)
    (endTime : Int) :
    let t := (Tracer.run { sampler } [] calls).1
    let settings := (Tracer.run { sampler } [] calls).2.settings sampler.snapshot
    let ended := { d with endTime }
    let atEnd := Deferred.evaluate settings (.ofSpan ended)
    let first? := l.judgements.getLast?
    let told (n : Nat) := Deferred.onEndInTurn settings ended n t.sampler.marks
    (∀ n, (told (n + 1)).2 = Deferred.handOn ended (first?.getD atEnd) ::
      List.replicate n (Deferred.handOn ended atEnd)) ∧
    (∀ n, (told (n + 1)).1 = (t.finish id endTime).1.sampler.marks) ∧
    ((∀ n, ∀ a ∈ (told n).2, ∀ b ∈ (told n).2, a = b) ↔
      ended.context.isSampled = true ∨ ∀ first, first? = some first → first = atEnd) := by
  intro t settings ended atEnd first? told
  have h : t.Mirrors sampler.snapshot (Tracer.run { sampler } [] calls).2 :=
    (Mirrors.fresh hmarks).run hapart fun _ _ => nofun
  have hcontext : d.context = l.span.context := (h.sound.lives id l hlife).2.tied d hdata
  have hmark : t.sampler.marks.get? d.context = first? := h.get?_of_data hlife hdata
  have hanswers : ∀ n, (told (n + 1)).2 = Deferred.handOn ended (first?.getD atEnd) ::
      List.replicate n (Deferred.handOn ended atEnd) := fun n => by
    rw [← hmark]
    exact Deferred.onEndInTurn_succ settings ended n t.sampler.marks
  refine ⟨hanswers, fun n => ?_, ?_⟩
  · obtain ⟨-, -, -, -, hleft⟩ := h.finish_spec hlife endTime
    have hrecording : l.span.isRecording = true := by
      rw [Span.isRecording, hdata, Option.isSome_some]
    rw [hleft, if_pos hrecording, ← hcontext]
    exact Deferred.onEndInTurn_marks settings ended n t.sampler.marks
  have hjudgements : t.sampler.marks.AreJudgements := by
    refine areJudgements_run (t := { sampler }) ?_ [] calls
    simp [Deferred.Marks.AreJudgements, hmarks]
  rw [← hmark]
  exact Deferred.onEndInTurn_agree_iff hjudgements settings ended

end Tracer

/-- Nobody has judged the stock before it ends, and so every processor keeps its failure. -/
theorem run_failing_agree :
    let t := (Tracer.run { sampler := keepingFailures } [] failing).1
    let log := (Tracer.run { sampler := keepingFailures } [] failing).2
    let settings := log.settings keepingFailures.snapshot
    ∃ l d, log.life "stock" = some l ∧ l.span.data = some d ∧
      ∀ n, (Deferred.onEndInTurn settings { d with endTime := 20 } (n + 1) t.sampler.marks).2 =
        List.replicate (n + 1) (Deferred.handOn { d with endTime := 20 } .error) := by
  intro t log settings
  have hstock : (log.life "stock").bind (fun l => l.span.data.map fun d =>
      (l.judgements, Deferred.evaluate settings (.ofSpan { d with endTime := 20 }))) =
    some ([], .error) := by decide +kernel
  obtain ⟨l, hlife, hstock⟩ := Option.bind_eq_some_iff.mp hstock
  obtain ⟨d, hdata, hstock⟩ := Option.map_eq_some_iff.mp hstock
  obtain ⟨hunjudged, herror⟩ := Prod.mk.inj hstock
  refine ⟨l, d, hlife, hdata, fun n => ?_⟩
  have htold := (@Tracer.run_processors keepingFailures rfl failing (by decide) _ l d hlife hdata
    20).1 n
  rw [hunjudged, herror] at htold
  exact htold

/-- The cart was judged before it failed: the first processor drops it, and the second one keeps its
failure. -/
theorem run_failing_disagree :
    let t := (Tracer.run { sampler := keepingFailures } [] failing).1
    let log := (Tracer.run { sampler := keepingFailures } [] failing).2
    ((log.life "cart").bind (·.span.data)).map (fun d =>
      (Deferred.onEndInTurn (log.settings keepingFailures.snapshot) { d with endTime := 20 } 2
        t.sampler.marks).2.map Option.isSome) = some [false, true] := by
  decide +kernel

end TraceSampling
