import Mathlib.Data.List.Nodup
import TraceSampling.Proofs.Sampler.Frame
import TraceSampling.Tracer

/-!
# Lives of spans

What is asked of a tracer makes a log of what happens, and the log tells the life of every span from
its own events. Names and keys of spans are never used twice, so that a key leads back to one life.
-/

namespace TraceSampling

theorem Strategy.isSampled_iff (s : Strategy) : s.isSampled = true ↔ matched.rank ≤ s.rank :=
  decide_eq_true_iff

theorem SpanContext.isSampled_iff (c : SpanContext) : c.isSampled = true ↔ c.flags &&& 1 = 1 :=
  decide_eq_true_iff

/-! ## The sampler -/

namespace Sampler

variable (s : Sampler) (now : Nat)

/-- What judgements read of a sampler. -/
def judging : Snapshot × Deferred.Marks := (s.snapshot, s.marks)

theorem fixed_judging : Fixed judging where
  renew s now i := by cases i <;> rfl
  rotation s r := rfl

theorem judging_update (settings : Settings) :
    (s.update settings now).judging = (Snapshot.compile settings, s.marks) :=
  fixed_judging.update s now settings

end Sampler

/-! ## Spans that start -/

/-- The key of the mark of a span. -/
def SpanContext.key (c : SpanContext) : TraceId × SpanId := (c.traceId, c.spanId)

def SpanStart.key (s : SpanStart) : TraceId × SpanId := (Tracer.traceOf s, s.spanId)

/-- What is gathered about a span is about that span. -/
def Span.Tied (s : Span) : Prop := ∀ d, s.data = some d → d.context = s.context

theorem SpanData.context_foldl_add (attributes : List Attribute) (d : SpanData) :
    (attributes.foldl add d).context = d.context := by
  induction attributes generalizing d with
  | nil => rfl
  | cons a attributes ih =>
    rw [List.foldl_cons, ih]
    unfold add
    split <;> rfl

namespace Tracer

theorem span?_put (t : Tracer) (id other : String) (s : Span) :
    (t.put id s).span? other = if other = id then some s else t.span? other :=
  Table.get?_put t.spans id other s

/-- A tracer behind the start of a span. -/
structure Starts (t : Tracer) (id : String) (s : SpanStart) (next : Tracer) (span : Span) :
    Prop where
  key_eq : span.context.key = s.key
  tied : span.Tied
  up : next.isShutDown = false
  snapshot_eq : next.sampler.snapshot = t.sampler.snapshot
  marks_eq : next.sampler.marks = t.sampler.marks
  span?_eq : ∀ other, next.span? other = if other = id then some span else t.span? other

theorem start_spec {t : Tracer} (hup : t.isShutDown = false) (id : String) (s : SpanStart)
    (now : Nat) : t.Starts id s (t.start id s now).1 (t.start id s now).2.1 := by
  have hrunning : ¬ t.isShutDown = true := by simp [hup]
  unfold start
  rw [if_neg hrunning]
  dsimp only
  split
  · exact ⟨rfl, nofun, hup, rfl, rfl, fun other => span?_put _ id other _⟩
  · refine ⟨rfl, ?_, hup, rfl, rfl, fun other => span?_put _ id other _⟩
    rintro d ⟨⟩
    exact SpanData.context_foldl_add _ _

end Tracer

/-! ## Spans that end -/

/-- The first attribute for the workflow result says that the span is half of a new edge. -/
def SpanData.TellsNewEdge (d : SpanData) : Prop :=
  ∃ a ∈ d.attributes.find? (·.key = Key.workflowResult), a.text = "path" ∨ a.text = "sample"

instance (d : SpanData) : Decidable d.TellsNewEdge :=
  inferInstanceAs (Decidable (∃ a ∈ d.attributes.find? (·.key = Key.workflowResult),
    a.text = "path" ∨ a.text = "sample"))

theorem Outcome.discoveredEdge_ofSpan (d : SpanData) :
    (ofSpan d).discoveredEdge = true ↔ d.TellsNewEdge := by
  simp [discoveredEdge, text?, ofSpan, Attribute.first?, SpanData.TellsNewEdge,
    Option.any_eq_true]

namespace Deferred

/-- What a processor hands on of a span that ended, given the strategy that it is judged with: a
sampled span as it is, and any other that is kept with the flag for that set. If it is the strategy
that keeps the span, an attribute names it. -/
def handOn (d : SpanData) (strategy : Strategy) : Option SpanData :=
  let kept := Strategy.matched.rank ≤ strategy.rank
  let named : List Attribute := if kept then [⟨Key.strategy, .text strategy.name⟩] else []
  if d.context.flags &&& 1 = 1 then some d
  else if kept ∨ d.TellsNewEdge then
    some { d with
      context := { d.context with flags := d.context.flags ||| 1 }
      attributes := d.attributes ++ named }
  else none

theorem onEnd_eq (s : DeferredSettings) (m : Marks) (d : SpanData) :
    onEnd s m d =
      (m.erase d.context, handOn d ((m.get? d.context).getD (evaluate s (.ofSpan d)))) := by
  unfold onEnd handOn
  by_cases hsampled : d.context.isSampled = true
  · rw [if_pos hsampled, if_pos (d.context.isSampled_iff.mp hsampled)]
  · have hflag : ¬ d.context.flags &&& 1 = 1 := mt d.context.isSampled_iff.mpr hsampled
    have houtcome : ¬ (Outcome.ofSpan d).sampled = true := hsampled
    rw [if_neg hsampled, if_neg hflag, verdict, if_neg houtcome]
    generalize (m.get? d.context).getD (evaluate s (.ofSpan d)) = strategy
    simp only [← Strategy.isSampled_iff, ← Outcome.discoveredEdge_ofSpan, forward,
      Bool.or_eq_true]
    cases strategy.isSampled <;> simp [SpanContext.setSampled]

theorem onEnd_marks (s : DeferredSettings) (m : Marks) (d : SpanData) :
    (onEnd s m d).1 = m.erase d.context := congrArg Prod.fst (onEnd_eq s m d)

end Deferred

/-! ## The life of a span -/

/-- A change to what is gathered about a span. -/
structure SpanChange where
  apply : SpanData → SpanData
  context_apply : ∀ d, (apply d).context = d.context

def SpanChange.addAttributes (attributes : List Attribute) : SpanChange where
  apply d := attributes.foldl SpanData.add d
  context_apply := SpanData.context_foldl_add attributes

def SpanChange.raiseStatus (status : SpanStatus) : SpanChange where
  apply d := d.raise status
  context_apply d := by
    unfold SpanData.raise
    split <;> rfl

/-- What happens to a span after its start. -/
inductive Touch where
  | changed (f : SpanChange)
  | judged (strategy : Strategy)
  | ended

/-- A span and the judgements on it, the latest first. -/
structure Life where
  span : Span
  judgements : List Strategy := []

namespace Life

variable (l : Life)

def touch : Touch → Life
  | .changed f => { l with span := { l.span with data := l.span.data.map f.apply } }
  | .judged strategy => { l with judgements := strategy :: l.judgements }
  | .ended => { l with span := { l.span with data := none } }

def key : TraceId × SpanId := l.span.context.key

def first? : Option Strategy := l.judgements.getLast?

/-- The judgement that a live span waits with. -/
def pending? : Option Strategy := if l.span.isRecording then l.first? else none

def isPending : Bool := l.pending?.isSome

/-- All judgements on a live span are the first one. -/
def Agrees : Prop := l.span.isRecording = true → ∀ s ∈ l.judgements, l.first? = some s

/-- What a judgement comes to under some settings. -/
def judgement (settings : DeferredSettings) (now : Int) : Strategy :=
  match l.span.data with
  | none => .notMatch
  | some d => l.first?.getD (Deferred.evaluate settings (.ofSpan { d with endTime := now }))

/-- What the processor is told at the end under some settings. -/
def told (settings : DeferredSettings) (endTime : Int) : List ProcessorCall :=
  match l.span.data with
  | none => []
  | some d =>
    let d := { d with endTime }
    let strategy := l.first?.getD (Deferred.evaluate settings (.ofSpan d))
    ((Deferred.handOn d strategy).map ProcessorCall.onEnd).toList

@[simp] theorem context_touch (touch : Touch) :
    (l.touch touch).span.context = l.span.context := by
  cases touch <;> rfl

@[simp] theorem key_touch (touch : Touch) : (l.touch touch).key = l.key :=
  congrArg SpanContext.key (l.context_touch touch)

theorem isRecording_changed (f : SpanChange) :
    (l.touch (.changed f)).span.isRecording = l.span.isRecording := Option.isSome_map

theorem pending?_changed (f : SpanChange) : (l.touch (.changed f)).pending? = l.pending? := by
  rw [pending?, isRecording_changed, pending?]
  rfl

theorem pending?_of_data_eq_none {l : Life} (h : l.span.data = none) : l.pending? = none := by
  simp [pending?, Span.isRecording, h]

theorem pending?_of_data_eq_some {l : Life} {d : SpanData} (h : l.span.data = some d) :
    l.pending? = l.first? := by
  simp [pending?, Span.isRecording, h]

theorem tied_touch {l : Life} (h : l.span.Tied) (touch : Touch) : (l.touch touch).span.Tied := by
  cases touch with
  | changed f =>
    intro d hd
    obtain ⟨before, hbefore, rfl⟩ := Option.map_eq_some_iff.mp hd
    rw [f.context_apply]
    exact h before hbefore
  | judged strategy => exact h
  | ended => exact nofun

theorem first?_judged (strategy : Strategy) :
    (l.touch (.judged strategy)).first? = some (l.first?.getD strategy) := List.getLast?_cons

theorem judgement_of_data_eq_some {l : Life} {d : SpanData} (h : l.span.data = some d)
    (settings : DeferredSettings) (now : Int) :
    l.judgement settings now =
      l.first?.getD (Deferred.evaluate settings (.ofSpan { d with endTime := now })) := by
  rw [judgement, h]

theorem pending?_judged (strategy : Strategy) :
    (l.touch (.judged strategy)).pending? =
      if l.span.isRecording then some (l.first?.getD strategy) else none := by
  rw [pending?, first?_judged]
  rfl

/-- Only the first judgement of a live span changes what the span waits with. -/
theorem pending?_judged_again {l : Life} (h : ¬ (l.span.isRecording = true ∧ l.first? = none))
    (strategy : Strategy) : (l.touch (.judged strategy)).pending? = l.pending? := by
  rw [pending?_judged, pending?]
  split
  · next hrecording =>
    obtain ⟨first, hfirst⟩ := Option.ne_none_iff_exists'.mp fun hnone => h ⟨hrecording, hnone⟩
    rw [hfirst, Option.getD_some]
  · rfl

/-- One more judgement repeats the first one. -/
theorem Agrees.judged {l : Life} (h : l.Agrees) (settings : DeferredSettings) (now : Int) :
    (l.touch (.judged (l.judgement settings now))).Agrees := by
  intro hrecording s hs
  obtain ⟨d, hdata⟩ : ∃ d, l.span.data = some d := Option.isSome_iff_exists.mp hrecording
  rw [first?_judged]
  obtain rfl | hs := List.mem_cons.mp hs
  · rw [judgement_of_data_eq_some hdata]
    cases l.first? <;> rfl
  · rw [h hrecording s hs]
    rfl

theorem agrees_of_data_eq_none {l : Life} (h : l.span.data = none) : l.Agrees := by
  intro hrecording
  rw [Span.isRecording, h] at hrecording
  cases hrecording

/-- What the end of a span comes to depends on its mark only as far as it was judged. -/
theorem forwarded_eq_told {l : Life} {d : SpanData} {m : Deferred.Marks}
    (hdata : l.span.data = some d) (hmark : m.get? d.context = l.first?)
    (settings : DeferredSettings) (endTime : Int) :
    ((Deferred.onEnd settings m { d with endTime }).2.map ProcessorCall.onEnd).toList =
      l.told settings endTime := by
  rw [told, hdata, Deferred.onEnd_eq, ← hmark]

end Life

/-! ## Runs -/

/-- What is asked of a tracer and of its sampler. -/
inductive TracerCall where
  | start (id : String) (s : SpanStart) (now : Nat)
  | change (id : String) (f : SpanChange)
  | precompute (id : String) (now : Int)
  | finish (id : String) (endTime : Int)
  | update (settings : Settings) (now : Nat)

/-- The span that a call is about, if any. -/
def TracerCall.id? : TracerCall → Option String
  | .start id _ _ | .change id _ | .precompute id _ | .finish id _ => some id
  | .update _ _ => none

/-- The span that a call starts, and the key of its mark. -/
def TracerCall.start? : TracerCall → Option (String × TraceId × SpanId)
  | .start id s _ => some (id, s.key)
  | _ => none

/-- Two calls do not start the same span. -/
def TracerCall.Apart (a b : TracerCall) : Prop :=
  ∀ p ∈ a.start?, ∀ q ∈ b.start?, p.1 ≠ q.1 ∧ p.2 ≠ q.2

instance : DecidableRel TracerCall.Apart := fun a b =>
  inferInstanceAs (Decidable (∀ p ∈ a.start?, ∀ q ∈ b.start?, p.1 ≠ q.1 ∧ p.2 ≠ q.2))

inductive TracerEvent where
  | started (id : String) (span : Span)
  | touched (id : String) (touch : Touch)
  | updated (settings : Settings)

/-- Events, the latest first. -/
abbrev TracerLog := List TracerEvent

namespace TracerLog

/-- The life of a span, of which only its own events tell. -/
def life (id : String) : TracerLog → Option Life
  | [] => none
  | .started other span :: earlier => if other = id then some { span } else life id earlier
  | .touched other touch :: earlier =>
    if other = id then (life id earlier).map (·.touch touch) else life id earlier
  | .updated _ :: earlier => life id earlier

/-- The settings in force, given those at the beginning. -/
def settings (first : Snapshot) : TracerLog → DeferredSettings
  | [] => first.settings.deferred
  | .updated settings :: _ => (Snapshot.compile settings).settings.deferred
  | _ :: earlier => settings first earlier

def starts : TracerLog → List (String × TraceId × SpanId)
  | [] => []
  | .started id span :: earlier => (id, span.context.key) :: starts earlier
  | _ :: earlier => starts earlier

/-- The live recording spans that were judged. -/
def waiting (log : TracerLog) : List (String × TraceId × SpanId) :=
  log.starts.filter fun p => (log.life p.1).any (·.isPending)

end TracerLog

/-- A call does not start what was started before. -/
def TracerCall.Fresh (call : TracerCall) (log : TracerLog) : Prop :=
  ∀ p ∈ log.starts, ∀ q ∈ call.start?, p.1 ≠ q.1 ∧ p.2 ≠ q.2

namespace Tracer

/-- Serves a call and tells what has happened. -/
def serve (t : Tracer) : TracerCall → Tracer × TracerEvent
  | .start id s now => ((t.start id s now).1, .started id (t.start id s now).2.1)
  | .change id f => (t.modify id f.apply, .touched id (.changed f))
  | .precompute id now =>
    ((t.precompute id now).1, .touched id (.judged (t.precompute id now).2))
  | .finish id endTime => ((t.finish id endTime).1, .touched id .ended)
  | .update settings now =>
    ({ t with sampler := t.sampler.update settings now }, .updated settings)

theorem serve_addAttributes (t : Tracer) (id : String) (attributes : List Attribute) :
    (t.serve (.change id (.addAttributes attributes))).1 = t.addAttributes id attributes := rfl

theorem serve_raiseStatus (t : Tracer) (id : String) (status : SpanStatus) :
    (t.serve (.change id (.raiseStatus status))).1 = t.raiseStatus id status := rfl

/-- Serves calls one after the other and logs what happens. -/
def run : Tracer → TracerLog → List TracerCall → Tracer × TracerLog
  | t, log, [] => (t, log)
  | t, log, call :: calls => (t.serve call).1.run ((t.serve call).2 :: log) calls

theorem life_serve_of_ne (t : Tracer) (log : TracerLog) {call : TracerCall} {id : String}
    (h : call.id? ≠ some id) : TracerLog.life id ((t.serve call).2 :: log) = log.life id := by
  cases call with
  | start other s now => exact if_neg fun hid => h (congrArg some hid)
  | change other f => exact if_neg fun hid => h (congrArg some hid)
  | precompute other now => exact if_neg fun hid => h (congrArg some hid)
  | finish other endTime => exact if_neg fun hid => h (congrArg some hid)
  | update settings now => rfl

/-- Calls about others have no part in the life of a span. -/
theorem life_run_of_others (t : Tracer) (log : TracerLog) {id : String} {calls : List TracerCall}
    (h : ∀ call ∈ calls, call.id? ≠ some id) : (t.run log calls).2.life id = log.life id := by
  induction calls generalizing t log with
  | nil => rfl
  | cons call calls ih =>
    have hrest := ih (t.serve call).1 ((t.serve call).2 :: log)
      fun later hlater => h later (List.mem_cons_of_mem _ hlater)
    exact hrest.trans (life_serve_of_ne t log (h call List.mem_cons_self))

end Tracer

/-! ## What a log tells of its lives -/

/-- What is known of a span is about that span, and the judgements on it agree. -/
structure Life.Sound (l : Life) : Prop where
  tied : l.span.Tied
  agrees : l.Agrees

/-- A log in which every span was started once and under a key of its own. -/
structure TracerLog.Sound (log : TracerLog) : Prop where
  names : (log.starts.map (·.1)).Nodup
  keys : (log.starts.map (·.2)).Nodup
  lives : ∀ id l, log.life id = some l → (id, l.key) ∈ log.starts ∧ l.Sound

namespace TracerLog

variable {log : TracerLog} {id : String} {l : Life}

theorem life_touched (hl : log.life id = some l) (touch : Touch) (other : String) :
    life other (.touched id touch :: log) =
      if other = id then some (l.touch touch) else log.life other := by
  rw [life]
  by_cases hid : id = other
  · rw [if_pos hid, if_pos hid.symm, ← hid, hl, Option.map_some]
  · rw [if_neg hid, if_neg (Ne.symm hid)]

/-- Nothing happens to a span that was not started. -/
theorem life_touched_of_none (h : log.life id = none) (touch : Touch) (other : String) :
    life other (.touched id touch :: log) = log.life other := by
  rw [life]
  split
  · next hid => rw [← hid, h, Option.map_none]
  · rfl

namespace Sound

theorem nil : Sound [] := ⟨.nil, .nil, nofun⟩

theorem id_eq (h : log.Sound) {other : String} {l' : Life} (hl : log.life id = some l)
    (hl' : log.life other = some l') (hkey : l.key = l'.key) : id = other := by
  have hpair : (id, l.key) = (other, l'.key) :=
    List.inj_on_of_nodup_map h.keys (h.lives id l hl).1 (h.lives other l' hl').1 hkey
  exact congrArg Prod.fst hpair

theorem mem_waiting_iff (h : log.Sound) (key : TraceId × SpanId) :
    key ∈ log.waiting.map (·.2) ↔
      ∃ id l, log.life id = some l ∧ l.key = key ∧ l.isPending = true := by
  rw [List.mem_map]
  constructor
  · rintro ⟨⟨id, key⟩, hmem, rfl⟩
    obtain ⟨hstarted, hpending⟩ := List.mem_filter.mp hmem
    obtain ⟨l, hl, hpending⟩ := (Option.any_eq_true _ _).mp hpending
    have hpair : (id, l.key) = (id, key) :=
      List.inj_on_of_nodup_map h.names (h.lives id l hl).1 hstarted rfl
    exact ⟨id, l, hl, congrArg Prod.snd hpair, hpending⟩
  · rintro ⟨id, l, hl, rfl, hpending⟩
    refine ⟨(id, l.key), List.mem_filter.mpr ⟨(h.lives id l hl).1, ?_⟩, rfl⟩
    exact (Option.any_eq_true _ _).mpr ⟨l, hl, hpending⟩

theorem touched (h : log.Sound) (hl : log.life id = some l) {touch : Touch}
    (hagrees : (l.touch touch).Agrees) : Sound (.touched id touch :: log) where
  names := h.names
  keys := h.keys
  lives other l' hl' := by
    rw [life_touched hl] at hl'
    split at hl'
    · next hid =>
      obtain ⟨hmem, hsound⟩ := h.lives id l hl
      obtain rfl := Option.some_inj.mp hl'
      rw [Life.key_touch, hid]
      exact ⟨hmem, Life.tied_touch hsound.tied touch, hagrees⟩
    · exact h.lives other l' hl'

theorem touched_of_none (h : log.Sound) (hl : log.life id = none) (touch : Touch) :
    Sound (.touched id touch :: log) where
  names := h.names
  keys := h.keys
  lives other l' hl' := h.lives other l' (by rwa [life_touched_of_none hl] at hl')

theorem started (h : log.Sound) {span : Span} (htied : span.Tied)
    (hfresh : ∀ p ∈ log.starts, p.1 ≠ id ∧ p.2 ≠ span.context.key) :
    Sound (.started id span :: log) where
  names := by
    refine List.nodup_cons.mpr ⟨fun hmem => ?_, h.names⟩
    obtain ⟨p, hp, hid⟩ := List.mem_map.mp hmem
    exact (hfresh p hp).1 hid
  keys := by
    refine List.nodup_cons.mpr ⟨fun hmem => ?_, h.keys⟩
    obtain ⟨p, hp, hkey⟩ := List.mem_map.mp hmem
    exact (hfresh p hp).2 hkey
  lives other l' hl' := by
    rw [life] at hl'
    split at hl'
    · next hid =>
      obtain rfl := hid
      obtain rfl := Option.some_inj.mp hl'
      exact ⟨List.mem_cons_self, htied, fun _ => nofun⟩
    · obtain ⟨hmem, hsound⟩ := h.lives other l' hl'
      exact ⟨List.mem_cons_of_mem _ hmem, hsound⟩

end Sound

end TracerLog

end TraceSampling
