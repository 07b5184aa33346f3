import Mathlib.Data.List.Perm.Subperm
import TraceSampling.Proofs.Table
import TraceSampling.Proofs.Tracer.Life

/-!
# Verdicts on spans

Spans share the marks of their sampler, but each is judged as if it had the tracer to itself. What
becomes of a span depends on its own life and the settings in force, and the first judgement of a
live span stays with it until it ends.
-/

namespace TraceSampling

/-! ## Marks -/

namespace Deferred.Marks

variable {m : Marks} (h : (m.map (·.1)).Nodup) (c : SpanContext)

include h

theorem nodup_erase : ((m.erase c).map (·.1)).Nodup := h.sublist (List.filter_sublist.map _)

theorem nodup_put (s : Strategy) : ((m.put c s).map (·.1)).Nodup := by
  refine List.nodup_cons.mpr ⟨fun hmem => ?_, nodup_erase h c⟩
  rw [← Table.isSome_lookup_iff, erase, Table.lookup_filter_self] at hmem
  cases hmem

end Deferred.Marks

/-! ## The tracer and its log -/

/-- A tracer whose spans and settings are those of a log, and whose marks are the judgements with
which live spans wait. -/
structure Tracer.Mirrors (t : Tracer) (first : Snapshot) (log : TracerLog) : Prop where
  up : t.isShutDown = false
  settings_eq : t.sampler.snapshot.settings.deferred = log.settings first
  span?_eq : ∀ id, t.span? id = (log.life id).map (·.span)
  lookup_key : ∀ id l, log.life id = some l → t.sampler.marks.lookup l.key = l.pending?
  owned : ∀ key, (t.sampler.marks.lookup key).isSome = true →
    ∃ id l, log.life id = some l ∧ l.key = key
  nodup : (t.sampler.marks.map (·.1)).Nodup
  sound : log.Sound

namespace Tracer.Mirrors

variable {t : Tracer} {first : Snapshot} {log : TracerLog} {id : String} {l : Life}

theorem fresh {sampler : Sampler} (hmarks : sampler.marks = []) :
    Mirrors { sampler } sampler.snapshot [] where
  up := rfl
  settings_eq := rfl
  span?_eq _ := rfl
  lookup_key _ _ := nofun
  owned key := by simp [hmarks]
  nodup := by simp [hmarks]
  sound := .nil

theorem span?_of_life (h : t.Mirrors first log) (hl : log.life id = some l) :
    t.span? id = some l.span := by
  rw [h.span?_eq, hl, Option.map_some]

theorem span?_self (h : t.Mirrors first log) (hl : log.life id = some l) (other : String) :
    t.span? other = if other = id then some l.span else t.span? other := by
  split
  · next hother => rw [hother, h.span?_of_life hl]
  · rfl

theorem span?_of_none (h : t.Mirrors first log) (hl : log.life id = none) : t.span? id = none := by
  rw [h.span?_eq, hl, Option.map_none]

/-! ### Calls about one span -/

/-- What happens to a span changes no mark but its own. -/
theorem touched (h : t.Mirrors first log) (hl : log.life id = some l) {touch : Touch} {t' : Tracer}
    (hagrees : (l.touch touch).Agrees) (hup : t'.isShutDown = false)
    (hsnapshot : t'.sampler.snapshot = t.sampler.snapshot)
    (hspan : ∀ other, t'.span? other =
      if other = id then some (l.touch touch).span else t.span? other)
    (hlookup : ∀ key, t'.sampler.marks.lookup key =
      if key = l.key then (l.touch touch).pending? else t.sampler.marks.lookup key)
    (hnodup : (t'.sampler.marks.map (·.1)).Nodup) :
    t'.Mirrors first (.touched id touch :: log) where
  up := hup
  settings_eq := by
    rw [hsnapshot]
    exact h.settings_eq
  span?_eq other := by
    rw [hspan, TracerLog.life_touched hl]
    split
    · rfl
    · exact h.span?_eq other
  lookup_key other l' hl' := by
    rw [TracerLog.life_touched hl] at hl'
    split at hl'
    · obtain rfl := Option.some_inj.mp hl'
      rw [hlookup, if_pos (l.key_touch touch)]
    · next hother =>
      -- Another span has another key, and so its mark stays.
      have hkey : l'.key ≠ l.key := fun hkey => hother (h.sound.id_eq hl' hl hkey)
      rw [hlookup, if_neg hkey]
      exact h.lookup_key other l' hl'
  owned key hkey := by
    have hown : ∃ id l, log.life id = some l ∧ l.key = key := by
      by_cases hmine : key = l.key
      · exact ⟨id, l, hl, hmine.symm⟩
      · rw [hlookup, if_neg hmine] at hkey
        exact h.owned key hkey
    obtain ⟨other, l', hl', rfl⟩ := hown
    by_cases hother : other = id
    · obtain rfl := hother
      obtain rfl := Option.some_inj.mp (hl'.symm.trans hl)
      exact ⟨other, l'.touch touch, (TracerLog.life_touched hl touch other).trans (if_pos rfl),
        l'.key_touch touch⟩
    · exact ⟨other, l', by rwa [TracerLog.life_touched hl, if_neg hother], rfl⟩
  nodup := hnodup
  sound := h.sound.touched hl hagrees

/-- What does not change with what a span waits with needs no change of marks. -/
theorem touched_of_pending?_eq (h : t.Mirrors first log) (hl : log.life id = some l)
    {touch : Touch} {t' : Tracer} (hagrees : (l.touch touch).Agrees)
    (hpending : (l.touch touch).pending? = l.pending?) (hup : t'.isShutDown = false)
    (hsampler : t'.sampler = t.sampler)
    (hspan : ∀ other, t'.span? other =
      if other = id then some (l.touch touch).span else t.span? other) :
    t'.Mirrors first (.touched id touch :: log) := by
  refine h.touched hl hagrees hup (by rw [hsampler]) hspan (fun key => ?_) ?_
  · rw [hsampler, hpending]
    split
    · next hkey => rw [hkey, h.lookup_key id l hl]
    · rfl
  · rw [hsampler]
    exact h.nodup

theorem touched_of_none (h : t.Mirrors first log) (hl : log.life id = none) (touch : Touch) :
    t.Mirrors first (.touched id touch :: log) where
  up := h.up
  settings_eq := h.settings_eq
  span?_eq other := by rw [TracerLog.life_touched_of_none hl, h.span?_eq]
  lookup_key other l' hl' :=
    h.lookup_key other l' (by rwa [TracerLog.life_touched_of_none hl] at hl')
  owned key hkey := by
    obtain ⟨other, l', hl', hkey'⟩ := h.owned key hkey
    exact ⟨other, l', by rwa [TracerLog.life_touched_of_none hl], hkey'⟩
  nodup := h.nodup
  sound := h.sound.touched_of_none hl touch

theorem change (h : t.Mirrors first log) (id : String) (f : SpanChange) :
    (t.modify id f.apply).Mirrors first (.touched id (.changed f) :: log) := by
  cases hl : log.life id with
  | none =>
    rw [modify, h.span?_of_none hl]
    exact h.touched_of_none hl _
  | some l =>
    have hagrees : (l.touch (.changed f)).Agrees := by
      rw [Life.Agrees, Life.isRecording_changed]
      exact (h.sound.lives id l hl).2.agrees
    rw [modify, h.span?_of_life hl]
    exact h.touched_of_pending?_eq hl hagrees (l.pending?_changed f) h.up rfl
      fun other => span?_put t id other _

/-- Only a live span that was not judged before gets a mark. -/
theorem precompute_eq (h : t.Mirrors first log) (hl : log.life id = some l) (now : Int) :
    let strategy := l.judgement (log.settings first) now
    let marks := t.sampler.marks
    t.precompute id now =
      ({ t with sampler := { t.sampler with
          marks := if l.span.isRecording ∧ l.first? = none then marks.put l.span.context strategy
            else marks } }, strategy) := by
  have hget : t.sampler.marks.get? l.span.context = l.pending? := h.lookup_key id l hl
  unfold precompute Deferred.precomputeSpan
  rw [h.span?_of_life hl, ← h.settings_eq]
  dsimp only
  rw [hget]
  cases hdata : l.span.data with
  | none => simp [Life.pending?_of_data_eq_none hdata, Life.judgement, Span.isRecording, hdata]
  | some d =>
    rw [Life.pending?_of_data_eq_some hdata, Life.judgement_of_data_eq_some hdata]
    cases hfirst : l.first? with
    | none => simp [Span.isRecording, hdata]
    | some strategy => simp

theorem precompute (h : t.Mirrors first log) (id : String) (now : Int) :
    (t.precompute id now).1.Mirrors first
      (.touched id (.judged (t.precompute id now).2) :: log) := by
  cases hl : log.life id with
  | none =>
    rw [Tracer.precompute, h.span?_of_none hl]
    exact h.touched_of_none hl _
  | some l =>
    have hagrees := (h.sound.lives id l hl).2.agrees.judged (log.settings first) now
    have hspan := h.span?_self hl
    rw [h.precompute_eq hl now]
    by_cases hnew : l.span.isRecording = true ∧ l.first? = none
    · refine h.touched hl hagrees h.up rfl hspan (fun key => ?_) ?_
      · rw [if_pos hnew, Life.pending?_judged, if_pos hnew.1, hnew.2]
        exact Table.lookup_replace l.key key _ _
      · rw [if_pos hnew]
        exact Deferred.Marks.nodup_put h.nodup _ _
    · rw [if_neg hnew]
      exact h.touched_of_pending?_eq hl hagrees (Life.pending?_judged_again hnew _) h.up rfl
        hspan

/-- A live span is marked with the first judgement on it. -/
theorem get?_of_data (h : t.Mirrors first log) (hl : log.life id = some l) {d : SpanData}
    (hdata : l.span.data = some d) : t.sampler.marks.get? d.context = l.first? := by
  have hget : t.sampler.marks.get? l.span.context = l.pending? := h.lookup_key id l hl
  have htied : d.context = l.span.context := (h.sound.lives id l hl).2.tied d hdata
  rw [htied, hget, Life.pending?_of_data_eq_some hdata]

/-- What is forwarded at the end of a span, and what is left of its mark. -/
theorem finish_spec (h : t.Mirrors first log) (hl : log.life id = some l) (endTime : Int) :
    let next := (t.finish id endTime).1
    (t.finish id endTime).2 = l.told (log.settings first) endTime ∧ next.isShutDown = false ∧
      next.sampler.snapshot = t.sampler.snapshot ∧
      (∀ other, next.span? other =
        if other = id then some { l.span with data := none } else t.span? other) ∧
      next.sampler.marks =
        if l.span.isRecording then t.sampler.marks.erase l.span.context else t.sampler.marks := by
  have htied := (h.sound.lives id l hl).2.tied
  have hrunning : ¬ t.isShutDown = true := by simp [h.up]
  unfold finish
  rw [h.span?_of_life hl]
  dsimp only
  cases hdata : l.span.data with
  | none =>
    refine ⟨by rw [Life.told, hdata], h.up, rfl, fun other => span?_put t id other _, ?_⟩
    rw [Span.isRecording, hdata]
    rfl
  | some d =>
    have hput : ¬ (t.put id { l.span with data := none }).isShutDown = true := hrunning
    dsimp only
    rw [if_neg hput, Span.isRecording, hdata, ← h.settings_eq]
    refine ⟨Life.forwarded_eq_told hdata (h.get?_of_data hl hdata) _ endTime, h.up, rfl,
      fun other => span?_put t id other _, ?_⟩
    rw [← htied d hdata]
    exact Deferred.onEnd_marks _ _ _

theorem finish (h : t.Mirrors first log) (id : String) (endTime : Int) :
    (t.finish id endTime).1.Mirrors first (.touched id .ended :: log) := by
  cases hl : log.life id with
  | none =>
    rw [Tracer.finish, h.span?_of_none hl]
    exact h.touched_of_none hl _
  | some l =>
    obtain ⟨-, hup, hsnapshot, hspan, hmarks⟩ := h.finish_spec hl endTime
    have hended : (l.touch .ended).pending? = none := Life.pending?_of_data_eq_none rfl
    refine h.touched hl (Life.agrees_of_data_eq_none rfl) hup hsnapshot hspan (fun key => ?_) ?_
    · rw [hmarks, hended]
      cases hrecording : l.span.isRecording with
      | true => exact Table.lookup_remove l.key key _
      | false =>
        have hpending : l.pending? = none := by simp [Life.pending?, hrecording]
        rw [if_neg (by simp)]
        split
        · next hkey => rw [hkey, h.lookup_key id l hl, hpending]
        · rfl
    · rw [hmarks]
      split
      · exact Deferred.Marks.nodup_erase h.nodup _
      · exact h.nodup

/-! ### Other calls -/

theorem start (h : t.Mirrors first log) {id : String} {s : SpanStart} {next : Tracer}
    {span : Span} (hstart : t.Starts id s next span)
    (hfresh : ∀ p ∈ log.starts, p.1 ≠ id ∧ p.2 ≠ span.context.key) :
    next.Mirrors first (.started id span :: log) where
  up := hstart.up
  settings_eq := by
    rw [hstart.snapshot_eq]
    exact h.settings_eq
  span?_eq other := by
    rw [hstart.span?_eq, TracerLog.life]
    by_cases hid : other = id
    · rw [if_pos hid, if_pos hid.symm]
      rfl
    · rw [if_neg hid, if_neg (Ne.symm hid), h.span?_eq]
  lookup_key other l hl := by
    rw [hstart.marks_eq]
    rw [TracerLog.life] at hl
    split at hl
    · -- A mark under the new key would belong to a span that was started before.
      obtain rfl := Option.some_inj.mp hl
      have hunjudged : Life.pending? { span } = none := ite_self none
      rw [hunjudged, ← Option.not_isSome_iff_eq_none]
      intro hsome
      obtain ⟨earlier, l, hl, hkey⟩ := h.owned _ hsome
      exact (hfresh _ (h.sound.lives earlier l hl).1).2 hkey
    · exact h.lookup_key other l hl
  owned key hsome := by
    rw [hstart.marks_eq] at hsome
    obtain ⟨other, l, hl, hkey⟩ := h.owned key hsome
    have hother : id ≠ other := (hfresh _ (h.sound.lives other l hl).1).1.symm
    exact ⟨other, l, by rwa [TracerLog.life, if_neg hother], hkey⟩
  nodup := by
    rw [hstart.marks_eq]
    exact h.nodup
  sound := h.sound.started hstart.tied hfresh

theorem update (h : t.Mirrors first log) (settings : Settings) (now : Nat) :
    Mirrors { t with sampler := t.sampler.update settings now } first
      (.updated settings :: log) := by
  obtain ⟨hsnapshot, hmarks⟩ := Prod.mk.inj (t.sampler.judging_update now settings)
  refine ⟨h.up, congrArg (·.settings.deferred) hsnapshot, h.span?_eq, ?_, ?_, ?_,
    h.sound.names, h.sound.keys, h.sound.lives⟩
  · rw [hmarks]
    exact h.lookup_key
  · rw [hmarks]
    exact h.owned
  · rw [hmarks]
    exact h.nodup

/-! ### Runs -/

theorem serve (h : t.Mirrors first log) {call : TracerCall} (hfresh : call.Fresh log) :
    (t.serve call).1.Mirrors first ((t.serve call).2 :: log) := by
  cases call with
  | start id s now =>
    have hstart := start_spec h.up id s now
    exact h.start hstart fun p hp => hstart.key_eq ▸ hfresh p hp (id, s.key) rfl
  | change id f => exact h.change id f
  | precompute id now => exact h.precompute id now
  | finish id endTime => exact h.finish id endTime
  | update settings now => exact h.update settings now

theorem starts_serve (h : t.Mirrors first log) (call : TracerCall) :
    TracerLog.starts ((t.serve call).2 :: log) = call.start?.toList ++ log.starts := by
  cases call with
  | start id s now =>
    exact congrArg (fun key => (id, key) :: log.starts) (start_spec h.up id s now).key_eq
  | change id f => rfl
  | precompute id now => rfl
  | finish id endTime => rfl
  | update settings now => rfl

theorem run (h : t.Mirrors first log) {calls : List TracerCall}
    (hapart : calls.Pairwise TracerCall.Apart) (hfresh : ∀ call ∈ calls, call.Fresh log) :
    (t.run log calls).1.Mirrors first (t.run log calls).2 := by
  -- What a call starts is in the log from then on, so the calls behind it are fresh against that.
  induction calls generalizing t log with
  | nil => exact h
  | cons call calls ih =>
    obtain ⟨hcall, hcalls⟩ := List.pairwise_cons.mp hapart
    refine ih (h.serve (hfresh call List.mem_cons_self)) hcalls ?_
    intro later hlater p hp
    rw [h.starts_serve, List.mem_append, Option.mem_toList] at hp
    obtain hp | hp := hp
    · exact hcall later hlater p hp
    · exact hfresh later (List.mem_cons_of_mem _ hlater) p hp

/-- There are as many marks as spans that wait with a judgement. -/
theorem length_marks (h : t.Mirrors first log) :
    t.sampler.marks.length = log.waiting.length := by
  have hkeys : (log.waiting.map (·.2)).Nodup :=
    h.sound.keys.sublist (List.filter_sublist.map Prod.snd)
  -- Marks and waiting spans have the same keys, and neither have a key twice.
  have hperm : (t.sampler.marks.map (·.1)).Perm (log.waiting.map (·.2)) := by
    refine (List.perm_ext_iff_of_nodup h.nodup hkeys).mpr fun key => ?_
    rw [← Table.isSome_lookup_iff, h.sound.mem_waiting_iff]
    constructor
    · intro hsome
      obtain ⟨id, l, hl, rfl⟩ := h.owned key hsome
      rw [h.lookup_key id l hl] at hsome
      exact ⟨id, l, hl, rfl, hsome⟩
    · rintro ⟨id, l, hl, rfl, hpending⟩
      rw [h.lookup_key id l hl]
      exact hpending
  simpa using hperm.length_eq

end Tracer.Mirrors

/-- Behind any calls about distinct spans, all judgements on a live span are the first one; the next
one repeats it and is otherwise made under the settings in force, and so is the verdict at its end.
Calls about other spans have no part in this, and there are as many marks as spans that wait. -/
theorem Tracer.run_verdicts {sampler : Sampler} (hmarks : sampler.marks = [])
    {calls : List TracerCall} (hapart : calls.Pairwise TracerCall.Apart) :
    let t := (Tracer.run { sampler } [] calls).1
    let log := (Tracer.run { sampler } [] calls).2
    let settings := log.settings sampler.snapshot
    (∀ id, t.span? id = (log.life id).map (·.span)) ∧
    (∀ id l, log.life id = some l → l.span.isRecording = true →
      ∀ s ∈ l.judgements, l.judgements.getLast? = some s) ∧
    (∀ id now, (t.precompute id now).2 =
      ((log.life id).map (·.judgement settings now)).getD .notMatch) ∧
    (∀ id endTime, (t.finish id endTime).2 =
      ((log.life id).map (·.told settings endTime)).getD []) ∧
    (∀ id others, (∀ call ∈ others, call.id? ≠ some id) →
      (t.run log others).2.life id = log.life id) ∧
    t.sampler.marks.length = log.waiting.length := by
  intro t log settings
  have h : t.Mirrors sampler.snapshot log := (Mirrors.fresh hmarks).run hapart fun _ _ => nofun
  refine ⟨h.span?_eq, fun id l hl => (h.sound.lives id l hl).2.agrees, fun id now => ?_,
    fun id endTime => ?_, fun id others => t.life_run_of_others log, h.length_marks⟩
  · cases hl : log.life id with
    | none =>
      rw [precompute, h.span?_of_none hl]
      rfl
    | some l =>
      rw [h.precompute_eq hl now]
      rfl
  · cases hl : log.life id with
    | none =>
      rw [finish, h.span?_of_none hl]
      rfl
    | some l => exact (h.finish_spec hl endTime).1

/-- A sampler that only keeps what fails. -/
def keepingFailures : Sampler :=
  let settings : Settings := { fraction := .zero, deferred := { enabled := true } }
  .make { settings, background := false } 0

/-- Two spans of a trace fail, one of them after it was judged. -/
def failing : List TracerCall :=
  let request : Request := { traceId := 1, name := "GET /cart", kind := .internal }
  [.start "cart" { request, spanId := 1 } 0,
    .start "stock" { request, spanId := 2 } 0,
    .precompute "cart" 10,
    .change "cart" (.raiseStatus (.error "boom")),
    .change "stock" (.raiseStatus (.error "boom"))]

theorem run_failing :
    let t := (Tracer.run { sampler := keepingFailures } [] failing).1
    (t.precompute "cart" 20).2 = .notMatch ∧ (t.finish "cart" 20).2 = [] ∧
      (t.precompute "stock" 20).2 = .error ∧
      (∃ d, (t.finish "stock" 20).2 = [.onEnd d] ∧ d.context.flags = 1 ∧
        d.attributes.getLast? = some ⟨Key.strategy, .text "error"⟩) ∧
      t.sampler.marks.length = 1 := by
  obtain ⟨-, -, hjudged, htold, -, hcount⟩ :=
    @Tracer.run_verdicts keepingFailures rfl failing (by decide)
  refine ⟨(hjudged "cart" 20).trans ?_, (htold "cart" 20).trans ?_,
    (hjudged "stock" 20).trans ?_, ⟨_, (htold "stock" 20).trans rfl, rfl, rfl⟩, hcount.trans ?_⟩
  · decide +kernel
  · rfl
  · decide +kernel
  · decide +kernel

end TraceSampling
