import TraceSampling.Sampler.Basic

/-!
# When a sampler renews what

The log of a sampler with a rotation tells when each item was renewed last and which intervals were
in force when the running wait began. The two together are the deadline of the item. A wake-up renews
exactly what is past its deadline then, and whatever it renews is not due again at that time.
-/

namespace TraceSampling

/-! ## Intervals and deadlines -/

theorem nonZeroOr_pos {fallback : Nat} (h : 0 < fallback) (n : Nat) : 0 < nonZeroOr fallback n := by
  unfold nonZeroOr
  split <;> omega

theorem nanosPerSecond_pos : 0 < nanosPerSecond := by decide

theorem Settings.intervals_sanitize_pos (s : Settings) (i : Item) :
    0 < s.sanitize.intervals.get i := by
  cases i with
  | window =>
    rw [intervals, PerItem.get]
    exact Nat.mul_pos (nonZeroOr_pos (by decide) _) nanosPerSecond_pos
  | cache =>
    rw [intervals, PerItem.get]
    exact Nat.mul_pos (nonZeroOr_pos (by decide) _) nanosPerSecond_pos
  | budget =>
    rw [intervals, PerItem.get]
    exact Nat.mul_pos (by decide) nanosPerSecond_pos

/-- The clock at a wake-up; messages are served without a look at it. -/
def WakeUp.clock : WakeUp → Nat
  | .timeout now => now
  | .reschedule | .stop => 0

namespace Rotation

variable (r : Rotation) (now : Nat) (i : Item)

/-- When an item is to be renewed in the running wait, on a clock without end. -/
def due : Nat := r.last.get i + r.waiting.get i

theorem isDue_iff : r.isDue now i = true ↔ r.due i ≤ now ∧ r.due i ≤ clockEnd := by
  unfold isDue deadline? due
  dsimp only
  split
  · next h => simp [h]
  · next h => simp [h]

theorem mem_dueItems_iff : i ∈ r.dueItems now ↔ r.due i ≤ now ∧ r.due i ≤ clockEnd := by
  have hall : i ∈ Item.all := by cases i <;> decide
  rw [dueItems, List.mem_filter, and_iff_right hall, isDue_iff]

variable {r}

theorem wake_of_stopped (h : r.stopped = true) (w : WakeUp) (intervals : PerItem Nat) :
    r.wake w intervals = (r, []) := if_pos h

theorem wake_timeout (h : r.stopped = false) (intervals : PerItem Nat) :
    r.wake (.timeout now) intervals =
      ({ r with
          last := .ofFn fun i => if r.isDue now i then now else r.last.get i
          waiting := intervals },
        r.dueItems now) := if_neg (ne_true_of_eq_false h)

theorem wake_reschedule (h : r.stopped = false) (intervals : PerItem Nat) :
    r.wake .reschedule intervals = ({ r with waiting := intervals }, []) :=
  if_neg (ne_true_of_eq_false h)

theorem wake_stop (h : r.stopped = false) (intervals : PerItem Nat) :
    r.wake .stop intervals = ({ r with stopped := true }, []) := if_neg (ne_true_of_eq_false h)

variable (r) (w : WakeUp) (intervals : PerItem Nat)

/-- Items are renewed in their own order, none of them twice. -/
theorem wake_items : ∃ p, (r.wake w intervals).2 = Item.all.filter p := by
  have hnone : ([] : List Item) = Item.all.filter fun _ => false := rfl
  cases hstopped : r.stopped with
  | true => exact ⟨_, (congrArg Prod.snd (wake_of_stopped hstopped w intervals)).trans hnone⟩
  | false =>
    cases w with
    | timeout now => exact ⟨r.isDue now, congrArg Prod.snd (wake_timeout now hstopped intervals)⟩
    | reschedule => exact ⟨_, (congrArg Prod.snd (wake_reschedule hstopped intervals)).trans hnone⟩
    | stop => exact ⟨_, (congrArg Prod.snd (wake_stop hstopped intervals)).trans hnone⟩

/-- Only a timeout renews anything, and only what is past its deadline. -/
theorem mem_wake_iff :
    i ∈ (r.wake w intervals).2 ↔
      r.stopped = false ∧ ∃ now, w = .timeout now ∧ r.due i ≤ now ∧ r.due i ≤ clockEnd := by
  cases hstopped : r.stopped with
  | true => simp [wake_of_stopped hstopped]
  | false =>
    cases w with
    | timeout now => simp [wake_timeout now hstopped, mem_dueItems_iff]
    | reschedule => simp [wake_reschedule hstopped]
    | stop => simp [wake_stop hstopped]

theorem last_wake :
    (r.wake w intervals).1.last.get i =
      if i ∈ (r.wake w intervals).2 then w.clock else r.last.get i := by
  cases hstopped : r.stopped with
  | true => simp [wake_of_stopped hstopped]
  | false =>
    cases w with
    | timeout now => simp [wake_timeout now hstopped, mem_dueItems_iff, isDue_iff, WakeUp.clock]
    | reschedule => simp [wake_reschedule hstopped]
    | stop => simp [wake_stop hstopped]

theorem stopped_wake : (r.wake w intervals).1.stopped = (w = .stop || r.stopped) := by
  cases hstopped : r.stopped with
  | true => simp [wake_of_stopped hstopped, hstopped]
  | false =>
    cases w with
    | timeout now => simp [wake_timeout now hstopped, hstopped]
    | reschedule => simp [wake_reschedule hstopped, hstopped]
    | stop => simp [wake_stop hstopped]

theorem waiting_wake (h : (r.wake w intervals).1.stopped = false) :
    (r.wake w intervals).1.waiting = intervals := by
  obtain ⟨hw, hstopped⟩ := Bool.or_eq_false_iff.mp ((r.stopped_wake w intervals).symm.trans h)
  cases w with
  | timeout now => rw [wake_timeout now hstopped]
  | reschedule => rw [wake_reschedule hstopped]
  | stop => simp at hw

end Rotation

/-! ## What a wake-up renews -/

namespace Sampler

variable (s : Sampler) (now : Nat)

/-- The items that a wake-up renews. -/
def renewals (w : WakeUp) : List Item :=
  (s.rotation.map fun r => (r.wake w s.snapshot.settings.intervals).2).getD []

/-- The sampler behind the renewal of some items. -/
def renewed (items : List Item) : Sampler :=
  let edges := if .cache ∈ items then s.edges.reset else s.edges
  { s with
    resources := { s.resources with
      windows := if .window ∈ items then s.resources.windows.rotate now else s.resources.windows }
    edges := if .budget ∈ items then edges.resetBudget else edges }

theorem resources_renewed (items : List Item) :
    (s.renewed now items).resources =
      { s.resources with
        windows :=
          if .window ∈ items then
            { current := { counts := [], distinct := 0, started := now }
              previous := s.resources.windows.current }
          else s.resources.windows } := rfl

theorem side_renewed (items : List Item) (side : Workflow.Side) :
    (s.renewed now items).edges.side side =
      if .cache ∈ items then {} else s.edges.side side := by
  unfold renewed
  cases side <;> dsimp only <;> split <;> split <;> rfl

theorem used_renewed (items : List Item) :
    (s.renewed now items).edges.used = if .budget ∈ items then 0 else s.edges.used := by
  unfold renewed
  dsimp only
  split <;> split <;> rfl

theorem foldl_renew (p : Item → Bool) :
    (Item.all.filter p).foldl (·.renew now) s = s.renewed now (Item.all.filter p) := by
  cases hw : p .window <;> cases hc : p .cache <;> cases hb : p .budget <;>
    simp [Item.all, renewed, renew, hw, hc, hb]

theorem renewals_eq {s : Sampler} {r : Rotation} (h : s.rotation = some r) (w : WakeUp) :
    s.renewals w = (r.wake w s.snapshot.settings.intervals).2 := by
  rw [renewals, h]
  rfl

/-- A wake-up moves the rotation on and renews what it says. -/
theorem wake_eq {s : Sampler} {r : Rotation} (h : s.rotation = some r) (w : WakeUp) :
    s.wake w now =
      { s.renewed now (s.renewals w) with
        rotation := some (r.wake w s.snapshot.settings.intervals).1 } := by
  obtain ⟨p, hp⟩ := r.wake_items w s.snapshot.settings.intervals
  rw [wake, h]
  dsimp only
  rw [renewals_eq h, hp, foldl_renew]
  rfl

end Sampler

/-! ## Runs -/

/-- What comes to a sampler with a rotation: requests, new settings, and wake-ups. -/
inductive RotationCall where
  | request (r : Request) (now : Nat)
  | publish (settings : Settings) (now : Nat)
  | wake (w : WakeUp)

/-- The sampler behind a call, and the items that were renewed. -/
def Sampler.attend (s : Sampler) : RotationCall → Sampler × List Item
  | .request r now => ((s.sample r now).1, [])
  | .publish settings now => (s.publish settings now, [])
  | .wake w => (s.wake w w.clock, s.renewals w)

/-- Calls and the items that each has renewed, the latest first. -/
abbrev RotationLog := List (RotationCall × List Item)

namespace RotationLog

/-- The settings in force, given those at the beginning. -/
def settings (first : Settings) : RotationLog → Settings
  | [] => first
  | (.publish settings _, _) :: _ => settings
  | (.request _ _, _) :: earlier | (.wake _, _) :: earlier => settings first earlier

/-- The settings in force when the running wait began. -/
def awaited (first : Settings) : RotationLog → Settings
  | [] => first
  | (.wake _, _) :: earlier => settings first earlier
  | (.request _ _, _) :: earlier | (.publish _ _, _) :: earlier => awaited first earlier

/-- When an item was renewed last, or else the start. -/
def last (start : Nat) (i : Item) : RotationLog → Nat
  | [] => start
  | (.wake w, renewed) :: earlier => if i ∈ renewed then w.clock else last start i earlier
  | (.request _ _, _) :: earlier | (.publish _ _, _) :: earlier => last start i earlier

def isStopped : RotationLog → Bool
  | [] => false
  | (.wake w, _) :: earlier => w = .stop || isStopped earlier
  | (.request _ _, _) :: earlier | (.publish _ _, _) :: earlier => isStopped earlier

/-- The interval of an item in the running wait. -/
def interval (log : RotationLog) (first : Settings) (i : Item) : Nat :=
  (log.awaited first).sanitize.intervals.get i

theorem interval_pos (log : RotationLog) (first : Settings) (i : Item) :
    0 < log.interval first i := Settings.intervals_sanitize_pos _ i

end RotationLog

/-- Attends to calls one after the other and logs what is renewed. -/
def Sampler.rotate : Sampler → RotationLog → List RotationCall → Sampler × RotationLog
  | s, log, [] => (s, log)
  | s, log, call :: calls => (s.attend call).1.rotate ((call, (s.attend call).2) :: log) calls

/-- A sampler whose rotation waits as a log says. -/
structure Sampler.Waits (s : Sampler) (r : Rotation) (first : Settings) (start : Nat)
    (log : RotationLog) : Prop where
  rotation_eq : s.rotation = some r
  settings_eq : s.snapshot.settings = (log.settings first).sanitize
  stopped_eq : r.stopped = log.isStopped
  last_eq : ∀ i, r.last.get i = log.last start i
  waiting_eq : log.isStopped = false → r.waiting = (log.awaited first).sanitize.intervals

namespace Sampler.Waits

variable {s : Sampler} {r : Rotation} {first : Settings} {start : Nat} {log : RotationLog}

theorem make {o : SamplerOptions} (hbackground : o.background = true) (start : Nat) :
    (Sampler.make o start).Waits (.startAt start o.settings.sanitize.intervals) o.settings start []
    where
  rotation_eq := if_pos hbackground
  settings_eq := rfl
  stopped_eq := rfl
  last_eq i := PerItem.get_ofFn _ i
  waiting_eq _ := rfl

theorem due_eq (h : s.Waits r first start log) (hrunning : log.isStopped = false) (i : Item) :
    r.due i = log.last start i + log.interval first i := by
  rw [Rotation.due, h.last_eq, h.waiting_eq hrunning]
  rfl

theorem mem_renewals_iff (h : s.Waits r first start log) (w : WakeUp) (i : Item) :
    i ∈ s.renewals w ↔ log.isStopped = false ∧ ∃ now, w = .timeout now ∧
      log.last start i + log.interval first i ≤ now ∧
      log.last start i + log.interval first i ≤ clockEnd := by
  rw [renewals_eq h.rotation_eq, Rotation.mem_wake_iff, h.stopped_eq]
  refine and_congr_right fun hrunning => ?_
  rw [h.due_eq hrunning]

/-- A timeout on the clock renews all that is past its deadline. -/
theorem mem_renewals_timeout_iff (h : s.Waits r first start log) (hrunning : log.isStopped = false)
    {now : Nat} (hclock : now ≤ clockEnd) (i : Item) :
    i ∈ s.renewals (.timeout now) ↔ log.last start i + log.interval first i ≤ now := by
  refine (h.mem_renewals_iff _ i).trans
    ⟨?_, fun hi => ⟨hrunning, now, rfl, hi, Nat.le_trans hi hclock⟩⟩
  rintro ⟨-, _, ⟨⟩, hi, -⟩
  exact hi

theorem wake (h : s.Waits r first start log) (w : WakeUp) :
    (s.wake w w.clock).Waits (r.wake w s.snapshot.settings.intervals).1 first start
      ((.wake w, s.renewals w) :: log) := by
  have hstopped : (r.wake w s.snapshot.settings.intervals).1.stopped =
      RotationLog.isStopped ((.wake w, s.renewals w) :: log) := by
    rw [Rotation.stopped_wake, h.stopped_eq]
    rfl
  rw [wake_eq _ h.rotation_eq]
  refine ⟨rfl, h.settings_eq, hstopped, fun i => ?_, fun hrunning => ?_⟩
  · rw [Rotation.last_wake, h.last_eq, ← renewals_eq h.rotation_eq]
    rfl
  · rw [Rotation.waiting_wake _ _ _ (hstopped.trans hrunning), h.settings_eq]
    rfl

theorem attend (h : s.Waits r first start log) (call : RotationCall) :
    ∃ r', (s.attend call).1.Waits r' first start ((call, (s.attend call).2) :: log) := by
  cases call with
  | request request now =>
    exact ⟨r, h.rotation_eq, h.settings_eq, h.stopped_eq, h.last_eq, h.waiting_eq⟩
  | publish settings now => exact ⟨r, h.rotation_eq, rfl, h.stopped_eq, h.last_eq, h.waiting_eq⟩
  | wake w => exact ⟨_, h.wake w⟩

theorem rotate (h : s.Waits r first start log) (calls : List RotationCall) :
    ∃ r', (s.rotate log calls).1.Waits r' first start (s.rotate log calls).2 := by
  induction calls generalizing s r log with
  | nil => exact ⟨r, h⟩
  | cons call calls ih =>
    obtain ⟨r', hnext⟩ := h.attend call
    exact ih hnext

end Sampler.Waits

namespace Sampler

/-- Behind any requests, settings and wake-ups, only a timeout renews anything, and nothing does
behind a stop. Whatever is renewed has waited for the interval that was in force when the wait began,
and its deadline is on the clock. A timeout that comes at the first deadline or any time later renews
something, namely all that is due. No deadline of that wait is left behind it then, and what was
renewed is not due again in the next wait either, whatever the settings are by then. A renewal of the
window opens an empty one and retires the one before it, that of the cache forgets the edges of both
sides, and that of the budget the insertions it has paid for. -/
theorem rotate_keeps_schedule {o : SamplerOptions} (hbackground : o.background = true) (start : Nat)
    (calls : List RotationCall) :
    let s := ((make o start).rotate [] calls).1
    let log := ((make o start).rotate [] calls).2
    let due (i : Item) := log.last start i + log.interval o.settings i
    (∀ w, ∀ i ∈ s.renewals w,
      log.isStopped = false ∧ ∃ now, w = .timeout now ∧ due i ≤ now ∧ due i ≤ clockEnd) ∧
    (∀ now ≤ clockEnd, log.isStopped = false → (∃ i, due i ≤ now) →
      let renewed := s.renewals (.timeout now)
      let next : RotationLog := (.wake (.timeout now), renewed) :: log
      renewed ≠ [] ∧ (∀ i, i ∈ renewed ↔ due i ≤ now) ∧
      (∀ i, now < next.last start i + log.interval o.settings i) ∧
      ∀ i ∈ renewed, now < next.last start i + next.interval o.settings i) ∧
    ∀ w,
      let renewed := s.renewals w
      let next := (s.attend (.wake w)).1
      next.resources =
        { s.resources with
          windows :=
            if .window ∈ renewed then
              { current := { counts := [], distinct := 0, started := w.clock }
                previous := s.resources.windows.current }
            else s.resources.windows } ∧
      (∀ side, next.edges.side side = if .cache ∈ renewed then {} else s.edges.side side) ∧
      next.edges.used = if .budget ∈ renewed then 0 else s.edges.used := by
  intro s log due
  obtain ⟨r, h⟩ := (Waits.make hbackground start).rotate calls
  refine ⟨fun w i hi => (h.mem_renewals_iff w i).mp hi, ?_, ?_⟩
  · intro now hclock hrunning hdue renewed next
    have hrenewed : ∀ i, i ∈ renewed ↔ due i ≤ now := h.mem_renewals_timeout_iff hrunning hclock
    have hlast : ∀ i ∈ renewed, next.last start i = now := fun i hi => if_pos hi
    refine ⟨?_, hrenewed, fun i => ?_, fun i hi => ?_⟩
    · obtain ⟨i, hi⟩ := hdue
      exact List.ne_nil_of_mem ((hrenewed i).mpr hi)
    · have hpos := log.interval_pos o.settings i
      by_cases hi : i ∈ renewed
      · rw [hlast i hi]
        omega
      · have hkept : next.last start i = log.last start i := if_neg hi
        have hlater : now < due i := Nat.lt_of_not_le (mt (hrenewed i).mpr hi)
        rwa [hkept]
    · have hpos := next.interval_pos o.settings i
      rw [hlast i hi]
      omega
  · intro w renewed next
    have hnext : next =
        { s.renewed w.clock renewed with
          rotation := some (r.wake w s.snapshot.settings.intervals).1 } :=
      wake_eq w.clock h.rotation_eq w
    rw [hnext]
    exact ⟨s.resources_renewed w.clock renewed, s.side_renewed w.clock renewed,
      s.used_renewed w.clock renewed⟩

/-- All is renewed that a minute makes due. Then the window is cut down to ten seconds, and a span is
counted in it. -/
def shortened : List RotationCall :=
  [.wake (.timeout 60_000_000_000),
    .publish { minSample := { enabled := true, windowSecs := 10 } } 61_000_000_000,
    .request { traceId := 1, name := "GET /cart", kind := .server } 62_000_000_000,
    .wake .reschedule]

theorem renewals_shortened :
    let s := ((make {} 0).rotate [] shortened).1
    let windows := (s.attend (.wake (.timeout 75_000_000_000))).1.resources.windows
    s.renewals (.timeout 75_000_000_000) ≠ [] ∧
      (∀ i, i ∈ s.renewals (.timeout 75_000_000_000) ↔ i = .window) ∧
      windows.current = { started := 75_000_000_000 } ∧
      windows.previous.started = 60_000_000_000 ∧ windows.previous.distinct = 1 := by
  intro s windows
  obtain ⟨-, htimeout, hrenewed⟩ := rotate_keeps_schedule (o := {}) rfl 0 shortened
  obtain ⟨hsome, hdue, -, -⟩ := htimeout 75_000_000_000 (by decide +kernel) (by decide +kernel)
    ⟨.window, by decide +kernel⟩
  have hitems : ∀ i, i ∈ s.renewals (.timeout 75_000_000_000) ↔ i = .window := fun i =>
    (hdue i).trans (by cases i <;> decide +kernel)
  have hresources := (hrenewed (.timeout 75_000_000_000)).1
  have hwindows : windows = ⟨{ started := 75_000_000_000 }, s.resources.windows.current⟩ := by
    refine (congrArg (·.windows) hresources).trans ?_
    dsimp only
    rw [if_pos ((hitems .window).mpr rfl)]
    rfl
  rw [hwindows]
  exact ⟨hsome, hitems, rfl, by decide +kernel, by decide +kernel⟩

end Sampler

end TraceSampling
