import Mathlib.Data.Finset.Card
import TraceSampling.MinCount
import TraceSampling.Proofs.Table

/-!
# How many spans a floor keeps

Requests to the windows and their answers make a log. The log alone says which keys the running
window tracks and how many spans it has kept under each, although the window counts its keys apart
from them and takes a place before it tracks a key. With a floor that stays the same, a tracked key
has kept all of its requests until it reached the floor, and none after that.
-/

namespace TraceSampling.MinCount

/-! ## One window -/

namespace Window

theorem lookup_increment (k other : UInt64) (counts : List (UInt64 × Nat)) :
    (increment k counts).lookup other =
      if other = k then (counts.lookup other).map (· + 1) else counts.lookup other := by
  induction counts with
  | nil => simp [increment]
  | cons entry rest ih =>
    obtain ⟨k', n⟩ := entry
    by_cases hk : k' = k
    · subst hk
      rw [increment, if_pos rfl, Table.lookup_cons_eq, Table.lookup_cons_eq]
      split <;> simp
    · rw [increment, if_neg hk, Table.lookup_cons_eq, ih, Table.lookup_cons_eq]
      by_cases hother : other = k'
      · subst hother
        rw [if_pos rfl, if_pos rfl, if_neg hk]
      · rw [if_neg hother, if_neg hother]

theorem keys_increment (k : UInt64) (counts : List (UInt64 × Nat)) :
    (increment k counts).map (·.1) = counts.map (·.1) := by
  induction counts with
  | nil => rfl
  | cons entry rest ih =>
    obtain ⟨k', n⟩ := entry
    unfold increment
    split
    · rfl
    · rw [List.map_cons, List.map_cons, ih]

/-- The window with one span more under a tracked key. -/
def counted (w : Window) (k : UInt64) : Window := { w with counts := increment k w.counts }

/-- The window with one key more, and one span under it. -/
def opened (w : Window) (k : UInt64) : Window :=
  { w with counts := (k, 1) :: w.counts, distinct := w.distinct + 1 }

theorem take_tracked {w : Window} {k : UInt64} {n : Nat} (hn : w.count? k = some n)
    (floor maxKeys : Nat) :
    w.take k floor maxKeys = if n < floor then (w.counted k, true) else (w, false) := by
  simp [take, keep, hn, counted]

theorem take_new {w : Window} {k : UInt64} (hk : w.count? k = none) {floor : Nat} (hfloor : 0 < floor)
    (maxKeys : Nat) :
    w.take k floor maxKeys = if w.distinct < maxKeys then (w.opened k, true) else (w, false) := by
  have htracked : ¬ (w.count? k).isSome = true := by simp [hk]
  rw [take, if_neg htracked, reserve?]
  by_cases hroom : w.distinct < maxKeys
  · have hzero : (track { w with distinct := w.distinct + 1 } k).count? k = some 0 := by
      simp [track, count?]
    simp only [hroom, if_true]
    rw [keep, hzero, Option.any_some, decide_eq_true hfloor, if_pos rfl]
    simp [track, increment, opened]
  · simp only [hroom, if_false]

theorem count?_counted (w : Window) (k other : UInt64) :
    (w.counted k).count? other =
      if other = k then (w.count? other).map (· + 1) else w.count? other :=
  lookup_increment k other w.counts

theorem count?_opened (w : Window) (k other : UInt64) :
    (w.opened k).count? other = if other = k then some 1 else w.count? other :=
  Table.lookup_cons_eq k other 1 w.counts

/-- A request adds a span to its own key if it is kept, and to no other. -/
theorem count?_take (w : Window) (k other : UInt64) {floor : Nat} (hfloor : 0 < floor)
    (maxKeys : Nat) :
    (w.take k floor maxKeys).1.count? other =
      if other = k ∧ (w.take k floor maxKeys).2 = true then some ((w.count? other).getD 0 + 1)
      else w.count? other := by
  cases hcount : w.count? k with
  | none =>
    rw [take_new hcount hfloor]
    by_cases hroom : w.distinct < maxKeys
    · simp only [if_pos hroom, count?_opened, and_true]
      split
      · next hother => rw [hother, hcount, Option.getD_none]
      · rfl
    · simp [hroom]
  | some n =>
    rw [take_tracked hcount]
    by_cases hbelow : n < floor
    · simp only [if_pos hbelow, count?_counted, and_true]
      split
      · next hother => rw [hother, hcount, Option.map_some, Option.getD_some]
      · rfl
    · simp [hbelow]

end Window

/-! ## Requests and their log -/

inductive FloorCall where
  | take (service method : String) (floor maxKeys : Nat)
  | rotate (now : Nat)
  deriving DecidableEq, Repr

/-- The windows behind a call; a rotation keeps no span. -/
def Windows.serve (w : Windows) : FloorCall → Windows × Bool
  | .take service method floor maxKeys => w.take service method floor maxKeys
  | .rotate now => (w.rotate now, false)

/-- Calls with their answers, the latest first. -/
abbrev FloorLog := List (FloorCall × Bool)

namespace FloorLog

/-- The keys that the running window tracks. -/
def tracked : FloorLog → Finset UInt64
  | [] => ∅
  | (.rotate _, _) :: _ => ∅
  | (.take service method floor maxKeys, _) :: earlier =>
    if 0 < floor ∧ (tracked earlier).card < maxKeys then
      insert (key service method) (tracked earlier)
    else tracked earlier

/-- How many spans of a key were kept in the running window. -/
def kept (k : UInt64) : FloorLog → Nat
  | [] => 0
  | (.rotate _, _) :: _ => 0
  | (.take service method _ _, answer) :: earlier =>
    if key service method = k ∧ answer = true then kept k earlier + 1 else kept k earlier

/-- How many requests a key has made in the running window, from that on which it was tracked. -/
def requested (k : UInt64) : FloorLog → Nat
  | [] => 0
  | (.rotate _, _) :: _ => 0
  | (.take service method floor maxKeys, answer) :: earlier =>
    if key service method = k ∧ k ∈ tracked ((.take service method floor maxKeys, answer) :: earlier)
    then requested k earlier + 1
    else requested k earlier

/-- Every request of a key in the running window has come with the same floor. -/
def Steady (k : UInt64) (floor : Nat) : FloorLog → Prop
  | [] => True
  | (.rotate _, _) :: _ => True
  | (.take service method floor' _, _) :: earlier =>
    (key service method = k → floor' = floor) ∧ Steady k floor earlier

/-- What came before the window that was retired last was replaced. -/
def retired : FloorLog → FloorLog
  | [] => []
  | (.rotate _, _) :: earlier => earlier
  | _ :: earlier => retired earlier

/-- Whether a request is to be kept behind these calls. -/
def Keeps (log : FloorLog) (k : UInt64) (floor maxKeys : Nat) : Prop :=
  0 < floor ∧ (k ∈ log.tracked ∨ log.tracked.card < maxKeys) ∧ log.kept k < floor

/-- Every request was kept if and only if it was to be kept. -/
def Sound : FloorLog → Prop
  | [] => True
  | (.rotate _, _) :: earlier => Sound earlier
  | (.take service method floor maxKeys, answer) :: earlier =>
    (answer = true ↔ Keeps earlier (key service method) floor maxKeys) ∧ Sound earlier

end FloorLog

/-- Serves calls one after the other and logs them. -/
def Windows.run : Windows → FloorLog → List FloorCall → Windows × FloorLog
  | w, log, [] => (w, log)
  | w, log, call :: calls => (w.serve call).1.run ((call, (w.serve call).2) :: log) calls

/-! ## What a log says -/

namespace FloorLog

variable {log : FloorLog} {k : UInt64}

theorem mem_tracked_take (service method : String) (floor maxKeys : Nat) (answer : Bool) :
    k ∈ tracked ((.take service method floor maxKeys, answer) :: log) ↔
      k ∈ log.tracked ∨ key service method = k ∧ 0 < floor ∧ log.tracked.card < maxKeys := by
  rw [tracked]
  split
  · next h => rw [Finset.mem_insert, or_comm, eq_comm, and_iff_left h]
  · next h => rw [or_iff_left fun hnew => h hnew.2]

theorem tracked_take_of_mem {service method : String} (hk : key service method ∈ log.tracked)
    (floor maxKeys : Nat) (answer : Bool) :
    tracked ((.take service method floor maxKeys, answer) :: log) = log.tracked := by
  rw [tracked, Finset.insert_eq_of_mem hk, ite_self]

/-- A key that is added leaves no more keys than its request allows. -/
theorem card_tracked_le {service method : String} {floor maxKeys : Nat} {answer : Bool}
    (hgrown : (tracked ((.take service method floor maxKeys, answer) :: log)).card ≠
      log.tracked.card) :
    (tracked ((.take service method floor maxKeys, answer) :: log)).card ≤ maxKeys := by
  rw [tracked] at hgrown ⊢
  split at hgrown
  · next h =>
    rw [if_pos h]
    exact (Finset.card_insert_le _ _).trans h.2
  · exact absurd rfl hgrown

theorem Sound.kept_eq_zero (h : log.Sound) (hk : k ∉ log.tracked) : log.kept k = 0 := by
  induction log with
  | nil => rfl
  | cons entry earlier ih =>
    obtain ⟨call, answer⟩ := entry
    cases call with
    | rotate now => rfl
    | take service method floor maxKeys =>
      obtain ⟨hanswer, hsound⟩ := h
      obtain ⟨hearlier, hnew⟩ := not_or.mp (fun hmem => hk ((mem_tracked_take ..).mpr hmem))
      have hrefused : ¬ (key service method = k ∧ answer = true) := by
        rintro ⟨rfl, hyes⟩
        obtain ⟨hfloor, htracked | hroom, -⟩ := hanswer.mp hyes
        · exact hearlier htracked
        · exact hnew ⟨rfl, hfloor, hroom⟩
      rw [kept, if_neg hrefused, ih hsound hearlier]

/-- Requests count from the one on which the key is tracked, and as long as the floor is not
reached each of them is kept. -/
theorem Sound.kept_eq_min {floor : Nat} (hfloor : 0 < floor) (h : log.Sound)
    (hsteady : log.Steady k floor) : log.kept k = min floor (log.requested k) := by
  induction log with
  | nil => simp [kept, requested]
  | cons entry earlier ih =>
    obtain ⟨call, answer⟩ := entry
    cases call with
    | rotate now => simp [kept, requested]
    | take service method floor' maxKeys =>
      obtain ⟨hanswer, hsound⟩ := h
      obtain ⟨hsame, hearlier⟩ := hsteady
      have hkept := ih hsound hearlier
      by_cases hkey : key service method = k
      · have hfloor' : floor' = floor := hsame hkey
        subst hkey hfloor'
        by_cases hmem : key service method ∈
            tracked ((.take service method floor' maxKeys, answer) :: earlier)
        · have hkeeps : answer = true ↔ kept (key service method) earlier < floor' := by
            rw [hanswer, Keeps, and_iff_right hfloor, and_iff_right]
            exact ((mem_tracked_take ..).mp hmem).imp_right fun hnew => hnew.2.2
          have hrequested : requested (key service method)
              ((.take service method floor' maxKeys, answer) :: earlier) =
            requested (key service method) earlier + 1 := if_pos ⟨rfl, hmem⟩
          rw [hrequested, kept]
          split
          · next hyes =>
            have hbelow := hkeeps.mp hyes.2
            omega
          · next hno =>
            have hreached := mt hkeeps.mpr fun hyes => hno ⟨rfl, hyes⟩
            omega
        · have hrefused : ¬ answer = true := by
            intro hyes
            obtain ⟨-, htracked | hroom, -⟩ := hanswer.mp hyes
            · exact hmem ((mem_tracked_take ..).mpr (.inl htracked))
            · exact hmem ((mem_tracked_take ..).mpr (.inr ⟨rfl, hfloor, hroom⟩))
          rw [kept, requested, if_neg fun h => hrefused h.2, if_neg fun h => hmem h.2, hkept]
      · rw [kept, requested, if_neg fun h => hkey h.1, if_neg fun h => hkey h.1, hkept]

end FloorLog

/-! ## The windows and the log -/

/-- A window that holds what a log says of the running one. -/
structure Window.Counts (w : Window) (log : FloorLog) : Prop where
  nodup : (w.counts.map (·.1)).Nodup
  distinct_eq : w.distinct = w.counts.length
  count?_eq : ∀ k, w.count? k = if k ∈ log.tracked then some (log.kept k) else none

namespace Window.Counts

variable {w : Window} {log : FloorLog} {service method : String}

theorem fresh (started : Nat) {log : FloorLog} (h : log.tracked = ∅) :
    Counts { started := started } log where
  nodup := List.nodup_nil
  distinct_eq := rfl
  count?_eq k := by rw [if_neg (by simp [h])]; rfl

theorem mem_keys_iff (h : w.Counts log) (k : UInt64) :
    k ∈ w.counts.map (·.1) ↔ k ∈ log.tracked := by
  rw [← Table.isSome_lookup_iff, ← count?, h.count?_eq]
  split
  · next hk => exact iff_of_true rfl hk
  · next hk => exact iff_of_false Bool.false_ne_true hk

theorem distinct_eq_card (h : w.Counts log) : w.distinct = log.tracked.card := by
  have hkeys : (w.counts.map (·.1)).toFinset = log.tracked := by
    ext k
    rw [List.mem_toFinset, h.mem_keys_iff]
  rw [h.distinct_eq, ← hkeys, List.toFinset_card_of_nodup h.nodup, List.length_map]

theorem refuse (h : w.Counts log) {floor maxKeys : Nat}
    (hold : FloorLog.tracked ((.take service method floor maxKeys, false) :: log) = log.tracked) :
    w.Counts ((.take service method floor maxKeys, false) :: log) where
  nodup := h.nodup
  distinct_eq := h.distinct_eq
  count?_eq k := by rw [h.count?_eq, hold]; simp [FloorLog.kept]

theorem counted (h : w.Counts log) (hk : key service method ∈ log.tracked) (floor maxKeys : Nat) :
    (w.counted (key service method)).Counts
      ((.take service method floor maxKeys, true) :: log) where
  nodup := by rw [Window.counted, keys_increment]; exact h.nodup
  distinct_eq := by
    have hlength := congrArg List.length (keys_increment (key service method) w.counts)
    simp only [List.length_map] at hlength
    rw [Window.counted, hlength]
    exact h.distinct_eq
  count?_eq k := by
    rw [FloorLog.tracked_take_of_mem hk, count?_counted, h.count?_eq, FloorLog.kept]
    by_cases hkey : k = key service method
    · subst hkey
      simp [hk]
    · simp [hkey, Ne.symm hkey]

theorem opened (h : w.Counts log) (hsound : log.Sound) (hk : key service method ∉ log.tracked)
    {floor maxKeys : Nat} (hfloor : 0 < floor) (hroom : log.tracked.card < maxKeys) :
    (w.opened (key service method)).Counts
      ((.take service method floor maxKeys, true) :: log) where
  nodup := List.nodup_cons.mpr ⟨fun hmem => hk ((h.mem_keys_iff _).mp hmem), h.nodup⟩
  distinct_eq := by simp [Window.opened, h.distinct_eq]
  count?_eq k := by
    have htracked : FloorLog.tracked ((.take service method floor maxKeys, true) :: log) =
      insert (key service method) log.tracked := if_pos ⟨hfloor, hroom⟩
    rw [htracked, count?_opened, h.count?_eq, FloorLog.kept]
    by_cases hkey : k = key service method
    · subst hkey
      simp [hsound.kept_eq_zero hk]
    · simp [hkey, Ne.symm hkey]

/-- A request is kept if it is to be kept, and the window then counts it. -/
theorem take (h : w.Counts log) (hsound : log.Sound) (service method : String) {floor : Nat}
    (hfloor : 0 < floor) (maxKeys : Nat) :
    let next := w.take (key service method) floor maxKeys
    next.1.Counts ((.take service method floor maxKeys, next.2) :: log) ∧
      (next.2 = true ↔ log.Keeps (key service method) floor maxKeys) ∧
      (next.2 = false → next.1 = w) := by
  by_cases hk : key service method ∈ log.tracked
  · have hcount : w.count? (key service method) = some (log.kept (key service method)) := by
      rw [h.count?_eq, if_pos hk]
    rw [take_tracked hcount]
    by_cases hbelow : log.kept (key service method) < floor
    · rw [if_pos hbelow]
      exact ⟨h.counted hk floor maxKeys, iff_of_true rfl ⟨hfloor, .inl hk, hbelow⟩, nofun⟩
    · rw [if_neg hbelow]
      exact ⟨h.refuse (FloorLog.tracked_take_of_mem hk ..),
        iff_of_false Bool.false_ne_true fun hkeeps => hbelow hkeeps.2.2, fun _ => rfl⟩
  · have hcount : w.count? (key service method) = none := by rw [h.count?_eq, if_neg hk]
    have hbelow : log.kept (key service method) < floor := by rwa [hsound.kept_eq_zero hk]
    rw [take_new hcount hfloor, h.distinct_eq_card]
    by_cases hroom : log.tracked.card < maxKeys
    · rw [if_pos hroom]
      exact ⟨h.opened hsound hk hfloor hroom, iff_of_true rfl ⟨hfloor, .inr hroom, hbelow⟩, nofun⟩
    · rw [if_neg hroom]
      refine ⟨h.refuse (if_neg fun hnew => hroom hnew.2), iff_of_false Bool.false_ne_true ?_,
        fun _ => rfl⟩
      rintro ⟨-, htracked | hnew, -⟩
      · exact hk htracked
      · exact hroom hnew

end Window.Counts

theorem Windows.count?_take (w : Windows) (service method : String) (floor maxKeys : Nat)
    (k : UInt64) :
    (w.take service method floor maxKeys).1.current.count? k =
      if k = key service method ∧ (w.take service method floor maxKeys).2 = true then
        some ((w.current.count? k).getD 0 + 1)
      else w.current.count? k := by
  unfold Windows.take
  split
  · simp
  · next hfloor => exact w.current.count?_take _ k (Nat.pos_of_ne_zero hfloor) maxKeys

theorem Windows.take_previous (w : Windows) (service method : String) (floor maxKeys : Nat) :
    (w.take service method floor maxKeys).1.previous = w.previous := by
  unfold Windows.take
  split <;> rfl

/-- Windows that hold what a log says. -/
structure Windows.Mirrors (w : Windows) (log : FloorLog) : Prop where
  current : w.current.Counts log
  previous : w.previous.Counts log.retired
  sound : log.Sound

namespace Windows.Mirrors

variable {w : Windows} {log : FloorLog}

theorem openedAt (start : Nat) : (Windows.openedAt start).Mirrors [] where
  current := .fresh start rfl
  previous := .fresh start rfl
  sound := trivial

theorem take (h : w.Mirrors log) (service method : String) (floor maxKeys : Nat) :
    let next := w.take service method floor maxKeys
    next.1.Mirrors ((.take service method floor maxKeys, next.2) :: log) ∧
      (next.2 = true ↔ log.Keeps (key service method) floor maxKeys) ∧
      (next.2 = false → next.1 = w) := by
  by_cases hfloor : floor = 0
  · subst hfloor
    have hrefused : ¬ log.Keeps (key service method) 0 maxKeys := fun hkeeps =>
      absurd hkeeps.1 (Nat.lt_irrefl 0)
    have hanswer : false = true ↔ log.Keeps (key service method) 0 maxKeys :=
      iff_of_false Bool.false_ne_true hrefused
    refine ⟨⟨h.current.refuse ?_, h.previous, hanswer, h.sound⟩, hanswer, fun _ => rfl⟩
    exact if_neg fun hnew => absurd hnew.1 (Nat.lt_irrefl 0)
  · obtain ⟨hcounts, hanswer, hrefused⟩ :=
      h.current.take h.sound service method (Nat.pos_of_ne_zero hfloor) maxKeys
    have htake : w.take service method floor maxKeys =
      ({ w with current := (w.current.take (key service method) floor maxKeys).1 },
        (w.current.take (key service method) floor maxKeys).2) := if_neg hfloor
    rw [htake]
    refine ⟨⟨hcounts, h.previous, hanswer, h.sound⟩, hanswer, fun hno => ?_⟩
    rw [hrefused hno]

theorem rotate (h : w.Mirrors log) (now : Nat) :
    (w.rotate now).Mirrors ((.rotate now, false) :: log) where
  current := .fresh now rfl
  previous := h.current
  sound := h.sound

theorem serve (h : w.Mirrors log) (call : FloorCall) :
    (w.serve call).1.Mirrors ((call, (w.serve call).2) :: log) := by
  cases call with
  | take service method floor maxKeys => exact (h.take service method floor maxKeys).1
  | rotate now => exact h.rotate now

theorem run (h : w.Mirrors log) (calls : List FloorCall) :
    (w.run log calls).1.Mirrors (w.run log calls).2 := by
  induction calls generalizing w log with
  | nil => exact h
  | cons call calls ih => exact ih (h.serve call)

end Windows.Mirrors

/-- Behind any calls to fresh windows the running window tracks and counts what the log says of it,
and so does the one that it replaced. The log also tells of the next request whether it is kept; a
refusal changes nothing, and a new key never brings more keys than its request allows. Under a steady
floor as many spans of a key are kept as it has requested since it is tracked, up to the floor. -/
theorem Windows.run_keeps_floors (start : Nat) (calls : List FloorCall) :
    let w := (Windows.run (.openedAt start) [] calls).1
    let log := (Windows.run (.openedAt start) [] calls).2
    (w.current.distinct = log.tracked.card ∧
      ∀ k, w.current.count? k = if k ∈ log.tracked then some (log.kept k) else none) ∧
    (w.previous.distinct = log.retired.tracked.card ∧
      ∀ k, w.previous.count? k =
        if k ∈ log.retired.tracked then some (log.retired.kept k) else none) ∧
    (∀ service method floor maxKeys,
      let next := w.take service method floor maxKeys
      (next.2 = true ↔ 0 < floor ∧
        (key service method ∈ log.tracked ∨ log.tracked.card < maxKeys) ∧
        log.kept (key service method) < floor) ∧
      (next.2 = false → next.1 = w) ∧
      (next.1.current.distinct ≠ w.current.distinct → next.1.current.distinct ≤ maxKeys) ∧
      next.1.previous = w.previous) ∧
    (∀ now, (w.rotate now).previous = w.current ∧ (w.rotate now).current.distinct = 0 ∧
      ∀ k, (w.rotate now).current.count? k = none) ∧
    ∀ k floor, 0 < floor → log.Steady k floor → log.kept k = min floor (log.requested k) := by
  intro w log
  have h : w.Mirrors log := (Mirrors.openedAt start).run calls
  refine ⟨⟨h.current.distinct_eq_card, h.current.count?_eq⟩,
    ⟨h.previous.distinct_eq_card, h.previous.count?_eq⟩, ?_, fun now => ⟨rfl, rfl, fun _ => rfl⟩,
    fun k floor hfloor hsteady => h.sound.kept_eq_min hfloor hsteady⟩
  intro service method floor maxKeys next
  obtain ⟨hnext, hanswer, hrefused⟩ := h.take service method floor maxKeys
  refine ⟨hanswer, hrefused, ?_, take_previous ..⟩
  intro hgrown
  rw [hnext.current.distinct_eq_card, h.current.distinct_eq_card] at hgrown
  rw [hnext.current.distinct_eq_card]
  exact FloorLog.card_tracked_le hgrown

end TraceSampling.MinCount
