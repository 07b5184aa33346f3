import TraceSampling.Proofs.Dyeing.Filter
import TraceSampling.Proofs.Table
import TraceSampling.Snapshot

/-!
# Values that filters dye

A rule whose filter can be made puts all of its values into that filter. Compiling keeps one filter
to a key, that of the last rule which makes one, so a value of an earlier rule is found only as far
as the last filter contains it as well.
-/

namespace TraceSampling

theorem firstKey?_ne_none_iff (attributes : List Attribute) (dyes : String → String → Bool) :
    firstKey? attributes dyes ≠ none ↔ ∃ a ∈ attributes, dyes a.key a.text = true := by
  simp [firstKey?]

namespace BloomRules

theorem lookup_add (r : BloomRules) (key other : String) (filter : BloomFilter) :
    (r.add key filter).filters.lookup other =
      if other = key then some filter else r.filters.lookup other :=
  Table.lookup_replace key other filter r.filters

theorem dyes_iff {r : BloomRules} {key : String} {filter : BloomFilter}
    (h : r.filters.lookup key = some filter) (text : String) :
    r.dyes key text = true ↔ filter.contains text = true := by
  simp [dyes, h]

end BloomRules

namespace BloomRuleSettings

theorem contains_of_build {r : BloomRuleSettings} {filter : BloomFilter} (h : r.build = .ok filter)
    {value : String} (hvalue : value ∈ r.values) : filter.contains value = true := by
  cases hbase : r.base with
  | error fault => simp [build, hbase, Except.map] at h
  | ok base =>
    have hfilter : base.insertAll r.values = filter := by
      simpa [build, hbase, Except.map] using h
    rw [← hfilter]
    exact BloomFilter.contains_insertAll_of_mem base hvalue

/-- The filter of the last rule of a key that makes one. -/
def lastFilter? (key : String) : List BloomRuleSettings → Option BloomFilter
  | [] => none
  | r :: rest => (lastFilter? key rest).or (if r.key = key then r.build.toOption else none)

theorem lastFilter?_append (key : String) (earlier later : List BloomRuleSettings) :
    lastFilter? key (earlier ++ later) =
      (lastFilter? key later).or (lastFilter? key earlier) := by
  induction earlier with
  | nil => simp [lastFilter?]
  | cons r rest ih => rw [List.cons_append, lastFilter?, lastFilter?, ih, Option.or_assoc]

end BloomRuleSettings

namespace Snapshot

/-- One rule compiled into those before it. -/
def addBloomRule (rules : BloomRules) (r : BloomRuleSettings) : BloomRules :=
  match r.build with
  | .ok filter => rules.add r.key filter
  | .error _ => rules

theorem lookup_addBloomRule (rules : BloomRules) (r : BloomRuleSettings) (key : String) :
    (addBloomRule rules r).filters.lookup key =
      (if r.key = key then r.build.toOption else none).or (rules.filters.lookup key) := by
  unfold addBloomRule
  cases r.build with
  | error fault => simp [Except.toOption]
  | ok filter =>
    rw [BloomRules.lookup_add]
    by_cases h : r.key = key
    · simp [h, Except.toOption]
    · simp [h, Ne.symm h]

theorem lookup_foldl_addBloomRule (rules : List BloomRuleSettings) (before : BloomRules)
    (key : String) :
    (rules.foldl addBloomRule before).filters.lookup key =
      (BloomRuleSettings.lastFilter? key rules).or (before.filters.lookup key) := by
  induction rules generalizing before with
  | nil => rfl
  | cons r rest ih =>
    rw [List.foldl_cons, ih, lookup_addBloomRule, BloomRuleSettings.lastFilter?, Option.or_assoc]

theorem lookup_bloomRules (s : BloomDyeingSettings) (key : String) :
    (bloomRules s).filters.lookup key = BloomRuleSettings.lastFilter? key s.rules := by
  have hfold : bloomRules s = s.rules.foldl addBloomRule {} := rfl
  rw [hfold, lookup_foldl_addBloomRule]
  simp

theorem compile_bloom {s : Settings} (h : s.bloomDyeing.enabled = true) :
    (compile s).bloom = some (bloomRules s.bloomDyeing) := if_pos h

/-- A value of a rule is always found exactly if the last filter which a rule behind it makes for the
same key, should there be one, contains the value too. -/
theorem bloom_finds_iff {s : Settings} (henabled : s.bloomDyeing.enabled = true)
    {earlier later : List BloomRuleSettings} {rule : BloomRuleSettings}
    (hrules : s.bloomDyeing.rules = earlier ++ rule :: later) (hbuild : rule.build.isOk = true)
    {value : String} (hvalue : value ∈ rule.values) :
    (∀ attributes : List Attribute, (∃ a ∈ attributes, a.key = rule.key ∧ a.text = value) →
        (compile s).bloom.bind (·.match? attributes) ≠ none) ↔
      ∀ filter, BloomRuleSettings.lastFilter? rule.key later = some filter →
        filter.contains value = true := by
  obtain ⟨own, hown⟩ : ∃ own, rule.build = .ok own := by
    cases h : rule.build with
    | error fault => simp [h, Except.isOk, Except.toBool] at hbuild
    | ok own => exact ⟨own, rfl⟩
  have hlookup : (bloomRules s.bloomDyeing).filters.lookup rule.key =
      some ((BloomRuleSettings.lastFilter? rule.key later).getD own) := by
    rw [lookup_bloomRules, hrules, BloomRuleSettings.lastFilter?_append,
      BloomRuleSettings.lastFilter?, hown]
    cases BloomRuleSettings.lastFilter? rule.key later <;> simp [Except.toOption]
  simp only [compile_bloom henabled, Option.bind_some, BloomRules.match?, firstKey?_ne_none_iff]
  constructor
  · intro hfinds filter hfilter
    obtain ⟨a, ha, hdyes⟩ := hfinds [⟨rule.key, .text value⟩] ⟨_, List.mem_singleton_self _, rfl, rfl⟩
    rw [List.mem_singleton.mp ha, BloomRules.dyes_iff hlookup, hfilter] at hdyes
    exact hdyes
  · rintro hlater attributes ⟨a, ha, hkey, htext⟩
    refine ⟨a, ha, ?_⟩
    rw [hkey, htext, BloomRules.dyes_iff hlookup]
    cases hfilter : BloomRuleSettings.lastFilter? rule.key later with
    | none => exact BloomRuleSettings.contains_of_build hown hvalue
    | some filter => exact hlater filter hfilter

def deviceRule (values : List String) : BloomRuleSettings where
  key := "device"
  bitSize := some 64
  hashCount := some 1
  values := values

/-- A rule of the same key that describes no filter. -/
def incompleteRule : BloomRuleSettings where
  key := "device"
  values := ["c"]

def sharedKey : Settings where
  bloomDyeing.enabled := true
  bloomDyeing.rules := [deviceRule ["a"], deviceRule ["b"], incompleteRule]

theorem bloom_finds_second :
    sharedKey.bloomDyeing.enabled = true ∧
      sharedKey.bloomDyeing.rules = [deviceRule ["a"]] ++ deviceRule ["b"] :: [incompleteRule] ∧
      (deviceRule ["b"]).build.isOk = true ∧ "b" ∈ (deviceRule ["b"]).values ∧
      ∀ attributes : List Attribute, (∃ a ∈ attributes, a.key = "device" ∧ a.text = "b") →
        (compile sharedKey).bloom.bind (·.match? attributes) ≠ none := by
  have henabled : sharedKey.bloomDyeing.enabled = true := rfl
  have hrules : sharedKey.bloomDyeing.rules =
    [deviceRule ["a"]] ++ deviceRule ["b"] :: [incompleteRule] := rfl
  have hbuild : (deviceRule ["b"]).build.isOk = true := by decide +kernel
  have hvalue : "b" ∈ (deviceRule ["b"]).values := by decide
  have hlater : ∀ filter, BloomRuleSettings.lastFilter? "device" [incompleteRule] = some filter →
    filter.contains "b" = true := by decide +kernel
  exact ⟨henabled, hrules, hbuild, hvalue,
    (bloom_finds_iff henabled hrules hbuild hvalue).mpr hlater⟩

/-- The filter of the second rule has taken the place of the first one. -/
theorem bloom_misses_first :
    deviceRule ["a"] ∈ sharedKey.bloomDyeing.rules ∧ (deviceRule ["a"]).build.isOk = true ∧
      (compile sharedKey).bloom.bind (·.match? [⟨"device", .text "a"⟩]) = none := by
  decide +kernel

end Snapshot

end TraceSampling
