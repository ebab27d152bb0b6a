import SourceOutline.Proofs.Config.Limits
import SourceOutline.Proofs.Value.Fields

set_option autoImplicit false

/-! Which configurations are normalised.

Sizes and times are put right one by one when they have been read, so that they keep their bounds
however they are given.  The two thresholds are put in order before they are read.  So they may be
out of order if one of them is given as a text or as a real. -/

namespace SourceOutline.Config

/-! ### Bounds -/

structure IsBounded (config : Config) : Prop where
  cacheSize : 1 ≤ config.cache.maxSize
  ttl : config.cache.ttl.isPositive = true
  symbols : 1 ≤ config.performance.maxSymbols
  cppFileSize : 1 ≤ config.cpp.maxFileSize
  dartFileSize : 1 ≤ config.dart.maxFileSize
  timeout : config.cpp.parseTimeout.isPositive = true
  depth : 1 ≤ config.cpp.maxNestingDepth ∧ config.cpp.maxNestingDepth ≤ 1000

private theorem readPositiveReal_isPositive (group : String) (fields : Fields) (key : String)
    (default : Binary64) (positive : default.isPositive = true) :
    (readPositiveReal group fields key default).value.isPositive = true := by
  apply readField_property (fun value => Binary64.isPositive value = true) positive
  intro input value mapped
  obtain ⟨given, rfl⟩ := exists_of_map_eq_ok mapped
  exact positiveRealOr_isPositive default positive given

private theorem clampDepth_bounds (value : Int) :
    1 ≤ clampDepth value ∧ clampDepth value ≤ 1000 := by
  have positive := positiveOr_pos defaultNestingDepth (by decide) value
  unfold clampDepth treeDepthLimit
  omega

private theorem readDepth_bounds (fields : Fields) :
    1 ≤ (readCpp fields).value.maxNestingDepth ∧
      (readCpp fields).value.maxNestingDepth ≤ 1000 := by
  apply readField_property (fun depth => 1 ≤ depth ∧ depth ≤ 1000)
  · decide
  · intro input value mapped
    obtain ⟨given, rfl⟩ := exists_of_map_eq_ok mapped
    exact clampDepth_bounds given

def groupOf (settings : Fields) (group : String) : Fields :=
  match settings.get? group with
  | some (.object fields) => fields
  | _ => []

private theorem readGroup_value {α : Type} (settings : Fields) (group typeName : String)
    (read : Fields → Reading α) :
    (readGroup settings group typeName read).value = (read (groupOf settings group)).value := by
  unfold readGroup groupOf
  cases settings.get? group with
  | none => rfl
  | some input => cases input <;> rfl

private theorem readGroups_isBounded (settings : Fields) :
    (readGroups settings).value.IsBounded := by
  unfold readGroups
  simp only [readGroup_value]
  constructor
  · exact readPositive_pos _ _ _ _ (by decide)
  · exact readPositiveReal_isPositive _ _ _ _ (by decide +kernel)
  · exact readPositive_pos _ _ _ _ (by decide)
  · exact readPositive_pos _ _ _ _ (by decide)
  · exact readPositive_pos _ _ _ _ (by decide)
  · exact readPositiveReal_isPositive _ _ _ _ (by decide +kernel)
  · exact readDepth_bounds _

/-! ### Thresholds -/

/-- A setting that is not given, or given as an integer or a boolean. -/
def isPlain : Option Value → Bool
  | none | some (.integer _) | some (.bool _) => true
  | some _ => false

def thresholdOf (fields : Fields) (key : String) (default : Int) : Int :=
  (readField "performance" fields key toInteger default).value

/-- Thresholds that are in order when they have been read: both are plain, so that they are put in
order before, or they are read as integers that are in order. -/
def ThresholdsInOrder (fields : Fields) : Prop :=
  (isPlain (fields.get? "streaming_threshold") = true ∧
      isPlain (fields.get? "limited_threshold") = true) ∨
    thresholdOf fields "limited_threshold" defaultLimitedThreshold <
      thresholdOf fields "streaming_threshold" defaultStreamingThreshold

private theorem givenThreshold?_eq (fields : Fields) (key : String) (default : Int) :
    givenThreshold? fields key default =
      if isPlain (fields.get? key) then some (thresholdOf fields key default) else none := by
  unfold givenThreshold? thresholdOf readField
  cases fields.get? key with
  | none => rfl
  | some input => cases input <;> rfl

private theorem thresholdOf_put_self (fields : Fields) (key : String) (value default : Int) :
    thresholdOf (fields.put key (.integer value)) key default = value := by
  unfold thresholdOf readField
  rw [Fields.get?_put_self]
  rfl

private theorem thresholdOf_put_ne {key other : String} (different : other ≠ key) (fields : Fields)
    (value : Value) (default : Int) :
    thresholdOf (fields.put other value) key default = thresholdOf fields key default := by
  unfold thresholdOf readField
  rw [Fields.get?_put_ne different]

private theorem readPerformance_inOrder_iff (fields : Fields) :
    (readPerformance fields).value.limitedThreshold <
        (readPerformance fields).value.streamingThreshold ↔ ThresholdsInOrder fields := by
  change thresholdOf (orderThresholds fields) "limited_threshold" defaultLimitedThreshold <
    thresholdOf (orderThresholds fields) "streaming_threshold" defaultStreamingThreshold ↔ _
  unfold orderThresholds ThresholdsInOrder
  rw [givenThreshold?_eq, givenThreshold?_eq]
  cases isPlain (fields.get? "streaming_threshold") with
  | false => simp
  | true =>
      cases isPlain (fields.get? "limited_threshold") with
      | false => simp
      | true =>
          -- Both are plain, so they are in order already or are put back to their defaults.
          simp only [if_true, and_self, true_or, iff_true]
          split
          · rw [thresholdOf_put_self, thresholdOf_put_ne (by decide), thresholdOf_put_self]
            decide
          · omega

/-! ### Reading a configuration back -/

private theorem positiveOr_of_pos (default : Nat) {value : Nat} (positive : 1 ≤ value) :
    positiveOr default value = value := by
  unfold positiveOr
  rw [if_pos (by omega), Int.toNat_natCast]

private theorem positiveRealOr_of_isPositive (default : Binary64) {value : Binary64}
    (positive : value.isPositive = true) : positiveRealOr default value = value :=
  if_pos positive

private theorem clampDepth_of_bounds {depth : Nat} (bounds : 1 ≤ depth ∧ depth ≤ 1000) :
    clampDepth depth = depth := by
  unfold clampDepth
  rw [positiveOr_of_pos _ bounds.1]
  exact Nat.min_eq_left bounds.2

private theorem readCaching_toFields {group : Caching} (size : 1 ≤ group.maxSize)
    (ttl : group.ttl.isPositive = true) : readCaching group.toFields = ⟨group, []⟩ := by
  change (⟨⟨group.enabled, positiveOr defaultCacheSize group.maxSize,
    positiveRealOr defaultTtl group.ttl⟩, []⟩ : Reading Caching) = _
  rw [positiveOr_of_pos _ size, positiveRealOr_of_isPositive _ ttl]

private theorem readCpp_toFields {group : Cpp} (depth : 1 ≤ group.maxNestingDepth ∧
    group.maxNestingDepth ≤ 1000) (size : 1 ≤ group.maxFileSize)
    (timeout : group.parseTimeout.isPositive = true) : readCpp group.toFields = ⟨group, []⟩ := by
  change (⟨⟨clampDepth group.maxNestingDepth, group.maxTemplateDepth, group.maxClassesPerFile,
    group.maxMethodsPerClass, positiveOr defaultFileSize group.maxFileSize,
    group.enableVirtualDetection, positiveRealOr defaultParseTimeout group.parseTimeout,
    group.strictTimeoutEnforcement⟩, []⟩ : Reading Cpp) = _
  rw [clampDepth_of_bounds depth, positiveOr_of_pos _ size, positiveRealOr_of_isPositive _ timeout]

private theorem readDart_toFields {group : Dart} (size : 1 ≤ group.maxFileSize) :
    readDart group.toFields = ⟨group, []⟩ := by
  change (⟨⟨group.enableFlutterDetection, positiveOr defaultFileSize group.maxFileSize,
    group.enableAsyncAnalysis⟩, []⟩ : Reading Dart) = _
  rw [positiveOr_of_pos _ size]

private theorem readLogging_toFields (group : Logging) :
    readLogging group.toFields = ⟨group, []⟩ := by
  obtain ⟨level, metrics, profiling⟩ := group
  cases level <;> rfl

def Performance.ordered (group : Performance) : Performance :=
  if group.streamingThreshold ≤ group.limitedThreshold then
    { group with
      streamingThreshold := defaultStreamingThreshold
      limitedThreshold := defaultLimitedThreshold }
  else group

private theorem readPerformance_toFields {group : Performance} (symbols : 1 ≤ group.maxSymbols) :
    readPerformance group.toFields = ⟨group.ordered, []⟩ := by
  have order : orderThresholds group.toFields = group.ordered.toFields := by
    unfold Performance.ordered
    change (if group.streamingThreshold ≤ group.limitedThreshold then _ else _) = _
    split <;> rfl
  have kept : group.ordered.maxSymbols = group.maxSymbols ∧
      group.ordered.enableCaching = group.enableCaching := by
    unfold Performance.ordered
    split <;> exact ⟨rfl, rfl⟩
  unfold readPerformance
  rw [order]
  change (⟨⟨group.ordered.streamingThreshold, group.ordered.limitedThreshold,
    positiveOr defaultSymbolLimit group.ordered.maxSymbols, group.ordered.enableCaching⟩, []⟩ :
    Reading Performance) = _
  rw [positiveOr_of_pos _ (kept.1 ▸ symbols)]

private theorem Performance.ordered_lt (group : Performance) :
    group.ordered.limitedThreshold < group.ordered.streamingThreshold := by
  unfold ordered
  split
  · exact (by decide : defaultLimitedThreshold < defaultStreamingThreshold)
  · omega

private theorem Performance.ordered_eq_self_iff (group : Performance) :
    group.ordered = group ↔ group.limitedThreshold < group.streamingThreshold := by
  constructor
  · intro same
    have order := group.ordered_lt
    rwa [same] at order
  · intro order
    exact if_neg (Int.not_le.mpr order)

private theorem readGroups_toGroups {config : Config} (bounded : config.IsBounded) :
    readGroups (config.toGroups.map fun group => (group.1, .object group.2)) =
      ⟨{ config with performance := config.performance.ordered }, []⟩ := by
  change (⟨⟨(readCaching config.cache.toFields).value,
      (readPerformance config.performance.toFields).value, (readCpp config.cpp.toFields).value,
      (readDart config.dart.toFields).value, (readLogging config.logging.toFields).value⟩,
    (readCaching config.cache.toFields).problems ++
      (readPerformance config.performance.toFields).problems ++
      (readCpp config.cpp.toFields).problems ++ (readDart config.dart.toFields).problems ++
      (readLogging config.logging.toFields).problems⟩ : Reading Config) = _
  rw [readCaching_toFields bounded.cacheSize bounded.ttl,
    readPerformance_toFields bounded.symbols,
    readCpp_toFields bounded.depth bounded.cppFileSize bounded.timeout,
    readDart_toFields bounded.dartFileSize, readLogging_toFields]
  rfl

/-! ### All configurations -/

def groupsIn : Value → Fields
  | .object fields => fields
  | _ => []

/-- A configuration that was read from settings, or made from another one by overrides, with the
settings that were read last. -/
inductive ReadFrom : Fields → Config → Prop
  | loaded {settings : Value} {config : Config} (made : load settings = .ok config) :
      ReadFrom (groupsIn settings) config
  | overridden {settings : Fields} {config next : Config}
      {overrides groups : List (String × Fields)} (before : ReadFrom settings config)
      (put : overrideGroups config.toGroups overrides = .ok groups)
      (made : withOverrides config overrides = .ok next) :
      ReadFrom (groups.map fun group => (group.1, .object group.2)) next

private theorem readGroups_of_load {settings : Value} {config : Config}
    (made : load settings = .ok config) : (readGroups (groupsIn settings)).value = config := by
  unfold load at made
  dsimp only at made
  split at made
  · rename_i sound
    cases made
    unfold read at sound ⊢
    cases given : settings.isGiven with
    | false =>
        have empty : groupsIn settings = [] := by
          cases settings with
          | object fields => simpa [Value.isGiven, groupsIn] using given
          | _ => rfl
        have defaults : (readGroups []).value = {} := by decide +kernel
        rw [empty, if_neg Bool.false_ne_true, defaults]
    | true =>
        rw [given] at sound
        cases settings with
        | object fields => rfl
        | _ => cases sound
  · cases made

private theorem withOverrides_eq_ok_iff {config next : Config}
    {overrides groups : List (String × Fields)}
    (put : overrideGroups config.toGroups overrides = .ok groups) :
    withOverrides config overrides = .ok next ↔
      readGroups (groups.map fun group => (group.1, .object group.2)) = ⟨next, []⟩ := by
  unfold withOverrides
  rw [put]
  dsimp only
  constructor
  · intro made
    split at made
    · rename_i sound
      cases made
      exact congrArg (Reading.mk _) sound
    · cases made
  · intro read
    split
    · exact congrArg Except.ok (congrArg Reading.value read)
    · rename_i problems
      cases problems.symm.trans (congrArg Reading.problems read)

/-- Overriding nothing keeps everything but thresholds that are out of order. -/
theorem withOverrides_nil {config : Config} (bounded : config.IsBounded) :
    withOverrides config [] = .ok { config with performance := config.performance.ordered } :=
  (withOverrides_eq_ok_iff rfl).mpr (readGroups_toGroups bounded)

private theorem ReadFrom.readGroups {settings : Fields} {config : Config}
    (made : ReadFrom settings config) :
    (Config.readGroups settings).value = config := by
  cases made with
  | loaded made => exact readGroups_of_load made
  | overridden before put made =>
      exact congrArg Reading.value ((withOverrides_eq_ok_iff put).mp made)

/-- Every configuration keeps its bounds.  Its thresholds are in order exactly if the settings from
which it was read last give both as integers or booleans or not at all, or give them in order, and
exactly then overriding nothing changes nothing. -/
theorem readFrom_normalised {settings : Fields} {config : Config}
    (made : ReadFrom settings config) :
    config.IsBounded ∧
      (config.performance.limitedThreshold < config.performance.streamingThreshold ↔
        ThresholdsInOrder (groupOf settings "performance")) ∧
      ∃ again, withOverrides config [] = .ok again ∧
        again.performance.limitedThreshold < again.performance.streamingThreshold ∧
        (again = config ↔
          config.performance.limitedThreshold < config.performance.streamingThreshold) := by
  have read := made.readGroups
  have bounded : config.IsBounded := read ▸ readGroups_isBounded settings
  have performance : config.performance =
      (readPerformance (groupOf settings "performance")).value := by
    rw [← read]
    exact readGroup_value settings "performance" "PerformanceConfig" readPerformance
  refine ⟨bounded, ?_, _, withOverrides_nil bounded, config.performance.ordered_lt, ?_⟩
  · rw [performance]
    exact readPerformance_inOrder_iff _
  · rw [← config.performance.ordered_eq_self_iff]
    constructor
    · exact congrArg Config.performance
    · intro same
      rw [same]

/-- Thresholds given as integers in the wrong order, and a size of nothing. -/
theorem loaded_in_order :
    let settings : Fields :=
      [("performance", .object [("streaming_threshold", .integer 10),
        ("limited_threshold", .integer 20), ("max_symbols", .integer 0)])]
    ∃ config, load (.object settings) = .ok config ∧ config.IsBounded ∧
      config.performance.limitedThreshold < config.performance.streamingThreshold ∧
      withOverrides config [] = .ok config := by
  intro settings
  obtain ⟨config, made⟩ : ∃ config, load (.object settings) = .ok config := ⟨_, rfl⟩
  obtain ⟨bounded, order, again, overridden, _, same⟩ := readFrom_normalised (.loaded made)
  have ordered := order.mpr (.inl ⟨rfl, rfl⟩)
  rw [same.mpr ordered] at overridden
  exact ⟨config, made, bounded, ordered, overridden⟩

/-- Thresholds given as texts stay in the wrong order, until nothing is overridden. -/
theorem text_thresholds_out_of_order :
    ¬ ∀ (settings : Value) (config : Config), load settings = .ok config →
      config.performance.limitedThreshold < config.performance.streamingThreshold ∧
        withOverrides config [] = .ok config := by
  intro holds
  let settings : Fields :=
    [("performance", .object [("streaming_threshold", .text "10"),
      ("limited_threshold", .text "20")])]
  exact absurd (holds (.object settings) _ rfl).1 (by decide +kernel)

end SourceOutline.Config
