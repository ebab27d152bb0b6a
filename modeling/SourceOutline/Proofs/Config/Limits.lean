import SourceOutline.Config.Reader

set_option autoImplicit false

/-! Limits are positive: one that is not given, or not positive, stands for its default. -/

namespace SourceOutline.Config

theorem positiveOr_pos (default : Nat) (positive : 0 < default) (value : Int) :
    0 < positiveOr default value := by
  unfold positiveOr
  split
  · omega
  · exact positive

theorem positiveRealOr_isPositive (default : Binary64) (positive : default.isPositive = true)
    (value : Binary64) : (positiveRealOr default value).isPositive = true := by
  unfold positiveRealOr
  split
  · assumption
  · exact positive

/-- What holds of a default and of all that values can be read as, holds of a field. -/
theorem readField_property {α : Type} {coerce : Value → Except Reason α} {default : α}
    (property : α → Prop) (standard : property default)
    (sound : ∀ input value, coerce input = .ok value → property value) (group : String)
    (fields : Fields) (key : String) :
    property (readField group fields key coerce default).value := by
  unfold readField
  split
  · exact standard
  · split
    · rename_i read
      exact sound _ _ read
    · exact standard

theorem exists_of_map_eq_ok {ε α β : Type} {result : Except ε α} {change : α → β} {value : β}
    (mapped : result.map change = .ok value) : ∃ before, change before = value := by
  cases result with
  | error reason => cases mapped
  | ok before => exact ⟨before, Except.ok.inj mapped⟩

theorem readPositive_pos (group : String) (fields : Fields) (key : String) (default : Nat)
    (positive : 0 < default) : 0 < (readPositive group fields key default).value := by
  apply readField_property (0 < ·) positive
  intro input value mapped
  obtain ⟨given, rfl⟩ := exists_of_map_eq_ok mapped
  exact positiveOr_pos default positive given

private theorem readGroup_property {α : Type} {read : Fields → Reading α} (property : α → Prop)
    (holds : ∀ fields, property (read fields).value) (settings : Fields)
    (group typeName : String) :
    property (readGroup settings group typeName read).value := by
  unfold readGroup
  split <;> exact holds _

/-- Settings that can be used let at least one symbol be collected. -/
theorem maxSymbols_pos_of_load {settings : Value} {config : Config}
    (loaded : load settings = .ok config) : 0 < config.performance.maxSymbols := by
  have standard : 0 < defaultSymbolLimit := by decide
  have performance (fields : Fields) : 0 < (readPerformance fields).value.maxSymbols :=
    readPositive_pos "performance" (orderThresholds fields) "max_symbols" _ standard
  have reading : 0 < (read settings).value.performance.maxSymbols := by
    unfold read
    split
    · split
      · exact readGroup_property (fun group : Performance => 0 < group.maxSymbols) performance _
          "performance" "PerformanceConfig"
      · exact standard
    · exact standard
  unfold load at loaded
  dsimp only at loaded
  split at loaded
  · cases loaded
    exact reading
  · cases loaded

end SourceOutline.Config
