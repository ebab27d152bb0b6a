import SourceOutline.Proofs.Dart.Limit
import SourceOutline.Proofs.Swift.Limit

set_option autoImplicit false

/-! No more symbols than the configuration allows.

A Dart file of which only the declarations at the top are taken has one symbol for each of them at
most, and a Swift file one for each declaration that counts. -/

namespace SourceOutline

private theorem Dart.symbols_within_limit {config : Config} {content : String}
    {strategy : Dart.Strategy}
    (admits : Admits config content strategy) (partly : strategy ≠ .full) {faults : Faults}
    {path : String} {context : Option Context} {parsed : Parsed}
    (made : (parse config faults content path context).value = .ok parsed) :
    ∃ found, symbols parsed.tree = .ok found ∧
      found.length ≤ strategy.limit config.performance := by
  obtain ⟨other, extraction, chosen, ran, rfl⟩ := run_of_parsed made
  cases admits.chosen.symm.trans chosen.chosen
  exact ⟨_, symbols_assemble_eq config _ strategy path ran,
    length_symbols_le partly ran config path⟩

private theorem Swift.symbols_within_limit (config : Config) (faults : Faults)
    (content path : String) (context : Option Context) :
    ∃ parsed found, (parse config faults content path context).value = .ok parsed ∧
      symbols parsed.tree = .ok found ∧ found.length ≤ config.performance.maxSymbols := by
  obtain ⟨parsed, value, children, read⟩ := exists_parsed config faults content path context
  refine ⟨parsed, _, value, read, ?_⟩
  -- a symbol for each node at most
  rw [NodeReading.shapes, Node.preorderAll_shapes, children]
  apply Nat.le_trans (List.length_filterMap_le _ _)
  rw [Node.preorderAll_length]
  exact (jobOf config faults content context).countAll_le

/-- A Dart file that is not taken apart in full keeps the limit of its strategy, and every Swift
file keeps the limit of the configuration. -/
theorem parse_keeps_limit (config : Config) (content path : String) (context : Option Context) :
    (Dart.Admits config content .limited → ∀ faults : Dart.Faults,
      (faults.SparesSteps →
        ∃ parsed, (Dart.parse config faults content path context).value = .ok parsed) ∧
      ∀ parsed, (Dart.parse config faults content path context).value = .ok parsed →
        ∃ found, Dart.symbols parsed.tree = .ok found ∧
          found.length ≤ min config.performance.maxSymbols 5000) ∧
    (Dart.Admits config content .streaming → ∀ faults : Dart.Faults,
      ∃ parsed found, (Dart.parse config faults content path context).value = .ok parsed ∧
        Dart.symbols parsed.tree = .ok found ∧ found.length ≤ config.performance.maxSymbols) ∧
    ∀ faults : Swift.Faults,
      ∃ parsed found, (Swift.parse config faults content path context).value = .ok parsed ∧
        Swift.symbols parsed.tree = .ok found ∧
        found.length ≤ config.performance.maxSymbols := by
  refine ⟨fun admits faults => ⟨?_, ?_⟩, fun admits faults => ?_, fun faults => ?_⟩
  · exact fun sound => Dart.exists_parsed admits.allowed sound path context
  · exact fun parsed made => Dart.symbols_within_limit admits (by decide) made
  · have made := admits.parse faults path context
    obtain ⟨found, read, limited⟩ := Dart.symbols_within_limit admits (by decide) made
    exact ⟨_, found, made, read, limited⟩
  · exact Swift.symbols_within_limit config faults content path context

/-- Of two functions the first is kept where one symbol is allowed. -/
theorem limit_kept_of_two :
    let content := "f() \x7b\x7d\ng() \x7b\x7d"
    let middling : Config := { performance := { limitedThreshold := 1, maxSymbols := 1 } }
    let large : Config :=
      { performance := { streamingThreshold := 1, limitedThreshold := 0, maxSymbols := 1 } }
    (Dart.Admits middling content .limited ∧
      ∃ parsed found, (Dart.parse middling {} content "a.dart" none).value = .ok parsed ∧
        Dart.symbols parsed.tree = .ok found ∧ found.length ≤ min 1 5000 ∧
        found.map Symbol.name = ["f"]) ∧
    Dart.Admits large content .streaming ∧
      ∃ parsed found, (Dart.parse large {} content "a.dart" none).value = .ok parsed ∧
        Dart.symbols parsed.tree = .ok found ∧ found.length ≤ 1 ∧
        found.map Symbol.name = ["f"] := by
  intro content middling large
  have admitsMiddling : Dart.Admits middling content .limited :=
    ⟨by decide +kernel, by decide +kernel⟩
  have admitsLarge : Dart.Admits large content .streaming := ⟨by decide +kernel, by decide +kernel⟩
  let names (config : Config) : Option (List String) := do
    let parsed ← (Dart.parse config {} content "a.dart" none).value.toOption
    let found ← (Dart.symbols parsed.tree).toOption
    some (found.map Symbol.name)
  constructor
  · obtain ⟨exist, keeps⟩ := (parse_keeps_limit middling content "a.dart" none).1 admitsMiddling {}
    obtain ⟨parsed, made⟩ := exist fun _ => rfl
    obtain ⟨found, read, limited⟩ := keeps parsed made
    have named : names middling = some ["f"] := by decide +kernel
    simp only [names, made, read, Except.toOption, bind, Option.bind] at named
    exact ⟨admitsMiddling, parsed, found, made, read, limited, Option.some.inj named⟩
  · obtain ⟨parsed, found, made, read, limited⟩ :=
      (parse_keeps_limit large content "a.dart" none).2.1 admitsLarge {}
    have named : names large = some ["f"] := by decide +kernel
    simp only [names, made, read, Except.toOption, bind, Option.bind] at named
    exact ⟨admitsLarge, parsed, found, made, read, limited, Option.some.inj named⟩

end SourceOutline
