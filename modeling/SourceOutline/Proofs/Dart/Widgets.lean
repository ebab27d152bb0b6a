import SourceOutline.Proofs.Dart.Limit
import SourceOutline.Proofs.Dart.WidgetHeading
import SourceOutline.Proofs.Parsing.Problems

set_option autoImplicit false

/-! Widgets in the tree of a Dart file and in what is told of its use of Flutter.

The tree marks a class as a widget by the superclass in its header.  What is told of Flutter lists
the names under which widgets are headed, each with the first of the sorts that has it. -/

namespace SourceOutline.Dart

open Pattern Flutter

/-! ### Lists of widgets -/

/-- Keep a widget unless its name is taken. -/
def keepFirst (kept : List Widget) (widget : Widget) : List Widget :=
  if kept.any fun earlier => earlier.name == widget.name then kept else widget :: kept

/-- Of several widgets with one name the first one is kept. -/
theorem mem_foldl_keepFirst (widgets kept : List Widget) (widget : Widget) :
    widget ∈ widgets.foldl keepFirst kept ↔
      widget ∈ kept ∨ (∀ earlier ∈ kept, earlier.name ≠ widget.name) ∧
        widgets.find? (fun each => each.name == widget.name) = some widget := by
  induction widgets generalizing kept with
  | nil => simp
  | cons first rest ih =>
      have taken : (kept.any fun earlier => earlier.name == first.name) = true ↔
          ∃ earlier ∈ kept, earlier.name = first.name := by
        simp
      rw [List.foldl_cons, ih, keepFirst]
      -- only a widget of the same name can stand in the way
      by_cases named : first.name = widget.name
      · have here : (first :: rest).find? (fun each => each.name == widget.name) = some first :=
          List.find?_cons_of_pos (by rw [named, beq_self_eq_true])
        rw [here, Option.some.injEq]
        split
        · rename_i earlier
          obtain ⟨other, member, same⟩ := taken.mp earlier
          have blocked : ¬ ∀ earlier ∈ kept, earlier.name ≠ widget.name :=
            fun none => none other member (same.trans named)
          simp only [blocked, false_and]
        · rename_i fresh
          have free : ∀ earlier ∈ kept, earlier.name ≠ widget.name :=
            fun earlier member same => fresh (taken.mpr ⟨earlier, member, same.trans named.symm⟩)
          have blocked : ¬ ∀ earlier ∈ first :: kept, earlier.name ≠ widget.name :=
            fun none => none first List.mem_cons_self named
          simp only [blocked, false_and, or_false]
          rw [and_iff_right free, List.mem_cons, or_comm, eq_comm]
      · have later : (first :: rest).find? (fun each => each.name == widget.name) =
            rest.find? fun each => each.name == widget.name :=
          List.find?_cons_of_neg (by rw [beq_iff_eq]; exact named)
        have other : widget ≠ first := fun same => named (congrArg Widget.name same.symm)
        rw [later]
        split
        · rfl
        · simp [other, named]

private def allWidgets (text : Array Char) : List Widget :=
  widgetSorts.flatMap fun sort =>
    (namesFound text (classOver sort.superclass)).map fun name =>
      ⟨name, sort.name, buildPattern.occursIn text && sort.name != "stateful"⟩

private theorem widgets_eq (text : Array Char) :
    widgets text = ((allWidgets text).foldl keepFirst []).reverse := by
  unfold widgets allWidgets
  dsimp only
  rw [widgetPatterns_eq, List.flatMap_map]
  rfl

/-- A type is that of the first sort under which a name is headed. -/
def FirstHeaded (text : Array Char) (type name : String) : Prop :=
  ∃ before sort after, widgetSorts = before ++ sort :: after ∧ sort.name = type ∧
    Headed text sort name ∧ ∀ earlier ∈ before, ¬ Headed text earlier name

private theorem find?_named (names : List String) (type : String) (build : Bool) (name : String) :
    (names.map fun each => (⟨each, type, build⟩ : Widget)).find? (fun each => each.name == name) =
      if name ∈ names then some ⟨name, type, build⟩ else none := by
  induction names with
  | nil => rfl
  | cons first rest ih =>
      by_cases same : first = name
      · simp [same]
      · have apart : name ≠ first := fun equal => same equal.symm
        simp [same, apart, ih]

/-- A name is listed with the first sort under which it is headed. -/
theorem mem_widgets_iff {text : Array Char} {type name : String} :
    (∃ widget ∈ widgets text, widget.name = name ∧ widget.sort = type) ↔
      FirstHeaded text type name := by
  have kept : ∀ widget, widget ∈ widgets text ↔
      (allWidgets text).find? (fun each => each.name == widget.name) = some widget := by
    intro widget
    rw [widgets_eq, List.mem_reverse, mem_foldl_keepFirst]
    simp
  have first : ∀ widget, (allWidgets text).find? (fun each => each.name == name) = some widget ↔
      ∃ before sort after, widgetSorts = before ++ sort :: after ∧
        (Headed text sort name ∧
          ⟨name, sort.name, buildPattern.occursIn text && sort.name != "stateful"⟩ = widget) ∧
        ∀ earlier ∈ before, ¬ Headed text earlier name := by
    intro widget
    rw [allWidgets, List.find?_flatMap, List.findSome?_eq_some_iff]
    simp only [find?_named, mem_namesFound_iff, Option.ite_none_right_eq_some, Option.some.injEq,
      ite_eq_right_iff, reduceCtorEq, imp_false]
  constructor
  · rintro ⟨widget, member, rfl, rfl⟩
    obtain ⟨before, sort, after, whole, ⟨headed, same⟩, none⟩ :=
      (first _).mp ((kept widget).mp member)
    refine ⟨before, sort, after, whole, ?_, headed, none⟩
    rw [← same]
  · rintro ⟨before, sort, after, whole, rfl, headed, none⟩
    let widget : Widget :=
      ⟨name, sort.name, buildPattern.occursIn text && sort.name != "stateful"⟩
    have found := (first widget).mpr ⟨before, sort, after, whole, ⟨headed, rfl⟩, none⟩
    exact ⟨widget, (kept widget).mpr found, rfl, rfl⟩

/-! ### What is told of Flutter -/

def ListsWidget (metadata : Fields) (type name : String) : Prop :=
  ∃ analysis entries entry, metadata.get? "flutter_analysis" = some (.object analysis) ∧
    Fields.get? analysis "widgets" = some (.list entries) ∧ .object entry ∈ entries ∧
    Fields.text? entry "name" = some name ∧ Fields.text? entry "type" = some type

private theorem listsWidget_of_report {metadata : Fields} {analysis : Analysis}
    (told : metadata.get? "flutter_analysis" = some (.object (report (some analysis))))
    {type name : String} :
    ListsWidget metadata type name ↔
      ∃ widget ∈ analysis.widgets, widget.name = name ∧ widget.sort = type := by
  constructor
  · rintro ⟨fields, entries, entry, read, list, member, named, typed⟩
    cases read.symm.trans told
    cases list
    obtain ⟨widget, listed, same⟩ := List.mem_map.mp member
    cases same
    exact ⟨widget, listed, Option.some.inj named, Option.some.inj typed⟩
  · rintro ⟨widget, listed, rfl, rfl⟩
    exact ⟨_, _, _, told, rfl, List.mem_map_of_mem listed, rfl, rfl⟩

/-- What is told of Flutter in a file that imports it. -/
theorem rootFields_flutter {job : Job} (imports : flutterImport.occursIn job.source.text = true)
    (config : Config) (strategy : Strategy) (path : String) (extraction : Extraction Node) :
    ∃ analysis, analysis.widgets = widgets job.source.text ∧
      (rootFields config job strategy path extraction).get? "flutter_analysis" =
        if config.dart.enableFlutterDetection = true ∧ job.faults.flutter? = none then
          some (.object (report (some analysis)))
        else none := by
  have silent : (metadata config strategy job.source extraction).get? "flutter_analysis" = none :=
    (metadata_get?_eq (by decide) (by decide) config strategy job.source extraction).trans
      (extraction.problemFields_other (by decide))
  obtain ⟨analysis, analyzed, same⟩ :
      ∃ analysis, analyze? job.source.text = some analysis ∧
        analysis.widgets = widgets job.source.text := by
    unfold analyze?
    rw [if_pos imports]
    exact ⟨_, rfl, rfl⟩
  refine ⟨analysis, same, ?_⟩
  unfold rootFields withFlutter
  dsimp only
  rw [analyzed]
  cases config.dart.enableFlutterDetection with
  | false => simpa using silent
  | true =>
      cases job.faults.flutter? with
      | some message =>
          have failed : ¬ (true = true ∧ some message = none) := by simp
          rw [if_pos rfl, if_neg failed]
          exact (Fields.get?_put_ne (by decide) _ _).trans silent
      | none =>
          rw [if_pos rfl, if_pos ⟨rfl, rfl⟩]
          exact Fields.get?_putAll_cons rfl _ _

/-- A file that imports Flutter lists a widget unless Flutter is not looked for, or the search for
it fails, or another sort of widgets has the name. -/
theorem listsWidget_root_iff {job : Job}
    (imports : flutterImport.occursIn job.source.text = true) (config : Config)
    (strategy : Strategy) (path : String) (extraction : Extraction Node) {type name : String} :
    ListsWidget (assemble config job strategy path extraction).value.tree.root.metadata type name ↔
      config.dart.enableFlutterDetection = true ∧ job.faults.flutter? = none ∧
        FirstHeaded job.source.text type name := by
  obtain ⟨analysis, same, told⟩ := rootFields_flutter imports config strategy path extraction
  rw [assemble_root, ← mem_widgets_iff, ← same, ← and_assoc]
  by_cases looked : config.dart.enableFlutterDetection = true ∧ job.faults.flutter? = none
  · rw [if_pos looked] at told
    rw [and_iff_right looked]
    exact listsWidget_of_report told
  · rw [if_neg looked] at told
    refine ⟨fun listed => ?_, fun both => absurd both.1 looked⟩
    obtain ⟨fields, _, _, read, _⟩ := listed
    cases read.symm.trans told

/-! ### Nodes that are marked -/

def MarkedAs (node : Node) (type : String) : Prop :=
  node.tag = "class_declaration" ∧ node.metadata.text? "flutter_type" = some "widget" ∧
      node.metadata.text? "widget_type" = some type ∨
    node.tag = "state_class_declaration" ∧ type = "state"

instance (node : Node) (type : String) : Decidable (MarkedAs node type) :=
  inferInstanceAs (Decidable (_ ∨ _))

private theorem MarkedAs.tag {node : Node} {type : String} (marked : MarkedAs node type) :
    node.tag ∈ classTags := by
  rcases marked with ⟨tag, _⟩ | ⟨tag, _⟩ <;> rw [tag] <;> decide

section

variable {source : Source} {found : Match}

/-- What the node of a class tells besides its header is told by its superclass. -/
theorem classNode_get? {key : String}
    (other : key ∉ ["name", "signature", "modifiers", "extends", "mixins", "implements"]) :
    ∃ members, (classNode source true found).metadata.get? key =
      (classSort (Text.trim (source.part found .superclass)) members).2.get? key := by
  obtain ⟨front, members, keys, _, _, made⟩ := classNode_eq source true found
  refine ⟨members, ?_⟩
  have absent : Fields.get? front key = none := by
    rw [Fields.get?_eq_none_iff]
    intro field member same
    exact other (same ▸ keys field member)
  rw [made]
  exact Fields.get?_append absent _

private theorem widgetSort?_of_classSort {superclass : List Char} {members : List Node}
    {type : String}
    (told : (classSort superclass members).2.get? "widget_type" = some (.text type)) :
    widgetSort? (String.ofList (Text.trim (Text.before '<' superclass))) = some type := by
  unfold classSort at told
  dsimp only at told
  split at told
  · cases told
  · dsimp only at told
    split at told
    · rename_i sort known
      cases told
      exact known
    · cases told

/-- The superclass of a marked class is of its type. -/
theorem exists_sort_of_marked {type : String}
    (marked : MarkedAs (classNode source true found) type) :
    ∃ sort ∈ widgetSorts, sort.name = type ∧ sort.Names (source.part found .superclass) := by
  rcases marked with ⟨_, _, told⟩ | ⟨tag, rfl⟩
  · obtain ⟨members, same⟩ := @classNode_get? source found "widget_type" (by decide)
    rw [Fields.text?_eq_some_iff.mp told] at same
    exact exists_sort_of_widget (widgetSort?_of_classSort same.symm)
  · apply exists_sort_of_state
    obtain ⟨_, _, _, _, _, made⟩ := classNode_eq source true found
    rw [made] at tag
    have state : classTag (Text.trim (source.part found .superclass)) =
        "state_class_declaration" := (classSort_fst _ _).symm.trans tag
    unfold classTag at state
    split at state
    · assumption
    · exact absurd state (by decide)

private theorem WidgetSort.Names.part?_eq {sort : WidgetSort}
    (names : sort.Names (source.part found .superclass)) :
    ∃ first last, found.part? .superclass = some (first, last) ∧
      sort.Names (source.text.extract first last).toList := by
  unfold Source.part Source.part? at names
  cases part : found.part? .superclass with
  | none =>
      rw [part] at names
      obtain ⟨lead, base, tail, listed, empty, _⟩ := names
      have opens := sort.opens base listed
      have nothing : lead ++ base.toList ++ tail = [] := empty.symm
      rw [List.append_eq_nil_iff, List.append_eq_nil_iff] at nothing
      rw [nothing.1.2] at opens
      cases opens
  | some range =>
      rw [part] at names
      exact ⟨range.1, range.2, rfl, names⟩

/-- How the node of a class comes about that is marked as a widget of a sort: it is drawn from a
header, which is a heading of the sort unless type parameters follow the name. -/
structure WidgetDrawn (source : Source) (found : Match) (sort : WidgetSort) (name : String)
    (node : Node) : Prop where
  listed : sort ∈ widgetSorts
  header : found ∈ classPattern.findAll source.text
  made : node = classNode source true found
  named : node.metadata.text? "name" = some name
  written : source.sliceText (found.partStart .name) (found.partStop .name) = name
  headed : (∃ heading : Heading source.text sort, heading.start = found.partStart .name ∧
      heading.stop = found.partStop .name) ↔
    source.text[found.partStop .name]? ≠ some '<'

private theorem exists_widgetDrawn (header : found ∈ classPattern.findAll source.text)
    {type : String} (marked : MarkedAs (classNode source true found) type) :
    ∃ sort name, sort.name = type ∧
      WidgetDrawn source found sort name (classNode source true found) := by
  obtain ⟨sort, listed, same, names⟩ := exists_sort_of_marked marked
  obtain ⟨first, last, superclass, written⟩ := names.part?_eq
  obtain ⟨stands⟩ := exists_classHeader (mem_findAllFrom header).2
  obtain ⟨front, members, _, told, _, made⟩ := classNode_eq source true found
  have starts : found.partStart .name = stands.start := by
    rw [Match.partStart, stands.named]
    rfl
  have stops : found.partStop .name = stands.stop := by
    rw [Match.partStop, stands.named]
    rfl
  refine ⟨sort, _, same, listed, header, rfl, ?_, rfl, ?_⟩
  · rw [Fields.text?_eq_some_iff, made, starts, stops]
    have name : source.part found .name = source.slice stands.start stands.stop := by
      rw [Source.part, Source.part?, stands.named]
      rfl
    rw [name] at told
    exact Fields.get?_append_left told _
  · rw [starts, stops]
    exact stands.heading_iff superclass written

end

/-! ### Files -/

/-- Whatever is collected is in the tree. -/
theorem mem_preorder_of_item {config : Config} {job : Job} {strategy : Strategy} {path : String}
    {extraction : Extraction Node} {node : Node} (member : node ∈ extraction.items) :
    node ∈ (assemble config job strategy path extraction).value.tree.root.preorder := by
  apply List.mem_cons_of_mem
  refine (Node.mem_preorderAll _ _).mpr ⟨node, (bySpan_perm _ _).mem_iff.mpr member, ?_⟩
  cases node <;> exact List.mem_cons_self

/-- The classes of a file that is taken apart in full are drawn from their headers. -/
theorem Job.exists_header {job : Job} {node : Node} (member : node ∈ job.runFull.items)
    (tag : node.tag ∈ classTags) :
    ∃ found ∈ classPattern.findAll job.source.text, node = classNode job.source true found := by
  have taken := (job.stepPlan.run_taken Step.all {}).1
  change job.runFull.items = _ at taken
  rw [taken] at member
  obtain ⟨step, _, given⟩ := List.mem_flatMap.mp ((takeWithin_sublist _ _ _ _).mem member)
  have drawn := given_drawn given
  have declared := (job.stepPlan.given_sublist step).mem given
  cases drawn with
  | plain _ other => exact absurd (List.mem_cons_of_mem _ tag) other
  | enumType _ _ isEnum =>
      rw [Node.tag, isEnum] at tag
      exact absurd tag (by decide)
  | classType =>
      obtain ⟨found, listed, made⟩ := List.mem_map.mp declared
      refine ⟨found, ?_, made.symm⟩
      rw [← findAllBetween_whole]
      exact listed

/-- A class that is marked is drawn from a header, and it is listed if its name is headed. -/
theorem Job.listsWidget_iff {job : Job}
    (imports : flutterImport.occursIn job.source.text = true) (config : Config) (path : String)
    {node : Node}
    (member : node ∈ (assemble config job .full path job.runFull).value.tree.root.preorder)
    {type : String} (marked : MarkedAs node type) :
    ∃ found sort name, sort.name = type ∧ WidgetDrawn job.source found sort name node ∧
      (ListsWidget (assemble config job .full path job.runFull).value.tree.root.metadata type name ↔
        config.dart.enableFlutterDetection = true ∧ job.faults.flutter? = none ∧
          FirstHeaded job.source.text type name) := by
  have ran := job.run_full_eq
  obtain ⟨listed, _⟩ := drawn_of_outer ran member (List.mem_cons_of_mem _ marked.tag)
  rw [Node.inSourceOrder_eq, (bySpan_perm _ _).mem_iff] at listed
  obtain ⟨found, header, rfl⟩ := exists_header listed marked.tag
  obtain ⟨sort, name, same, drawn⟩ := exists_widgetDrawn header marked
  exact ⟨found, sort, name, same, drawn,
    listsWidget_root_iff imports config .full path job.runFull⟩

/-- In a file that imports Flutter and is taken apart in full, a class that is marked as a widget or
a state is listed under its name and with its type exactly if Flutter is looked for, the search
does not fail, and the type is the first of the sorts under which the name is headed.  Its own
header heads it unless type parameters follow the name. -/
theorem parse_lists_widget_iff {config : Config} {content : String}
    (admits : Admits config content .full)
    (imports : flutterImport.occursIn (Source.ofContent content).text = true) (faults : Faults)
    (path : String) (context : Option Context) :
    ∃ parsed, (parse config faults content path context).value = .ok parsed ∧
      ∀ node ∈ parsed.tree.root.preorder, ∀ type, MarkedAs node type →
        ∃ found sort name, sort.name = type ∧
          WidgetDrawn (.ofContent content) found sort name node ∧
          (ListsWidget parsed.tree.root.metadata type name ↔
            config.dart.enableFlutterDetection = true ∧ faults.flutter? = none ∧
              FirstHeaded (Source.ofContent content).text type name) := by
  have made := admits.parse_full faults path context
  refine ⟨_, made, fun node member type marked => ?_⟩
  exact @Job.listsWidget_iff (jobOf config .full faults content context) imports config path node
    member type marked

/-- A widget whose header heads it is listed. -/
theorem plain_widget_listed :
    let content :=
      "import 'package:flutter/material.dart';\nclass A extends StatelessWidget \x7b\x7d"
    Admits {} content .full ∧
      flutterImport.occursIn (Source.ofContent content).text = true ∧
      ∃ parsed, (parse {} {} content "a.dart" none).value = .ok parsed ∧
        ∃ node ∈ parsed.tree.root.preorder, MarkedAs node "stateless" ∧
          node.metadata.text? "name" = some "A" ∧
          ListsWidget parsed.tree.root.metadata "stateless" "A" := by
  intro content
  have admits : Admits {} content .full := ⟨by decide +kernel, by decide +kernel⟩
  have imports : flutterImport.occursIn (Source.ofContent content).text = true := by
    decide +kernel
  obtain ⟨parsed, made, lists⟩ := parse_lists_widget_iff admits imports {} "a.dart" none
  obtain ⟨node, member, marked, named⟩ : ∃ node ∈ (jobOf {} .full {} content none).runFull.items,
      MarkedAs node "stateless" ∧ node.metadata.text? "name" = some "A" := by
    decide +kernel
  have inside : node ∈ parsed.tree.root.preorder := by
    rw [← Except.ok.inj ((admits.parse_full {} "a.dart" none).symm.trans made)]
    exact mem_preorder_of_item member
  obtain ⟨found, sort, name, typed, drawn, listed⟩ := lists node inside "stateless" marked
  cases drawn.named.symm.trans named
  refine ⟨admits, imports, parsed, made, node, inside, marked, named, listed.mpr ⟨rfl, rfl, ?_⟩⟩
  have plain : ∀ found ∈ classPattern.findAll (Source.ofContent content).text,
      (Source.ofContent content).text[found.partStop .name]? ≠ some '<' := by
    decide +kernel
  obtain ⟨heading, starts, stops⟩ := drawn.headed.mpr (plain found drawn.header)
  have headed : Headed (Source.ofContent content).text sort "A" := by
    refine ⟨heading, ?_⟩
    rw [starts, stops]
    exact drawn.written
  rcases List.mem_cons.mp drawn.listed with rfl | later
  · exact ⟨[], _, _, rfl, rfl, headed, fun _ none => by cases none⟩
  · have others : ∀ sort ∈ widgetSorts.tail, sort.name ≠ "stateless" := by decide
    exact absurd typed (others sort later)

/-- A widget with type parameters is marked in the tree, but it is not listed. -/
theorem generic_widget_unlisted :
    ¬ ∀ (content path : String) (parsed : Parsed), Admits {} content .full →
      flutterImport.occursIn (Source.ofContent content).text = true →
      (parse {} {} content path none).value = .ok parsed →
      ∀ node ∈ parsed.tree.root.preorder, ∀ type name, MarkedAs node type →
        node.metadata.text? "name" = some name →
        ListsWidget parsed.tree.root.metadata type name := by
  intro holds
  let content :=
    "import 'package:flutter/material.dart';\nclass A<T> extends StatelessWidget \x7b\x7d"
  have admits : Admits {} content .full := ⟨by decide +kernel, by decide +kernel⟩
  have imports : flutterImport.occursIn (Source.ofContent content).text = true := by
    decide +kernel
  obtain ⟨node, member, marked, named⟩ : ∃ node ∈ (jobOf {} .full {} content none).runFull.items,
      MarkedAs node "stateless" ∧ node.metadata.text? "name" = some "A" := by
    decide +kernel
  have listed := holds content "a.dart" _ admits imports (admits.parse_full {} "a.dart" none) node
    (mem_preorder_of_item member) "stateless" "A" marked named
  obtain ⟨_, _, first⟩ := (@listsWidget_root_iff (jobOf {} .full {} content none) imports {} .full
    "a.dart" (jobOf {} .full {} content none).runFull "stateless" "A").mp listed
  obtain ⟨widget, present, _⟩ := mem_widgets_iff.mpr first
  have none : widgets (Source.ofContent content).text = [] := by decide +kernel
  have impossible : widget ∈ widgets (Source.ofContent content).text := present
  rw [none] at impossible
  cases impossible

end SourceOutline.Dart
