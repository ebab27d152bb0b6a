import SourceOutline.Proofs.Session.Hit
import SourceOutline.Proofs.Symbol.Path

set_option autoImplicit false

/-! Which file a tree is said to be of.

A tree is kept under the path of its file, and the tree of a text without a path under the digest of
the text.  A digest is itself a path that is accepted, so a text without a path and the same text
under its digest share one place in the cache, and one is given the tree of the other. -/

namespace SourceOutline

/-! ### Digests as paths -/

private theorem not_mem_digest {mark : Char} (foreign : ∀ digit < 16, Nat.digitChar digit ≠ mark)
    (text : String) : mark ∉ (digest text).toList := by
  intro member
  rw [digest, Digest.hex, String.toList_ofList, List.mem_flatMap] at member
  obtain ⟨word, _word, digits⟩ := member
  obtain ⟨shift, _shift, same⟩ := List.mem_map.mp digits
  exact foreign _ (Nat.mod_lt _ (by decide)) same

private theorem digest_length (text : String) : (digest text).length = 64 := by
  simp [digest, Digest.hex, Digest.wordDigits]

private theorem Text.splitAt_of_not_mem {mark : Char} {letters : List Char}
    (without : mark ∉ letters) :
    splitAt mark letters = [letters] := by
  unfold splitAt
  induction letters with
  | nil => rfl
  | cons letter rest ih =>
      have other : ¬ (letter == mark) = true := by
        intro same
        exact without (List.mem_cons.mpr (Or.inl (beq_iff_eq.mp same).symm))
      have later := ih fun member => without (List.mem_cons_of_mem _ member)
      obtain ⟨piece, pieces⟩ := List.cons.inj later
      rw [List.foldr_cons]
      dsimp only at piece pieces ⊢
      rw [if_neg other, piece, pieces]

namespace Path

/-- A name without slashes, backslashes and null characters that is not too long is accepted as a
path, unless it is a double dot. -/
theorem validate_name {path : String} (slash : '/' ∉ path.toList) (backslash : '\\' ∉ path.toList)
    (null : '\x00' ∉ path.toList) (short : path.length ≤ maximumLength) (other : path ≠ "..") :
    validate path = .ok () := by
  have same : withSlashes path = path := by
    unfold withSlashes
    rw [List.map_congr_left (g := id), List.map_id, String.ofList_toList]
    intro letter member
    refine if_neg fun equal => backslash ?_
    rw [← beq_iff_eq.mp equal]
    exact member
  have whole : segments path = [path] := by
    rw [segments, Text.splitAt_of_not_mem slash, List.map_singleton, String.ofList_toList]
  have inside : ¬ (normalSegments path).contains ".." = true := by
    rw [normalSegments, whole, List.foldl_cons, List.foldl_nil, pushSegment]
    split
    · decide
    · rw [if_neg fun dots => other (beq_iff_eq.mp dots)]
      intro found
      have dots := List.mem_singleton.mp (List.contains_iff_mem.mp found)
      exact other dots.symm
  unfold validate
  rw [same, if_neg inside, if_neg (Nat.not_lt.mpr short),
    if_neg fun found => null (List.contains_iff_mem.mp found), ite_self]

private theorem validate_digest (text : String) : validate (digest text) = .ok () := by
  apply validate_name
  · exact not_mem_digest (by decide) text
  · exact not_mem_digest (by decide) text
  · exact not_mem_digest (by decide) text
  · rw [digest_length]
    decide
  · intro dots
    have length := digest_length text
    rw [dots] at length
    exact absurd length (by decide)

end Path

namespace Session

/-! ### Files that are taken for each other -/

/-- One of two files has no path, and the path of the other is the digest of the text. -/
def Confused (text path other : String) : Prop :=
  path = "" ∧ other = digest text ∨ path = digest text ∧ other = ""

/-- Two requests for one text share a key exactly if they are for one path or are confused. -/
theorem keyOf_eq_iff {source request : Request}
    (same : digest source.text = digest request.text) :
    keyOf source = keyOf request ↔
      source.path = request.path ∨ Confused request.text source.path request.path := by
  have unnamed {file : Request} (empty : file.path = "") : keyOf file = digest file.text := by
    rw [keyOf, empty]
    rfl
  have named {file : Request} (filled : file.path ≠ "") : keyOf file = file.path := by
    apply keyOf_path
    rw [← Bool.not_eq_true, String.isEmpty_iff]
    exact filled
  unfold Confused
  -- The two kinds of keys meet only where one path is empty and the other is not.
  by_cases first : source.path = "" <;> by_cases second : request.path = ""
  · rw [unnamed first, unnamed second, first, second]
    exact iff_of_true same (Or.inl rfl)
  · rw [unnamed first, named second, first, same]
    constructor
    · intro equal
      exact Or.inr (Or.inl ⟨rfl, equal.symm⟩)
    · rintro (empty | ⟨_, equal⟩ | ⟨_, empty⟩)
      · exact absurd empty.symm second
      · exact equal.symm
      · exact absurd empty second
  · rw [named first, unnamed second, second]
    constructor
    · intro equal
      exact Or.inr (Or.inr ⟨equal, rfl⟩)
    · rintro (empty | ⟨empty, _⟩ | ⟨equal, _⟩)
      · exact absurd empty first
      · exact absurd empty first
      · exact equal
  · rw [named first, named second]
    constructor
    · exact Or.inl
    · rintro (equal | ⟨empty, _⟩ | ⟨_, empty⟩)
      · exact equal
      · exact absurd empty first
      · exact absurd empty second

private theorem not_confused_self (text path : String) : ¬ Confused text path path := by
  rintro (⟨empty, same⟩ | ⟨same, empty⟩)
  · exact digest_ne_empty text (same.symm.trans empty)
  · exact digest_ne_empty text (same.symm.trans empty)

/-- A tree belongs to a file: it tells the path of the file, and so does every symbol that is ever
found in it. -/
structure BelongsTo (tree : Tree) (file : String) : Prop where
  path : tree.path = file
  symbols : ∀ session : Session, Gives (AllAt file) (session.symbols (some tree)).value

private theorem belongsTo_iff (tree : Tree) (file : String) :
    BelongsTo tree file ↔ tree.path = file := by
  constructor
  · exact BelongsTo.path
  · intro same
    refine ⟨same, fun session => ?_⟩
    rw [← same]
    exact session.symbols_allAt tree

def TellsPath (request : Request) (tree : Tree) : Prop :=
  tree.path = request.path

private theorem Makes.path {session : Session} {request : Request} {language : Language}
    {kept : Kept} (makes : Makes session request language kept)
    (standIns : StandInsGive TellsPath (session.handler language)) :
    kept.tree.path = request.path := by
  obtain ⟨parsed, made, same⟩ := makes.kept
  rw [same]
  apply (noteCacheError_fields _ _).2.trans
  rcases builtIn_or_standIn made with builtIn | ⟨parser, standing, gives, _whole⟩
  · exact (runHandler_isOf builtIn (runHandler_of_handled made)).path
  · rw [standing] at standIns
    exact standIns _ request _ parsed.tree gives

private theorem MadeIn.path {config : Config} {projectRoot? : Option String} {maker : Session}
    {events : List Event} {source : Request} {kept : Kept}
    (made : MadeIn (ofConfig config projectRoot?) events maker source kept)
    (standIns : ∀ event ∈ events, event.StandInsGive TellsPath) :
    kept.tree.path = source.path := by
  have gives := made.standInsGive standIns
  obtain ⟨_before, _event, _later, language, _split, _reached, _brings, makes⟩ := made
  exact makes.path (gives language)

/-- In every run, a request that is answered is given a tree that belongs to its path, unless the
tree was made for another request with which it is confused.  What stand-ins make tells the path
they were asked for. -/
theorem parse_belongsTo_iff {config : Config} {projectRoot? : Option String} {events : List Event}
    {request : Request} {kept : Kept} (standIns : ∀ event ∈ events, event.StandInsGive TellsPath)
    (given : (((ofConfig config projectRoot?).run events).parse request).result = .ok kept) :
    BelongsTo kept.tree request.path ↔
      ¬ ∃ maker source, MadeIn (ofConfig config projectRoot?) events maker source kept ∧
        Confused request.text source.path request.path := by
  rw [belongsTo_iff]
  constructor
  · rintro belongs ⟨maker, source, made, confused⟩
    rw [← made.path standIns, belongs] at confused
    exact not_confused_self _ _ confused
  · intro apart
    obtain ⟨language, _known, makes | found⟩ := makes_or_found given
    · exact makes.path (standInsGive_ofConfig config projectRoot? standIns language)
    · obtain ⟨answers, entry, member, key, value⟩ := lookUp_found found
      obtain ⟨maker, source, made, sourceKey, _accepted⟩ :=
        madeIn_of_mem_entries config projectRoot? events entry member
      rw [value] at made
      have text : digest source.text = digest request.text :=
        made.textHash.symm.trans (beq_iff_eq.mp (Bool.and_eq_true_iff.mp answers).1)
      rcases (keyOf_eq_iff text).mp (sourceKey.trans key) with path | confused
      · exact (made.path standIns).trans path
      · exact absurd ⟨maker, source, made, confused⟩ apart

/-- A text without a path is parsed, and then the same text under its digest: the first tree is
found again. -/
theorem found_under_digest {path : String} (hashed : path = digest "class A {}") :
    ∃ kept, Makes (ofConfig {}) (swiftFile "") .swift kept ∧
      (((ofConfig {}).run [.act (.parse (swiftFile ""))]).parse (swiftFile path)).result =
        .ok kept := by
  have admits (file : String) (accepted : Path.validate file = .ok ()) :
      (ofConfig {}).admitted (swiftFile file) = .ok .swift :=
    (admitted_swiftFile_eq_ok_iff rfl file .swift).mpr ⟨rfl, accepted⟩
  obtain ⟨kept, makes, spoken⟩ := makes_swift (admits "" rfl) rfl (lookUp_missed rfl .swift)
  have key : keyOf (swiftFile path) = keyOf (swiftFile "") := by
    have text : digest (swiftFile path).text = digest (swiftFile "").text := rfl
    exact (keyOf_eq_iff text).mpr (Or.inr (Or.inr ⟨hashed, rfl⟩))
  have accepted : Path.validate path = .ok () := by
    rw [hashed]
    exact Path.validate_digest _
  obtain ⟨given, _found⟩ := makes.found_behind (.opened {} none) rfl rfl spoken
    (admits path accepted) key rfl (by decide) (by decide +kernel)
  rw [behind_eq rfl] at given
  exact ⟨kept, makes, given⟩

theorem belongsTo_swiftFile :
    (∃ kept, ((ofConfig {}).parse (swiftFile "a.swift")).result = .ok kept ∧
        BelongsTo kept.tree "a.swift") ∧
      ∃ kept, (((ofConfig {}).run [.act (.parse (swiftFile ""))]).parse
          (swiftFile (digest "class A {}"))).result = .ok kept ∧
        ¬ BelongsTo kept.tree (digest "class A {}") := by
  constructor
  · have accepted : Path.validate "a.swift" = .ok () := by decide +kernel
    obtain ⟨kept, makes, _spoken⟩ := makes_swift
      ((admitted_swiftFile_eq_ok_iff (show (ofConfig {}).handler .swift = .builtIn from rfl)
        "a.swift" .swift).mpr ⟨rfl, accepted⟩) rfl (lookUp_missed rfl .swift)
    have given : (((ofConfig {}).run []).parse (swiftFile "a.swift")).result = .ok kept :=
      makes.given rfl
    have standIns : ∀ event ∈ [], Event.StandInsGive TellsPath event := by
      intro event impossible
      cases impossible
    refine ⟨kept, given, (parse_belongsTo_iff standIns given).mpr ?_⟩
    rintro ⟨_maker, _source, ⟨before, _event, _later, _language, split, _made⟩, _confused⟩
    cases before <;> cases split
  · obtain ⟨kept, makes, given⟩ := found_under_digest rfl
    have standIns : ∀ event ∈ [.act (.parse (swiftFile ""))],
        Event.StandInsGive TellsPath event := by
      intro event member
      rw [List.mem_singleton.mp member]
      trivial
    refine ⟨kept, given, fun belongs => (parse_belongsTo_iff standIns given).mp belongs ?_⟩
    exact ⟨_, swiftFile "", ⟨[], _, [], .swift, rfl, rfl, rfl, makes⟩, Or.inl ⟨rfl, rfl⟩⟩

/-- Nothing is made to fail, and yet a request for one path is given a tree without a path. -/
theorem unnamed_tree_given :
    ¬ ∀ (requests : List Request) (request : Request) (kept : Kept),
      (∀ asked ∈ request :: requests,
        asked.conditions.dart = {} ∧ asked.conditions.swift = {}) →
      (((ofConfig {}).run (requests.map fun asked => .act (.parse asked))).parse request).result =
        .ok kept →
      kept.tree.path = request.path := by
  intro right
  obtain ⟨kept, makes, given⟩ := found_under_digest rfl
  have path := right [swiftFile ""] (swiftFile (digest "class A {}")) kept ?_ given
  · exact digest_ne_empty "class A {}" (path.symm.trans (makes.path trivial))
  · intro asked member
    rcases List.mem_cons.mp member with same | earlier
    · rw [same]
      exact ⟨rfl, rfl⟩
    · rw [List.mem_singleton.mp earlier]
      exact ⟨rfl, rfl⟩

end Session

end SourceOutline
