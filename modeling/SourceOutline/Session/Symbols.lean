import SourceOutline.Cpp.Symbols
import SourceOutline.Dart.Symbols
import SourceOutline.Session.Basic
import SourceOutline.Swift.Symbols

set_option autoImplicit false

/-! The symbols of trees in a session. -/

namespace SourceOutline.Session

def builtInSymbols (config : Config) (language : Language) (tree : Tree) :
    Logged (Except Failure (List Symbol)) :=
  match language with
  | .cpp => Cpp.symbols config tree
  | .dart => ⟨(Dart.symbols tree).mapError .crash, []⟩
  | .swift => ⟨(Swift.symbols tree).mapError .crash, []⟩

def handlerSymbols (session : Session) (language : Language) (tree : Tree) :
    Logged (Except Failure (List Symbol)) :=
  match session.handler language with
  | .absent => ⟨.error (.error (.unsupported tree.language tree.path)), []⟩
  | .standIn parser => ⟨parser.symbolsFailure?.elim (.ok []) .error, []⟩
  | .builtIn => builtInSymbols session.config language tree

def symbols (session : Session) (tree? : Option Tree) : Logged (Except Error (List Symbol)) :=
  match tree?.filter fun tree => !tree.root.isMissing with
  | none =>
      ⟨.error
        (.failed .validation "extract_symbols" (some "ast or ast root is nil") "" ""), []⟩
  | some tree =>
      match Language.ofName? tree.language with
      | none => ⟨.error (.unsupported tree.language tree.path), []⟩
      | some language =>
          let context : Context := { path := some tree.path, language := some tree.language }
          let found := handlerSymbols session language tree
          let recovered :=
            recover ("extract_symbols_" ++ tree.language) (some context) found.value
          ⟨recovered.value, found.log ++ recovered.log⟩

end SourceOutline.Session
