import PseudocodeTools.Block.Fold
import PseudocodeTools.Codec.Record
import PseudocodeTools.Indent
/-!
# Editor settings

An editor chooses how blocks are folded and how far lines are indented.
-/

namespace PseudocodeTools

def FoldStrategy.name : FoldStrategy -> String
  | nested => "nested"
  | firstCloser => "first_closer"

def FoldStrategy.codec : Codec FoldStrategy :=
  .choice [.nested, .firstCloser] name

structure EditorSettings where
  foldStrategy : FoldStrategy := .nested
  indentUnit : Text := defaultIndentUnit
deriving DecidableEq, Repr

namespace EditorSettings

def codec : Codec EditorSettings :=
  let default : EditorSettings := {}
  (Codec.record "EditorConfig" <|
    .cons (.withDefault "fold_strategy" FoldStrategy.codec default.foldStrategy) <|
    .cons (.withDefault "indent_unit" .text (String.ofList default.indentUnit)) <|
    .nil).iso
    (fun (foldStrategy, indentUnit, ()) =>
      { foldStrategy := foldStrategy, indentUnit := indentUnit.toList })
    (fun settings =>
      (settings.foldStrategy, String.ofList settings.indentUnit, ()))

def foldRanges (settings : EditorSettings) (source : Text) : List FoldRange :=
  PseudocodeTools.foldRanges source settings.foldStrategy

def autoIndent (settings : EditorSettings) (source : Text) (cursor : Nat) :
    Option IndentEdit :=
  PseudocodeTools.autoIndent source cursor settings.indentUnit

end EditorSettings
end PseudocodeTools
