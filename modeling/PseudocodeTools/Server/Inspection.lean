import PseudocodeTools.Server.Position
import PseudocodeTools.Token
/-!
# Inspecting a document

A diagnostic marks each malformed identifier of a document, and hovering over a
token tells its kind.
-/

namespace PseudocodeTools

structure Diagnostic where
  range : DocumentRange
  message : Text
deriving DecidableEq, Repr

def Diagnostic.ofToken (source : Text) (token : Token) : Diagnostic :=
  { range := .ofOffsets source token.start token.stop
    message := "invalid identifier ".toList ++ '\x60' :: (token.text ++ ['\x60']) }

/-- One diagnostic for each malformed identifier. -/
def diagnostics (source : Text) : List Diagnostic :=
  ((tokens source).filter fun token => token.kind == .invalid).map
    (Diagnostic.ofToken source)

/-- The rule that a malformed identifier breaks. -/
def identifierRule : Text :=
  ("Identifiers start with a letter or \x60_\x60 and contain only ASCII " ++
    "letters, digits and \x60_\x60.").toList

/-- What is shown about a token. -/
def Token.description (token : Token) : Text :=
  let kind := "**".toList ++ token.kind.tag.toList ++ "**".toList
  let text := '\x60' :: (token.text ++ ['\x60'])
  let rule :=
    if token.kind = .invalid then '\n' :: '\n' :: identifierRule else []
  kind ++ ' ' :: text ++ rule

/-- What is shown at a position, if there is a token. -/
def hover (source : Text) (p : Position) : Option Text := do
  let offset ← p.toOffset? source
  let token ← tokenAt source offset
  return token.description

end PseudocodeTools
