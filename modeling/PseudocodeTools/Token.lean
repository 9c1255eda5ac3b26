import PseudocodeTools.Lexeme
/-!
# Tokens

A text is covered by segments: its lexemes, and single characters where no rule
matches.  The tokens of a text are its classified segments.
-/

namespace PseudocodeTools

/-- A stretch of text with its first byte offset; `kind` is missing for a
character that no rule matches. -/
structure Segment where
  kind : Option TokenKind
  start : Nat
  text : Text
deriving DecidableEq, Repr

/-- A classified stretch of text with its first byte offset. -/
structure Token where
  kind : TokenKind
  start : Nat
  text : Text
deriving DecidableEq, Repr

/-- Byte offset after the segment. -/
def Segment.stop (segment : Segment) : Nat :=
  segment.start + segment.text.byteLength

def Segment.token? (segment : Segment) : Option Token :=
  segment.kind.map fun kind =>
    { kind := kind, start := segment.start, text := segment.text }

namespace Token

/-- Byte offset after the token. -/
def stop (token : Token) : Nat :=
  token.start + token.text.byteLength

/-- Whether byte offset `n` falls into the token. -/
def covers (token : Token) (n : Nat) : Bool :=
  token.start ≤ n && n < token.stop

end Token

/-!
# Segments
-/

/-- The segment at the head of the text `c :: t`, which stands at `start`. -/
def segmentAt (start : Nat) (c : Char) (t : Text) : Segment :=
  match lexeme (c :: t) with
  | none => { kind := none, start := start, text := [c] }
  | some (kind, n) =>
      { kind := some kind, start := start, text := (c :: t).take n }

/-- The segment at byte offset `cursor`. -/
def scan (source : Text) (cursor : Nat) : Option Segment :=
  match source.after? cursor with
  | some (c :: t) => some (segmentAt cursor c t)
  | _ => none

/-- The segments of a text that stands at byte offset `start`. -/
def segmentsFrom (start : Nat) : Text -> List Segment
  | [] => []
  | c :: t =>
      let segment := segmentAt start c t
      segment :: segmentsFrom segment.stop (t.drop (segment.text.length - 1))
termination_by t => t.length
decreasing_by simp only [List.length_drop, List.length_cons]; omega

def segments (source : Text) : List Segment :=
  segmentsFrom 0 source

/-!
# Tokens
-/

/-- The tokens of a text that stands at byte offset `start`. -/
def tokensFrom (start : Nat) (t : Text) : List Token :=
  (segmentsFrom start t).filterMap Segment.token?

/-- The tokens from byte offset `cursor` on; none when nothing can be cut
there. -/
def tokensStartingAt (source : Text) (cursor : Nat) : List Token :=
  match source.after? cursor with
  | some t => tokensFrom cursor t
  | none => []

def tokens (source : Text) : List Token :=
  tokensFrom 0 source

/-- The token that covers byte offset `n` in a text that stands at `start`, which
is the first segment to end behind `n` if that is classified. -/
def tokenCovering (n start : Nat) : Text -> Option Token
  | [] => none
  | c :: t =>
      let segment := segmentAt start c t
      if n < segment.stop then segment.token?
      else
        tokenCovering n segment.stop (t.drop (segment.text.length - 1))
termination_by t => t.length
decreasing_by simp only [List.length_drop, List.length_cons]; omega

/-- The token that covers byte offset `n`.  No token crosses a line feed, so it
is looked for from the start of the line. -/
def tokenAt (source : Text) (n : Nat) : Option Token := do
  let before ← source.before? n
  let lineStart := n - before.lastLine.byteLength
  let line ← source.after? lineStart
  tokenCovering n lineStart line

end PseudocodeTools
