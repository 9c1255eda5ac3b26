import PseudocodeTools.TokenKind
import PseudocodeTools.Text.Letter
import PseudocodeTools.Text.Basic
/-!
# Lexemes

Each rule of the token grammar has an extent on a text: the length of the
longest prefix that the rule matches.  The lexeme at the head of a text is the
longest of these prefixes; of two rules with the same extent the earlier one in
`Rule.all` wins.
-/

namespace PseudocodeTools

/-!
# Words of the language
-/

/-- Reserved words, in any case of their ASCII letters. -/
def keywords : List Text :=
  ["IF", "THEN", "ELSE", "ELSEIF", "ENDIF", "WHILE", "FOR", "TO", "STEP",
    "NEXT", "REPEAT", "UNTIL", "FUNCTION", "PROCEDURE", "BEGIN", "END",
    "RETURN", "PRINT", "INPUT"].map String.toList

/-- Words that stand for a value, in any case of their ASCII letters. -/
def booleanWords : List Text :=
  ["TRUE", "FALSE", "NULL"].map String.toList

/-- Characters a word may begin with. -/
def isWordStart (c : Char) : Bool :=
  c == '_' || isLetter c

/-- Characters a word may go on with. -/
def isWordChar (c : Char) : Bool :=
  isWordStart c || c.isDigit

def isOperatorChar (c : Char) : Bool :=
  ['+', '-', '*', '/', '=', '%', '<', '>', '!'].contains c

def isIdentifierStart (c : Char) : Bool :=
  c.isAlpha || c == '_'

def isIdentifierChar (c : Char) : Bool :=
  c.isAlphanum || c == '_'

/-- A well-formed identifier: an ASCII letter or `_`, then ASCII letters,
digits and `_`. -/
def isIdentifier : Text -> Bool
  | [] => false
  | c :: t => isIdentifierStart c && t.all isIdentifierChar

/-!
# Rules
-/

inductive Rule where
  | keyword
  | boolean
  | number
  | quoted (quote : Char)
  | comment
  | operator
  | word
deriving DecidableEq, Repr

namespace Rule

/-- The rules, the stronger ones first. -/
def all : List Rule :=
  [keyword, boolean, number, quoted '"', quoted '\'', comment, operator, word]

/-- A symbol that begins with the same byte as some letter, without being one,
takes a reserved word directly before it for part of a longer word. -/
def blursWord : Text -> Bool
  | [] => false
  | c :: _ => 0x80 ≤ c.toNat && !isLetter c && startsLikeLetter c

/-- Longest of the given words at the head of a text, whatever the case. -/
def reservedExtent (words : List Text) (t : Text) : Option Nat :=
  let found := words.filter fun w =>
    t.startsIgnoringCase w && !blursWord (t.drop w.length)
  (found.map List.length).max?

def digitCount (t : Text) : Nat :=
  (t.takeWhile Char.isDigit).length

def numberExtent : Text -> Option Nat
  | '-' :: t => if digitCount t = 0 then none else some (digitCount t + 1)
  | t => if digitCount t = 0 then none else some (digitCount t)

/-- Characters up to and with the closing quote.  A backslash takes the next
character with it, and no line feed may come before the close. -/
def closingExtent (quote : Char) : Text -> Option Nat
  | [] => none
  | ['\\'] => none
  | '\\' :: c :: t =>
      if c = '\n' then none else (closingExtent quote t).map (· + 2)
  | c :: t =>
      if c = quote then some 1
      else if c = '\n' then none
      else (closingExtent quote t).map (· + 1)

def quotedExtent (quote : Char) : Text -> Option Nat
  | [] => none
  | c :: t => if c = quote then (closingExtent quote t).map (· + 1) else none

def commentExtent : Text -> Option Nat
  | '/' :: '/' :: t => some ((t.takeWhile (· ≠ '\n')).length + 2)
  | _ => none

def operatorExtent (t : Text) : Option Nat :=
  match (t.takeWhile isOperatorChar).length with
  | 0 => none
  | n + 1 => some (n + 1)

/-- A word without the digits before it. -/
def letteredExtent : Text -> Option Nat
  | [] => none
  | c :: t =>
      if isWordStart c then some ((t.takeWhile isWordChar).length + 1) else none

/-- A word may follow digits, and a minus sign with at least one digit. -/
def wordExtent : Text -> Option Nat
  | '-' :: t =>
      if digitCount t = 0 then none
      else (letteredExtent (t.drop (digitCount t))).map (· + (digitCount t + 1))
  | t => (letteredExtent (t.drop (digitCount t))).map (· + digitCount t)

/-- Length of the longest prefix of a text that the rule matches. -/
def extent : Rule -> Text -> Option Nat
  | keyword => reservedExtent keywords
  | boolean => reservedExtent booleanWords
  | number => numberExtent
  | quoted quote => quotedExtent quote
  | comment => commentExtent
  | operator => operatorExtent
  | word => wordExtent

/-- The kind of a lexeme with the given text. -/
def kind : Rule -> Text -> TokenKind
  | keyword, _ => .keyword
  | boolean, _ => .boolean
  | number, _ => .number
  | quoted _, _ => .string
  | comment, _ => .comment
  | operator, _ => .operator
  | word, t => if isIdentifier t then .identifier else .invalid

/-- The rule with the longest extent, and this extent; of equals the first. -/
def longest (t : Text) : List Rule -> Option (Rule × Nat)
  | [] => none
  | rule :: rest =>
      match rule.extent t, longest t rest with
      | none, other => other
      | some n, none => some (rule, n)
      | some n, some (other, m) =>
          if m ≤ n then some (rule, n) else some (other, m)

end Rule

/-!
# The lexeme at the head of a text
-/

/-- A point and at least one digit. -/
def fractionExtent : Text -> Nat
  | '.' :: t =>
      if Rule.digitCount t = 0 then 0 else Rule.digitCount t + 1
  | _ => 0

/-- Kind and length of the lexeme that a text begins with.  A number goes on
over its fraction. -/
def lexeme (t : Text) : Option (TokenKind × Nat) :=
  match Rule.longest t Rule.all with
  | none => none
  | some (.number, n) => some (.number, n + fractionExtent (t.drop n))
  | some (rule, n) => some (rule.kind (t.take n), n)

end PseudocodeTools
