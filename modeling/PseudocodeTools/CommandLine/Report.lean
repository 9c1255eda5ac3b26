import PseudocodeTools.CommandLine.Arguments
import PseudocodeTools.Grading.Verdict
import PseudocodeTools.Indent
import PseudocodeTools.Text.Quoted
import PseudocodeTools.Token
import PseudocodeTools.Tree.Encode
/-!
# Reports

What the program prints about a file, and the code with which it ends: zero
when the file is in order, one when it is not or cannot be read, and two when
the arguments cannot be understood.
-/

namespace PseudocodeTools

structure Outcome where
  code : UInt32
  output : Text
  errors : Text
deriving DecidableEq, Repr

namespace Outcome

/-- Lines with a line feed after each. -/
def printedLines (lines : List Text) : Text :=
  lines.flatMap fun line => line ++ ['\n']

def success (lines : List Text) : Outcome :=
  { code := 0, output := printedLines lines, errors := [] }

/-- The failure that a message tells of, after some lines of output. -/
def failure (lines : List Text) (message : Text) : Outcome :=
  { code := 1, output := printedLines lines, errors := message ++ ['\n'] }

end Outcome

/-!
# Columns
-/

/-- A text with blanks before it up to a width. -/
def alignRight (width : Nat) (t : Text) : Text :=
  List.replicate (width - t.length) ' ' ++ t

/-- A text with blanks after it up to a width. -/
def alignLeft (width : Nat) (t : Text) : Text :=
  t ++ List.replicate (width - t.length) ' '

/-!
# Reports on pseudocode
-/

def Token.reportLine (token : Token) : Text :=
  alignRight 4 (Text.ofNat token.start) ++ "..".toList ++
    alignLeft 4 (Text.ofNat token.stop) ++ ' ' ::
    (alignLeft 10 token.kind.tag.toList ++ ' ' :: Text.quoted token.text)

def tokensReport (source : Text) : Outcome :=
  .success (List.replicate 60 '-' :: (tokens source).map Token.reportLine)

/-- Line and column of a byte offset, both counted from one. -/
def lineColumn? (source : Text) (offset : Nat) : Option (Nat × Nat) :=
  (source.before? offset).map fun before =>
    (before.count '\n' + 1, before.lastLine.length + 1)

/-- A line and a column with a colon between them. -/
def lineColumnText : Nat × Nat -> Text
  | (line, column) => Text.ofNat line ++ ':' :: Text.ofNat column

/-- The line on a block, whose ends have a line and a column. -/
def FoldRange.reportLine? (source : Text) (range : FoldRange) : Option Text := do
  let first ← lineColumn? source range.first
  let last ← lineColumn? source range.last
  return lineColumnText first ++ " - ".toList ++ lineColumnText last

def foldsReport (strategy : FoldStrategy) (source : Text) : Outcome :=
  match foldRanges source strategy with
  | [] => .success ["No foldable blocks".toList]
  | ranges => .success (ranges.filterMap (FoldRange.reportLine? source))

def indentReport (offset : Nat) (source : Text) : Outcome :=
  match autoIndent source offset defaultIndentUnit with
  | none => .success ["default line break".toList]
  | some edit =>
      .success
        ["insert ".toList ++ Text.quoted edit.insert ++ " at ".toList ++
          Text.ofNat edit.offset ++ ", cursor -> ".toList ++
          Text.ofNat edit.cursor]

/-!
# Reports on trees and verdicts
-/

def treeReport (source : Text) : Outcome :=
  match Tree.decodeText source with
  | .error fault => .failure [] ("Invalid AST: ".toList ++ fault.message.toList)
  | .ok node =>
      let count := Tree.countTagged (Tree.encode node)
      let extra := node.frame.extra.map fun entry => entry.1.toList
      let first :=
        "OK: ".toList ++ node.type.name.toList ++ " (".toList ++
          Text.ofNat count ++ " nodes)".toList
      match extra with
      | [] => .success [first]
      | keys =>
          .success
            [first,
              "Unmodelled fields: ".toList ++ [',', ' '].intercalate keys]

/-- The levels of feedback that are reported, with their headings. -/
def reportedLevels : List (FeedbackLevel × String) :=
  [(.error, "Error"), (.warning, "Warning"), (.hint, "Hint")]

namespace Verdict

/-- The lines on correctness, score and feedback. -/
def reportLines (verdict : Verdict) : List Text :=
  let judgement := if verdict.isCorrect then "Correct" else "Incorrect"
  let first :=
    judgement.toList ++ " (score ".toList ++ verdict.score.twoPlaces ++ [')']
  let feedback :=
    if verdict.feedback.isEmpty then [] else [verdict.feedback.toList]
  let items := reportedLevels.flatMap fun (level, heading) =>
    (verdict.itemsAt level).map fun item =>
      "  [".toList ++ heading.toList ++ "] ".toList ++ item.message.toList
  first :: (feedback ++ items)

end Verdict

/-- The names of the functions of a program. -/
def Node.functionNames (node : Node) : List Text :=
  match node.payload with
  | .program functions _ =>
      functions.filterMap fun f =>
        match f.payload with
        | .function name .. => some name.toList
        | _ => none
  | _ => []

/-- The line on an attached program. -/
def Node.programLine (program : Node) : Text :=
  let names := program.functionNames
  "AST: program with ".toList ++ Text.ofNat names.length ++
    " function(s) [".toList ++
    [',', ' '].intercalate (names.map Text.quoted) ++ [']']

def verdictReport (source : Text) : Outcome :=
  match Verdict.codec.read source with
  | .error fault =>
      .failure []
        ("Invalid evaluation result: ".toList ++
          (fault.message FormatFault.message).toList)
  | .ok verdict =>
      match verdict.validate with
      | .error fault =>
          .failure [] ("Invalid evaluation result: ".toList ++ fault.message)
      | .ok () =>
          let lines := verdict.reportLines
          match verdict.program? with
          | .ok (some program) => .success (lines ++ [program.programLine])
          | .ok none => .success (lines ++ ["AST: not included".toList])
          | .error fault =>
              .failure lines ("Invalid AST: ".toList ++ fault.message.toList)

/-!
# Running a command
-/

/-- Why a file cannot be read as a text. -/
inductive FileFault where
  | notFound
  | notPermitted
  | isDirectory
  | notText
  | other (message : Text)
deriving DecidableEq, Repr

def FileFault.message : FileFault -> Text
  | notFound => "No such file or directory (os error 2)".toList
  | notPermitted => "Permission denied (os error 13)".toList
  | isDirectory => "Is a directory (os error 21)".toList
  | notText => "stream did not contain valid UTF-8".toList
  | other message => message

/-- The text of a file, if its bytes are one. -/
def textOfBytes (bytes : ByteArray) : Except FileFault Text :=
  match String.fromUTF8? bytes with
  | some s => .ok s.toList
  | none => .error .notText

def Task.report : Task -> Text -> Outcome
  | tokens => tokensReport
  | folds strategy => foldsReport strategy
  | indent offset => indentReport offset
  | tree => treeReport
  | verdict => verdictReport

/-- The outcome of a command, from what reading its file gives. -/
def Command.outcome (command : Command) : Except FileFault Text -> Outcome
  | .ok source => command.task.report source
  | .error fault =>
      .failure []
        ("Error reading '".toList ++ command.file ++ "': ".toList ++
          fault.message)

def versionOutcome : Outcome :=
  .success ["pseudocode 0.1.0".toList]

def usageLines : List Text :=
  ["Usage: pseudocode [-v] <COMMAND>",
    "  tokens FILE                 print every token",
    "  folds FILE [--legacy]       print the foldable blocks",
    "  indent FILE --offset N      show what a line break would insert",
    "  decode FILE [--result]      check a syntax tree or a verdict"].map
    String.toList

def helpOutcome : Outcome :=
  .success usageLines

def usageOutcome (fault : UsageFault) : Outcome :=
  { code := 2
    output := []
    errors := Outcome.printedLines (("error: ".toList ++ fault.message) :: usageLines) }

end PseudocodeTools
