import PseudocodeTools.Block.Fold
/-!
# Command line arguments

A command line names one of four tasks and a file.  Options may stand anywhere
after the task; a lone pair of hyphens ends them.  The first argument that
cannot be understood, or that asks for the version or for help, decides; only
then is it asked whether something is missing.
-/

namespace PseudocodeTools

/-!
# Tasks
-/

/-- What the program does with a file. -/
inductive Task where
  | tokens
  | folds (strategy : FoldStrategy)
  | indent (offset : Nat)
  | tree
  | verdict
deriving DecidableEq, Repr

/-- A task and the name of a file. -/
structure Command where
  task : Task
  file : Text
deriving DecidableEq, Repr

inductive Invocation where
  | version
  | help
  | run (command : Command)
deriving DecidableEq, Repr

/-- Why a command line cannot be understood. -/
inductive UsageFault where
  | unexpected (argument : Text)
  | repeated (option : Text)
  | missingValue (option : Text)
  | invalidValue (option value : Text)
  | missingCommand
  | missingFile
  | missingOffset
deriving DecidableEq, Repr

namespace UsageFault

def message : UsageFault -> Text
  | unexpected argument => "unexpected argument ".toList ++ argument
  | repeated option =>
      "the option ".toList ++ option ++ " is given more than once".toList
  | missingValue option =>
      "the option ".toList ++ option ++ " needs a value".toList
  | invalidValue option value =>
      "the option ".toList ++ option ++ " cannot have the value ".toList ++ value
  | missingCommand => "a command is missing".toList
  | missingFile => "the name of a file is missing".toList
  | missingOffset => "the option --offset is missing".toList

end UsageFault

/-!
# Sorts of arguments
-/

inductive Argument where
  /-- The pair of hyphens that ends the options. -/
  | separator
  /-- An option by its long name, with the value after an equals sign. -/
  | long (name : Text) (value : Option Text)
  /-- Options by their letters. -/
  | short (letters : Text)
  | plain
deriving DecidableEq, Repr

/-- The name and the value of a long option. -/
def Argument.ofLong (t : Text) : Argument :=
  match t.dropWhile (· ≠ '=') with
  | [] => long t none
  | _ :: value => long (t.takeWhile (· ≠ '=')) (some value)

def Argument.ofText : Text -> Argument
  | ['-', '-'] => separator
  | '-' :: '-' :: t => ofLong t
  | '-' :: c :: t => short (c :: t)
  | _ => plain

/-- The number that a value of an option spells: decimal digits, of which a plus
sign may come first, for a word of 64 bits. -/
def offsetOf? (value : Text) : Option Nat :=
  let digits : Text :=
    match value with
    | '+' :: rest => rest
    | _ => value
  let n := digits.foldl (fun n c => n * 10 + (c.toNat - '0'.toNat)) 0
  if digits ≠ [] ∧ digits.all Char.isDigit ∧ n < 0x10000000000000000 then some n
  else none

/-!
# Commands
-/

/-- The commands by their names. -/
inductive Verb where
  | tokens
  | folds
  | indent
  | decode
deriving DecidableEq, Repr

namespace Verb

def all : List Verb :=
  [tokens, folds, indent, decode]

def name : Verb -> String
  | tokens => "tokens"
  | folds => "folds"
  | indent => "indent"
  | decode => "decode"

def ofName? (t : Text) : Option Verb :=
  all.find? fun verb => verb.name.toList == t

/-- The switch that a command has, if it has one. -/
def switch? : Verb -> Option String
  | folds => some "legacy"
  | decode => some "result"
  | tokens | indent => none

end Verb

/-!
# Options of a command
-/

/-- What has been given after the name of a command. -/
structure Given where
  verbose : Bool := false
  switch : Bool := false
  offset : Option Nat := none
  file : Option Text := none
deriving DecidableEq, Repr

namespace Given

/-- Notes that the verbose option is given. -/
def withVerbose (given : Given) (option : Text) : Except UsageFault Given :=
  if given.verbose then .error (.repeated option)
  else .ok { given with verbose := true }

def withSwitch (given : Given) (option : Text) : Except UsageFault Given :=
  if given.switch then .error (.repeated option)
  else .ok { given with switch := true }

def withOffset (given : Given) (option value : Text) : Except UsageFault Given :=
  match given.offset, offsetOf? value with
  | none, some n => .ok { given with offset := some n }
  | none, none => .error (.invalidValue option value)
  | some _, _ => .error (.repeated option)

def withFile (given : Given) (argument : Text) : Except UsageFault Given :=
  match given.file, argument with
  | some _, _ => .error (.unexpected argument)
  | none, [] => .error .missingFile
  | none, _ :: _ => .ok { given with file := some argument }

/-- The task of a command with all its options given. -/
def task (given : Given) : Verb -> Except UsageFault Task
  | .tokens => .ok .tokens
  | .folds => .ok (.folds (if given.switch then .firstCloser else .nested))
  | .decode => .ok (if given.switch then .verdict else .tree)
  | .indent =>
      match given.offset with
      | some offset => .ok (.indent offset)
      | none => .error .missingOffset

def finish (given : Given) (verb : Verb) : Except UsageFault Invocation :=
  match given.file with
  | none => .error .missingFile
  | some file =>
      match given.task verb with
      | .ok task => .ok (.run { task := task, file := file })
      | .error fault => .error fault

end Given

/-!
# Reading the arguments
-/

/-- What an option without a value asks for. -/
inductive Wish where
  | verbose
  | switch
  | version
  | help
deriving DecidableEq, Repr

/-- The letters before the first that asks for the version or for help, with
what is left when the wishes among them are noted. -/
def readLetters {α : Type} (meaning : Char -> Option Wish)
    (note : α -> Wish -> Except UsageFault α) (given : α) :
    Text -> Except UsageFault (α ⊕ Invocation)
  | [] => .ok (.inl given)
  | c :: rest =>
      match meaning c with
      | none => .error (.unexpected ['-', c])
      | some .version => .ok (.inr .version)
      | some .help => .ok (.inr .help)
      | some wish =>
          match note given wish with
          | .ok given => readLetters meaning note given rest
          | .error fault => .error fault

namespace Verb

/-- Letters that are options after a command. -/
def letter? : Char -> Option Wish
  | 'v' => some .verbose
  | 'h' => some .help
  | _ => none

def note (given : Given) : Wish -> Except UsageFault Given
  | .verbose => given.withVerbose "-v".toList
  | _ => .ok given

/-- The option without a value that a long name stands for. -/
def wish? (verb : Verb) (name : Text) : Option Wish :=
  if name = "verbose".toList then some .verbose
  else if name = "help".toList then some .help
  else if verb.switch?.map String.toList = some name then some .switch
  else none

/-- Reads the arguments after the name of a command, the first of which may be
the value of an option. -/
def read (verb : Verb) :
    Option Text -> Given -> List Text -> Except UsageFault Invocation
  | none, given, [] => given.finish verb
  | some option, _, [] => .error (.missingValue option)
  | some option, given, value :: rest => do
      let given ← given.withOffset option value
      verb.read none given rest
  | none, given, argument :: rest =>
      match Argument.ofText argument with
      | .separator => do
          let given ← rest.foldlM Given.withFile given
          given.finish verb
      | .plain => do
          let given ← given.withFile argument
          verb.read none given rest
      | .short letters =>
          match readLetters letter? note given letters with
          | .error fault => .error fault
          | .ok (.inr invocation) => .ok invocation
          | .ok (.inl given) => verb.read none given rest
      | .long name value =>
          if verb = indent ∧ name = "offset".toList then
            match value with
            | none => verb.read (some argument) given rest
            | some value => do
                let given ← given.withOffset argument value
                verb.read none given rest
          else
            match verb.wish? name, value with
            | none, _ => .error (.unexpected argument)
            | some _, some _ => .error (.unexpected argument)
            | some .verbose, none => do
                let given ← given.withVerbose argument
                verb.read none given rest
            | some .switch, none => do
                let given ← given.withSwitch argument
                verb.read none given rest
            | some .version, none => .ok .version
            | some .help, none => .ok .help

end Verb

namespace Invocation

/-- Letters that are options before a command. -/
def letter? : Char -> Option Wish
  | 'v' => some .verbose
  | 'V' => some .version
  | 'h' => some .help
  | _ => none

/-- Notes that the verbose option is given before a command. -/
def note (verbose : Bool) : Wish -> Except UsageFault Bool
  | .verbose => if verbose then .error (.repeated "-v".toList) else .ok true
  | _ => .ok verbose

/-- Reads arguments up to the name of a command, and those after it. -/
def readFrom (verbose : Bool) : List Text -> Except UsageFault Invocation
  | [] => .error .missingCommand
  | argument :: rest =>
      match Verb.ofName? argument with
      | some verb => verb.read none {} rest
      | none =>
          match Argument.ofText argument with
          | .short letters =>
              match readLetters letter? note verbose letters with
              | .error fault => .error fault
              | .ok (.inr invocation) => .ok invocation
              | .ok (.inl verbose) => readFrom verbose rest
          | .long name none =>
              if name = "version".toList then .ok .version
              else if name = "help".toList then .ok .help
              else if name = "verbose".toList then
                match note verbose .verbose with
                | .error fault => .error fault
                | .ok verbose => readFrom verbose rest
              else .error (.unexpected argument)
          | .long _ (some _) | .separator | .plain =>
              if argument = "help".toList then .ok .help
              else .error (.unexpected argument)

/-- What a list of arguments asks for. -/
def ofArguments (arguments : List Text) : Except UsageFault Invocation :=
  readFrom false arguments

end Invocation
end PseudocodeTools
