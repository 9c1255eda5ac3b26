import PseudocodeTools.JsonText.Printer
import PseudocodeTools.Server.Session
/-!
# Server messages as JSON

Replies and announcements in the form in which they are sent.  A reply carries
the number or the name of its request, and is sent in a frame that begins with
the length of the text in bytes.
-/

namespace PseudocodeTools

/-!
# Parts of messages
-/

/-- A count of 32 bits as a value. -/
def countJson (n : UInt32) : Json :=
  .number (.ofUInt32 n)

def Position.toJson (p : Position) : Json :=
  .ofPairs [("line", countJson p.line), ("character", countJson p.character)]

def DocumentRange.toJson (range : DocumentRange) : Json :=
  .ofPairs [("start", range.start.toJson), ("end", range.stop.toJson)]

/-- A malformed identifier is a warning, which has severity two. -/
def Diagnostic.toJson (d : Diagnostic) : Json :=
  .ofPairs
    [("range", d.range.toJson), ("severity", .ofNat 2),
      ("source", .string "pseudocode"), ("message", .ofText d.message)]

def FoldedLines.toJson (block : FoldedLines) : Json :=
  .ofPairs
    [("startLine", countJson block.first), ("endLine", countJson block.last),
      ("kind", .string "region")]

def DocumentEdit.toJson (edit : DocumentEdit) : Json :=
  .ofPairs [("range", edit.range.toJson), ("newText", .ofText edit.text)]

def Finding.toJson : Finding -> Json
  | highlighting tokens =>
      .ofPairs
        [("data",
          .array ((tokens.flatMap RelativeToken.numbers).map countJson))]
  | folding blocks => .array (blocks.map FoldedLines.toJson)
  | hovering description =>
      .ofPairs
        [("contents",
          .ofPairs [("kind", .string "markdown"), ("value", .ofText description)])]
  | edits found => .array (found.map DocumentEdit.toJson)

/-!
# Replies
-/

/-- The abilities of the server: documents are sent as a whole after each
change, and a line break is formatted. -/
def capabilities : Json :=
  let legend : Json :=
    .ofPairs
      [("tokenTypes",
          .array (TokenKind.all.map fun kind => .string kind.legendName)),
        ("tokenModifiers", .array [])]
  .ofPairs
    [("capabilities",
        .ofPairs
          [("textDocumentSync", .ofNat 1), ("hoverProvider", .boolean true),
            ("semanticTokensProvider",
              .ofPairs [("legend", legend), ("full", .boolean true)]),
            ("foldingRangeProvider", .boolean true),
            ("documentOnTypeFormattingProvider",
              .ofPairs [("firstTriggerCharacter", .string "\n")])]),
      ("serverInfo",
        .ofPairs
          [("name", .string "pseudocode-lsp"), ("version", .string "0.1.0")])]

def Reply.toJson : Reply -> Json
  | capabilities => PseudocodeTools.capabilities
  | finding none => .null
  | finding (some found) => found.toJson
  | done => .null

def Refusal.code : Refusal -> Int
  | notStarted => -32002
  | invalid => -32600

def Refusal.message : Refusal -> String
  | notStarted => "Server not initialized"
  | invalid => "Invalid request"

def Refusal.toJson (refusal : Refusal) : Json :=
  .ofPairs
    [("code", .ofInt refusal.code), ("message", .string refusal.message)]

/-- The member of a response that holds the outcome of a request. -/
def outcomeMember : Except Refusal Reply -> String × Json
  | .ok reply => ("result", reply.toJson)
  | .error refusal => ("error", refusal.toJson)

/-!
# Announcements
-/

def Announcement.method : Announcement -> String
  | ready => "window/logMessage"
  | diagnostics .. => "textDocument/publishDiagnostics"

/-- The parameters of an announcement; a message for the log has type three. -/
def Announcement.params : Announcement -> Json
  | ready =>
      .ofPairs
        [("type", .ofNat 3),
          ("message", .string "Pseudocode LSP server initialized")]
  | diagnostics uri version found =>
      .ofPairs <|
        ("uri", .string uri) ::
          ("diagnostics", .array (found.map Diagnostic.toJson)) ::
          (version.map fun n => ("version", Json.ofInt n)).toList

/-!
# Frames
-/

/-- The response to the request of the given name or number. -/
def response (id : Json) (outcome : Except Refusal Reply) : Json :=
  .ofPairs [("jsonrpc", .string "2.0"), ("id", id), outcomeMember outcome]

/-- The line that announces the length of a message, and the blank line after
it. -/
def frameHeader (length : Nat) : Text :=
  "Content-Length: ".toList ++ Text.ofNat length ++ ['\r', '\n', '\r', '\n']

/-- A message in the form in which it is sent. -/
def frame (message : Json) : Text :=
  let body := message.print
  frameHeader body.byteLength ++ body

/-- What a new server sends when it is asked to start. -/
def startResponse (id : Json) (options : Option Json) : Text :=
  frame (response id (Session.request {} (.start options)).2)

end PseudocodeTools
