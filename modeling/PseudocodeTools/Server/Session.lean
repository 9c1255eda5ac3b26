import PseudocodeTools.Server.Documents
import PseudocodeTools.Server.Highlight
import PseudocodeTools.Server.Inspection
import PseudocodeTools.Server.LineBreak
/-!
# Sessions

A session begins when the editor hands over its settings and ends when the
editor shuts the server down.  In between the server keeps the text of every
open document and answers each request from the latest text alone.
-/

namespace PseudocodeTools

/-!
# Messages
-/

/-- What an editor tells the server. -/
inductive Notice where
  | ready
  | opened (uri : String) (document : Document)
  /-- The whole text after each of a series of changes. -/
  | changed (uri : String) (version : Int) (contents : List Text)
  | closed (uri : String)
deriving DecidableEq, Repr

/-- What an editor asks of a document. -/
inductive Query where
  | highlighting
  | folding
  | hovering (position : Position)
  | typing (position : Position) (typed : Text)
deriving DecidableEq, Repr

/-- What an editor asks of the server. -/
inductive Request where
  | start (options : Option Json)
  | query (uri : String) (query : Query)
  | shutdown
deriving DecidableEq

/-- What the server tells the editor of its own accord. -/
inductive Announcement where
  | ready
  | diagnostics (uri : String) (version : Option Int) (found : List Diagnostic)
deriving DecidableEq, Repr

/-- What a query gives for an open document. -/
inductive Finding where
  | highlighting (tokens : List RelativeToken)
  | folding (blocks : List FoldedLines)
  | hovering (description : Text)
  | edits (edits : List DocumentEdit)
deriving DecidableEq, Repr

inductive Reply where
  | capabilities
  | finding (found : Option Finding)
  | done
deriving DecidableEq, Repr

/-- Why a request is refused. -/
inductive Refusal where
  | notStarted
  | invalid
deriving DecidableEq, Repr

/-!
# Sessions
-/

inductive Phase where
  | waiting
  | running
  | stopped
deriving DecidableEq, Repr

structure Session where
  phase : Phase := .waiting
  settings : EditorSettings := {}
  documents : Documents := []
deriving DecidableEq, Repr

namespace Session

/-- The settings in the options of an editor, or the default ones. -/
def settingsOf : Option Json -> EditorSettings
  | none | some .null => {}
  | some options =>
      match EditorSettings.codec.ofJson options with
      | .ok settings => settings
      | .error _ => {}

/-- What a query gives for a text. -/
def find (settings : EditorSettings) (source : Text) : Query -> Option Finding
  | .highlighting => (highlight source).map .highlighting
  | .folding => some (.folding (foldedLines settings source))
  | .hovering position => (hover source position).map .hovering
  | .typing position typed =>
      if typed = ['\n'] then
        (lineBreakEdit settings source position).map fun edit => .edits [edit]
      else
        none

/-- What a query gives in a session. -/
def answer (session : Session) (uri : String) (query : Query) : Option Finding :=
  (session.documents.get? uri).bind fun document =>
    find session.settings document.content query

/-- A session after a request, and the outcome of the request. -/
def request (session : Session) : Request -> Session × Except Refusal Reply
  | .start options =>
      match session.phase with
      | .waiting =>
          ({ session with phase := .running, settings := settingsOf options },
            .ok .capabilities)
      | .running | .stopped => (session, .error .invalid)
  | .query uri query =>
      match session.phase with
      | .waiting => (session, .error .notStarted)
      | .running => (session, .ok (.finding (session.answer uri query)))
      | .stopped => (session, .error .invalid)
  | .shutdown =>
      match session.phase with
      | .waiting => (session, .error .notStarted)
      | .running => ({ session with phase := .stopped }, .ok .done)
      | .stopped => (session, .error .invalid)

/-- A running session after a notice, and what is announced. -/
def hear (session : Session) : Notice -> Session × List Announcement
  | .ready => (session, [.ready])
  | .opened uri document =>
      ({ session with documents := session.documents.put uri document },
        [.diagnostics uri (some document.version)
          (diagnostics document.content)])
  | .changed _ _ [] => (session, [])
  | .changed uri version (content :: _) =>
      let document : Document := { content := content, version := version }
      ({ session with documents := session.documents.update uri document },
        [.diagnostics uri (some version) (diagnostics content)])
  | .closed uri =>
      ({ session with documents := session.documents.erase uri },
        [.diagnostics uri none []])

/-- A session after a notice, which is heard only while the session runs. -/
def notice (session : Session) (message : Notice) :
    Session × List Announcement :=
  match session.phase with
  | .running => session.hear message
  | .waiting | .stopped => (session, [])

end Session
end PseudocodeTools
