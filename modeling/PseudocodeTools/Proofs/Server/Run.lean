import Mathlib.Data.List.Induction
import PseudocodeTools.Server.Session
/-!
# Runs of a session

An editor sends notices and queries in any order.  What a running session stores
for an address, and what it announces about it, follow message by message from
what the messages say about this address.
-/

namespace PseudocodeTools

/-- What an editor sends to a running server. -/
inductive Message where
  | notice (notice : Notice)
  | query (uri : String) (query : Query)
deriving DecidableEq, Repr

/-- The cases of a message, with a change that carries no text on its own. -/
@[elab_as_elim]
theorem Message.kindCases {motive : Message -> Prop}
    (query : forall uri query, motive (.query uri query))
    (ready : motive (.notice .ready))
    (opened : forall uri document, motive (.notice (.opened uri document)))
    (closed : forall uri, motive (.notice (.closed uri)))
    (unchanged : forall uri version,
      motive (.notice (.changed uri version [])))
    (changed : forall uri version content contents,
      motive (.notice (.changed uri version (content :: contents))))
    (message : Message) : motive message :=
  match message with
  | .query _ _ => query _ _
  | .notice .ready => ready
  | .notice (.opened _ _) => opened _ _
  | .notice (.closed _) => closed _
  | .notice (.changed _ _ []) => unchanged _ _
  | .notice (.changed _ _ (_ :: _)) => changed _ _ _ _

namespace Session

/-- A new session after an editor has started it. -/
def started (options : Option Json) : Session :=
  (request {} (.start options)).1

/-- A session after a message. -/
def receive (session : Session) : Message -> Session
  | .notice notice => (session.notice notice).1
  | .query uri query => (session.request (.query uri query)).1

/-- What is announced on a message. -/
def announced (session : Session) : Message -> List Announcement
  | .notice notice => (session.notice notice).2
  | .query _ _ => []

/-- A session after a series of messages. -/
def run (session : Session) (history : List Message) : Session :=
  history.foldl receive session

/-- What is announced in the course of a series of messages. -/
def announcements (session : Session) : List Message -> List Announcement
  | [] => []
  | message :: rest =>
      session.announced message ++ (session.receive message).announcements rest

theorem run_concat (session : Session) (history : List Message)
    (message : Message) :
    session.run (history ++ [message]) =
      (session.run history).receive message :=
  List.foldl_append

theorem announcements_concat (session : Session) (history : List Message)
    (message : Message) :
    session.announcements (history ++ [message]) =
      session.announcements history ++
        (session.run history).announced message := by
  induction history generalizing session with
  | nil =>
      exact List.append_nil _
  | cons first history ih =>
      rw [List.cons_append, announcements, announcements, ih,
        List.append_assoc]
      rfl

end Session

/-!
# The past of a run
-/

/-- Of some message in the past `start` held, given the messages before it, and
`keep` has held of every message since. -/
def Since (keep : Message -> Prop) (start : List Message -> Message -> Prop)
    (history : List Message) : Prop :=
  exists before message after, before ++ message :: after = history ∧
    start before message ∧ forall later, later ∈ after -> keep later

theorem not_since_nil {keep : Message -> Prop}
    {start : List Message -> Message -> Prop} :
    ¬ Since keep start [] := by
  rintro ⟨before, message, after, hsplit, _⟩
  exact List.append_ne_nil_of_right_ne_nil before (List.cons_ne_nil _ _) hsplit

theorem since_concat {keep : Message -> Prop}
    {start : List Message -> Message -> Prop} {history : List Message}
    {message : Message} :
    Since keep start (history ++ [message]) ↔
      start history message ∨ keep message ∧ Since keep start history := by
  constructor
  · rintro ⟨before, first, after, hsplit, hstart, hkeep⟩
    cases after using List.reverseRecOn with
    | nil =>
        rcases List.append_inj' hsplit rfl with ⟨rfl, hlast⟩
        cases hlast
        exact Or.inl hstart
    | append_singleton after last =>
        rw [← List.cons_append, ← List.append_assoc] at hsplit
        rcases List.append_inj' hsplit rfl with ⟨rfl, hlast⟩
        cases hlast
        rw [List.forall_mem_append] at hkeep
        exact Or.inr ⟨hkeep.2 message List.mem_cons_self,
          before, first, after, rfl, hstart, hkeep.1⟩
  · rintro (hstart | ⟨hmessage, before, first, after, rfl, hstart, hkeep⟩)
    · exact ⟨history, message, [], rfl, hstart,
        fun _ hmem => absurd hmem List.not_mem_nil⟩
    · refine ⟨before, first, after ++ [message], ?_, hstart, ?_⟩
      · rw [List.append_assoc, List.cons_append]
      · rw [List.forall_mem_append]
        exact ⟨hkeep, List.forall_mem_singleton.mpr hmessage⟩

/-!
# One address
-/

namespace Message

/-- The address that a message may change something for; a change without a text
changes nothing. -/
def uri? : Message -> Option String
  | .notice (.opened uri _) => some uri
  | .notice (.changed uri _ (_ :: _)) => some uri
  | .notice (.closed uri) => some uri
  | .notice .ready | .notice (.changed _ _ []) | .query _ _ => none

/-- What is stored for an address after a message, if `stored` was before it. -/
def store (uri : String) (stored : Option Document) :
    Message -> Option Document
  | .notice (.opened other document) =>
      if uri = other then some document else stored
  | .notice (.changed other version (content :: _)) =>
      if uri = other then
        stored.map fun _ => { content := content, version := version }
      else stored
  | .notice (.closed other) => if uri = other then none else stored
  | .notice .ready | .notice (.changed _ _ []) | .query _ _ => stored

/-- The diagnostics that are published for an address on a message. -/
def published? (uri : String) : Message -> Option (List Diagnostic)
  | .notice (.opened other document) =>
      if uri = other then some (diagnostics document.content) else none
  | .notice (.changed other _ (content :: _)) =>
      if uri = other then some (diagnostics content) else none
  | .notice (.closed other) => if uri = other then some [] else none
  | .notice .ready | .notice (.changed _ _ []) | .query _ _ => none

theorem exists_of_uri?_eq_some {message : Message} {uri : String}
    (h : message.uri? = some uri) :
    (exists document, message = .notice (.opened uri document)) ∨
      (exists version content contents,
        message = .notice (.changed uri version (content :: contents))) ∨
      message = .notice (.closed uri) := by
  cases message using kindCases with
  | query other query => cases h
  | ready => cases h
  | unchanged other version => cases h
  | opened other document =>
      cases h
      exact Or.inl ⟨document, rfl⟩
  | closed other =>
      cases h
      exact Or.inr (Or.inr rfl)
  | changed other version content contents =>
      cases h
      exact Or.inr (Or.inl ⟨version, content, contents, rfl⟩)

/-- A message that is not about an address neither stores nor publishes anything
for it. -/
theorem store_and_published?_of_ne {message : Message} {uri : String}
    (h : message.uri? ≠ some uri) :
    (forall stored, store uri stored message = stored) ∧
      published? uri message = none := by
  have hne : forall other, message.uri? = some other -> ¬ uri = other := by
    rintro other hother rfl
    exact h hother
  cases message using kindCases with
  | opened other document =>
      exact ⟨fun _ => if_neg (hne other rfl), if_neg (hne other rfl)⟩
  | closed other =>
      exact ⟨fun _ => if_neg (hne other rfl), if_neg (hne other rfl)⟩
  | changed other version content contents =>
      exact ⟨fun _ => if_neg (hne other rfl), if_neg (hne other rfl)⟩
  | _ => exact ⟨fun _ => rfl, rfl⟩

section

variable (uri : String) (stored : Option Document)

theorem store_opened (document : Document) :
    store uri stored (.notice (.opened uri document)) = some document :=
  if_pos rfl

theorem store_changed (version : Int) (content : Text)
    (contents : List Text) :
    store uri stored (.notice (.changed uri version (content :: contents))) =
      stored.map fun _ => { content := content, version := version } :=
  if_pos rfl

theorem store_closed : store uri stored (.notice (.closed uri)) = none :=
  if_pos rfl

theorem published?_opened (document : Document) :
    published? uri (.notice (.opened uri document)) =
      some (diagnostics document.content) :=
  if_pos rfl

theorem published?_changed (version : Int) (content : Text)
    (contents : List Text) :
    published? uri (.notice (.changed uri version (content :: contents))) =
      some (diagnostics content) :=
  if_pos rfl

theorem published?_closed :
    published? uri (.notice (.closed uri)) = some [] :=
  if_pos rfl

end

end Message

/-- What the messages of a history leave for an address. -/
def stored (uri : String) (history : List Message) : Option Document :=
  history.foldl (fun stored message => message.store uri stored) none

theorem stored_concat (uri : String) (history : List Message)
    (message : Message) :
    stored uri (history ++ [message]) =
      message.store uri (stored uri history) :=
  List.foldl_append

/-- The diagnostics in an announcement, if they are for the address. -/
def Announcement.diagnosticsFor? (uri : String) :
    Announcement -> Option (List Diagnostic)
  | ready => none
  | diagnostics other _ found => if uri = other then some found else none

/-- The diagnostics that were published last for an address. -/
def lastDiagnostics? (uri : String) (announcements : List Announcement) :
    Option (List Diagnostic) :=
  announcements.reverse.findSome? (·.diagnosticsFor? uri)

theorem lastDiagnostics?_append (uri : String) (s t : List Announcement) :
    lastDiagnostics? uri (s ++ t) =
      (lastDiagnostics? uri t).or (lastDiagnostics? uri s) := by
  unfold lastDiagnostics?
  rw [List.reverse_append, List.findSome?_append]

theorem lastDiagnostics?_singleton (uri : String) (announcement : Announcement) :
    lastDiagnostics? uri [announcement] = announcement.diagnosticsFor? uri := by
  unfold lastDiagnostics?
  rw [List.reverse_singleton, List.findSome?_singleton]

namespace Session

/-- A running session goes on with the same settings on any message, and what it
stores for an address depends on nothing that it stores for another. -/
theorem receive_of_running {session : Session}
    (h : session.phase = .running) (message : Message) :
    (session.receive message).phase = .running ∧
      (session.receive message).settings = session.settings ∧
      forall uri, (session.receive message).documents.get? uri =
        message.store uri (session.documents.get? uri) := by
  cases message using Message.kindCases with
  | query other query =>
      simp only [receive, request, h]
      exact ⟨trivial, trivial, fun uri => rfl⟩
  | ready =>
      simp only [receive, Session.notice, h]
      exact ⟨h, rfl, fun uri => rfl⟩
  | unchanged other version =>
      simp only [receive, Session.notice, h]
      exact ⟨h, rfl, fun uri => rfl⟩
  | opened other document =>
      simp only [receive, Session.notice, h]
      exact ⟨h, rfl, fun uri => Documents.get?_put _ _ _ _⟩
  | closed other =>
      simp only [receive, Session.notice, h]
      exact ⟨h, rfl, fun uri => Documents.get?_erase _ _ _⟩
  | changed other version content contents =>
      simp only [receive, Session.notice, h]
      refine ⟨h, rfl, fun uri => ?_⟩
      refine (Documents.get?_update _ _ _ _).trans ?_
      by_cases heq : uri = other
      · rw [heq, if_pos rfl, Message.store_changed]
      · exact (if_neg heq).trans (if_neg heq).symm

theorem lastDiagnostics?_announced {session : Session}
    (h : session.phase = .running) (message : Message) (uri : String) :
    lastDiagnostics? uri (session.announced message) =
      message.published? uri := by
  cases message using Message.kindCases with
  | query other query =>
      rfl
  | unchanged other version =>
      simp only [announced, Session.notice, h]
      rfl
  | _ =>
      simp only [announced, Session.notice, h]
      exact lastDiagnostics?_singleton _ _

/-- A running session keeps on running with the same settings, and what it
stores for an address is what the messages make of it. -/
theorem run_of_running {session : Session} (h : session.phase = .running)
    (history : List Message) :
    (session.run history).phase = .running ∧
      (session.run history).settings = session.settings ∧
      forall uri, (session.run history).documents.get? uri =
        history.foldl (fun stored message => message.store uri stored)
          (session.documents.get? uri) := by
  induction history generalizing session with
  | nil =>
      exact ⟨h, rfl, fun uri => rfl⟩
  | cons message history ih =>
      rcases receive_of_running h message with ⟨hphase, hsettings, hstored⟩
      rcases ih hphase with ⟨hphase', hsettings', hstored'⟩
      refine ⟨hphase', hsettings'.trans hsettings, fun uri => ?_⟩
      rw [List.foldl_cons, ← hstored uri]
      exact hstored' uri

/-- A started session keeps on running with the settings that it was started
with, and what it stores for an address is what the messages leave there. -/
theorem run_started (options : Option Json) (history : List Message) :
    ((started options).run history).phase = .running ∧
      ((started options).run history).settings = settingsOf options ∧
      forall uri, ((started options).run history).documents.get? uri =
        stored uri history :=
  run_of_running rfl history

end Session
end PseudocodeTools
