import PseudocodeTools.Proofs.Server.Run
/-!
# Several changes at a time

A notice may carry several changes, each with the whole text of the document, to
be made in order.  The session takes the first of them: it is the text that is
stored, that diagnostics are published for and that queries are answered from,
until the next notice about the document.
-/

namespace PseudocodeTools

/-!
# Changes in order
-/

/-- The document after changes in order. -/
def Document.change (document : Document) (version : Int)
    (contents : List Text) : Document :=
  contents.foldl (fun _ content => { content := content, version := version })
    document

theorem Document.change_concat (document : Document) (version : Int)
    (contents : List Text) (content : Text) :
    document.change version (contents ++ [content]) =
      { content := content, version := version } :=
  List.foldl_append

theorem Document.change_eq_of_getLast? {document : Document} {version : Int}
    {contents : List Text} {last : Text}
    (h : contents.getLast? = some last) :
    document.change version contents =
      { content := last, version := version } := by
  rcases List.getLast?_eq_some_iff.mp h with ⟨front, rfl⟩
  exact document.change_concat version front last

/-!
# Messages about other documents
-/

theorem Message.foldl_store_of_ne {uri : String} {history : List Message}
    (h : forall message, message ∈ history -> message.uri? ≠ some uri)
    (stored : Option Document) :
    history.foldl (fun stored message => message.store uri stored) stored =
      stored := by
  induction history with
  | nil =>
      rfl
  | cons message history ih =>
      rw [List.forall_mem_cons] at h
      rw [List.foldl_cons, (store_and_published?_of_ne h.1).1]
      exact ih h.2

namespace Session

theorem lastDiagnostics?_announcements_of_ne {session : Session}
    (hphase : session.phase = .running) {uri : String}
    {history : List Message}
    (h : forall message, message ∈ history -> message.uri? ≠ some uri) :
    lastDiagnostics? uri (session.announcements history) = none := by
  induction history generalizing session with
  | nil =>
      rfl
  | cons message history ih =>
      rw [List.forall_mem_cons] at h
      rw [announcements, lastDiagnostics?_append,
        ih (receive_of_running hphase message).1 h.2, Option.none_or,
        lastDiagnostics?_announced hphase]
      exact (Message.store_and_published?_of_ne h.1).2

theorem answer_eq_find {session : Session} {uri : String}
    {document : Document} (h : session.documents.get? uri = some document)
    (query : Query) :
    session.answer uri query =
      find session.settings document.content query := by
  unfold answer
  rw [h, Option.bind_some]

end Session

/-!
# The change that counts
-/

/-- After a notice with several changes of an open document, its first text is
stored with the version of the notice, diagnostics are published for it and all
queries are answered from it, as long as no other notice about the document
comes.  So the changes are made as they should be exactly if the first text is
the last. -/
theorem first_change_counts {session : Session}
    (hphase : session.phase = .running) {uri : String} {document : Document}
    (hopen : session.documents.get? uri = some document) (version : Int)
    (first : Text) (rest : List Text) {later : List Message}
    (hlater : forall message, message ∈ later -> message.uri? ≠ some uri) :
    let history :=
      .notice (.changed uri version (first :: rest)) :: later
    (session.run history).documents.get? uri =
        some { content := first, version := version } ∧
      lastDiagnostics? uri (session.announcements history) =
        some (diagnostics first) ∧
      (forall query, (session.run history).answer uri query =
        Session.find session.settings first query) ∧
      ((session.run history).documents.get? uri =
          some (document.change version (first :: rest)) ↔
        (first :: rest).getLast? = some first) := by
  intro history
  rcases Session.run_of_running hphase history with ⟨_, hsettings, hstored⟩
  have hfirst : (session.run history).documents.get? uri =
      some { content := first, version := version } := by
    rw [hstored, List.foldl_cons, Message.foldl_store_of_ne hlater,
      Message.store_changed, hopen]
    rfl
  refine ⟨hfirst, ?_, ?_, ?_⟩
  · have hnone := Session.lastDiagnostics?_announcements_of_ne
      (Session.receive_of_running hphase
        (.notice (.changed uri version (first :: rest)))).1 hlater
    show lastDiagnostics? uri (_ ++ _) = _
    rw [lastDiagnostics?_append, hnone, Option.none_or,
      Session.lastDiagnostics?_announced hphase]
    exact Message.published?_changed uri version first rest
  · intro query
    rw [Session.answer_eq_find hfirst, hsettings]
  · rw [hfirst, Option.some.injEq]
    have hsome := List.getLast?_isSome.mpr (List.cons_ne_nil first rest)
    rcases Option.isSome_iff_exists.mp hsome with ⟨last, hlast⟩
    rw [document.change_eq_of_getLast? hlast, hlast, Document.mk.injEq,
      Option.some.injEq]
    constructor
    · intro h
      exact h.1.symm
    · intro h
      exact ⟨h.symm, rfl⟩

/-- A session in which an empty document is open. -/
def openSession : Session :=
  (Session.started none).run
    [.notice (.opened "file:///main.pc" { content := [], version := 1 })]

/-- A notice with two changes of the document. -/
def twoChanges : Message :=
  .notice (.changed "file:///main.pc" 2 ["x".toList, "2x".toList])

/-- What comes afterwards: another document and a question about the first. -/
def afterChanges : List Message := [
    .notice (.opened "file:///other.pc" { content := "y".toList, version := 1 }),
    .query "file:///main.pc" .highlighting]

theorem first_change_counts_of_two :
    openSession.phase = .running ∧
      openSession.documents.get? "file:///main.pc" =
        some { content := [], version := 1 } ∧
      (forall message, message ∈ afterChanges ->
        message.uri? ≠ some "file:///main.pc") ∧
      (openSession.run (twoChanges :: afterChanges)).documents.get?
          "file:///main.pc" =
        some { content := "x".toList, version := 2 } ∧
      lastDiagnostics? "file:///main.pc"
          (openSession.announcements (twoChanges :: afterChanges)) =
        some (diagnostics "x".toList) := by
  have hphase : openSession.phase = .running := rfl
  have hopen : openSession.documents.get? "file:///main.pc" =
      some { content := [], version := 1 } := rfl
  have hlater : forall message, message ∈ afterChanges ->
      message.uri? ≠ some "file:///main.pc" := by
    decide
  rcases first_change_counts hphase hopen 2 "x".toList ["2x".toList] hlater with
    ⟨hstored, hpublished, _, _⟩
  exact ⟨hphase, hopen, hlater, hstored, hpublished⟩

/-- The second of two changes, which brings a malformed identifier, is neither
stored nor published. -/
theorem second_change_is_dropped :
    let document : Document := { content := [], version := 1 }
    openSession.documents.get? "file:///main.pc" = some document ∧
      (openSession.receive twoChanges).documents.get? "file:///main.pc" ≠
        some (document.change 2 ["x".toList, "2x".toList]) ∧
      lastDiagnostics? "file:///main.pc" (openSession.announced twoChanges) ≠
        some (diagnostics "2x".toList) ∧
      (openSession.receive twoChanges).answer "file:///main.pc" .highlighting ≠
        Session.find openSession.settings "2x".toList .highlighting := by
  decide +kernel

end PseudocodeTools
