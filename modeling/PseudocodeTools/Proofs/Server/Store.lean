import PseudocodeTools.Proofs.Server.Highlight
import PseudocodeTools.Proofs.Server.Run
/-!
# Documents in the course of a run

What a session stores for an address is read off the messages that it has got: a
document is there from its opening to its closing, with the text and the version
that were given last.  Queries are answered from that text and the settings that
the session was started with.
-/

namespace PseudocodeTools

namespace Message

def Opens (uri : String) (message : Message) : Prop :=
  exists document, message = .notice (.opened uri document)

def Closes (uri : String) (message : Message) : Prop :=
  message = .notice (.closed uri)

/-- The message gives the text and the version of the document at an address. -/
def Gives (uri : String) (document : Document) (message : Message) : Prop :=
  message = .notice (.opened uri document) ∨
    message = .notice (.changed uri document.version [document.content])

/-- A change carries the whole text of its document, once. -/
def IsWhole : Message -> Prop
  | .notice (.changed _ _ contents) => contents.length = 1
  | _ => True

instance : DecidablePred IsWhole
  | .notice (.changed _ _ contents) =>
      inferInstanceAs (Decidable (contents.length = 1))
  | .notice .ready | .notice (.opened _ _) | .notice (.closed _)
  | .query _ _ => .isTrue trivial

theorem gives_opened_iff {uri : String} (given document : Document) :
    Gives uri document (.notice (.opened uri given)) ↔ given = document := by
  constructor
  · rintro (heq | heq) <;> cases heq
    rfl
  · rintro rfl
    exact Or.inl rfl

theorem gives_changed_iff {uri : String} {version : Int} {content : Text}
    (document : Document) :
    Gives uri document (.notice (.changed uri version [content])) ↔
      { content := content, version := version } = document := by
  constructor
  · rintro (heq | heq) <;> cases heq
    rfl
  · rintro rfl
    exact Or.inr rfl

variable {uri : String} {message : Message}

theorem not_opens_of_ne (h : message.uri? ≠ some uri) :
    ¬ message.Opens uri := by
  rintro ⟨document, rfl⟩
  exact h rfl

theorem not_closes_of_ne (h : message.uri? ≠ some uri) :
    ¬ message.Closes uri := by
  rintro rfl
  exact h rfl

theorem not_gives_of_ne (h : message.uri? ≠ some uri) (document : Document) :
    ¬ message.Gives uri document := by
  rintro (rfl | rfl) <;> exact h rfl

end Message

/-- The last opening of the address is not followed by a closing. -/
def IsOpen (uri : String) (history : List Message) : Prop :=
  Since (fun later => ¬ later.Opens uri ∧ ¬ later.Closes uri)
    (fun _ message => message.Opens uri) history

/-- The document was given for the address by an opening or a change, and none
has been given since.  For an address that is open this is the last opening or a
change after it, since an opening gives a document too. -/
def IsLatest (uri : String) (document : Document) (history : List Message) :
    Prop :=
  Since (fun later => forall other, ¬ later.Gives uri other)
    (fun _ message => message.Gives uri document) history

/-!
# What is stored
-/

theorem isOpen_concat_opened (uri : String) (history : List Message)
    (document : Document) :
    IsOpen uri (history ++ [.notice (.opened uri document)]) :=
  since_concat.mpr (Or.inl ⟨document, rfl⟩)

theorem not_isOpen_concat_closed (uri : String) (history : List Message) :
    ¬ IsOpen uri (history ++ [.notice (.closed uri)]) := by
  intro hopen
  rcases since_concat.mp hopen with ⟨document, heq⟩ | ⟨hkeep, _⟩
  · cases heq
  · exact hkeep.2 rfl

theorem isOpen_concat_of_not {uri : String} {history : List Message}
    {message : Message} (hopens : ¬ message.Opens uri)
    (hcloses : ¬ message.Closes uri) :
    IsOpen uri (history ++ [message]) ↔ IsOpen uri history := by
  rw [IsOpen, since_concat, or_iff_right hopens,
    and_iff_right ⟨hopens, hcloses⟩]
  rfl

theorem isOpen_concat_changed (uri : String) (history : List Message)
    (version : Int) (contents : List Text) :
    IsOpen uri (history ++ [.notice (.changed uri version contents)]) ↔
      IsOpen uri history := by
  apply isOpen_concat_of_not
  · rintro ⟨document, heq⟩
    cases heq
  · intro heq
    cases heq

theorem isLatest_concat_of_gives {uri : String} {history : List Message}
    {message : Message} {given : Document}
    (h : forall document, message.Gives uri document ↔ given = document)
    (document : Document) :
    IsLatest uri document (history ++ [message]) ↔ given = document := by
  rw [IsLatest, since_concat, h]
  refine or_iff_left fun hkeep => ?_
  exact hkeep.1 given ((h given).mpr rfl)

theorem isLatest_concat_of_not {uri : String} {history : List Message}
    {message : Message} (h : forall document, ¬ message.Gives uri document)
    (document : Document) :
    IsLatest uri document (history ++ [message]) ↔
      IsLatest uri document history := by
  rw [IsLatest, since_concat, or_iff_right (h document), and_iff_right h]
  rfl

theorem isSome_stored_iff (uri : String) (history : List Message) :
    (stored uri history).isSome = true ↔ IsOpen uri history := by
  induction history using List.reverseRecOn with
  | nil =>
      exact iff_of_false Bool.false_ne_true not_since_nil
  | append_singleton history message ih =>
      rw [stored_concat]
      by_cases huri : message.uri? = some uri
      · rcases Message.exists_of_uri?_eq_some huri with
          ⟨document, rfl⟩ | ⟨version, content, contents, rfl⟩ | rfl
        · rw [Message.store_opened]
          exact iff_of_true rfl (isOpen_concat_opened uri history document)
        · rw [Message.store_changed, Option.isSome_map, ih,
            isOpen_concat_changed]
        · rw [Message.store_closed]
          exact iff_of_false Bool.false_ne_true
            (not_isOpen_concat_closed uri history)
      · rw [(Message.store_and_published?_of_ne huri).1, ih,
          isOpen_concat_of_not (Message.not_opens_of_ne huri)
            (Message.not_closes_of_ne huri)]

/-- A document that is stored is the one that was given last. -/
theorem isLatest_iff_of_stored {history : List Message}
    (h : forall message, message ∈ history -> message.IsWhole)
    {uri : String} {found : Document} (hfound : stored uri history = some found)
    (document : Document) :
    IsLatest uri document history ↔ found = document := by
  induction history using List.reverseRecOn with
  | nil =>
      cases hfound
  | append_singleton history message ih =>
      rw [List.forall_mem_append] at h
      rw [stored_concat] at hfound
      by_cases huri : message.uri? = some uri
      · rcases Message.exists_of_uri?_eq_some huri with
          ⟨given, rfl⟩ | ⟨version, content, contents, rfl⟩ | rfl
        · rw [Message.store_opened, Option.some.injEq] at hfound
          rw [← hfound]
          exact isLatest_concat_of_gives (Message.gives_opened_iff given)
            document
        · have hwhole := h.2 _ List.mem_cons_self
          rcases List.length_eq_one_iff.mp hwhole with ⟨_, heq⟩
          cases heq
          rw [Message.store_changed] at hfound
          rcases Option.map_eq_some_iff.mp hfound with ⟨_, _, rfl⟩
          exact isLatest_concat_of_gives Message.gives_changed_iff document
        · rw [Message.store_closed] at hfound
          cases hfound
      · rw [(Message.store_and_published?_of_ne huri).1] at hfound
        rw [isLatest_concat_of_not (Message.not_gives_of_ne huri)]
        exact ih h.1 hfound

theorem stored_eq_some_iff {history : List Message}
    (h : forall message, message ∈ history -> message.IsWhole)
    {uri : String} {document : Document} :
    stored uri history = some document ↔
      IsOpen uri history ∧ IsLatest uri document history := by
  rw [← isSome_stored_iff]
  cases hstored : stored uri history with
  | none =>
      exact iff_of_false nofun fun hopen => Bool.false_ne_true hopen.1
  | some found =>
      rw [isLatest_iff_of_stored h hstored, Option.some.injEq]
      exact (and_iff_right rfl).symm

/-!
# Settings
-/

/-- The settings are those in the options, or the default ones if there are none
in the options. -/
def EditorSettings.IsFrom (settings : EditorSettings) (options : Option Json) :
    Prop :=
  (exists value, options = some value ∧
      EditorSettings.codec.ofJson value = .ok settings) ∨
    (forall value, options = some value ->
      forall other, EditorSettings.codec.ofJson value ≠ .ok other) ∧
      settings = {}

theorem isFrom_settingsOf (options : Option Json) :
    (Session.settingsOf options).IsFrom options := by
  cases options with
  | none =>
      exact Or.inr ⟨nofun, rfl⟩
  | some value =>
      cases hread : EditorSettings.codec.ofJson value with
      | ok settings =>
          refine Or.inl ⟨value, rfl, ?_⟩
          rw [hread]
          unfold Session.settingsOf
          cases value with
          | null => cases hread
          | _ => simp only [hread]
      | error fault =>
          refine Or.inr ⟨?_, ?_⟩
          · rintro _ ⟨⟩ other hother
            cases hread.symm.trans hother
          · unfold Session.settingsOf
            cases value with
            | null => rfl
            | _ => simp only [hread]

/-!
# Sessions
-/

theorem Documents.update_of_get?_none {documents : Documents} {uri : String}
    (h : documents.get? uri = none) (document : Document) :
    documents.update uri document = documents := by
  unfold Documents.update
  rw [h]

/-- The queries about an address are answered from the text and the settings of
the session: by its highlighting, by the lines that fold, by what is shown at a
position, and by the edit after a line break; nothing comes of anything else that
is typed. -/
structure Session.Answers (session : Session) (uri : String) (content : Text) :
    Prop where
  highlighting : exists tokens, highlight content = some tokens ∧
    (session.request (.query uri .highlighting)).2 =
      .ok (.finding (some (.highlighting tokens)))
  folding : (session.request (.query uri .folding)).2 =
    .ok (.finding (some (.folding (foldedLines session.settings content))))
  hovering : forall p, (session.request (.query uri (.hovering p))).2 =
    .ok (.finding ((hover content p).map fun shown => .hovering shown))
  lineBreak : forall p, (session.request (.query uri (.typing p ['\n']))).2 =
    .ok (.finding ((lineBreakEdit session.settings content p).map
      fun edit => .edits [edit]))
  typing : forall p typed, typed ≠ ['\n'] ->
    (session.request (.query uri (.typing p typed))).2 = .ok (.finding none)

/-- What a session is after a history of messages, given the options that it was
started with. -/
structure Session.Mirrors (session : Session) (options : Option Json)
    (history : List Message) : Prop where
  /-- A document is stored from its opening on until it is closed. -/
  isSome_get?_iff : forall uri,
    (session.documents.get? uri).isSome = true ↔ IsOpen uri history
  /-- It is stored as it was given last, by its opening or a later change. -/
  get?_eq_some_iff : forall uri document,
    session.documents.get? uri = some document ↔
      IsOpen uri history ∧ IsLatest uri document history
  /-- A change of a document that is not open stores nothing. -/
  documents_of_changed : forall uri version contents, ¬ IsOpen uri history ->
    (session.receive (.notice (.changed uri version contents))).documents =
      session.documents
  /-- What is said of one address leaves the others alone. -/
  get?_of_other : forall message uri, message.uri? ≠ some uri ->
    (session.receive message).documents.get? uri = session.documents.get? uri
  settings_isFrom : session.settings.IsFrom options
  settings_receive : forall message,
    (session.receive message).settings = session.settings
  answer_of_not_isOpen : forall uri query, ¬ IsOpen uri history ->
    (session.request (.query uri query)).2 = .ok (.finding none)
  answers_of_isLatest : forall uri document, IsOpen uri history ->
    IsLatest uri document history -> session.Answers uri document.content

theorem Session.request_query_of_running {session : Session}
    (h : session.phase = .running) (uri : String) (query : Query) :
    (session.request (.query uri query)).2 =
      .ok (.finding ((session.documents.get? uri).bind fun document =>
        find session.settings document.content query)) := by
  simp only [request, h]
  rfl

theorem Session.answers_of_get? {session : Session}
    (h : session.phase = .running) {uri : String} {document : Document}
    (hdocument : session.documents.get? uri = some document) :
    session.Answers uri document.content := by
  have hanswer := request_query_of_running h uri
  simp only [hdocument, Option.bind_some] at hanswer
  exact {
    highlighting := by
      refine ⟨_, highlight_eq document.content, ?_⟩
      rw [hanswer, find, highlight_eq, Option.map_some]
    folding := hanswer .folding
    hovering := fun p => hanswer (.hovering p)
    lineBreak := fun p => hanswer (.typing p ['\n'])
    typing := by
      intro p typed htyped
      rw [hanswer, find, if_neg htyped] }

/-- Over any run of openings, changes, closings and queries, each change with the
whole text of its document, the store is the map from each open address to the
document that was given last for it.  No message changes the settings or what is
stored for an address that it is not about, and each query is answered from the
latest text of its document and the settings of the start. -/
theorem mirrors_run (options : Option Json) (history : List Message)
    (hwhole : forall message, message ∈ history -> message.IsWhole) :
    ((Session.started options).run history).Mirrors options history := by
  rcases Session.run_started options history with
    ⟨hphase, hsettings, hstored⟩
  generalize (Session.started options).run history = session at *
  have hopen : forall uri,
      (session.documents.get? uri).isSome = true ↔ IsOpen uri history := by
    intro uri
    rw [hstored]
    exact isSome_stored_iff uri history
  have hlatest : forall uri document,
      session.documents.get? uri = some document ↔
        IsOpen uri history ∧ IsLatest uri document history := by
    intro uri document
    rw [hstored]
    exact stored_eq_some_iff hwhole
  have hclosed : forall uri, ¬ IsOpen uri history ->
      session.documents.get? uri = none := by
    intro uri hnot
    exact Option.not_isSome_iff_eq_none.mp fun hsome => hnot ((hopen uri).mp hsome)
  have hanswer := Session.request_query_of_running hphase
  have hreceive := Session.receive_of_running hphase
  exact {
    isSome_get?_iff := hopen
    get?_eq_some_iff := hlatest
    documents_of_changed := by
      intro uri version contents hnot
      simp only [Session.receive, Session.notice, hphase]
      cases contents with
      | nil => rfl
      | cons content contents =>
          exact Documents.update_of_get?_none (hclosed uri hnot) _
    get?_of_other := by
      intro message uri hne
      rw [(hreceive message).2.2,
        (Message.store_and_published?_of_ne hne).1]
    settings_isFrom := by
      rw [hsettings]
      exact isFrom_settingsOf options
    settings_receive := fun message => (hreceive message).2.1
    answer_of_not_isOpen := by
      intro uri query hnot
      rw [hanswer, hclosed uri hnot]
      rfl
    answers_of_isLatest := by
      intro uri document his hgiven
      exact Session.answers_of_get? hphase
        ((hlatest uri document).mpr ⟨his, hgiven⟩) }

/-- One document is opened, changed and queried while another is changed before
it is opened, closed and opened once more. -/
def reopening : List Message :=
  [.notice (.opened "file:///a.pc" { content := "IF x".toList, version := 1 }),
    .notice (.changed "file:///b.pc" 7 ["2x".toList]),
    .notice (.opened "file:///b.pc" { content := "y = 2".toList, version := 1 }),
    .notice (.changed "file:///a.pc" 2 ["WHILE x DO".toList]),
    .query "file:///a.pc" .highlighting,
    .notice (.closed "file:///b.pc"),
    .notice (.changed "file:///b.pc" 3 ["z".toList]),
    .notice (.opened "file:///b.pc" { content := "z = 3".toList, version := 4 })]

theorem mirrors_run_reopening :
    (forall message, message ∈ reopening -> message.IsWhole) ∧
      ((Session.started none).run reopening).Mirrors none reopening ∧
      ((Session.started none).run reopening).documents.get? "file:///b.pc" =
        some { content := "z = 3".toList, version := 4 } := by
  have hwhole : forall message, message ∈ reopening -> message.IsWhole := by
    decide +kernel
  exact ⟨hwhole, mirrors_run none reopening hwhole, by decide +kernel⟩

end PseudocodeTools
