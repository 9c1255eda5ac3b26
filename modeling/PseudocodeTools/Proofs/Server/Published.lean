import PseudocodeTools.Proofs.Server.Run
/-!
# Published diagnostics

The diagnostics that an editor was sent last for an address belong to the
document that is stored there.  This fails after a change of a document that is
not open: the change stores nothing, and its diagnostics are published all the
same.
-/

namespace PseudocodeTools

/-- The diagnostics that were published last are those of the document that is
stored; where none is stored there are none. -/
def IsCurrent (published? : Option (List Diagnostic)) :
    Option Document -> Prop
  | some document => published? = some (diagnostics document.content)
  | none => published? = none ∨ published? = some []

instance (published? : Option (List Diagnostic)) :
    DecidablePred (IsCurrent published?)
  | some _ => inferInstanceAs (Decidable (_ = _))
  | none => inferInstanceAs (Decidable (_ ∨ _))

/-- The message changes a document that is not stored to a text with
diagnostics. -/
def Message.Strays (uri : String) (stored : Option Document)
    (message : Message) : Prop :=
  stored = none ∧ exists version content contents,
    message = .notice (.changed uri version (content :: contents)) ∧
      diagnostics content ≠ []

namespace Message

variable {uri : String} {stored : Option Document}

theorem not_strays_opened {document : Document} :
    ¬ Strays uri stored (.notice (.opened uri document)) := by
  rintro ⟨_, version, content, contents, heq, _⟩
  cases heq

theorem not_strays_closed : ¬ Strays uri stored (.notice (.closed uri)) := by
  rintro ⟨_, version, content, contents, heq, _⟩
  cases heq

theorem not_strays_of_ne {message : Message} (h : message.uri? ≠ some uri) :
    ¬ Strays uri stored message := by
  rintro ⟨_, version, content, contents, rfl, _⟩
  exact h rfl

theorem strays_changed_iff {version : Int} {content : Text}
    {contents : List Text} :
    Strays uri stored (.notice (.changed uri version (content :: contents))) ↔
      stored = none ∧ diagnostics content ≠ [] := by
  constructor
  · rintro ⟨hnone, _, _, _, heq, hfound⟩
    cases heq
    exact ⟨hnone, hfound⟩
  · rintro ⟨hnone, hfound⟩
    exact ⟨hnone, version, content, contents, rfl, hfound⟩

end Message

/-- A message keeps what is published in line with what is stored, and brings it
back into line if it publishes anything, unless it strays. -/
theorem isCurrent_store_iff (uri : String) (stored : Option Document)
    (published? : Option (List Diagnostic)) (message : Message) :
    IsCurrent ((message.published? uri).or published?)
        (message.store uri stored) ↔
      ¬ message.Strays uri stored ∧
        (message.published? uri = none -> IsCurrent published? stored) := by
  by_cases huri : message.uri? = some uri
  · rcases Message.exists_of_uri?_eq_some huri with
      ⟨document, rfl⟩ | ⟨version, content, contents, rfl⟩ | rfl
    · rw [Message.store_opened, Message.published?_opened, Option.some_or]
      exact iff_of_true rfl ⟨Message.not_strays_opened, nofun⟩
    · rw [Message.store_changed, Message.published?_changed, Option.some_or,
        Message.strays_changed_iff]
      cases stored with
      | none =>
          constructor
          · rintro (hnone | hempty)
            · cases hnone
            · exact ⟨fun hstrays => hstrays.2 (Option.some.inj hempty), nofun⟩
          · rintro ⟨hstrays, _⟩
            refine Or.inr (congrArg some (not_not.mp fun hne => ?_))
            exact hstrays ⟨rfl, hne⟩
      | some document =>
          refine iff_of_true rfl ⟨fun hstrays => ?_, nofun⟩
          exact Option.some_ne_none document hstrays.1
    · rw [Message.store_closed, Message.published?_closed, Option.some_or]
      exact iff_of_true (Or.inr rfl) ⟨Message.not_strays_closed, nofun⟩
  · rcases Message.store_and_published?_of_ne huri with ⟨hstore, hpublished⟩
    rw [hstore, hpublished, Option.none_or,
      and_iff_right (Message.not_strays_of_ne huri)]
    exact ⟨fun hcurrent _ => hcurrent, fun hcurrent => hcurrent rfl⟩

/-- What was published last for an address is in line with what is stored there
exactly if the last message that published anything for it was no stray
change. -/
theorem isCurrent_run_iff (options : Option Json) (history : List Message)
    (uri : String) :
    IsCurrent
        (lastDiagnostics? uri
          ((Session.started options).announcements history))
        (((Session.started options).run history).documents.get? uri) ↔
      ¬ Since (fun later => later.published? uri = none)
        (fun before message => message.Strays uri
          (((Session.started options).run before).documents.get? uri))
        history := by
  induction history using List.reverseRecOn with
  | nil =>
      exact iff_of_true (Or.inl rfl) not_since_nil
  | append_singleton history message ih =>
      have hphase := (Session.run_started options history).1
      rw [since_concat, Session.announcements_concat, Session.run_concat,
        lastDiagnostics?_append,
        Session.lastDiagnostics?_announced hphase,
        (Session.receive_of_running hphase message).2.2, isCurrent_store_iff,
        ih, not_or, not_and]

/-- A change of a document that was never opened leaves a diagnostic behind. -/
theorem not_isCurrent_after_stray_change :
    ¬ IsCurrent
      (lastDiagnostics? "file:///main.pc"
        ((Session.started none).announcements
          [.notice (.changed "file:///main.pc" 2 [['2', 'x']])]))
      (((Session.started none).run
        [.notice (.changed "file:///main.pc" 2 [['2', 'x']])]).documents.get?
          "file:///main.pc") := by
  decide +kernel

end PseudocodeTools
