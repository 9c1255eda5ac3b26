import PseudocodeTools.Codec.Record
/-!
# Feedback

A remark on a submission, with its level and, where it is known, what it is
about.
-/

namespace PseudocodeTools

inductive FeedbackLevel where
  | info
  | success
  | warning
  | error
  | hint
deriving DecidableEq, Repr

namespace FeedbackLevel

def all : List FeedbackLevel :=
  [info, success, warning, error, hint]

def name : FeedbackLevel -> String
  | info => "info"
  | success => "success"
  | warning => "warning"
  | error => "error"
  | hint => "hint"

def codec : Codec FeedbackLevel :=
  .choice all name

end FeedbackLevel

structure FeedbackItem where
  level : FeedbackLevel := .info
  message : String
  category : Option String := none
  location : Option String := none
  suggestion : Option String := none
deriving DecidableEq, Repr

def FeedbackItem.codec : Codec FeedbackItem :=
  (Codec.record "FeedbackItem" <|
    .cons (.withDefault "level" FeedbackLevel.codec .info) <|
    .cons (.required "message" .text) <|
    .cons (.omittable "category" .text) <|
    .cons (.omittable "location" .text) <|
    .cons (.omittable "suggestion" .text) <|
    .nil).iso
    (fun (level, message, category, location, suggestion, ()) =>
      { level, message, category, location, suggestion })
    (fun i => (i.level, i.message, i.category, i.location, i.suggestion, ()))

end PseudocodeTools
