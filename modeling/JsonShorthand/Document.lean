import JsonShorthand.Forest
import JsonShorthand.Substitution
import JsonShorthand.Value.Json

namespace JsonShorthand

inductive JobError where
  | noInput
  | substitution (error : SubstitutionError)
  | expressions (error : ParseError)
  deriving DecidableEq

def JobError.message : JobError → String
  | noInput =>
    "No generator expressions provided. Pass them as arguments or pipe them to stdin."
  | substitution error => error.message
  | expressions error => error.display

structure Job where
  expressions : List String
  substitutions : List String
  pretty : Bool

namespace Job

def text (job : Job) : String := " ".intercalate job.expressions

def render (job : Job) (value : Value) : String :=
  if job.pretty then value.toPrettyJson else value.toJson

/-- One text for each generator. Without expressions nothing else is looked at, and substitutions
are read before expressions. -/
def documents (job : Job) : Except JobError (List String) :=
  if job.expressions = [] then .error .noInput
  else
    match Bindings.ofSubstitutions job.substitutions with
    | .error error => .error (.substitution error)
    | .ok bindings =>
      match readForest job.text with
      | .error error => .error (.expressions error)
      | .ok forest => .ok ((forest.evaluate bindings).map job.render)

end Job

end JsonShorthand
