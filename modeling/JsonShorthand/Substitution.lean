import JsonShorthand.Generator.Evaluation
import JsonShorthand.Value.Scalar

namespace JsonShorthand

inductive SubstitutionError where
  | malformed (argument : String)
  | value (error : ParseError)
  deriving DecidableEq

def SubstitutionError.message : SubstitutionError → String
  | malformed argument =>
    "Invalid substitution " ++ Text.quote argument ++ ": expected NAME=VALUE"
  | value error => error.display

/-- The name before the first `=` and the value of the scalar after it. -/
def readSubstitution (argument : String) : Except SubstitutionError (String × Value) :=
  let name := argument.toList.takeWhile (· ≠ '=')
  match argument.toList.dropWhile (· ≠ '=') with
  | [] => .error (.malformed argument)
  | _ :: text =>
    if name = [] then .error (.malformed argument)
    else
      match readScalar (.ofList text) with
      | .ok v => .ok (.ofList name, v)
      | .error error => .error (.value error)

namespace Bindings

def addSubstitutions (bindings : Bindings) : List String → Except SubstitutionError Bindings
  | [] => .ok bindings
  | argument :: rest =>
    match readSubstitution argument with
    | .ok (name, v) => addSubstitutions (bindings.insert name v) rest
    | .error error => .error error

def ofSubstitutions (arguments : List String) : Except SubstitutionError Bindings :=
  addSubstitutions .nil arguments

end Bindings

end JsonShorthand
