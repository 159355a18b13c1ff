namespace JsonShorthand.CommandLine

structure Options where
  pretty : Bool
  /-- A log filter; nothing is logged, but faults in it are told. -/
  logLevel : Option String
  substitutions : List String
  expressions : List String
  deriving DecidableEq

inductive Request where
  | generate (options : Options)
  | version
  | help
  | usageError
  deriving DecidableEq

inductive Switch where
  | pretty
  | version
  | help
  deriving DecidableEq

inductive Setting where
  | substitution
  | logLevel
  deriving DecidableEq

inductive Word where
  | switch (switch : Switch)
  | setting (setting : Setting) (attached : Option String)
  | unknown
  deriving DecidableEq

/-- The short options in the characters after a single dash. All that follows a setting is its
value, without an equals sign in front of it. -/
def shortWords : List Char → List Word
  | [] => []
  | 'p' :: cs => .switch .pretty :: shortWords cs
  | 'V' :: cs => .switch .version :: shortWords cs
  | 'h' :: cs => .switch .help :: shortWords cs
  | ['s'] => [.setting .substitution none]
  | 's' :: '=' :: cs => [.setting .substitution (some (.ofList cs))]
  | 's' :: cs => [.setting .substitution (some (.ofList cs))]
  | _ => [.unknown]

def longWord (cs : List Char) : Word :=
  let value := match cs.dropWhile (· ≠ '=') with
    | [] => none
    | _ :: text => some (String.ofList text)
  match String.ofList (cs.takeWhile (· ≠ '=')), value with
  | "pretty-print", none => .switch .pretty
  | "version", none => .switch .version
  | "help", none => .switch .help
  | "subst", value => .setting .substitution value
  | "log-level", value => .setting .logLevel value
  | _, _ => .unknown

/-- The options in an argument; `none` if it is a positional one or a value, as a lone dash is. -/
def words? (argument : String) : Option (List Word) :=
  match argument.toList with
  | '-' :: '-' :: cs => some [longWord cs]
  | ['-'] => none
  | '-' :: cs => some (shortWords cs)
  | _ => none

structure Progress where
  options : Options
  waiting : Option Setting

namespace Options

def empty : Options := ⟨false, none, [], []⟩

def addExpressions (options : Options) (expressions : List String) : Options :=
  { options with expressions := options.expressions ++ expressions }

def set (options : Options) (value : String) : Setting → Except Request Options
  | .substitution => .ok { options with substitutions := options.substitutions ++ [value] }
  | .logLevel =>
    if options.logLevel = none then .ok { options with logLevel := some value }
    else .error .usageError

end Options

namespace Progress

def takeWord (progress : Progress) (word : Word) : Except Request Progress :=
  match progress.waiting, word with
  | some _, _ => .error .usageError
  | none, .switch .pretty =>
    if progress.options.pretty then .error .usageError
    else .ok ⟨{ progress.options with pretty := true }, none⟩
  | none, .switch .version => .error .version
  | none, .switch .help => .error .help
  | none, .setting setting none => .ok ⟨progress.options, some setting⟩
  | none, .setting setting (some value) =>
    (progress.options.set value setting).map fun options => ⟨options, none⟩
  | none, .unknown => .error .usageError

def takePlain (progress : Progress) (argument : String) : Except Request Progress :=
  match progress.waiting with
  | some setting => (progress.options.set argument setting).map fun options => ⟨options, none⟩
  | none => .ok ⟨progress.options.addExpressions [argument], none⟩

def done (progress : Progress) : Except Request Options :=
  if progress.waiting = none then .ok progress.options else .error .usageError

/-- Takes the rest of the arguments. All that follows a double dash is positional. -/
def takeAll (progress : Progress) : List String → Except Request Options
  | [] => progress.done
  | "--" :: rest => progress.done.map (·.addExpressions rest)
  | argument :: rest => do
    let next ← match words? argument with
      | some words => words.foldlM takeWord progress
      | none => progress.takePlain argument
    next.takeAll rest

end Progress

def Request.ofArguments (arguments : List String) : Request :=
  match (Progress.mk .empty none).takeAll arguments with
  | .ok options => .generate options
  | .error request => request

end JsonShorthand.CommandLine
