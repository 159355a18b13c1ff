import JsonShorthand.CommandLine.Manual
import JsonShorthand.CommandLine.Options
import JsonShorthand.Document
import JsonShorthand.LogFilter
import JsonShorthand.Text.Blank
import JsonShorthand.Text.Lines

namespace JsonShorthand.CommandLine

structure Outcome where
  status : Nat
  output : String
  errors : String
  deriving DecidableEq

def line (text : String) : String := text ++ "\n"

def succeed (output : String) : Outcome := ⟨0, output, ""⟩

def fail (message : String) : Outcome := ⟨1, "", line message⟩

/-- The expressions in the standard input: all of its lines as one, unless that is blank. -/
def expressionsOfInput (text : String) : List String :=
  let joined := [' '].intercalate (Text.lines text.toList)
  if joined.all Text.isBlank then [] else [.ofList joined]

/-- Either all documents are printed, each on a line, or one message. -/
def generate (options : Options) (expressions : List String) : Outcome :=
  match (Job.mk expressions options.substitutions options.pretty).documents with
  | .ok documents => succeed (String.join (documents.map line))
  | .error error => fail error.message

def Outcome.warn (outcome : Outcome) (lines : List String) : Outcome :=
  { outcome with errors := String.join (lines.map line) ++ outcome.errors }

/-- The standard input counts if no argument is an expression. -/
def Request.readsInput : Request → Bool
  | generate options => options.expressions = []
  | _ => false

def Request.outcome (request : Request) (input : ByteArray) : Outcome :=
  match request with
  | .version => succeed (line versionText)
  | .help => succeed (line (about ++ "\n\n" ++ usage ++ "\n\n" ++ CommandLine.help))
  | .usageError => ⟨2, "", line usage⟩
  | .generate options =>
    let outcome :=
      if request.readsInput then
        match String.fromUTF8? input with
        | some text => CommandLine.generate options (expressionsOfInput text)
        | none => fail "IO error: stream did not contain valid UTF-8"
      else CommandLine.generate options options.expressions
    outcome.warn ((options.logLevel.map LogFilter.warnings).getD [])

def run (arguments : List String) (input : ByteArray) : Outcome :=
  (Request.ofArguments arguments).outcome input

end JsonShorthand.CommandLine
