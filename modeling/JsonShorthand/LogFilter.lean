import JsonShorthand.LogFilter.Directive

namespace JsonShorthand.LogFilter

def directivesAfter (directive : List Char) : List Char → List (List Char)
  | [] => [directive.reverse]
  | ',' :: cs => directive.reverse :: directivesAfter [] cs
  | c :: cs => directivesAfter (c :: directive) cs

def directives (filter : String) : List (List Char) :=
  (directivesAfter [] filter.toList).filter (· ≠ [])

/-- A warning for each directive that does not count. -/
def warnings (filter : String) : List String :=
  (directives filter).filterMap fun directive =>
    (directiveFault? directive).map fun fault =>
      "ignoring `" ++ .ofList directive ++ "`: " ++ fault.message

end JsonShorthand.LogFilter
