import JsonShorthand.Forest.Hole
import JsonShorthand.Value.Scalar

namespace JsonShorthand

namespace Forest

/-- Where the reader stands and, as a hole, what is still open there. -/
inductive State where
  | start
  | groups (earlier : List Generator)
  | fields (fields : Fields Generator none)
  | members (fields : Fields Generator none) (outer : Hole)
  | elements (earlier : List Generator) (outer : Hole)
  | tail (hole : Hole)
  | path (hole : Hole)
  | value (hole : Hole)

namespace State

/-- The state after a generator has filled a hole. -/
def fill (generator : Generator) : Hole → State
  | .group earlier => groups (generator :: earlier)
  | .field present name => fields (present.add name generator)
  | .member present name outer => members (present.add name generator) outer
  | .segment name outer => fill (.single name generator) outer
  | .element earlier outer => elements (generator :: earlier) outer

def descend (depth : Nat) (next : State) : Except Cause State :=
  if depth < nestingLimit then .ok next else .error .nestingTooDeep

def openObject (hole : Hole) : Except Cause State :=
  descend hole.depth (members .nil hole)

def openArray (hole : Hole) : Except Cause State :=
  descend hole.depth (elements [] hole)

/-- Begins a tail, which the depth of its hole counts already. -/
def openTail (hole : Hole) : Except Cause State :=
  descend (hole.depth - 1) (tail hole)

/-- Fills a hole with a variable or a scalar, or begins a container in it. -/
def stepValue (hole : Hole) : Symbol → Except Cause State
  | .var name => .ok (fill (.var name) hole)
  | .openBrace => openObject hole
  | .openBracket => openArray hole
  | symbol => symbol.scalar.map fun v => fill (.value v) hole

/-- Takes a symbol; `following` is the symbol after it, which decides whether a literal in an array
is an element or names a field. -/
def step (state : State) (symbol : Symbol) (following : Option Symbol) : Except Cause State :=
  match state, symbol with
  | start, .openBrace => openObject (.group [])
  | start, .openBracket => openArray (.group [])
  | start, .literal name => openTail (.field .nil name)
  | start, _ => .error .unexpectedInput
  | groups earlier, .openBrace => openObject (.group earlier)
  | groups earlier, .openBracket => openArray (.group earlier)
  | groups _, _ => .error .unexpectedInput
  | fields present, .literal name => openTail (.field present name)
  | fields _, _ => .error .unexpectedInput
  | members present outer, .literal name => openTail (.member present name outer)
  | members present outer, .closeBrace => .ok (fill (.object present) outer)
  | members _ _, _ => .error .expectedCloseBrace
  | elements earlier outer, .literal text =>
    if following = some .assign ∨ following = some .dot then
      openTail (.segment text (.element earlier outer))
    else .ok (fill (.value (.string text)) (.element earlier outer))
  | elements earlier outer, .closeBracket => .ok (fill (.array earlier.reverse) outer)
  | elements earlier outer, symbol => stepValue (.element earlier outer) symbol
  | tail hole, .assign => .ok (value hole)
  | tail hole, .dot => .ok (path hole)
  | tail _, _ => .error .unexpectedInput
  | path hole, .literal name => openTail (.segment name hole)
  | path _, _ => .error .expectedLiteral
  | value hole, symbol => stepValue hole symbol

def finish : State → Except Cause Forest
  | start => .ok [.object .nil]
  | groups earlier => .ok earlier.reverse
  | fields present => .ok [.object present]
  | members _ _ => .error .expectedCloseBrace
  | elements _ _ => .error .unclosedArray
  | tail _ => .error .unexpectedEnd
  | path _ => .error .expectedLiteral
  | value _ => .error .unexpectedEnd

end State

def reader : Reader State Forest := ⟨.start, State.step, State.finish⟩

end Forest

def readForest (input : String) : Except ParseError Forest := Forest.reader.read input

end JsonShorthand
