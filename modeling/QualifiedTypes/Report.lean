import QualifiedTypes.Infer.Error

/-!
# Reports

A report presents a type error over the source text: a code, a message, labels at spans, and sometimes
advice.  Spans are cut to the text and never empty there, so that every label has something to underline.  In Conch,
reports are made by `render_diagnostic`, with codes from `error_code`.

* `Report.location` names the line and column where the blamed text begins.
* `Report.help?` is the advice, unless a label across several lines takes up the room for it.
* `Report.underline` marks the labelled columns of a line of plain text.
-/

namespace QualifiedTypes

namespace UnifyError

/-- The code of a unification failure. -/
def code : UnifyError → String
  | .occursCheck _ _ => "E0101"
  | .kindMismatch _ _ => "E0102"
  | .constructorMismatch _ _ => "E0103"
  | .shapeMismatch _ _ => "E0103"
  | .classMismatch _ _ => "E0103"
  | .uninstantiated _ => "E0104"

end UnifyError

namespace TypeError

/-- The code of a type error. -/
def code : TypeError → String
  | .unification clash => clash.cause.code
  | .unboundVariable _ _ => "E0105"
  | .unsupportedForm _ _ => "E0106"
  | .noMatchingInstance _ _ => "E0107"

/-- The places to point at, and what to write there. -/
def labels : TypeError → List (Span × String)
  | .unification clash => match clash.origin with
    | .application func arg =>
      [(func, "this has type `" ++ clash.left.text ++ "`"), (arg, "applied to this argument")]
    | .operator name span => [(span, "`" ++ name ++ "` has type `" ++ clash.left.text ++ "` here")]
  | .unboundVariable name span => [(span, "`" ++ name ++ "` is not defined")]
  | .unsupportedForm form span => [(span, form ++ " not supported here")]
  | .noMatchingInstance pred span => [(span, "requires `" ++ pred.text ++ "`")]

/-- What might help. -/
def help? : TypeError → Option String
  | .unification clash => match clash.cause with
    | .occursCheck _ _ => some "a type cannot contain itself; check the order of arguments"
    | .kindMismatch _ _ => some "a constructor is missing an argument"
    | .uninstantiated _ => none
    | _ => some ("it is used as `" ++ clash.right.text ++ "`")
  | .unboundVariable _ _ => none
  | .unsupportedForm _ _ => none
  | .noMatchingInstance pred _ =>
    some ("`" ++ pred.ty.text ++ "` is not an instance of `" ++ pred.className ++ "`")

end TypeError

namespace Span

/-- Cut a span to a text of some length.  An empty span is widened by one byte, to the right if there is
one and else to the left. -/
def clamp (length : Nat) (s : Span) : Span :=
  if h : s.start < min s.stop length then ⟨s.start, min s.stop length, Nat.le_of_lt h⟩
  else if min s.start length < length then ⟨min s.start length, min s.start length + 1, by omega⟩
  else ⟨min s.start length - 1, min s.start length, by omega⟩

end Span

/-- A place in a text, both parts counted from one. -/
structure Place where
  line : Nat
  column : Nat
  deriving DecidableEq

namespace Place

/-- The place where a text begins. -/
def first : Place := ⟨1, 1⟩

/-- Whether a character ends a line.  A carriage return does so only if no line feed follows. -/
def endsLine (c : Char) (rest : List Char) : Bool :=
  match c with
  | '\r' => rest.head? ≠ some '\n'
  | '\n' | '\x0b' | '\x0c' | '\u0085' | '\u2028' | '\u2029' => true
  | _ => false

/-- The place that lies `offset` bytes after another. -/
def advance (place : Place) (offset : Nat) : List Char → Place
  | [] => place
  | c :: rest =>
    if offset < c.utf8Size then place
    else if endsLine c rest then advance ⟨place.line + 1, 1⟩ (offset - c.utf8Size) rest
    else advance ⟨place.line, place.column + 1⟩ (offset - c.utf8Size) rest

end Place

/-- The lines of a text that a span touches. -/
structure LineRange where
  first : Nat
  last : Nat
  deriving DecidableEq

/-- The lines that a span touches. -/
def Span.lines (source : List Char) (s : Span) : LineRange :=
  ⟨(Place.first.advance s.start source).line,
    (Place.first.advance (max s.start (s.stop - 1)) source).line⟩

namespace LineRange

/-- Labels are drawn in groups.  A label joins the group before it unless it ends above the last one. -/
def join (group : List LineRange) (new : LineRange) : List LineRange :=
  match group.getLast? with
  | some previous => if previous.last ≤ new.last then group ++ [new] else [new]
  | none => [new]

/-- The group that is drawn last. -/
def lastGroup (labels : List LineRange) : List LineRange := labels.foldl join []

/-- Whether a group leaves its margin clear: a label across several lines is drawn in it. -/
def clearMargin (group : List LineRange) : Bool := group.all fun r => r.first == r.last

end LineRange

/-- A type error over a source text. -/
structure Report where
  source : String
  code : String
  message : String
  /-- The blamed text. -/
  primary : Span
  labels : List (Span × String)
  advice? : Option String

namespace Report

/-- The report of a type error. -/
def ofError (e : TypeError) (source : String) : Report where
  source
  code := e.code
  message := e.message
  primary := e.span.clamp source.utf8ByteSize
  labels := e.labels.map fun l => (l.1.clamp source.utf8ByteSize, l.2)
  advice? := e.help?

/-- The first line of a report. -/
def header (r : Report) : String := "[" ++ r.code ++ "] Error: " ++ r.message

/-- The place where the blamed text begins. -/
def place (r : Report) : Place := Place.first.advance r.primary.start r.source.toList

/-- The file, line and column where the blamed text begins. -/
def location (r : Report) (filename : String) : String :=
  filename ++ ":" ++ toString r.place.line ++ ":" ++ toString r.place.column

/-- The texts of the labels, in order. -/
def labelTexts (r : Report) : List String := (r.labels.map Prod.snd).mergeSort fun a b => a ≤ b

/-- The advice, which is written under the last group of labels if its margin is clear. -/
def help? (r : Report) : Option String :=
  let drawn := LineRange.lastGroup (r.labels.map fun l => l.1.lines r.source.toList)
  if LineRange.clearMargin drawn then r.advice? else none

/-- Whether the source is one line of printable ASCII, so that bytes are columns. -/
def isPlain (r : Report) : Bool :=
  !r.source.isEmpty && r.source.toList.all fun c => ' ' ≤ c && c ≤ '~'

/-- Whether a label covers a column. -/
def covers (r : Report) (column : Nat) : Bool :=
  r.labels.any fun l => l.1.start ≤ column && column < l.1.stop

/-- A mark under each labelled column of plain text, and blanks before and between. -/
def underline (r : Report) : Option String :=
  if r.isPlain then
    let stop := (r.labels.map fun l => l.1.stop).foldl max 0
    some (String.ofList ((List.range stop).map fun i => if r.covers i then '^' else ' '))
  else none

end Report

end QualifiedTypes
