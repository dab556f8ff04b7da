import SwiftTree.Json
import SwiftTree.Record
import SwiftTree.Style

/-!
# Reports

A report shows the records of some files, either as text for a reader, with the lines around each
place and a mark below the reported code, or as JSON for a program.
-/

namespace SwiftTree

inductive OutputFormat
  | text
  | json
  deriving DecidableEq, Repr

namespace OutputFormat

def ofName (name : String) : Except String OutputFormat :=
  if name = "text" then .ok text
  else if name = "json" then .ok json
  else .error ("unknown output format '" ++ name ++ "' (expected text or json)")

def name : OutputFormat → String
  | text => "text"
  | json => "json"

end OutputFormat

structure FileReport where
  file : String
  records : List Record
  deriving DecidableEq, Repr

namespace FileReport

/-- The number of records with some severity. -/
def count (report : FileReport) (severity : Severity) : Nat :=
  (report.records.filter fun record => record.severity == severity).length

def errorCount (report : FileReport) : Nat :=
  report.count .error

def warningCount (report : FileReport) : Nat :=
  report.count .warning

end FileReport

namespace Severity

def style : Severity → Style
  | error => .boldRed
  | warning => .boldYellow
  | note => .boldCyan
  | remark => .boldCyan

end Severity

namespace Span

def text (span : Span) : String :=
  match span.stop with
  | some stop => span.start.text ++ "-" ++ stop.text
  | none => span.start.text

end Span

namespace LocatedChange

def place : LocatedChange → String
  | replace span _ => span.text
  | delete span => span.text
  | insert position _ => position.text
  | generic description _ => description

end LocatedChange

namespace Record

def run (c : Char) (count : Nat) : String :=
  String.ofList (List.replicate count c)

def gutterWidth (record : Record) : Nat :=
  match record.contextLines with
  | [] => 1
  | lines => lines.foldl (fun width line => max width (toString line.number).length) 0

/-- The number of characters that are marked on the reported line. -/
def markWidth (record : Record) : Nat :=
  match record.span.stop with
  | some stop =>
    if stop.line = record.location.line ∧ record.location.column < stop.column then
      stop.column - record.location.column
    else 1
  | none => 1

/-- A line of the text, and below it the mark if it is the reported one. -/
def contextText (colored : Bool) (record : Record) (line : ContextLine) : String :=
  let width := record.gutterWidth
  let bar := paint colored .boldBlue "|"
  let number := toString line.number
  let shown :=
    paint colored .boldBlue (run ' ' (width - number.length) ++ number) ++ " " ++ bar ++ " " ++
      line.text ++ "\n"
  if line.number = record.location.line then
    shown ++ run ' ' width ++ " " ++ bar ++ " " ++ run ' ' (record.location.column - 1) ++
      paint colored .boldRed (run '^' record.markWidth) ++ "\n"
  else shown

/-- A line below the code with more about it. -/
def remarkText (colored : Bool) (record : Record) (label text : String) : String :=
  run ' ' record.gutterWidth ++ " " ++ paint colored .boldBlue "=" ++ " " ++
    paint colored .bold label ++ ": " ++ text ++ "\n"

def text (colored : Bool) (file : String) (record : Record) : String :=
  let gutter := run ' ' record.gutterWidth
  let heading :=
    paint colored record.severity.style record.severity.name ++ ": " ++
      paint colored .bold record.message ++ "\n"
  let place :=
    gutter ++ paint colored .boldBlue "-->" ++ " " ++ file ++ ":" ++ record.location.text ++ "\n"
  let space :=
    if record.contextLines.isEmpty then "" else gutter ++ " " ++ paint colored .boldBlue "|" ++ "\n"
  let code := String.join (record.contextLines.map (record.contextText colored))
  let fixIts := record.fixIts.map fun fixIt =>
    let places := ", ".intercalate (fixIt.changes.map LocatedChange.place)
    record.remarkText colored "fix-it" (fixIt.message ++ " (" ++ places ++ ")")
  let notes := record.notes.map fun note =>
    record.remarkText colored "note" <|
      match note.location with
      | some location => note.message ++ " (" ++ file ++ ":" ++ location.text ++ ")"
      | none => note.message
  heading ++ place ++ space ++ code ++ String.join fixIts ++ String.join notes

end Record

def summaryText (colored : Bool) (reports : List FileReport) : String :=
  let total (count : FileReport → Nat) := reports.foldl (fun sum report => sum + count report) 0
  let errors := total FileReport.errorCount
  let warnings := total FileReport.warningCount
  let style := if 0 < errors then Style.red else if 0 < warnings then .yellow else .green
  paint colored style
    (toString reports.length ++ " file(s) checked: " ++ toString errors ++ " error(s), " ++
      toString warnings ++ " warning(s)") ++ "\n"

def textReport (colored : Bool) (reports : List FileReport) : String :=
  let shown := reports.flatMap fun report =>
    report.records.map fun record => record.text colored report.file ++ "\n"
  String.join shown ++ summaryText colored reports

namespace Location

def toJson (here : Location) : Json :=
  .object [("line", .number here.line), ("column", .number here.column)]

end Location

namespace Span

def toJson (span : Span) : Json :=
  .object
    ([("startLine", .number span.start.line), ("startColumn", .number span.start.column)] ++
      Json.optional "endLine" (span.stop.map fun stop => .number stop.line) ++
      Json.optional "endColumn" (span.stop.map fun stop => .number stop.column))

end Span

namespace LocatedChange

def toJson : LocatedChange → Json
  | replace span newText =>
    .object [("type", .string "replace"), ("span", span.toJson), ("newText", .string newText)]
  | insert position newText =>
    .object
      [("type", .string "insert"), ("position", position.toJson), ("newText", .string newText)]
  | delete span => .object [("type", .string "delete"), ("span", span.toJson)]
  | generic description details =>
    .object
      [("type", .string "generic"), ("description", .string description),
        ("details", .string details)]

end LocatedChange

namespace Suggestion

def toJson (suggestion : Suggestion) : Json :=
  .object
    [("message", .string suggestion.message),
      ("changes", .array (suggestion.changes.map LocatedChange.toJson))]

end Suggestion

namespace LocatedNote

def toJson (note : LocatedNote) : Json :=
  .object
    ([("message", .string note.message)] ++
      Json.optional "location" (note.location.map Location.toJson))

end LocatedNote

namespace ContextLine

def toJson (line : ContextLine) : Json :=
  .object [("lineNumber", .number line.number), ("text", .string line.text)]

end ContextLine

namespace Record

def toJson (record : Record) : Json :=
  .object
    ([("message", .string record.message),
        ("severity", .string record.severity.name),
        ("location", record.location.toJson),
        ("span", record.span.toJson)] ++
      Json.optional "offendingText" (record.offendingText.map .string) ++
      Json.optional "nodeLocation" (record.nodeLocation.map Location.toJson) ++
      [("contextLines", .array (record.contextLines.map ContextLine.toJson)),
        ("fixIts", .array (record.fixIts.map Suggestion.toJson)),
        ("notes", .array (record.notes.map LocatedNote.toJson)),
        ("position", .string record.position.name)])

end Record

namespace FileReport

def toJson (report : FileReport) : Json :=
  .object
    [("file", .string report.file), ("diagnostics", .array (report.records.map Record.toJson))]

end FileReport

def jsonReport (reports : List FileReport) : String :=
  (Json.array (reports.map FileReport.toJson)).render 0

end SwiftTree
