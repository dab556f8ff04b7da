import SwiftTree.FixIt
import SwiftTree.Location
import SwiftTree.QuotedCode
import SwiftTree.Tree

/-!
# Diagnostic records

A record shows a diagnostic to a reader: its place as a line and a column, the lines around it, and
its fix-its in lines and columns as well. No diagnostic is dropped. One that has no place, or a
place outside the text, is clipped to the text and marked as approximate. Records come in the order
of their places.
-/

namespace SwiftTree

/-- A stretch of text, or a single place. -/
structure Span where
  start : Location
  stop : Option Location := none
  deriving DecidableEq, Repr

inductive LocatedChange
  | replace (span : Span) (newText : String)
  | insert (position : Location) (newText : String)
  | delete (span : Span)
  | generic (description details : String)
  deriving DecidableEq, Repr

structure Suggestion where
  message : String
  changes : List LocatedChange
  deriving DecidableEq, Repr

/-- A note with the place that it is about. -/
structure LocatedNote where
  message : String
  location : Option Location
  deriving DecidableEq, Repr

/-- How far the place of a record can be trusted. -/
inductive PositionQuality
  /-- It is the reported place. -/
  | exact
  /-- It was moved to the code that the message quotes. -/
  | corrected
  /-- It was clipped or guessed. -/
  | approximate
  deriving DecidableEq, Repr

namespace PositionQuality

def name : PositionQuality → String
  | exact => "exact"
  | corrected => "corrected"
  | approximate => "approximate"

end PositionQuality

/-- A line shown around a place. -/
structure ContextLine where
  number : Nat
  text : String
  deriving DecidableEq, Repr

/-- A diagnostic as it is shown to a reader. -/
structure Record where
  message : String
  severity : Severity
  location : Location
  span : Span
  /-- The text of the node that the diagnostic is about, with its trivia. -/
  offendingText : Option String
  /-- Where the text of that node begins. -/
  nodeLocation : Option Location
  contextLines : List ContextLine
  fixIts : List Suggestion
  notes : List LocatedNote
  position : PositionQuality
  deriving DecidableEq, Repr

structure RecordOptions where
  /-- The number of lines shown on each side of the reported one. -/
  radius : Nat := 1
  /-- Whether places are moved to the code that a message quotes. -/
  reposition : Bool := true
  deriving DecidableEq, Repr

namespace Change

def located (text : String) : Change → LocatedChange
  | replace start stop newText =>
    .replace ⟨(locateClipped text start).1, some (locateClipped text stop).1⟩ newText
  | insert offset newText => .insert (locateClipped text offset).1 newText
  | delete start stop => .delete ⟨(locateClipped text start).1, some (locateClipped text stop).1⟩
  | generic description details =>
    .generic (Text.escapeMessage description) (Text.escapeMessage details)

end Change

namespace FixIt

def located (text : String) (fixIt : FixIt) : Suggestion :=
  ⟨fixIt.message, fixIt.changes.map (Change.located text)⟩

end FixIt

/-- The bytes that a node takes up, without the trivia around it. -/
structure Extent where
  node : Node
  start : Nat
  stop : Nat
  deriving DecidableEq, Repr

namespace Tree

def extent? (tree : Tree) (trail : Trail) : Option Extent := do
  let node ← tree.at? trail
  let offset ← tree.offsetAt? trail
  let start := offset + node.leadingWidth
  return ⟨node, start, max (offset + node.width - node.trailingWidth) start⟩

end Tree

namespace Note

def located (tree : Tree) (text : String) (note : Note) : LocatedNote :=
  let offset := note.offset.or ((note.node.bind tree.extent?).map Extent.start)
  ⟨Text.escapeMessage note.message, offset.bind (locate text)⟩

end Note

/-- The lines of a text up to some distance from a line. -/
def contextLines (text : String) (line radius : Nat) : List ContextLine :=
  let numbered := (Text.lines text.toList).zipIdx 1
  (numbered.filter fun (_, number) => line - radius ≤ number && number ≤ line + radius).map
    fun (line, number) => ⟨number, String.ofList line.content⟩

namespace Diagnostic

/-- The reported offset of a diagnostic: its own, or that of its node. -/
def reported? (diagnostic : Diagnostic) (extent : Option Extent) : Option Nat :=
  diagnostic.offset.or (extent.map Extent.start)

/-- The offset to show a diagnostic at, and how far it can be trusted. -/
def place (options : RecordOptions) (text : String) (extent : Option Extent)
    (diagnostic : Diagnostic) : Nat × PositionQuality :=
  let reported := (diagnostic.reported? extent).getD 0
  let notBefore :=
    match extent with
    | some extent => if extent.node.kind? = some .unexpectedNodes then extent.start else reported
    | none => reported
  let corrected :=
    if options.reposition then correctedOffset? text reported notBefore diagnostic.message else none
  match corrected with
  | some offset => (offset, .corrected)
  | none =>
    (reported, if (diagnostic.reported? extent).isSome then .exact else .approximate)

/-- Where the text ends that a diagnostic at an offset is about: the end of the quoted code if it
stands there, or else the end of the node. -/
def end? (text : String) (extent : Option Extent) (offset : Nat) (diagnostic : Diagnostic) :
    Option Nat :=
  let quoted := do
    let quoted ← quotedCode? diagnostic.message
    let (_, rest) ← Text.splitAt? text offset
    if quoted.toList.isPrefixOf rest.toList then some (offset + quoted.utf8ByteSize) else none
  quoted.or ((extent.map Extent.stop).filter (offset < ·))

def record (options : RecordOptions) (tree : Tree) (text : String) (diagnostic : Diagnostic) :
    Record :=
  let extent := diagnostic.node.bind tree.extent?
  let (offset, quality) := diagnostic.place options text extent
  let (location, clipped) := locateClipped text offset
  let stop := if clipped then none else (diagnostic.end? text extent offset).bind (locate text)
  { message := Text.escapeMessage diagnostic.message
    severity := diagnostic.severity
    location
    span := ⟨location, stop⟩
    offendingText := extent.map fun extent => extent.node.render
    nodeLocation := extent.bind fun extent => locate text extent.start
    contextLines := contextLines text location.line options.radius
    fixIts := (consolidate diagnostic.fixIts).map (FixIt.located text)
    notes := diagnostic.notes.map (Note.located tree text)
    position := if clipped then .approximate else quality }

end Diagnostic

/-- The records of diagnostics about a tree, in the order of their places. Those at the same place
keep their order. -/
def extractRecords (options : RecordOptions) (tree : Tree) (diagnostics : List Diagnostic) :
    List Record :=
  let text := tree.render
  (diagnostics.map (Diagnostic.record options tree text)).mergeSort fun a b =>
    a.location.le b.location

end SwiftTree
