import SwiftTree.Script.Fragment
import SwiftTree.Text.Blank

/-!
# Scripts

A script is a list of steps that are applied to a tree one after the other. Each step has an
address in the tree that the step before it produced. The first step that fails ends the run.
-/

namespace SwiftTree

inductive Operation
  | replace (text : String)
  | delete
  | insert (text : String) (position : InsertPosition)
  /-- Sets the documentation; without a text it is removed. -/
  | document (text : Option String)
  deriving DecidableEq, Repr

namespace Operation

def name : Operation → String
  | replace _ => "replace"
  | delete => "delete"
  | insert _ _ => "insert"
  | document _ => "document"

end Operation

/-- One step of a script. Its address is a path to a token or to a declaration. -/
structure Step where
  id : String
  path : Option String
  declaration : Option String
  operation : Operation
  deriving DecidableEq, Repr

/-- A list of steps with a name and a description. -/
structure Script where
  name : String := ""
  description : Option String := none
  steps : List Step
  deriving DecidableEq, Repr

namespace Address

/-- The address that is written as a path in some scheme. -/
def parse (scheme : Scheme) (text : String) : Except MutationError Address :=
  match Path.ofString? text with
  | some path => .ok ⟨scheme, path⟩
  | none => .error (.nodeNotFound text)

end Address

namespace Step

/-- The address of a step. A path to a token comes first. -/
def target (step : Step) : Except MutationError Address :=
  match step.path, step.declaration with
  | some path, _ => Address.parse .token path
  | none, some declaration => Address.parse .declaration declaration
  | none, none => .error (.nodeNotFound "")

end Step

/-- What is wrong with a script or with settings. An issue with a step names it by its identifier,
unless that is blank. -/
inductive ValidationIssue
  | noSteps
  | missingField (step : Option String) (field : String)
  | ambiguousTarget (step : Option String)
  | malformedPath (step : Option String) (path : String)
  | nestedTokenPath (step : Option String) (path : String)
  | outOfRange (field message : String)
  deriving DecidableEq, Repr

namespace ValidationIssue

/-- The message for a step that is not set up properly. -/
def invalidStep (step : Option String) (message : String) : String :=
  match step with
  | some id => "step '" ++ id ++ "' has invalid configuration: " ++ message
  | none => "invalid step configuration: " ++ message

def message : ValidationIssue → String
  | noSteps => "edit script contains no steps"
  | missingField (some id) field => "step '" ++ id ++ "' missing required field '" ++ field ++ "'"
  | missingField none field => "step missing required field '" ++ field ++ "'"
  | ambiguousTarget step => invalidStep step "path and declaration cannot both be set"
  | malformedPath step path =>
    invalidStep step ("'" ++ path ++ "' is not a dot-separated list of positive numbers")
  | nestedTokenPath step path =>
    invalidStep step ("token path '" ++ path ++ "' must have a single segment")
  | outOfRange field message => "'" ++ field ++ "' out of range: " ++ message

/-- All issues, one on a line. -/
def messages (issues : List ValidationIssue) : String :=
  "\n".intercalate (issues.map message)

end ValidationIssue

namespace Step

/-- The identifier of a step, unless it is blank. -/
def id? (step : Step) : Option String :=
  if Text.isBlankText step.id then none else some step.id

def targetIssues (step : Step) : List ValidationIssue :=
  match step.path, step.declaration with
  | none, none => [.missingField step.id? "path"]
  | some _, some _ => [.ambiguousTarget step.id?]
  | none, some path =>
    if (Path.ofString? path).isSome then [] else [.malformedPath step.id? path]
  | some path, none =>
    if (Path.ofString? path).isNone then [.malformedPath step.id? path]
    else if path.toList.contains '.' then [.nestedTokenPath step.id? path]
    else []

def operationIssues (step : Step) : List ValidationIssue :=
  let required (text : String) : List ValidationIssue :=
    if Text.isBlankText text then [.missingField step.id? "operation.text"] else []
  match step.operation with
  | .replace text => required text
  | .insert text _ => required text
  | .delete => []
  | .document _ => []

def issues (step : Step) : List ValidationIssue :=
  (if step.id?.isNone then [.missingField none "id"] else []) ++ step.targetIssues ++
    step.operationIssues

end Step

namespace Script

def issues (script : Script) : List ValidationIssue :=
  (if script.steps.isEmpty then [.noSteps] else []) ++ script.steps.flatMap Step.issues

end Script

/-- Which step of a script failed, and why. -/
structure StepError where
  id : String
  failure : StepFailure
  deriving DecidableEq, Repr

namespace StepError

def message (error : StepError) : String :=
  "step '" ++ error.id ++ "': " ++ error.failure.message

end StepError

inductive StepOutcome
  | replaced
  | deleted (removed : String)
  | inserted (count : Nat)
  | documented
  deriving DecidableEq, Repr

/-- What a step has done, and where. -/
structure StepResult where
  id : String
  target : Address
  outcome : StepOutcome
  deriving DecidableEq, Repr

namespace StepResult

def text (result : StepResult) : String :=
  let target := result.target.text
  result.id ++ ": " ++
    match result.outcome with
    | .replaced => "replaced " ++ target
    | .deleted removed =>
      "deleted " ++ target ++ " (" ++ toString removed.utf8ByteSize ++ " bytes)"
    | .inserted count => "inserted " ++ toString count ++ " node(s) next to " ++ target
    | .documented => "documented " ++ target

end StepResult

namespace Operation

def apply (policy : ReplacementPolicy) (tree : Tree) (target : Address) :
    Operation → Except StepFailure (Tree × StepOutcome)
  | replace text => do
    let node ← tree.replacementFor target text
    return (← (tree.replace policy target node).mapError .mutation, .replaced)
  | delete => do
    let (removed, tree) ← (tree.delete target).mapError .mutation
    return (tree, .deleted removed)
  | insert text position => do
    let nodes ← tree.insertionFor target text position
    let tree ← (tree.insert nodes target position).mapError .mutation
    return (tree, .inserted nodes.length)
  | document text => do
    return (← (tree.document target text).mapError .mutation, .documented)

end Operation

namespace Step

def apply (policy : ReplacementPolicy) (tree : Tree) (step : Step) :
    Except StepFailure (Tree × StepResult) := do
  let target ← step.target.mapError .mutation
  let (tree, outcome) ← step.operation.apply policy tree target
  return (tree, ⟨step.id, target, outcome⟩)

def applyAll (policy : ReplacementPolicy) (tree : Tree) :
    List Step → Except StepError (Tree × List StepResult)
  | [] => .ok (tree, [])
  | step :: rest => do
    let (tree, result) ← (step.apply policy tree).mapError (StepError.mk step.id)
    let (tree, results) ← applyAll policy tree rest
    return (tree, result :: results)

end Step

namespace Script

def apply (policy : ReplacementPolicy) (tree : Tree) (script : Script) :
    Except StepError (Tree × List StepResult) :=
  Step.applyAll policy tree script.steps

end Script

end SwiftTree
