import SwiftTree.Path
import SwiftTree.Tree

/-!
# Addressing

Three views of the same numbering. `enumerate` lists all numbered nodes with their paths in the
order of the text. `resolve?` finds the node of an address by skipping what is counted in front of
it. `compute?` finds the path of a node by counting what stands to the left of its trail.

Tokens are numbered in one sequence, and the token that marks the end has no number. Declarations
are numbered among those that are reached from the same parent without crossing another
declaration; the root has no number.
-/

namespace SwiftTree

namespace Node

def isNumberedToken : Node → Bool
  | token t => !t.isEnd
  | composite _ _ => false

mutual

def tokenCount : Node → Nat
  | token t => if t.isEnd then 0 else 1
  | composite _ children => tokenCountAll children

def tokenCountAll : List Node → Nat
  | [] => 0
  | node :: rest => tokenCount node + tokenCountAll rest

end

mutual

def nthToken? (trail : Trail) (offset skipped : Nat) : Node → Option Site
  | token t => if skipped = 0 && !t.isEnd then some ⟨token t, trail, offset⟩ else none
  | composite _ children => nthTokenAll? trail 0 offset skipped children

def nthTokenAll? (trail : Trail) (index offset skipped : Nat) : List Node → Option Site
  | [] => none
  | node :: rest =>
    if skipped < tokenCount node then nthToken? (trail ++ [index]) offset skipped node
    else nthTokenAll? trail (index + 1) (offset + node.width) (skipped - tokenCount node) rest

end

/-- How many numbered tokens stand in front of the numbered token at the end of a trail. -/
def tokensBefore? : Node → Trail → Option Nat
  | node, [] => if node.isNumberedToken then some 0 else none
  | node, index :: rest => do
    let child ← node.children[index]?
    return tokenCountAll (node.children.take index) + (← tokensBefore? child rest)

mutual

/-- How many declarations are reached first on the way into a node. -/
def declarationCount : Node → Nat
  | token _ => 0
  | composite kind children =>
    if kind.isDeclaration then 1 else declarationCountAll children

def declarationCountAll : List Node → Nat
  | [] => 0
  | node :: rest => declarationCount node + declarationCountAll rest

end

mutual

/-- The declarations that are reached first on the way into a node. -/
def declarations (trail : Trail) (offset : Nat) : Node → List Site
  | token _ => []
  | composite kind children =>
    if kind.isDeclaration then [⟨composite kind children, trail, offset⟩]
    else declarationsAll trail 0 offset children

def declarationsAll (trail : Trail) (index offset : Nat) : List Node → List Site
  | [] => []
  | node :: rest =>
    declarations (trail ++ [index]) offset node ++
      declarationsAll trail (index + 1) (offset + node.width) rest

end

mutual

/-- All declarations of a node with their numbers. These start with the numbers of the parent, and
some declarations of that parent stand in front of the node. -/
def numberedDeclarations (parent : List Nat) (counted : Nat) (trail : Trail) (offset : Nat) :
    Node → List (List Nat × Site)
  | token _ => []
  | composite kind children =>
    if kind.isDeclaration then
      let numbers := parent ++ [counted + 1]
      (numbers, ⟨composite kind children, trail, offset⟩) ::
        numberedDeclarationsAll numbers 0 trail 0 offset children
    else numberedDeclarationsAll parent counted trail 0 offset children

def numberedDeclarationsAll (parent : List Nat) (counted : Nat) (trail : Trail)
    (index offset : Nat) : List Node → List (List Nat × Site)
  | [] => []
  | node :: rest =>
    numberedDeclarations parent counted (trail ++ [index]) offset node ++
      numberedDeclarationsAll parent (counted + declarationCount node) trail (index + 1)
        (offset + node.width) rest

end

/-- The numbers, below a node, of the declaration at the end of a trail. Some declarations of the
same parent stand in front of the node. -/
def declarationPath? (counted : Nat) : Node → Trail → Option (List Nat)
  | _, [] => none
  | node, index :: rest => do
    let child ← node.children[index]?
    let before := counted + declarationCountAll (node.children.take index)
    if child.isDeclaration then
      if rest.isEmpty then some [before + 1]
      else return (before + 1) :: (← declarationPath? 0 child rest)
    else declarationPath? before child rest

end Node

namespace Site

/-- The declarations of a node, without those inside of them. -/
def members (site : Site) : List Site :=
  Node.declarationsAll site.trail 0 site.offset site.node.children

/-- The declaration that a list of numbers leads to. -/
def descend? (site : Site) : List Nat → Option Site
  | [] => some site
  | number :: rest =>
    match site.members[number - 1]? with
    | some member => member.descend? rest
    | none => none

end Site

namespace Tree

def rootSite (tree : Tree) : Site :=
  ⟨tree.root, [], 0⟩

/-- All numbered nodes with their numbers, in the order of the text. -/
def numbered (tree : Tree) : Scheme → List (List Nat × Site)
  | .token =>
    ((tree.sites.filter fun site => site.node.isNumberedToken).zipIdx 1).map
      fun (site, number) => ([number], site)
  | .declaration => Node.numberedDeclarationsAll [] 0 [] 0 0 tree.root.children

/-- All numbered nodes with their paths, in the order of the text. -/
def enumerate (tree : Tree) (scheme : Scheme) : List (Path × Site) :=
  (tree.numbered scheme).filterMap fun (numbers, site) => (Path.ofList? numbers).map (·, site)

def resolve? (tree : Tree) (address : Address) : Option Site :=
  match address.scheme, address.path.segments with
  | .token, [number] => tree.root.nthToken? [] 0 (number - 1)
  | .token, _ => none
  | .declaration, numbers => tree.rootSite.descend? numbers

def numbersOf? (tree : Tree) (trail : Trail) : Scheme → Option (List Nat)
  | .token => (tree.root.tokensBefore? trail).map fun before => [before + 1]
  | .declaration => tree.root.declarationPath? 0 trail

/-- The path of the node at the end of a trail; none if it has no number. -/
def compute? (tree : Tree) (trail : Trail) (scheme : Scheme) : Option Path :=
  (tree.numbersOf? trail scheme).bind Path.ofList?

end Tree

end SwiftTree
