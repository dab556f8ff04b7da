import SwiftTree.Grammar.State

/-!
# Running rules

A rule is run on a state. Loops and goals are bounded: a loop goes round again only if it has taken
a token, and a goal is pursued only if a token has been taken since the current goal began. With as
many rounds and levels as there are tokens, neither bound is ever met.
-/

namespace SwiftTree.Grammar

/-- Repeats a step as long as it asks for it and takes tokens, for a number of rounds at most. -/
def iterate (step : State → State) : Nat → State → State
  | 0, s => s
  | rounds + 1, s =>
    let next := step { s with again := false }
    if next.again && s.taken < next.taken then iterate step rounds next
    else { next with again := false }

namespace Rule

variable {Goal : Type}

/-- Runs a rule. Goals are pursued by `pursue`, `bound` is the number of rounds of a loop, and
`base` is the number of tokens taken when the current goal began. -/
def run (pursue : Goal → State → State) (bound base : Nat) : Rule Goal → State → State
  | skip, s => s
  | shift, s => s.shift
  | attach, s => s.attach
  | recover recovery, s => s.recover recovery
  | report complaint, s => s.complain complaint
  | become kind, s => { s with kind }
  | node kind body, s => s.leave (run pursue bound base body (s.enter kind))
  | seq first second, s => run pursue bound base second (run pursue bound base first s)
  | choose test yes no, s =>
    if test.holds s.last s.rest then run pursue bound base yes s else run pursue bound base no s
  | loop body, s => iterate (run pursue bound base body) bound s
  | again, s => { s with again := true }
  | call goal, s => if base < s.taken then pursue goal s else s
  | delimited bracket label goal, s =>
    if currentKind s.rest = bracket.openingKind then
      (pursue goal s.shift).close bracket label s.contentStart
    else s

end Rule

/-- Pursues a goal of a grammar, through a number of levels at most. -/
def pursue {Goal : Type} (grammar : Goal → Rule Goal) : Nat → Goal → State → State
  | 0, _, s => s
  | levels + 1, goal, s =>
    (grammar goal).run (pursue grammar levels) (levels + 1) s.taken s

end SwiftTree.Grammar
