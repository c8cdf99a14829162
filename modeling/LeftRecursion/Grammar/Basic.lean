import LeftRecursion.NameMap
import LeftRecursion.Symbol

/-!
Grammars: rules by name, a start symbol, and the names that were made up on the
way. The names with a rule that were not made up are the given ones.

The given names are listed with the start symbol first, if it is one of them, and
then in ascending order. Rules are written out in the order of `entries`: those
of the given names in this order, then those of the made-up names in ascending
order.
-/

namespace LeftRecursion

structure Grammar where
  start : String
  rules : NameMap Rewrite := .empty
  generated : NameSet := .empty
  deriving DecidableEq

def defaultStart : String := "S"

namespace Grammar

section Access

def empty (start : String) : Grammar :=
  { start }

def productions (grammar : Grammar) (name : String) : Option Rewrite :=
  grammar.rules.get? name

def alternatives (grammar : Grammar) (name : String) : Rewrite :=
  (grammar.productions name).getD []

def defines (grammar : Grammar) (name : String) : Bool :=
  grammar.rules.contains name

def isGenerated (grammar : Grammar) (name : String) : Bool :=
  grammar.generated.contains name

def size (grammar : Grammar) : Nat :=
  grammar.rules.size

end Access

section Change

/-- Replaces the rule of a name that has one. A made-up name stays made up. -/
def insert (grammar : Grammar) (name : String) (rewrite : Rewrite) : Grammar :=
  { grammar with rules := grammar.rules.insert name rewrite }

def insertGenerated (grammar : Grammar) (name : String) (rewrite : Rewrite) : Grammar :=
  { grammar with
    rules := grammar.rules.insert name rewrite
    generated := grammar.generated.add name }

@[simp] theorem productions_insert (grammar : Grammar) (name other : String) (rewrite : Rewrite) :
    (grammar.insert name rewrite).productions other =
      if other = name then some rewrite else grammar.productions other :=
  NameMap.get?_insert grammar.rules name other rewrite

@[simp] theorem productions_insertGenerated (grammar : Grammar) (name other : String)
    (rewrite : Rewrite) :
    (grammar.insertGenerated name rewrite).productions other =
      if other = name then some rewrite else grammar.productions other :=
  NameMap.get?_insert grammar.rules name other rewrite

@[simp] theorem isGenerated_insertGenerated (grammar : Grammar) (name other : String)
    (rewrite : Rewrite) :
    (grammar.insertGenerated name rewrite).isGenerated other =
      (other == name || grammar.isGenerated other) :=
  NameSet.contains_add grammar.generated name other

theorem defines_iff (grammar : Grammar) (name : String) :
    grammar.defines name = true ↔ ∃ rewrite, grammar.productions name = some rewrite := by
  simp [defines, productions, NameMap.contains, Option.isSome_iff_exists]

end Change

section Order

def givenNames (grammar : Grammar) : List String :=
  grammar.rules.keys.filter fun name => !grammar.isGenerated name

/-- The given names in the order in which they are processed. -/
def ordering (grammar : Grammar) : List String :=
  (grammar.givenNames.filter fun name => name == grammar.start) ++
    grammar.givenNames.filter fun name => name != grammar.start

def entries (grammar : Grammar) : List (String × Rewrite) :=
  (grammar.ordering ++ grammar.generated.keys).filterMap fun name =>
    (grammar.productions name).map fun rewrite => (name, rewrite)

@[simp] theorem mem_givenNames_iff (grammar : Grammar) (name : String) :
    name ∈ grammar.givenNames ↔
      grammar.defines name = true ∧ grammar.isGenerated name = false := by
  simp [givenNames, defines]

@[simp] theorem mem_ordering_iff (grammar : Grammar) (name : String) :
    name ∈ grammar.ordering ↔
      grammar.defines name = true ∧ grammar.isGenerated name = false := by
  by_cases isStart : name = grammar.start <;>
    simp [ordering, isStart]

end Order

section References

def namesIn (production : Production) : List String :=
  production.filterMap Symbol.name?

def references (grammar : Grammar) : List String :=
  grammar.entries.flatMap fun entry => entry.2.flatMap namesIn

/-- Every name without a rule that a rule refers to, once, as first met. -/
def undefinedNames (grammar : Grammar) : List String :=
  (grammar.references.filter fun name => !grammar.defines name).eraseDups

@[simp] theorem mem_namesIn_iff (production : Production) (name : String) :
    name ∈ namesIn production ↔ .nonterminal name ∈ production := by
  simp [namesIn]

end References

end Grammar

end LeftRecursion
