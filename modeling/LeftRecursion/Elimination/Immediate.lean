import LeftRecursion.Elimination.Failure
import LeftRecursion.Elimination.NameSupply
import LeftRecursion.Log.Logged

/-!
Immediate left recursion. A nonterminal A with the alternatives
A α₁ | … | A αₘ | β₁ | … | βₙ gets the alternatives β₁ A' | … | βₙ A', and the
new nonterminal A' gets α₁ A' | … | αₘ A' | e.

An alternative that is A and nothing else derives nothing new and is dropped.
If that leaves no α, no new nonterminal is needed. If there is an α but no β,
the empty string takes the place of the missing β.
-/

namespace LeftRecursion

section Split

/-- The alternatives of a nonterminal, told apart by how they begin. -/
structure Split where
  /-- What follows the nonterminal where it leads, if that is not empty. -/
  tails : List Production
  /-- How many alternatives are the nonterminal and nothing else. -/
  cycles : Nat
  /-- The alternatives that begin with something else. -/
  others : List Production
  deriving DecidableEq

def Split.ofRewrite (name : String) (rewrite : Rewrite) : Split :=
  let stripped := rewrite.filterMap (stripLeading name)
  { tails := stripped.filter fun tail => !tail.isEmpty
    cycles := (stripped.filter List.isEmpty).length
    others := rewrite.filter fun production => !beginsWith name production }

namespace Split

/-- Whether the empty string has to stand in for the missing other alternatives. -/
def assumesEmptyString (split : Split) : Bool :=
  !split.tails.isEmpty && split.others.isEmpty

def bases (split : Split) : List Production :=
  if split.others.isEmpty then [epsilon] else split.others

def baseRewrite (split : Split) (auxiliary : String) : Rewrite :=
  split.bases.map fun base => base ++ [.nonterminal auxiliary]

def auxiliaryRewrite (split : Split) (auxiliary : String) : Rewrite :=
  (split.tails.map fun tail => tail ++ [.nonterminal auxiliary]) ++ [epsilon]

def warnings (split : Split) (name : String) : List Event :=
  (if split.cycles = 0 then [] else [.cyclesDropped name split.cycles]) ++
    if split.assumesEmptyString then [.emptyStringAssumed name] else []

@[simp] theorem mem_tails_iff (name : String) (rewrite : Rewrite) (tail : Production) :
    tail ∈ (ofRewrite name rewrite).tails ↔
      .nonterminal name :: tail ∈ rewrite ∧ tail ≠ [] := by
  simp only [ofRewrite, List.mem_filter, List.mem_filterMap, stripLeading_eq_some_iff]
  constructor
  · rintro ⟨⟨_, member, rfl⟩, nonempty⟩
    exact ⟨member, by simpa using nonempty⟩
  · rintro ⟨member, nonempty⟩
    exact ⟨⟨_, member, rfl⟩, by simpa using nonempty⟩

@[simp] theorem mem_others_iff (name : String) (rewrite : Rewrite) (production : Production) :
    production ∈ (ofRewrite name rewrite).others ↔
      production ∈ rewrite ∧ beginsWith name production = false := by
  simp [ofRewrite]

end Split

end Split

/-- The new alternatives of a nonterminal, with the new nonterminal that carries
its recursion and the alternatives of that one, if it is needed. -/
structure Elimination where
  rewrite : Rewrite
  auxiliary : Option (String × Rewrite)
  deriving DecidableEq

section Eliminate

def Split.eliminate (split : Split) (supply : NameSupply) :
    Except Failure (Elimination × NameSupply) :=
  if split.tails.isEmpty then .ok (⟨split.others, none⟩, supply)
  else
    match supply.allocate with
    | none => .error .namesExhausted
    | some (auxiliary, left) =>
        .ok (⟨split.baseRewrite auxiliary,
          some (auxiliary, split.auxiliaryRewrite auxiliary)⟩, left)

/-- Removes the immediate left recursion of a nonterminal. Without any there is
nothing to do, and no elimination. -/
def eliminate (supply : NameSupply) (name : String) (rewrite : Rewrite) :
    Logged Failure (Option Elimination × NameSupply) :=
  if isLeftRecursive name rewrite then
    let split := Split.ofRewrite name rewrite
    ⟨split.warnings name,
      (split.eliminate supply).map fun (elimination, left) => (some elimination, left)⟩
  else .done (none, supply)

theorem eliminate_of_not_recursive (supply : NameSupply) (name : String) (rewrite : Rewrite)
    (free : isLeftRecursive name rewrite = false) :
    eliminate supply name rewrite = .done (none, supply) := by
  simp [eliminate, free]

end Eliminate

end LeftRecursion
