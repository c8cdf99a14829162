import LeftRecursion.Grammar.Basic

/-!
Names for new nonterminals. The candidates are single letters, those that
grammars use least first and without `S` and `A`, and then all pairs of letters.
The first candidate that is not taken is handed out, and is taken from then on.
-/

namespace LeftRecursion

section Candidates

def singleLetters : List Char := "ZYXWVUTRQPONMLKJIHGFEDCB".toList

def alphabet : List Char := "ABCDEFGHIJKLMNOPQRSTUVWXYZ".toList

def letterPairs : List (List Char) :=
  alphabet.flatMap fun first => alphabet.map fun second => [first, second]

def candidateNames : List String :=
  (singleLetters.map fun letter => [letter]).map String.ofList ++
    letterPairs.map String.ofList

end Candidates

structure NameSupply where
  taken : List String
  deriving DecidableEq

namespace NameSupply

def isTaken (supply : NameSupply) (name : String) : Bool :=
  decide (name ∈ supply.taken)

/-- Takes every name that has a rule, and no other. -/
def ofGrammar (grammar : Grammar) : NameSupply :=
  ⟨grammar.rules.keys⟩

def next? (supply : NameSupply) : Option String :=
  candidateNames.find? fun name => !supply.isTaken name

/-- A new name with the supply that is left, none once every candidate is taken. -/
def allocate (supply : NameSupply) : Option (String × NameSupply) :=
  supply.next?.map fun name => (name, ⟨name :: supply.taken⟩)

-- A new name is a candidate, and nothing in the grammar has it yet.
theorem next?_mem (supply : NameSupply) (name : String) (found : supply.next? = some name) :
    name ∈ candidateNames ∧ name ∉ supply.taken := by
  refine ⟨List.mem_of_find?_eq_some found, ?_⟩
  have free := List.find?_some found
  simpa [isTaken] using free

theorem next?_eq_none_iff (supply : NameSupply) :
    supply.next? = none ↔ ∀ name ∈ candidateNames, name ∈ supply.taken := by
  simp [next?, isTaken]

end NameSupply

end LeftRecursion
