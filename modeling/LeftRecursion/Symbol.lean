import LeftRecursion.Text.Uppercase

/-!
Symbols of a grammar, and the alternatives that are made of them.

A text names a nonterminal when it begins with an uppercase character. The kind
is kept in the symbol, so a terminal and a nonterminal of the same text differ.
The alternative that stands for the empty string is the single terminal `e`.
-/

namespace LeftRecursion

open Text

inductive Symbol where
  | terminal (text : String)
  | nonterminal (name : String)
  deriving DecidableEq

abbrev Production := List Symbol

/-- The alternatives of one nonterminal, in the order in which they are written. -/
abbrev Rewrite := List Production

section Names

-- The empty text begins with nothing, so it is no name.
def isName (text : String) : Bool :=
  match text.toList with
  | [] => false
  | c :: _ => isUppercase c

end Names

namespace Symbol

def ofText (text : String) : Symbol :=
  if isName text then .nonterminal text else .terminal text

def text : Symbol → String
  | terminal text => text
  | nonterminal name => name

def isNonterminal : Symbol → Bool
  | terminal _ => false
  | nonterminal _ => true

def name? : Symbol → Option String
  | terminal _ => none
  | nonterminal name => some name

@[simp] theorem text_ofText (text : String) : (ofText text).text = text := by
  unfold ofText
  split <;> rfl

@[simp] theorem isNonterminal_ofText (text : String) :
    (ofText text).isNonterminal = isName text := by
  unfold ofText
  split <;> simp_all [isNonterminal]

@[simp] theorem name?_eq_some_iff (symbol : Symbol) (name : String) :
    symbol.name? = some name ↔ symbol = nonterminal name := by
  cases symbol <;> simp [name?]

end Symbol

section EmptyString

def epsilon : Production := [.terminal "e"]

def isEpsilon (production : Production) : Bool :=
  production == epsilon

end EmptyString

section Leading

/-- What follows `name` in an alternative that begins with that nonterminal. -/
def stripLeading (name : String) : Production → Option Production
  | .nonterminal first :: rest => if first = name then some rest else none
  | _ => none

def beginsWith (name : String) (production : Production) : Bool :=
  (stripLeading name production).isSome

def isLeftRecursive (name : String) (rewrite : Rewrite) : Bool :=
  rewrite.any (beginsWith name)

@[simp] theorem stripLeading_eq_some_iff (name : String) (production rest : Production) :
    stripLeading name production = some rest ↔
      production = .nonterminal name :: rest := by
  unfold stripLeading
  split
  · split
    · next same => simp [same]
    · next other => simp [other]
  · next noHead =>
      constructor
      · intro impossible
        cases impossible
      · intro head
        exact absurd head (noHead name rest)

theorem beginsWith_iff (name : String) (production : Production) :
    beginsWith name production = true ↔
      ∃ rest, production = .nonterminal name :: rest := by
  simp [beginsWith, Option.isSome_iff_exists]

theorem isLeftRecursive_iff (name : String) (rewrite : Rewrite) :
    isLeftRecursive name rewrite = true ↔
      ∃ rest, .nonterminal name :: rest ∈ rewrite := by
  simp only [isLeftRecursive, List.any_eq_true, beginsWith_iff]
  constructor
  · rintro ⟨_, member, rest, rfl⟩
    exact ⟨rest, member⟩
  · rintro ⟨rest, member⟩
    exact ⟨_, member, rest, rfl⟩

end Leading

section Writing

def productionText (production : Production) : String :=
  String.join (production.map Symbol.text)

theorem toList_productionText (production : Production) :
    (productionText production).toList =
      production.flatMap fun symbol => symbol.text.toList := by
  simp [productionText, String.toList_join, List.flatMap_map]

end Writing

end LeftRecursion
