import LeftRecursion.Rule.Token
import LeftRecursion.Symbol

/-!
Rules as lines: the name of a nonterminal, one arrow, and any number of words.
A line that is not a rule has one of three faults. A missing arrow is found
first, then a beginning that is not a name followed by the arrow, then a second
arrow.
-/

namespace LeftRecursion

/-- A rule whose alternatives are not yet split into symbols. -/
structure Rule where
  name : String
  words : List String
  deriving DecidableEq

inductive LineFault where
  | missingArrow
  | missingName
  | secondArrow
  deriving DecidableEq

def LineFault.message : LineFault → String
  | missingArrow => "Expected `" ++ arrowText ++ "` after nonterminal, skipping line"
  | missingName => "Tried to define something other than a nonterminal, skipping line"
  | secondArrow => "Unexpected `" ++ arrowText ++ "` encountered, skipping line"

namespace Rule

def wordsOf? : List Token → Option (List String)
  | [] => some []
  | .arrow :: _ => none
  | .word text :: rest => (wordsOf? rest).map (text :: ·)

def ofTokens (tokens : List Token) : Except LineFault Rule :=
  if .arrow ∉ tokens then .error .missingArrow
  else
    match tokens with
    | .word name :: .arrow :: rest =>
        if isName name then
          match wordsOf? rest with
          | some words => .ok ⟨name, words⟩
          | none => .error .secondArrow
        else .error .missingName
    | _ => .error .missingName

def ofLine (line : String) : Except LineFault Rule :=
  ofTokens (Token.ofLine line)

theorem wordsOf?_eq_some_iff (tokens : List Token) (words : List String) :
    wordsOf? tokens = some words ↔ tokens = words.map .word := by
  induction tokens generalizing words with
  | nil => cases words <;> simp [wordsOf?]
  | cons token rest ih =>
      cases token with
      | arrow => cases words <;> simp [wordsOf?]
      | word text =>
          cases words with
          | nil => simp [wordsOf?]
          | cons first later =>
              simp only [wordsOf?, Option.map_eq_some_iff, ih, List.map_cons,
                List.cons.injEq, Token.word.injEq]
              constructor
              · rintro ⟨_, same, rfl, rfl⟩
                exact ⟨rfl, same⟩
              · rintro ⟨rfl, same⟩
                exact ⟨later, same, rfl, rfl⟩

end Rule

end LeftRecursion
