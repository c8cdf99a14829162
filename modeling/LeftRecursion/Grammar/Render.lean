import LeftRecursion.Grammar.Basic

/-!
Grammars as text: one line a rule, with the name, an arrow, and the
alternatives separated by single spaces. A rule without alternatives ends after
the space that follows its arrow.
-/

namespace LeftRecursion

def ruleText (name : String) (rewrite : Rewrite) : String :=
  name ++ " -> " ++ " ".intercalate (rewrite.map productionText)

namespace Grammar

def lines (grammar : Grammar) : List String :=
  grammar.entries.map fun entry => ruleText entry.1 entry.2

def render (grammar : Grammar) : String :=
  "\n".intercalate grammar.lines

end Grammar

end LeftRecursion
