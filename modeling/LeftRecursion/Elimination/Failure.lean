/-!
Why a grammar cannot be transformed.
-/

namespace LeftRecursion

inductive Failure where
  /-- A rule or the ordering refers to a name that has no rule. -/
  | undefined (name : String)
  /-- Every name that could be given to a new nonterminal is taken. -/
  | namesExhausted
  deriving DecidableEq

def Failure.message : Failure → String
  | undefined name => "No definition for nonterminal `" ++ name ++ "`"
  | namesExhausted => "Ran out of names for new nonterminals"

end LeftRecursion
