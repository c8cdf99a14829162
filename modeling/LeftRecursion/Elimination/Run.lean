import LeftRecursion.Elimination.Immediate
import LeftRecursion.Elimination.Unfold

/-!
Removal of all left recursion. The nonterminals of an ordering are processed one
after another. The alternatives of each are unfolded with every nonterminal
processed before it, whose rules are final by then, and the immediate left
recursion that is left or has come up is eliminated.

Every name that a rule refers to must have a rule, which is verified first, so
only the ordering itself can lead to a name without one later.
-/

namespace LeftRecursion

section Verify

/-- Fails at the first name without a rule that a rule refers to. -/
def Grammar.verify (grammar : Grammar) : Logged Failure Unit :=
  match grammar.undefinedNames with
  | [] => .done ()
  | [name] => .fail (.undefined name)
  | name :: others => (Logged.fail (.undefined name)).noting [.severalUndefined (name :: others)]

theorem Grammar.result_verify (grammar : Grammar) :
    grammar.verify.result =
      match grammar.undefinedNames with
      | [] => .ok ()
      | name :: _ => .error (.undefined name) := by
  unfold verify
  split <;> simp_all

end Verify

/-- A grammar on the way, with the names that are left for new nonterminals and
the nonterminals that are processed, in order. -/
structure Progress where
  grammar : Grammar
  supply : NameSupply
  processed : List String
  deriving DecidableEq

namespace Progress

def start (grammar : Grammar) : Progress :=
  ⟨grammar, .ofGrammar grammar, []⟩

section Steps

def store (grammar : Grammar) (name : String) (unfolded : Rewrite) :
    Option Elimination → Grammar
  | none => grammar.insert name unfolded
  | some ⟨rewrite, none⟩ => grammar.insert name rewrite
  | some ⟨rewrite, some (auxiliary, auxiliaryRewrite)⟩ =>
      (grammar.insert name rewrite).insertGenerated auxiliary auxiliaryRewrite

def notes (name : String) : Option Elimination → List Event
  | some ⟨_, some (auxiliary, _)⟩ => [.eliminated name auxiliary]
  | _ => []

def step (progress : Progress) (name : String) : Logged Failure Progress :=
  match progress.grammar.productions name with
  | none => .fail (.undefined name)
  | some rewrite =>
      let unfolding := unfold progress.grammar progress.processed rewrite
      let substitutions := unfolding.sources.map (Event.substituting name)
      ((eliminate progress.supply name unfolding.rewrite).andThen fun (elimination, left) =>
        (Logged.done
          { grammar := store progress.grammar name unfolding.rewrite elimination
            supply := left
            processed := progress.processed ++ [name] }).noting
          (notes name elimination)).noting substitutions

def run (progress : Progress) : List String → Logged Failure Progress
  | [] => .done progress
  | name :: rest => (progress.step name).andThen fun next => next.run rest

end Steps

section Laws

@[simp] theorem result_run_nil (progress : Progress) :
    (progress.run []).result = .ok progress := rfl

theorem result_run_cons (progress : Progress) (name : String) (rest : List String) :
    (progress.run (name :: rest)).result =
      (progress.step name).result.bind fun next => (next.run rest).result :=
  Logged.result_andThen _ _

theorem result_step (progress : Progress) (name : String) (rewrite : Rewrite)
    (defined : progress.grammar.productions name = some rewrite) :
    (progress.step name).result =
      (eliminate progress.supply name
        (unfold progress.grammar progress.processed rewrite).rewrite).result.map
        fun (elimination, left) =>
          { grammar := store progress.grammar name
              (unfold progress.grammar progress.processed rewrite).rewrite elimination
            supply := left
            processed := progress.processed ++ [name] } := by
  simp only [step, defined, Logged.result_noting, Logged.result_andThen, Logged.result_done]
  cases (eliminate progress.supply name _).result <;> rfl

end Laws

end Progress

namespace Grammar

/-- Removes all left recursion, processing the nonterminals of `ordering`. -/
def removeInOrder (grammar : Grammar) (ordering : List String) : Logged Failure Grammar :=
  grammar.verify.andThen fun _ =>
    ((Progress.start grammar).run ordering).andThen fun progress => .done progress.grammar

/-- Removes all left recursion, processing the given names in their own order. -/
def removeLeftRecursion (grammar : Grammar) : Logged Failure Grammar :=
  grammar.removeInOrder grammar.ordering

theorem result_removeInOrder (grammar : Grammar) (ordering : List String) :
    (grammar.removeInOrder ordering).result =
      grammar.verify.result.bind fun _ =>
        ((Progress.start grammar).run ordering).result.map Progress.grammar := by
  simp only [removeInOrder, Logged.result_andThen, Logged.result_done]
  cases grammar.verify.result <;>
    cases ((Progress.start grammar).run ordering).result <;> rfl

end Grammar

end LeftRecursion
