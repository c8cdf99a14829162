import LeftRecursion.Grammar.Basic

/-!
Unfolding at the left end. Substituting a nonterminal replaces each alternative
that begins with it by one alternative for each of its own, in place, and leaves
the other alternatives where they are.
-/

namespace LeftRecursion

section Substitute

/-- What an alternative becomes when `source` is replaced at its left end. -/
def expandLeading (source : String) (expansions : Rewrite) (production : Production) : Rewrite :=
  match stripLeading source production with
  | some rest => expansions.map fun expansion => expansion ++ rest
  | none => [production]

def substitute (source : String) (expansions target : Rewrite) : Rewrite :=
  target.flatMap (expandLeading source expansions)

@[simp] theorem expandLeading_of_beginsWith (source : String) (expansions : Rewrite)
    (rest : Production) :
    expandLeading source expansions (.nonterminal source :: rest) =
      expansions.map fun expansion => expansion ++ rest := by
  simp [expandLeading, stripLeading]

theorem expandLeading_of_not_beginsWith (source : String) (expansions : Rewrite)
    (production : Production) (other : beginsWith source production = false) :
    expandLeading source expansions production = [production] := by
  have none : stripLeading source production = none := by
    simpa [beginsWith] using other
  simp [expandLeading, none]

-- Nothing happens to alternatives none of which begins with the source.
theorem substitute_of_not_beginsWith (source : String) (expansions target : Rewrite)
    (other : ∀ production ∈ target, beginsWith source production = false) :
    substitute source expansions target = target := by
  induction target with
  | nil => rfl
  | cons production rest ih =>
      have head := expandLeading_of_not_beginsWith source expansions production
        (other production List.mem_cons_self)
      have tail := ih fun later member => other later (List.mem_cons_of_mem _ member)
      simp only [substitute] at tail
      simp [substitute, head, tail]

theorem mem_substitute_iff (source : String) (expansions target : Rewrite)
    (production : Production) :
    production ∈ substitute source expansions target ↔
      (production ∈ target ∧ beginsWith source production = false) ∨
        ∃ expansion ∈ expansions, ∃ rest,
          .nonterminal source :: rest ∈ target ∧ production = expansion ++ rest := by
  simp only [substitute, List.mem_flatMap]
  constructor
  · rintro ⟨before, member, expanded⟩
    cases stripped : stripLeading source before with
    | none =>
        have other : beginsWith source before = false := by simp [beginsWith, stripped]
        rw [expandLeading_of_not_beginsWith _ _ _ other, List.mem_singleton] at expanded
        subst expanded
        exact Or.inl ⟨member, other⟩
    | some rest =>
        obtain rfl := (stripLeading_eq_some_iff source before rest).mp stripped
        rw [expandLeading_of_beginsWith, List.mem_map] at expanded
        obtain ⟨expansion, fromSource, rfl⟩ := expanded
        exact Or.inr ⟨expansion, fromSource, rest, member, rfl⟩
  · rintro (⟨member, other⟩ | ⟨expansion, fromSource, rest, member, rfl⟩)
    · refine ⟨production, member, ?_⟩
      rw [expandLeading_of_not_beginsWith _ _ _ other]
      exact List.mem_singleton_self production
    · refine ⟨_, member, ?_⟩
      rw [expandLeading_of_beginsWith]
      exact List.mem_map_of_mem fromSource

end Substitute

section Unfold

/-- Alternatives after unfolding, with the sources that some alternative began
with, in the order in which they were unfolded. -/
structure Unfolding where
  sources : List String
  rewrite : Rewrite
  deriving DecidableEq

/-- Substitutes the sources one after another, each with the alternatives that it
has in the grammar. -/
def unfold (grammar : Grammar) : List String → Rewrite → Unfolding
  | [], rewrite => ⟨[], rewrite⟩
  | source :: later, rewrite =>
      if isLeftRecursive source rewrite then
        let rest := unfold grammar later (substitute source (grammar.alternatives source) rewrite)
        ⟨source :: rest.sources, rest.rewrite⟩
      else unfold grammar later rewrite

-- Where no alternative begins with a source, substituting it changes nothing,
-- so the rewrite is the plain sequence of substitutions.
theorem unfold_rewrite (grammar : Grammar) (sources : List String) (rewrite : Rewrite) :
    (unfold grammar sources rewrite).rewrite =
      sources.foldl (fun target source =>
        substitute source (grammar.alternatives source) target) rewrite := by
  induction sources generalizing rewrite with
  | nil => rfl
  | cons source later ih =>
      simp only [unfold, List.foldl_cons]
      split
      · exact ih _
      · next none =>
          rw [ih, substitute_of_not_beginsWith]
          intro production member
          simp only [isLeftRecursive, List.any_eq_true, not_exists, not_and] at none
          simpa using none production member

end Unfold

end LeftRecursion
