import LeftRecursion.Elimination.Unfold
import LeftRecursion.Proofs.Derivation
import LeftRecursion.Proofs.Rules

/-!
What unfolding keeps. Every symbol of an unfolded alternative was there before,
in the alternatives that were unfolded or in those of a source, and a rule whose
alternatives are unfolded with other rules of its grammar, even with itself,
gives the same words.

That no word is lost needs the number of replacements: an unfolded alternative
takes no more of them than the one that it replaces, so words can be compared
by induction on that number also where a rule is unfolded with itself.
-/

namespace LeftRecursion

section Substitutions

-- What each substitution keeps is kept by all of them together.
theorem unfold_induction (grammar : Grammar) (sources : List String) (rewrite : Rewrite)
    (property : Rewrite → Prop) (initial : property rewrite)
    (preserved : ∀ source ∈ sources, ∀ target, property target →
      property (substitute source (grammar.alternatives source) target)) :
    property (unfold grammar sources rewrite).rewrite := by
  rw [unfold_rewrite]
  induction sources generalizing rewrite with
  | nil => exact initial
  | cons source later ih =>
      apply ih
      · exact preserved source List.mem_cons_self rewrite initial
      · intro other member
        exact preserved other (List.mem_cons_of_mem source member)

theorem unfold_congr (first second : Grammar) (sources : List String)
    (same : ∀ source ∈ sources, first.alternatives source = second.alternatives source)
    (rewrite : Rewrite) : unfold first sources rewrite = unfold second sources rewrite := by
  induction sources generalizing rewrite with
  | nil => rfl
  | cons source later ih =>
      have after := ih fun other member => same other (List.mem_cons_of_mem source member)
      simp only [unfold, same source List.mem_cons_self, after]

theorem symbols_unfold (grammar : Grammar) (sources : List String) (rewrite : Rewrite)
    (property : Symbol → Prop)
    (given : ∀ production ∈ rewrite, ∀ symbol ∈ production, property symbol)
    (inSources : ∀ source ∈ sources, ∀ production ∈ grammar.alternatives source,
      ∀ symbol ∈ production, property symbol) :
    ∀ production ∈ (unfold grammar sources rewrite).rewrite,
      ∀ symbol ∈ production, property symbol := by
  apply unfold_induction grammar sources rewrite
    fun target => ∀ production ∈ target, ∀ symbol ∈ production, property symbol
  · exact given
  · intro source isSource target before production member symbol occurs
    rcases (mem_substitute_iff _ _ _ _).mp member with
      ⟨old, _⟩ | ⟨expansion, fromSource, rest, old, rfl⟩
    · exact before production old symbol occurs
    · rcases List.mem_append.mp occurs with inExpansion | inRest
      · exact inSources source isSource expansion fromSource symbol inExpansion
      · exact before _ old symbol (List.mem_cons_of_mem _ inRest)

theorem nil_not_mem_unfold (grammar : Grammar)
    (nonempty : ∀ name, [] ∉ grammar.alternatives name) (sources : List String)
    (rewrite : Rewrite) (full : [] ∉ rewrite) :
    [] ∉ (unfold grammar sources rewrite).rewrite := by
  apply unfold_induction grammar sources rewrite fun target => [] ∉ target
  · exact full
  · rintro source - target full empty
    rcases (mem_substitute_iff _ _ _ _).mp empty with
      ⟨old, _⟩ | ⟨expansion, fromSource, rest, _, joined⟩
    · exact full old
    · rw [(List.append_eq_nil_iff.mp joined.symm).1] at fromSource
      exact nonempty source fromSource

end Substitutions

namespace Grammar

section Replacement

variable (grammar : Grammar)

theorem words_insert_le (name : String) (rewrite : Rewrite)
    (sound : grammar.wordsOfAny rewrite ≤ grammar.language name) (symbols : Production) :
    (grammar.insert name rewrite).words symbols ≤ grammar.words symbols := by
  apply words_le_of_admissible
  intro other production member
  by_cases same : other = name
  · subst same
    rw [alternatives_insert_self] at member
    intro word inWords
    exact sound ⟨production, member, inWords⟩
  · rw [alternatives_insert_ne _ _ _ _ same] at member
    exact grammar.words_le_language other production member

theorem words_le_insert (name : String) (rewrite : Rewrite)
    (covered : ∀ production ∈ grammar.alternatives name, ∀ size word,
      grammar.Yields size production word →
        ∃ other ∈ rewrite, ∃ smaller ≤ size, grammar.Yields smaller other word)
    (symbols : Production) :
    grammar.words symbols ≤ (grammar.insert name rewrite).words symbols := by
  apply words_le_of_covered
  intro other production member size word yielded
  by_cases same : other = name
  · subst same
    rw [alternatives_insert_self]
    exact covered production member size word yielded
  · rw [alternatives_insert_ne _ _ _ _ same]
    exact ⟨production, member, size, Nat.le_refl size, yielded⟩

end Replacement

section Unfolding

variable (grammar : Grammar) (sources : List String)

theorem wordsOfAny_unfold_le (rewrite : Rewrite) :
    grammar.wordsOfAny (unfold grammar sources rewrite).rewrite ≤ grammar.wordsOfAny rewrite := by
  apply unfold_induction grammar sources rewrite
    fun target => grammar.wordsOfAny target ≤ grammar.wordsOfAny rewrite
  · exact le_refl _
  · rintro source - target before word ⟨production, member, inWords⟩
    apply before
    rcases (mem_substitute_iff _ _ _ _).mp member with
      ⟨old, _⟩ | ⟨expansion, fromSource, rest, old, rfl⟩
    · exact ⟨production, old, inWords⟩
    · refine ⟨_, old, ?_⟩
      rw [words_append, Language.mem_mul] at inWords
      obtain ⟨left, inExpansion, right, inRest, rfl⟩ := inWords
      have head := grammar.words_le_language source expansion fromSource inExpansion
      exact grammar.append_mem_words [.nonterminal source] rest left right head inRest

theorem yields_unfold (rewrite : Rewrite) (production : Production)
    (member : production ∈ rewrite) (size : Nat) (word : List String)
    (yielded : grammar.Yields size production word) :
    ∃ other ∈ (unfold grammar sources rewrite).rewrite, ∃ smaller ≤ size,
      grammar.Yields smaller other word := by
  apply unfold_induction grammar sources rewrite
    fun target => ∃ other ∈ target, ∃ smaller ≤ size, grammar.Yields smaller other word
  · exact ⟨production, member, size, Nat.le_refl size, yielded⟩
  · rintro source - target ⟨old, inTarget, smaller, bound, yielded⟩
    cases begins : beginsWith source old with
    | false =>
        exact ⟨old, (mem_substitute_iff _ _ _ _).mpr (Or.inl ⟨inTarget, begins⟩), smaller, bound,
          yielded⟩
    | true =>
        obtain ⟨rest, rfl⟩ := (beginsWith_iff source old).mp begins
        cases yielded with
        | nonterminal fromSource head tail =>
            refine ⟨_, (mem_substitute_iff _ _ _ _).mpr
              (Or.inr ⟨_, fromSource, rest, inTarget, rfl⟩), _, ?_, head.append tail⟩
            omega

/-- Unfolding the alternatives of a rule in place changes no words. -/
theorem words_insert_unfold (name : String) (symbols : Production) :
    (grammar.insert name
      (unfold grammar sources (grammar.alternatives name)).rewrite).words symbols =
        grammar.words symbols := by
  apply le_antisymm
  · apply words_insert_le
    rw [language_eq_wordsOfAny]
    exact grammar.wordsOfAny_unfold_le sources (grammar.alternatives name)
  · apply words_le_insert
    intro production member size word yielded
    exact grammar.yields_unfold sources _ production member size word yielded

end Unfolding

end Grammar

end LeftRecursion
