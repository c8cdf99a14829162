import LeftRecursion.Proofs.Outcome

/-!
Orderings with stray names, that is, names without rules in the grammar. A name is
looked up among the rules as the steps before it have left them. So a stray name ends
the run, unless one of those steps has happened to make it up: then its new rule is
taken for one of the grammar. Only candidates are made up, so any other stray name is
always found out.
-/

namespace LeftRecursion

namespace Grammar

section Places

variable {grammar result : Grammar} {front rest remaining : List String} {name : String}

theorem result_of_reached (closed : grammar.Closed) {ordering : List String} {progress : Progress}
    (reached : Progress.Reached (.start grammar) ordering progress remaining) :
    ∃ front, ordering = front ++ remaining ∧
      (grammar.removeInOrder front).result = .ok progress.grammar := by
  obtain ⟨front, same, ran⟩ := Progress.reached_iff.mp reached
  refine ⟨front, same, ?_⟩
  rw [result_removeInOrder_of_closed closed, ran]
  rfl

theorem defines_of_ok (closed : grammar.Closed)
    (done : (grammar.removeInOrder (front ++ name :: rest)).result = .ok result) :
    ∃ before, (grammar.removeInOrder front).result = .ok before ∧ before.defines name = true := by
  rw [result_removeInOrder_of_closed closed, Progress.result_run_append] at done
  cases ran : ((Progress.start grammar).run front).result with
  | error failure => simp [ran, Except.bind, Except.map] at done
  | ok progress =>
      refine ⟨progress.grammar, ?_, ?_⟩
      · rw [result_removeInOrder_of_closed closed, ran]
        rfl
      · cases processed : (progress.step name).result with
        | error failure =>
            simp [ran, Progress.result_run_cons, processed, Except.bind, Except.map] at done
        | ok next => exact (Progress.step_of_ok _ _ _ processed).defined

theorem not_defines_of_not_candidate (stray : grammar.defines name = false)
    (notCandidate : name ∉ candidateNames)
    (done : (grammar.removeInOrder front).result = .ok result) : result.defines name = false := by
  obtain ⟨_, last, reached, rfl⟩ := grammar.reached_of_ok result front done
  obtain ⟨made, madeUp⟩ := reached.madeUp
  rw [Bool.eq_false_iff]
  intro defined
  rcases (madeUp.defines_iff name).mp defined with isMade | hasRule
  · exact notCandidate (madeUp.candidates name isMade)
  · rw [stray] at hasRule
    cases hasRule

end Places

section Stray

/-- A run of a grammar that is in order fails exactly if names run out, or if in some
place stands a stray name that the run over the names before it does not make up. -/
theorem stray_fails_iff (grammar : Grammar) (ordering : List String) (closed : grammar.Closed) :
    ((∃ failure, (grammar.removeInOrder ordering).result = .error failure) ↔
      (grammar.removeInOrder ordering).result = .error .namesExhausted ∨
        ∃ front name rest, ordering = front ++ name :: rest ∧ grammar.defines name = false ∧
          ∀ before, (grammar.removeInOrder front).result = .ok before →
            before.defines name = false) ∧
    ∀ name ∈ ordering, grammar.defines name = false → name ∉ candidateNames →
      ∃ failure, (grammar.removeInOrder ordering).result = .error failure := by
  have fails : ∀ front name rest, ordering = front ++ name :: rest →
      (∀ before, (grammar.removeInOrder front).result = .ok before →
        before.defines name = false) →
      ∃ failure, (grammar.removeInOrder ordering).result = .error failure := by
    rintro front name rest rfl notMade
    cases done : (grammar.removeInOrder (front ++ name :: rest)).result with
    | error failure => exact ⟨failure, rfl⟩
    | ok result =>
        obtain ⟨before, ran, defined⟩ := defines_of_ok closed done
        rw [notMade before ran] at defined
        cases defined
  refine ⟨⟨?_, ?_⟩, ?_⟩
  · rintro ⟨failure, failed⟩
    obtain ⟨progress, name, rest, reached, stopped⟩ := reached_of_error closed failure failed
    rcases progress.step_of_error name failure stopped with ⟨_, undefined⟩ | ⟨rfl, _⟩
    · obtain ⟨front, same, ran⟩ := result_of_reached closed reached
      refine Or.inr ⟨front, name, rest, same, ?_, fun before alsoRan => ?_⟩
      · rw [Bool.eq_false_iff]
        intro defined
        rw [reached.defines name defined] at undefined
        cases undefined
      · cases ran.symm.trans alsoRan
        exact undefined
    · exact Or.inl failed
  · rintro (failed | ⟨front, name, rest, same, _, notMade⟩)
    · exact ⟨_, failed⟩
    · exact fails front name rest same notMade
  · intro name member stray notCandidate
    obtain ⟨front, rest, same⟩ := List.append_of_mem member
    exact fails front name rest same fun before ran =>
      not_defines_of_not_candidate stray notCandidate ran

def recurring : Grammar :=
  (empty "S").insert "S" [[.nonterminal "S", .terminal "a"], [.terminal "b"]]

theorem stray_fails_iff_recurring :
    recurring.Closed ∧ (∃ failure, (recurring.removeInOrder ["Z", "S"]).result = .error failure) ∧
      ∃ failure, (recurring.removeInOrder ["S", "Z", "Zed"]).result = .error failure := by
  have closed : recurring.Closed := by decide
  have unmade : ∀ before, (recurring.removeInOrder []).result = .ok before →
      before.defines "Z" = false := by
    intro before ran
    have same : (recurring.removeInOrder []).result = .ok recurring := by decide
    cases same.symm.trans ran
    decide
  have notCandidate : "Zed" ∉ candidateNames := by
    intro candidate
    have isLetter := (NameSupply.letters_of_mem_candidateNames "Zed" candidate).2 'e' (by decide)
    exact absurd isLetter (by decide)
  exact ⟨closed,
    (stray_fails_iff recurring ["Z", "S"] closed).1.mpr
      (Or.inr ⟨[], "Z", ["S"], rfl, by decide, unmade⟩),
    (stray_fails_iff recurring ["S", "Z", "Zed"] closed).2 "Zed" (by decide) (by decide)
      notCandidate⟩

/-- After `S` the stray name `Z` has a rule: the one that was made up for `S`. -/
theorem stray_need_not_fail :
    ¬ ∀ (grammar : Grammar) (ordering : List String), grammar.Closed →
      (∃ name ∈ ordering, grammar.defines name = false) →
        ∃ failure, (grammar.removeInOrder ordering).result = .error failure := by
  intro always
  have closed : recurring.Closed := by decide
  obtain ⟨failure, failed⟩ := always recurring ["S", "Z"] closed ⟨"Z", by decide, by decide⟩
  have done : (recurring.removeInOrder ["S", "Z"]).result =
      .ok ((recurring.insert "S" [[.terminal "b", .nonterminal "Z"]]).insertGenerated "Z"
        [[.terminal "a", .nonterminal "Z"], epsilon]) := by
    decide
  cases done.symm.trans failed

end Stray

end Grammar

end LeftRecursion
