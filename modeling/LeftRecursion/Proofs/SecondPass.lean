import LeftRecursion.Proofs.Acyclic
import LeftRecursion.Proofs.FixedPoints
import LeftRecursion.Proofs.Rereading

/-!
Outputs that are transformed again from their text. The text does not say which
names are made up, so in the second pass they are processed like the others, each
at its place in the ordering, and listed there. Given names still lead onward, so
their rules stay; the rule of a made-up name stays exactly if it leads onward too.
No name is made up any more, since nothing in a result is left recursive.
-/

namespace LeftRecursion

namespace Grammar

section Texts

variable {first second : Grammar}

theorem IsOutput.listing_eq_of_render (output : first.IsOutput) (other : second.IsOutput)
    (same : first.render = second.render) : first.listing = second.listing := by
  have heads : ∀ {grammar : Grammar}, grammar.IsOutput →
      grammar.lines.map (fun line => (Token.ofLine line).head?) =
        grammar.listing.map fun name => some (.word name) := by
    intro grammar output
    rw [output.lines_eq, List.map_map]
    apply List.map_congr_left
    intro name listed
    exact Rule.head_tokens_ruleText name _ (output.names_of_mem name listed).2
  have lines : first.lines = second.lines := by
    rw [← output.lines_render, ← other.lines_render, same]
  have names := (heads output).symm.trans ((congrArg _ lines).trans (heads other))
  have injective : Function.Injective fun name => some (Token.word name) := by
    intro name other equal
    exact Token.word.inj (Option.some.inj equal)
  exact injective.list_map names

theorem IsOutput.render_eq_of_texts (output : first.IsOutput) (other : second.IsOutput)
    (sameNames : first.listing = second.listing)
    (sameTexts : ∀ name, (first.alternatives name).map productionText =
      (second.alternatives name).map productionText) : first.render = second.render := by
  rw [render, render, output.lines_eq, other.lines_eq, sameNames]
  simp only [ruleText, sameTexts]

end Texts

section Orderings

variable (grammar : Grammar)

theorem unmarked_isGiven (nonempty : ∀ name, [] ∉ grammar.alternatives name) :
    grammar.unmarked.IsGiven where
  noGenerated _ := rfl
  nonempty := nonempty

theorem ordering_sublist_unmarked : grammar.ordering.Sublist grammar.unmarked.ordering := by
  have names : grammar.givenNames.Sublist grammar.unmarked.givenNames := by
    have all : grammar.unmarked.givenNames = grammar.rules.keys :=
      List.filter_eq_self.mpr fun _ _ => rfl
    rw [all]
    exact List.filter_sublist
  exact (names.filter _).append (names.filter _)

theorem listing_of_unmarked (noMarks : grammar.generated = .empty) :
    grammar.listing = grammar.ordering := by
  rw [listing, noMarks]
  exact List.append_nil _

end Orderings

section Outcome

variable {result : Grammar}

theorem IsOutput.skipped_of_names (output : result.IsOutput) (start : String)
    (names : ∀ name ∈ result.listing, (result.reread start).grammar.defines name = true) :
    (result.reread start).skipped = [] := by
  rw [reread, output.lines_render, Reading.skipped_eq_nil_iff]
  intro line member _
  rw [output.lines_eq] at member
  obtain ⟨name, listed, rfl⟩ := List.mem_map.mp member
  have defined := names name listed
  rw [reread, output.lines_render, Reading.defines_ofLines_iff, output.lines_eq] at defined
  obtain ⟨line, inLines, _, rule, read, named⟩ := defined
  obtain ⟨other, isListed, rfl⟩ := List.mem_map.mp inLines
  have same := Rule.name_of_ofLine_ruleText other _ (output.names_of_mem other isListed).2 rule read
  rw [named] at same
  subst same
  exact ⟨rule, read⟩

theorem IsOutput.unchanged_iff (output : result.IsOutput) (start : String) :
    (∃ again, (result.reread start).grammar.removeLeftRecursion.result = .ok again ∧
      again.generated = .empty ∧ again.rules = (result.reread start).grammar.rules ∧
      again.render = result.render) ↔
    (result.reread start).skipped = [] ∧ (result.reread start).grammar.Settled ∧
      (result.reread start).grammar.ordering = result.listing := by
  have noMarks := (frame_reread start result).2
  constructor
  · rintro ⟨again, done, noneMade, sameRules, sameText⟩
    have sameStart := start_eq_of_ok _ again _ done
    have unchanged : again = (result.reread start).grammar :=
      eq_of_fields sameStart sameRules (noneMade.trans noMarks.symm)
    have sameNames := (isOutput_of_ok start {} _ _ again done).listing_eq_of_render output sameText
    rw [listing_of_unmarked again noneMade] at sameNames
    have given :=
      Reading.isGiven_ofNumbered start {} (Reading.numberFrom 1 (Text.lines result.render))
    rw [unchanged] at done sameNames
    refine ⟨output.skipped_of_names start fun name listed => ?_, settled_of_ok given done,
      sameNames⟩
    rw [← sameNames] at listed
    exact ((mem_ordering_iff _ _).mp listed).1
  · rintro ⟨accepted, settled, sameNames⟩
    have done := settled.unchanged
    have whole := (output.skipped_reread_iff start).mp accepted
    refine ⟨_, done, noMarks, rfl, ?_⟩
    apply (isOutput_of_ok start {} _ _ _ done).render_eq_of_texts output
    · rw [listing_of_unmarked _ noMarks, sameNames]
    · exact fun name => (output.texts_reread whole start name).2

end Outcome

section Unmarked

variable {grammar result : Grammar}

/-- Without its marks a result still has no left recursion, so a run of it ends well
and makes up no name. It keeps the rules that lead onward, and those alone. -/
theorem unmarked_of_ok (given : grammar.IsGiven)
    (done : grammar.removeLeftRecursion.result = .ok result)
    (nonempty : ∀ name, [] ∉ result.alternatives name) :
    ∃ again, result.unmarked.removeLeftRecursion.result = .ok again ∧
      again.generated = .empty ∧ again.rules.keys = result.rules.keys ∧
      ∀ name, again.alternatives name = result.alternatives name ↔
        ∀ production ∈ result.alternatives name,
          LeadsOnward result.unmarked.ordering name production := by
  have acyclic : ∀ name, ¬ Relation.TransGen result.unmarked.Leads name name :=
    acyclic_of_ok grammar result _ given (grammar.ordering_listsOnce given) done
  have closed : result.unmarked.Closed := (settled_of_ok given done).closed
  have listed : ∀ name ∈ result.unmarked.ordering, result.unmarked.defines name = true :=
    fun name member => ((mem_ordering_iff _ _).mp member).1
  obtain ⟨last, again, reached, confined⟩ :=
    result.unmarked.ok_of_acyclic _ nonempty closed acyclic listed
  have tidy := Progress.start_tidy result.unmarked closed
  refine ⟨last.grammar, again, confined.generated, confined.names, fun name => ?_⟩
  cases defined : result.defines name with
  | false =>
      have absent := (last.grammar.defines_eq_of_keys _ confined.names name).trans defined
      rw [alternatives_of_not_defines _ name absent, alternatives_of_not_defines _ name defined]
      simp
  | true =>
      constructor
      · intro same
        have onward := (settled_of_ok (result.unmarked_isGiven nonempty) again).onward
        rw [reached.ordering_eq tidy] at onward
        rw [← same]
        exact onward name ((mem_ordering_iff _ _).mpr ⟨defined, rfl⟩)
      · exact reached.alternatives_of_leadsOnward tidy rfl (ordering_nodup _) name defined

end Unmarked

section Passes

/-- A second pass changes nothing exactly if the text is read without fault, all that is
read leads onward, and the ordering of the second pass is that of the lines. Where every
alternative reads back, it can only change rules of made-up names. -/
theorem second_pass_unchanged_iff (start : String) (lines : List String) (result : Grammar)
    (done : (Reading.ofLines start lines).grammar.removeLeftRecursion.result = .ok result) :
    ((∃ again, (result.reread start).grammar.removeLeftRecursion.result = .ok again ∧
        again.generated = .empty ∧ again.rules = (result.reread start).grammar.rules ∧
        again.render = result.render) ↔
      (result.reread start).skipped = [] ∧ (result.reread start).grammar.Settled ∧
        (result.reread start).grammar.ordering = result.ordering ++ result.generated.keys) ∧
    ((∀ name, ∀ production ∈ result.alternatives name,
        ReadsBack result.rules.keys production) →
      (result.reread start).skipped = [] ∧ (result.reread start).grammar = result.unmarked ∧
      ∃ again, (result.reread start).grammar.removeLeftRecursion.result = .ok again ∧
        again.generated = .empty ∧ again.rules.keys = result.rules.keys ∧
        (∀ name, result.isGenerated name = false →
          again.alternatives name = result.alternatives name) ∧
        ∀ name, again.alternatives name = result.alternatives name ↔
          ∀ production ∈ result.alternatives name,
            LeadsOnward result.unmarked.ordering name production) := by
  have given := Reading.isGiven_ofNumbered start {} (Reading.numberFrom 1 lines)
  have output := isOutput_of_ok start {} _ _ result done
  obtain rfl : result.start = start := start_of_ok start {} _ _ result done
  refine ⟨output.unchanged_iff _, fun back => ?_⟩
  obtain ⟨accepted, same⟩ := output.reread_eq_unmarked_iff.mpr back
  obtain ⟨again, ran, noneMade, names, kept⟩ := unmarked_of_ok given done output.nonempty
  refine ⟨accepted, same, again, ?_, noneMade, names, fun name unmade => ?_, kept⟩
  · rw [same]
    exact ran
  · rw [kept]
    intro production member
    have listed : name ∈ result.ordering :=
      (mem_ordering_iff _ _).mpr ⟨result.defines_of_mem name production member, unmade⟩
    have onward := (settled_of_ok given done).onward name listed production member
    exact onward.mono result.ordering_sublist_unmarked

def trailing : Grammar :=
  ((empty "S").insert "S" [[.terminal "b", .nonterminal "Z"]]).insertGenerated "Z"
    [[.terminal "a", .nonterminal "Z"], epsilon]

theorem second_pass_unchanged_iff_trailing :
    (Reading.ofLines "S" ["S -> Sa b"]).grammar.removeLeftRecursion.result = .ok trailing ∧
      (∀ name, ∀ production ∈ trailing.alternatives name,
        ReadsBack trailing.rules.keys production) ∧
      ∃ again, (trailing.reread "S").grammar.removeLeftRecursion.result = .ok again ∧
        again.generated = .empty ∧ again.rules = (trailing.reread "S").grammar.rules ∧
        again.render = trailing.render := by
  have done : (Reading.ofLines "S" ["S -> Sa b"]).grammar.removeLeftRecursion.result =
      .ok trailing := by
    decide
  have back : ∀ name, ∀ production ∈ trailing.alternatives name,
      ReadsBack trailing.rules.keys production :=
    trailing.forall_of_keys _ (by decide)
  have passes := second_pass_unchanged_iff "S" _ trailing done
  obtain ⟨accepted, same, _⟩ := passes.2 back
  have unchanged : trailing.unmarked.removeLeftRecursion.result = .ok trailing.unmarked := by
    decide
  have given := trailing.unmarked_isGiven (isOutput_of_ok "S" {} _ _ trailing done).nonempty
  have ordering : trailing.unmarked.ordering = trailing.ordering ++ trailing.generated.keys := by
    decide
  rw [same] at passes ⊢
  exact ⟨done, back, passes.1.mpr ⟨accepted, settled_of_ok given unchanged, ordering⟩⟩

def returning : Grammar :=
  (((empty "S").insert "S" [[.terminal "c", .nonterminal "Z"]]).insert "A"
    [[.terminal "a"]]).insertGenerated "Z"
      [[.nonterminal "A", .terminal "b", .nonterminal "Z"], epsilon]

/-- In the second pass `Z` is processed after `A`, and unfolded with it. -/
theorem second_pass_need_not_be_unchanged :
    ¬ ∀ (start : String) (lines : List String) (result : Grammar),
      (Reading.ofLines start lines).grammar.removeLeftRecursion.result = .ok result →
        ∃ again, (result.reread start).grammar.removeLeftRecursion.result = .ok again ∧
          again.generated = .empty ∧ again.rules = (result.reread start).grammar.rules ∧
          again.render = result.render := by
  intro always
  have done : (Reading.ofLines "S" ["S -> SAb c", "A -> a"]).grammar.removeLeftRecursion.result =
      .ok returning := by
    decide
  obtain ⟨again, ran, _, _, sameText⟩ := always "S" _ returning done
  have unfolded : (returning.reread "S").grammar.removeLeftRecursion.result =
      .ok (returning.unmarked.insert "Z"
        [[.terminal "a", .terminal "b", .nonterminal "Z"], epsilon]) := by
    decide
  cases ran.symm.trans unfolded
  revert sameText
  decide

end Passes

end Grammar

end LeftRecursion
