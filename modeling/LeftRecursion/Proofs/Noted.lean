import LeftRecursion.Proofs.Steps

/-!
What a step notes: the sources that it substitutes, the warnings of the split that it comes to,
and the new nonterminal if it makes one up. A name without a rule has nothing to unfold or to
split, so this holds of steps that fail as well.
-/

namespace LeftRecursion

@[simp] theorem unfold_nil (grammar : Grammar) (sources : List String) :
    unfold grammar sources [] = ⟨[], []⟩ := by
  induction sources with
  | nil => rfl
  | cons source later ih => simpa [unfold, isLeftRecursive] using ih

namespace Split

variable (name : String) (rewrite : Rewrite)

theorem cycles_eq_zero_iff :
    (ofRewrite name rewrite).cycles = 0 ↔ [.nonterminal name] ∉ rewrite := by
  simp only [ofRewrite, List.length_eq_zero_iff, List.filter_eq_nil_iff, List.mem_filterMap,
    stripLeading_eq_some_iff, List.isEmpty_iff]
  constructor
  · exact fun none cycle => none [] ⟨_, cycle, rfl⟩ rfl
  · rintro none _ ⟨_, member, rfl⟩ rfl
    exact none member

-- A left recursive alternative is dropped or has a tail.
theorem free_iff :
    isLeftRecursive name rewrite = false ↔
      (ofRewrite name rewrite).cycles = 0 ∧ (ofRewrite name rewrite).tails = [] := by
  constructor
  · intro free
    refine ⟨(cycles_eq_zero_iff name rewrite).mpr fun cycle => ?_, tails_of_free name rewrite free⟩
    have recursive := (isLeftRecursive_iff name rewrite).mpr ⟨[], cycle⟩
    rw [free] at recursive
    cases recursive
  · rintro ⟨noCycles, noTails⟩
    rw [Bool.eq_false_iff]
    intro recursive
    obtain ⟨rest, member⟩ := (isLeftRecursive_iff name rewrite).mp recursive
    by_cases empty : rest = []
    · rw [empty] at member
      exact (cycles_eq_zero_iff name rewrite).mp noCycles member
    · have inTails := (mem_tails_iff name rewrite rest).mpr ⟨member, empty⟩
      rw [noTails] at inTails
      cases inTails

theorem warnings_of_free (free : isLeftRecursive name rewrite = false) :
    (ofRewrite name rewrite).warnings name = [] := by
  obtain ⟨noCycles, noTails⟩ := (free_iff name rewrite).mp free
  simp [warnings, assumesEmptyString, noCycles, noTails]

end Split

theorem events_eliminate (supply : NameSupply) (name : String) (rewrite : Rewrite) :
    (eliminate supply name rewrite).events = (Split.ofRewrite name rewrite).warnings name := by
  cases recursive : isLeftRecursive name rewrite with
  | false =>
      rw [eliminate_of_not_recursive _ _ _ recursive, Split.warnings_of_free _ _ recursive]
      rfl
  | true => simp [eliminate, recursive]

namespace Progress

variable (progress : Progress) (name : String)

/-- The sources that are substituted in the alternatives of a name when it is processed. -/
def substituted : List String :=
  (unfold progress.grammar progress.processed (progress.grammar.alternatives name)).sources

theorem split_of_undefined (undefined : progress.grammar.productions name = none) :
    progress.split name = .ofRewrite name [] := by
  simp [split, unfolded, Grammar.alternatives, undefined]

theorem events_step :
    (progress.step name).events =
      (progress.substituted name).map (Event.substituting name) ++
        ((progress.split name).warnings name ++
          if (progress.split name).tails = [] then []
          else progress.supply.next?.toList.map (Event.eliminated name)) := by
  cases found : progress.grammar.productions name with
  | none =>
      simp [step, found, substituted, Grammar.alternatives,
        progress.split_of_undefined name found, Split.warnings_of_free name [] rfl,
        Split.tails_of_free name [] rfl]
  | some rewrite =>
      have same := progress.grammar.alternatives_of_productions name rewrite found
      have ended := result_eliminate progress.supply name (progress.unfolded name)
      have warned := events_eliminate progress.supply name (progress.unfolded name)
      simp only [step, found, Logged.events_noting, substituted, split, same, unfolded] at *
      congr 1
      split at ended
      · next noTails =>
          rw [Logged.andThen_of_ok _ _ _ ended, Logged.events_noting, warned, if_pos noTails]
          cases isLeftRecursive name _ <;> simp [notes]
      · next tails =>
          cases unused : progress.supply.next? with
          | none =>
              rw [unused] at ended
              rw [Logged.andThen_of_error _ _ _ ended, warned, if_neg tails]
              simp
          | some auxiliary =>
              rw [unused] at ended
              rw [Logged.andThen_of_ok _ _ _ ended, Logged.events_noting, warned, if_neg tails]
              simp [notes]

theorem mem_events_step_iff (event : Event) :
    event ∈ (progress.step name).events ↔
      (∃ source ∈ progress.substituted name, event = .substituting name source) ∨
      ((progress.split name).cycles ≠ 0 ∧
        event = .cyclesDropped name (progress.split name).cycles) ∨
      ((progress.split name).assumesEmptyString = true ∧ event = .emptyStringAssumed name) ∨
      ((progress.split name).tails ≠ [] ∧ ∃ auxiliary,
        progress.supply.next? = some auxiliary ∧ event = .eliminated name auxiliary) := by
  rw [events_step, Split.warnings]
  by_cases cycles : (progress.split name).cycles = 0 <;>
    by_cases tails : (progress.split name).tails = [] <;>
    cases (progress.split name).assumesEmptyString <;> simp [cycles, tails, eq_comm]

end Progress

end LeftRecursion
