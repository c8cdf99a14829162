import LeftRecursion.Proofs.FixedPoints
import LeftRecursion.Proofs.FreeNames

/-!
What the log of a run tells about its result. A step leaves the grammar as it is if no
alternative of its name begins with the name or with one that is processed, and then it notes
nothing. Any other step notes that it substitutes a source, drops alternatives or eliminates
recursion. In the result no alternative of the name begins like that any more, and later steps
do not touch the rule. So a rule that a step has changed differs from the given one to the end.
-/

namespace LeftRecursion

/-- The nonterminal whose rule is changed by what is noted. -/
def Event.changed? : Event → Option String
  | .substituting name _ | .cyclesDropped name _ | .eliminated name _ => some name
  | _ => none

section Sources

theorem sources_unfold_eq_nil_iff (grammar : Grammar) (sources : List String)
    (rewrite : Rewrite) :
    (unfold grammar sources rewrite).sources = [] ↔
      ∀ source ∈ sources, isLeftRecursive source rewrite = false := by
  induction sources generalizing rewrite with
  | nil => simp [unfold]
  | cons source later ih =>
      rw [unfold, List.forall_mem_cons]
      cases leads : isLeftRecursive source rewrite with
      | true => simp
      | false => simp [ih]

theorem isLeftRecursive_eq_false_iff (name : String) (rewrite : Rewrite) :
    isLeftRecursive name rewrite = false ↔
      ∀ production ∈ rewrite, beginsWith name production = false := by
  simp [isLeftRecursive]

theorem unfold_of_no_sources (grammar : Grammar) (sources : List String) (rewrite : Rewrite)
    (none : (unfold grammar sources rewrite).sources = []) :
    (unfold grammar sources rewrite).rewrite = rewrite := by
  rw [sources_unfold_eq_nil_iff] at none
  exact unfold_of_not_beginsWith grammar sources rewrite fun production member source isSource =>
    (isLeftRecursive_eq_false_iff _ _).mp (none source isSource) production member

end Sources

namespace Progress

section Steps

variable {progress next : Progress} {name : String}

/-- Whether no alternative of a name begins with the name or with one that is processed. -/
def Untouched (progress : Progress) (name : String) : Prop :=
  ∀ production ∈ progress.grammar.alternatives name,
    ∀ source ∈ progress.processed ++ [name], beginsWith source production = false

theorem untouched_iff (progress : Progress) (name : String) :
    progress.Untouched name ↔
      progress.substituted name = [] ∧ (progress.split name).cycles = 0 ∧
        (progress.split name).tails = [] := by
  have both : progress.Untouched name ↔
      (∀ source ∈ progress.processed,
          isLeftRecursive source (progress.grammar.alternatives name) = false) ∧
        isLeftRecursive name (progress.grammar.alternatives name) = false := by
    simp only [Untouched, isLeftRecursive_eq_false_iff, List.mem_append, List.mem_singleton]
    constructor
    · exact fun untouched => ⟨fun source before production member =>
        untouched production member source (Or.inl before),
        fun production member => untouched production member name (Or.inr rfl)⟩
    · rintro ⟨before, itself⟩ production member source (isProcessed | rfl)
      · exact before source isProcessed production member
      · exact itself production member
  rw [both, ← sources_unfold_eq_nil_iff progress.grammar]
  refine and_congr_right fun none => ?_
  rw [split, ← Split.free_iff, unfolded, unfold_of_no_sources _ _ _ none]

theorem changed?_of_mem_step (event : Event) (noted : event ∈ (progress.step name).events)
    (other : String) (changed : event.changed? = some other) : other = name := by
  rcases (mem_events_step_iff _ _ _).mp noted with
    ⟨_, _, rfl⟩ | ⟨_, rfl⟩ | ⟨_, rfl⟩ | ⟨_, _, _, rfl⟩ <;> cases changed <;> rfl

theorem events_step_of_untouched (untouched : progress.Untouched name) :
    (progress.step name).events = [] := by
  obtain ⟨noSources, noCycles, noTails⟩ := (untouched_iff progress name).mp untouched
  simp [events_step, Split.warnings, Split.assumesEmptyString, noSources, noCycles, noTails]

theorem Step.noted (step : Step progress name next) (touched : ¬ progress.Untouched name) :
    ∃ event ∈ (progress.step name).events, event.changed? = some name := by
  simp only [mem_events_step_iff]
  rw [untouched_iff, not_and_or, not_and_or] at touched
  rcases touched with sources | cycles | tails
  · obtain ⟨source, member⟩ := List.exists_mem_of_ne_nil _ sources
    exact ⟨_, Or.inl ⟨source, member, rfl⟩, rfl⟩
  · exact ⟨_, Or.inr (Or.inl ⟨cycles, rfl⟩), rfl⟩
  · cases step with
    | kept _ noTails => exact absurd noTails tails
    | moved auxiliary _ _ unused =>
        exact ⟨_, Or.inr (Or.inr (Or.inr ⟨tails, auxiliary, unused, rfl⟩)), rfl⟩

theorem Step.mem_changes_iff (step : Step progress name next) :
    name ∈ (progress.step name).events.filterMap Event.changed? ↔ ¬ progress.Untouched name := by
  rw [List.mem_filterMap]
  constructor
  · rintro ⟨event, noted, _⟩ untouched
    rw [events_step_of_untouched untouched] at noted
    cases noted
  · exact step.noted

theorem Step.grammar_eq (step : Step progress name next) (untouched : progress.Untouched name) :
    next.grammar = progress.grammar := by
  obtain ⟨noSources, noCycles, noTails⟩ := (untouched_iff progress name).mp untouched
  have free := (Split.free_iff name (progress.unfolded name)).mpr ⟨noCycles, noTails⟩
  cases step with
  | kept defined =>
      have others : (progress.split name).others = progress.grammar.alternatives name :=
        (Split.others_of_free name _ free).trans (unfold_of_no_sources _ _ _ noSources)
      rw [Progress.kept, others, progress.grammar.insert_alternatives name defined]
  | moved _ _ tails => exact absurd noTails tails

end Steps

section Runs

variable {first progress next last : Progress} {name : String} {ordering rest : List String}

theorem mem_changes_run_iff (first : Progress) (ordering : List String) (name : String) :
    name ∈ (first.run ordering).events.filterMap Event.changed? ↔
      ∃ progress rest, Reached first ordering progress (name :: rest) ∧
        name ∈ (progress.step name).events.filterMap Event.changed? := by
  simp only [List.mem_filterMap, mem_events_run_iff]
  constructor
  · rintro ⟨event, ⟨progress, current, rest, reached, noted⟩, changed⟩
    obtain rfl := changed?_of_mem_step event noted name changed
    exact ⟨progress, rest, reached, event, noted, changed⟩
  · rintro ⟨progress, rest, reached, event, noted, changed⟩
    exact ⟨event, ⟨progress, name, rest, reached, noted⟩, changed⟩

theorem Reached.grammar_eq {remaining : List String}
    (reached : Reached first ordering progress remaining)
    (silent : (first.run ordering).events.filterMap Event.changed? = []) :
    progress.grammar = first.grammar := by
  apply reached.invariant fun progress _ => progress.grammar = first.grammar
  · rfl
  · intro before name rest next earlier same step
    rw [← same]
    refine step.grammar_eq ?_
    by_contra touched
    have changed := (mem_changes_run_iff first ordering name).mpr
      ⟨before, rest, earlier, step.mem_changes_iff.mpr touched⟩
    rw [silent] at changed
    cases changed

theorem exists_reached_of_mem (ran : (first.run ordering).result = .ok last) (name : String)
    (listed : name ∈ ordering) :
    ∃ progress rest, Reached first ordering progress (name :: rest) := by
  obtain ⟨front, rest, rfl⟩ := List.append_of_mem listed
  obtain ⟨progress, before, _⟩ := run_append_eq_ok_iff.mp ran
  exact ⟨progress, rest, reached_iff.mpr ⟨front, rfl, before⟩⟩

theorem Reached.proceeds (reached : Reached first ordering progress (name :: rest))
    (ran : (first.run ordering).result = .ok last) :
    ∃ next, (progress.step name).result = .ok next ∧ (next.run rest).result = .ok last := by
  obtain ⟨front, rfl, before⟩ := reached_iff.mp reached
  obtain ⟨middle, same, after⟩ := run_append_eq_ok_iff.mp ran
  cases before.symm.trans same
  exact run_cons_eq_ok_iff.mp after

/-- In a run over distinct names a step finds the rule of its name as it was at first, and the
rule that it leaves is the one at the end. -/
theorem Reached.productions_across (reached : Reached first ordering progress (name :: rest))
    (tidy : first.Tidy) (nodup : ordering.Nodup) (defined : first.grammar.defines name = true)
    (done : (progress.step name).result = .ok next) (ran : (next.run rest).result = .ok last) :
    progress.grammar.productions name = first.grammar.productions name ∧
      last.grammar.productions name = next.grammar.productions name := by
  obtain ⟨front, rfl, before⟩ := reached_iff.mp reached
  obtain ⟨_, unique, apart⟩ := List.nodup_append.mp nodup
  have step := step_of_ok _ _ _ done
  refine ⟨productions_of_run tidy before name defined fun given => ?_,
    productions_of_run (step.tidy (reached.tidy tidy)) ran name
      (step.defines_of_defines name step.defined) (List.nodup_cons.mp unique).1⟩
  exact apart name given name List.mem_cons_self rfl

/-- A name that is processed once, and whose rule leads onward in the end, keeps its rule exactly
if its step notes no change of it. -/
theorem Reached.unchanged_iff (reached : Reached first ordering progress (name :: rest))
    (tidy : first.Tidy) (unprocessed : first.processed = []) (nodup : ordering.Nodup)
    (defined : first.grammar.defines name = true)
    (ran : (first.run ordering).result = .ok last)
    (onward : ∀ production ∈ last.grammar.alternatives name,
      LeadsOnward ordering name production) :
    last.grammar.productions name = first.grammar.productions name ↔
      name ∉ (progress.step name).events.filterMap Event.changed? := by
  obtain ⟨next, done, later⟩ := reached.proceeds ran
  obtain ⟨waiting, final⟩ := reached.productions_across tidy nodup defined done later
  have step := step_of_ok _ _ _ done
  rw [step.mem_changes_iff, not_not]
  constructor
  · intro same production member source isSource
    have position := reached.processed_append
    rw [unprocessed, List.nil_append] at position
    have inLast : production ∈ last.grammar.alternatives name := by
      rwa [Grammar.alternatives, same, ← waiting]
    have leads := onward production inLast
    rw [← position] at nodup leads
    obtain ⟨notItself, notBefore⟩ :=
      not_beginsWith_of_leadsOnward _ rest name nodup production leads
    rcases List.mem_append.mp isSource with before | itself
    · exact notBefore source before
    · rwa [List.mem_singleton.mp itself]
  · intro untouched
    rw [final, step.grammar_eq untouched, waiting]

end Runs

section Eliminations

variable {progress next last : Progress} {name : String} {ordering : List String}

theorem originals_sublist_run (ran : (progress.run ordering).result = .ok last) :
    (((progress.run ordering).events.filterMap Event.elimination?).map Prod.fst).Sublist
      ordering := by
  induction ordering generalizing progress with
  | nil => exact List.Sublist.refl []
  | cons name rest ih =>
      obtain ⟨next, done, later⟩ := run_cons_eq_ok_iff.mp ran
      have here : ((progress.step name).events.filterMap Event.elimination?).map Prod.fst =
          (next.takenSince progress).map fun _ => name := by
        rw [eliminations_step done, List.map_map]
        rfl
      have atMostOnce : ((next.takenSince progress).map fun _ => name).Sublist [name] := by
        cases step_of_ok _ _ _ done with
        | kept => simp
        | moved auxiliary _ _ unused => simp [unused]
      rw [run, Logged.andThen_of_ok _ _ _ done, Logged.events_noting, List.filterMap_append,
        List.map_append, here]
      exact atMostOnce.append (ih later)

end Eliminations

end Progress

namespace Grammar

section Log

variable {grammar result : Grammar} {ordering : List String}

theorem originals_sublist (done : (grammar.removeInOrder ordering).result = .ok result) :
    (((grammar.removeInOrder ordering).events.filterMap Event.elimination?).map
      Prod.fst).Sublist ordering := by
  obtain ⟨closed, last, reached, _⟩ := grammar.reached_of_ok result ordering done
  rw [events_removeInOrder_of_closed closed]
  exact Progress.originals_sublist_run (Progress.reached_nil_iff.mp reached)

theorem productions_eq_iff (given : grammar.IsGiven)
    (done : grammar.removeLeftRecursion.result = .ok result) (name : String)
    (defined : grammar.defines name = true) :
    result.productions name = grammar.productions name ↔
      name ∉ grammar.removeLeftRecursion.events.filterMap Event.changed? := by
  have settled := settled_of_ok given done
  obtain ⟨closed, last, reached, rfl⟩ := grammar.reached_of_ok result grammar.ordering done
  have ran := Progress.reached_nil_iff.mp reached
  have tidy := Progress.start_tidy grammar closed
  have listed := ((grammar.ordering_listsOnce given).listed name).mpr defined
  have sameOrdering : last.grammar.ordering = grammar.ordering := reached.ordering_eq tidy
  have onward : ∀ production ∈ last.grammar.alternatives name,
      LeadsOnward grammar.ordering name production := by
    rw [← sameOrdering] at listed ⊢
    exact settled.onward name listed
  have keeps : ∀ progress rest,
      Progress.Reached (.start grammar) grammar.ordering progress (name :: rest) →
        (last.grammar.productions name = grammar.productions name ↔
          name ∉ (progress.step name).events.filterMap Event.changed?) :=
    fun _ _ earlier => earlier.unchanged_iff tidy rfl grammar.ordering_nodup defined ran onward
  rw [removeLeftRecursion, events_removeInOrder_of_closed closed, Progress.mem_changes_run_iff]
  constructor
  · rintro unchanged ⟨progress, rest, earlier, changed⟩
    exact (keeps progress rest earlier).mp unchanged changed
  · intro silent
    obtain ⟨progress, rest, earlier⟩ := Progress.exists_reached_of_mem ran name listed
    exact (keeps progress rest earlier).mpr fun changed => silent ⟨progress, rest, earlier, changed⟩

theorem mem_ordering_of_changed (closed : grammar.Closed) (name : String)
    (changed : name ∈ (grammar.removeInOrder ordering).events.filterMap Event.changed?) :
    name ∈ ordering := by
  rw [events_removeInOrder_of_closed closed] at changed
  obtain ⟨progress, rest, reached, _⟩ := (Progress.mem_changes_run_iff _ _ _).mp changed
  exact reached.remaining_suffix.subset List.mem_cons_self

theorem eq_iff_of_ok (given : grammar.IsGiven)
    (done : grammar.removeLeftRecursion.result = .ok result) :
    result = grammar ↔ grammar.removeLeftRecursion.events.filterMap Event.changed? = [] := by
  obtain ⟨closed, last, reached, same⟩ := grammar.reached_of_ok result grammar.ordering done
  constructor
  · intro unchanged
    rw [List.eq_nil_iff_forall_not_mem]
    intro name changed
    have listed := mem_ordering_of_changed closed name changed
    have defined := ((mem_ordering_iff grammar name).mp listed).1
    exact (productions_eq_iff given done name defined).mp (by rw [unchanged]) changed
  · intro silent
    rw [removeLeftRecursion, events_removeInOrder_of_closed closed] at silent
    rw [← same]
    exact reached.grammar_eq silent

/-- The log of a run tells whether it changes the grammar, and which of the rules: those of the
names for which it notes that a source is substituted, that alternatives are dropped or that
recursion is eliminated. The eliminations are noted with the new names, each of them once, and
with given names that lose their recursion once at most. -/
theorem log_tells_changes (grammar result : Grammar) (given : grammar.IsGiven)
    (done : grammar.removeLeftRecursion.result = .ok result) :
    let changes := grammar.removeLeftRecursion.events.filterMap Event.changed?
    let eliminations := grammar.removeLeftRecursion.events.filterMap Event.elimination?
    (result = grammar ↔ changes = []) ∧
    (∀ name, grammar.defines name = true →
      (result.productions name = grammar.productions name ↔ name ∉ changes)) ∧
    (eliminations.map Prod.snd).Perm (grammar.newNames result) ∧
    (eliminations.map Prod.snd).Nodup ∧
    (eliminations.map Prod.fst).Sublist grammar.ordering ∧
    (eliminations.map Prod.fst).Nodup := by
  intro changes eliminations
  have taken : eliminations.map Prod.snd =
      (Progress.start grammar).allocations grammar.ordering := eliminations_removeInOrder done
  have names : (eliminations.map Prod.snd).Perm (grammar.newNames result) := by
    rw [taken]
    exact allocations_perm given.marked done
  have originals : (eliminations.map Prod.fst).Sublist grammar.ordering :=
    originals_sublist done
  exact ⟨eq_iff_of_ok given done, productions_eq_iff given done, names,
    names.nodup_iff.mpr (newNames_nodup _ _), originals, originals.nodup grammar.ordering_nodup⟩

def assorted : Grammar :=
  ((((empty "S").insert "S" [[.nonterminal "A", .terminal "a"], [.terminal "b"]]).insert "A"
    [[.nonterminal "A", .terminal "c"], [.terminal "d"]]).insert
      "B" [[.nonterminal "S", .terminal "x"]]).insert "C" [[.nonterminal "C"], [.terminal "c"]]

def sorted : Grammar :=
  (((assorted.insert "A" [[.terminal "d", .nonterminal "Z"]]).insertGenerated "Z"
    [[.terminal "c", .nonterminal "Z"], epsilon]).insert "B"
      [[.terminal "d", .nonterminal "Z", .terminal "a", .terminal "x"],
        [.terminal "b", .terminal "x"]]).insert "C" [[.terminal "c"]]

theorem log_tells_changes_assorted :
    assorted.IsGiven ∧ assorted.removeLeftRecursion.result = .ok sorted ∧
      assorted.removeLeftRecursion.events.filterMap Event.changed? = ["A", "B", "B", "C"] ∧
      assorted.removeLeftRecursion.events.filterMap Event.elimination? = [("A", "Z")] ∧
      sorted ≠ assorted ∧ sorted.productions "B" ≠ assorted.productions "B" ∧
      sorted.productions "S" = assorted.productions "S" ∧ assorted.newNames sorted = ["Z"] := by
  have read : (Reading.ofLines "S" ["S -> Aa b", "A -> Ac d", "B -> Sx", "C -> C c"]).grammar =
      assorted := by decide
  have given : assorted.IsGiven := by
    rw [← read]
    exact Reading.isGiven_ofNumbered "S" {} _
  have done : assorted.removeLeftRecursion.result = .ok sorted := by decide
  have changes : assorted.removeLeftRecursion.events.filterMap Event.changed? =
      ["A", "B", "B", "C"] := by decide
  have eliminations : assorted.removeLeftRecursion.events.filterMap Event.elimination? =
      [("A", "Z")] := by decide
  obtain ⟨whole, each, names, _⟩ := log_tells_changes assorted sorted given done
  rw [changes] at whole each
  rw [eliminations] at names
  exact ⟨given, done, changes, eliminations, fun same => absurd (whole.mp same) (by decide),
    fun same => (each "B" (by decide)).mp same (by decide), (each "S" (by decide)).mpr (by decide),
    List.perm_singleton.mp names.symm⟩

end Log

end Grammar

end LeftRecursion
