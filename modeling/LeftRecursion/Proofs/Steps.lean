import LeftRecursion.Proofs.Unfolding

/-!
The course of a run. `Step` says all that processing one nonterminal can do: its
rule is unfolded, and either no recursion is left to carry, or a new nonterminal
takes it over. What every step keeps holds of every state that a run reaches.

The names that rules refer to have rules themselves when a run starts, and every
name with a rule is taken. Both stay so, which is what makes a new name new: no
alternative of the grammar mentions it.
-/

namespace LeftRecursion

namespace Split

section Parts

variable (name : String) (rewrite : Rewrite)

theorem tails_of_free (free : isLeftRecursive name rewrite = false) :
    (ofRewrite name rewrite).tails = [] := by
  rw [List.eq_nil_iff_forall_not_mem]
  intro tail member
  have leads := (isLeftRecursive_iff name rewrite).mpr
    ⟨tail, ((mem_tails_iff name rewrite tail).mp member).1⟩
  rw [free] at leads
  cases leads

theorem others_of_free (free : isLeftRecursive name rewrite = false) :
    (ofRewrite name rewrite).others = rewrite := by
  refine List.filter_eq_self.mpr fun production member => ?_
  simp only [isLeftRecursive, List.any_eq_false] at free
  simpa using free production member

theorem mem_split (production : Production) (member : production ∈ rewrite) :
    production ∈ (ofRewrite name rewrite).others ∨ production = [.nonterminal name] ∨
      ∃ tail ∈ (ofRewrite name rewrite).tails, production = .nonterminal name :: tail := by
  cases begins : beginsWith name production with
  | false => exact Or.inl ((mem_others_iff _ _ _).mpr ⟨member, begins⟩)
  | true =>
      obtain ⟨tail, rfl⟩ := (beginsWith_iff name production).mp begins
      by_cases empty : tail = []
      · exact Or.inr (Or.inl (by rw [empty]))
      · exact Or.inr (Or.inr ⟨tail, (mem_tails_iff _ _ _).mpr ⟨member, empty⟩, rfl⟩)

theorem assumesEmptyString_iff (split : Split) :
    split.assumesEmptyString = true ↔ split.tails ≠ [] ∧ split.others = [] := by
  simp [assumesEmptyString]

theorem mem_bases_of_mem (split : Split) (production : Production)
    (member : production ∈ split.others) : production ∈ split.bases := by
  have some : split.others.isEmpty = false := by
    cases others : split.others with
    | nil => simp [others] at member
    | cons _ _ => rfl
  simpa [bases, some] using member

theorem mem_others_or_eq_epsilon (split : Split) (production : Production)
    (member : production ∈ split.bases) : production ∈ split.others ∨ production = epsilon := by
  unfold bases at member
  split at member
  · exact Or.inr (List.mem_singleton.mp member)
  · exact Or.inl member

-- Without the fallback the bases are the alternatives that there are.
theorem bases_eq_others (split : Split) (tails : split.tails ≠ [])
    (noFallback : split.assumesEmptyString = false) : split.bases = split.others := by
  have some : split.others ≠ [] := fun none =>
    absurd ((assumesEmptyString_iff split).mpr ⟨tails, none⟩) (by simp [noFallback])
  simp [bases, some]

@[simp] theorem mem_baseRewrite_iff (split : Split) (auxiliary : String) (production : Production) :
    production ∈ split.baseRewrite auxiliary ↔
      ∃ base ∈ split.bases, production = base ++ [.nonterminal auxiliary] := by
  simp [baseRewrite, eq_comm]

@[simp] theorem mem_auxiliaryRewrite_iff (split : Split) (auxiliary : String)
    (production : Production) :
    production ∈ split.auxiliaryRewrite auxiliary ↔
      (∃ tail ∈ split.tails, production = tail ++ [.nonterminal auxiliary]) ∨
        production = epsilon := by
  simp [auxiliaryRewrite, eq_comm]

end Parts

end Split

theorem result_eliminate (supply : NameSupply) (name : String) (rewrite : Rewrite) :
    (eliminate supply name rewrite).result =
      if (Split.ofRewrite name rewrite).tails = [] then
        .ok (if isLeftRecursive name rewrite then
          some ⟨(Split.ofRewrite name rewrite).others, none⟩ else none, supply)
      else match supply.next? with
        | none => .error .namesExhausted
        | some auxiliary =>
            .ok (some ⟨(Split.ofRewrite name rewrite).baseRewrite auxiliary,
              some (auxiliary, (Split.ofRewrite name rewrite).auxiliaryRewrite auxiliary)⟩,
              ⟨auxiliary :: supply.taken⟩) := by
  cases recursive : isLeftRecursive name rewrite with
  | false =>
      rw [eliminate_of_not_recursive _ _ _ recursive, if_pos (Split.tails_of_free _ _ recursive)]
      rfl
  | true =>
      simp only [eliminate, recursive, if_true, Split.eliminate, List.isEmpty_iff]
      by_cases noTails : (Split.ofRewrite name rewrite).tails = []
      · rw [if_pos noTails, if_pos noTails]
        rfl
      · rw [if_neg noTails, if_neg noTails, NameSupply.allocate]
        cases supply.next? <;> rfl

namespace Progress

section Outcome

def unfolded (progress : Progress) (name : String) : Rewrite :=
  (unfold progress.grammar progress.processed (progress.grammar.alternatives name)).rewrite

def split (progress : Progress) (name : String) : Split :=
  .ofRewrite name (progress.unfolded name)

/-- The state after a name that leaves no recursion to carry. -/
def kept (progress : Progress) (name : String) : Progress where
  grammar := progress.grammar.insert name (progress.split name).others
  supply := progress.supply
  processed := progress.processed ++ [name]

/-- The state after a name whose recursion a new nonterminal carries. -/
def moved (progress : Progress) (name auxiliary : String) : Progress where
  grammar :=
    (progress.grammar.insert name ((progress.split name).baseRewrite auxiliary)).insertGenerated
      auxiliary ((progress.split name).auxiliaryRewrite auxiliary)
  supply := ⟨auxiliary :: progress.supply.taken⟩
  processed := progress.processed ++ [name]

/-- All that processing a name can come to, if it does not fail. -/
inductive Step (progress : Progress) (name : String) : Progress → Prop where
  | kept (defined : progress.grammar.defines name = true)
      (noTails : (progress.split name).tails = []) :
      Step progress name (progress.kept name)
  | moved (auxiliary : String) (defined : progress.grammar.defines name = true)
      (tails : (progress.split name).tails ≠ [])
      (unused : progress.supply.next? = some auxiliary) :
      Step progress name (progress.moved name auxiliary)

theorem Step.defined {progress next : Progress} {name : String}
    (step : Step progress name next) : progress.grammar.defines name = true := by
  cases step <;> assumption

theorem Step.processed {progress next : Progress} {name : String}
    (step : Step progress name next) : next.processed = progress.processed ++ [name] := by
  cases step <;> rfl

theorem result_step_of_defined (progress : Progress) (name : String)
    (defined : progress.grammar.defines name = true) :
    (progress.step name).result =
      if (progress.split name).tails = [] then .ok (progress.kept name)
      else match progress.supply.next? with
        | none => .error .namesExhausted
        | some auxiliary => .ok (progress.moved name auxiliary) := by
  obtain ⟨rewrite, found⟩ := (Grammar.defines_iff _ _).mp defined
  have same := progress.grammar.alternatives_of_productions name rewrite found
  rw [result_step _ _ _ found, result_eliminate, split, kept, split, unfolded, same]
  split
  · cases recursive : isLeftRecursive name
      (unfold progress.grammar progress.processed rewrite).rewrite with
    | false => simp [Except.map, store, Split.others_of_free _ _ recursive]
    | true => simp [Except.map, store]
  · cases progress.supply.next? <;> simp [Except.map, store, moved, split, unfolded, same]

theorem result_step_of_not_defines (progress : Progress) (name : String)
    (undefined : progress.grammar.defines name = false) :
    (progress.step name).result = .error (.undefined name) := by
  simp [step, (progress.grammar.productions_eq_none_iff name).mpr undefined]

theorem step_of_ok (progress next : Progress) (name : String)
    (done : (progress.step name).result = .ok next) : Step progress name next := by
  cases defined : progress.grammar.defines name with
  | false =>
      rw [result_step_of_not_defines _ _ defined] at done
      cases done
  | true =>
      rw [result_step_of_defined _ _ defined] at done
      split at done
      · next noTails =>
          cases done
          exact .kept defined noTails
      · next tails =>
          cases unused : progress.supply.next? with
          | none => simp [unused] at done
          | some auxiliary =>
              simp only [unused] at done
              cases done
              exact .moved auxiliary defined tails unused

theorem alternatives_kept (progress : Progress) (name other : String) :
    (progress.kept name).grammar.alternatives other =
      if other = name then (progress.split name).others
      else progress.grammar.alternatives other :=
  Grammar.alternatives_insert _ _ _ _

theorem alternatives_moved (progress : Progress) (name auxiliary other : String) :
    (progress.moved name auxiliary).grammar.alternatives other =
      if other = auxiliary then (progress.split name).auxiliaryRewrite auxiliary
      else if other = name then (progress.split name).baseRewrite auxiliary
      else progress.grammar.alternatives other := by
  rw [moved, Grammar.alternatives_insertGenerated, Grammar.alternatives_insert]

theorem defines_kept_iff (progress : Progress) (name other : String) :
    (progress.kept name).grammar.defines other = true ↔
      other = name ∨ progress.grammar.defines other = true := by
  simp [kept]

theorem defines_moved_iff (progress : Progress) (name auxiliary other : String) :
    (progress.moved name auxiliary).grammar.defines other = true ↔
      other = auxiliary ∨ other = name ∨ progress.grammar.defines other = true := by
  simp [moved]

end Outcome

section Symbols

variable {progress next : Progress} {name : String}

theorem occurs_of_mem_unfolded (progress : Progress) (name : String) (production : Production)
    (member : production ∈ progress.unfolded name) (symbol : Symbol)
    (occurs : symbol ∈ production) : progress.grammar.Occurs symbol := by
  have inRules : ∀ source, ∀ production ∈ progress.grammar.alternatives source,
      ∀ symbol ∈ production, progress.grammar.Occurs symbol :=
    fun source production member _ occurs => ⟨source, production, member, occurs⟩
  exact symbols_unfold progress.grammar progress.processed _ progress.grammar.Occurs
    (inRules name) (fun source _ => inRules source) production member symbol occurs

theorem occurs_of_mem_others (progress : Progress) (name : String) (production : Production)
    (member : production ∈ (progress.split name).others) (symbol : Symbol)
    (occurs : symbol ∈ production) : progress.grammar.Occurs symbol :=
  progress.occurs_of_mem_unfolded name production ((Split.mem_others_iff _ _ _).mp member).1
    symbol occurs

theorem occurs_of_mem_tails (progress : Progress) (name : String) (tail : Production)
    (member : tail ∈ (progress.split name).tails) (symbol : Symbol)
    (occurs : symbol ∈ tail) : progress.grammar.Occurs symbol :=
  progress.occurs_of_mem_unfolded name _ ((Split.mem_tails_iff _ _ _).mp member).1
    symbol (List.mem_cons_of_mem _ occurs)

/-- A step makes alternatives of symbols that were there, the empty string and
the new nonterminal. -/
theorem Step.symbol_cases (step : Step progress name next) (other : String)
    (production : Production) (member : production ∈ next.grammar.alternatives other)
    (symbol : Symbol) (occurs : symbol ∈ production) :
    progress.grammar.Occurs symbol ∨ symbol = .terminal "e" ∨
      ∃ auxiliary, symbol = .nonterminal auxiliary ∧ next.grammar.defines auxiliary = true ∧
        progress.supply.next? = some auxiliary := by
  cases step with
  | kept =>
      rw [alternatives_kept] at member
      split at member
      · exact Or.inl (progress.occurs_of_mem_others name production member symbol occurs)
      · exact Or.inl ⟨other, production, member, occurs⟩
  | moved auxiliary _ _ unused =>
      have ofEmpty : symbol ∈ epsilon → symbol = .terminal "e" := List.mem_singleton.mp
      have defined : (progress.moved name auxiliary).grammar.defines auxiliary = true :=
        (defines_moved_iff _ _ _ _).mpr (Or.inl rfl)
      rw [alternatives_moved] at member
      split at member
      · rcases (Split.mem_auxiliaryRewrite_iff _ _ _).mp member with ⟨tail, fromTail, rfl⟩ | rfl
        · rcases List.mem_append.mp occurs with inTail | last
          · exact Or.inl (progress.occurs_of_mem_tails name tail fromTail symbol inTail)
          · exact Or.inr (Or.inr ⟨auxiliary, List.mem_singleton.mp last, defined, unused⟩)
        · exact Or.inr (Or.inl (ofEmpty occurs))
      · split at member
        · obtain ⟨base, fromBase, rfl⟩ := (Split.mem_baseRewrite_iff _ _ _).mp member
          rcases List.mem_append.mp occurs with inBase | last
          · rcases Split.mem_others_or_eq_epsilon _ _ fromBase with fromOther | rfl
            · exact Or.inl (progress.occurs_of_mem_others name base fromOther symbol inBase)
            · exact Or.inr (Or.inl (ofEmpty inBase))
          · exact Or.inr (Or.inr ⟨auxiliary, List.mem_singleton.mp last, defined, unused⟩)
        · exact Or.inl ⟨other, production, member, occurs⟩

theorem Step.nonempty (step : Step progress name next)
    (nonempty : ∀ other, [] ∉ progress.grammar.alternatives other) :
    ∀ other, [] ∉ next.grammar.alternatives other := by
  intro other member
  cases step with
  | kept =>
      rw [alternatives_kept] at member
      split at member
      · exact nil_not_mem_unfold progress.grammar nonempty progress.processed _ (nonempty name)
          ((Split.mem_others_iff _ _ _).mp member).1
      · exact nonempty other member
  | moved auxiliary =>
      rw [alternatives_moved] at member
      split at member
      · simp [epsilon] at member
      · split at member
        · simp at member
        · exact nonempty other member

end Symbols

section Tidy

/-- Whether a state is one that a run can be in: every name that a rule refers to
has a rule, and every name with a rule is taken. -/
structure Tidy (progress : Progress) : Prop where
  closed : progress.grammar.Closed
  taken : ∀ name, progress.grammar.defines name = true → name ∈ progress.supply.taken

variable {progress next : Progress} {name : String}

theorem start_tidy (grammar : Grammar) (closed : grammar.Closed) : (start grammar).Tidy :=
  ⟨closed, fun name defined => (grammar.mem_rules_keys_iff name).mpr defined⟩

theorem Tidy.fresh (tidy : progress.Tidy) (auxiliary : String)
    (unused : progress.supply.next? = some auxiliary) :
    progress.grammar.defines auxiliary = false := by
  cases defined : progress.grammar.defines auxiliary with
  | false => rfl
  | true =>
      exact absurd (tidy.taken auxiliary defined)
        (progress.supply.next?_mem auxiliary unused).2

theorem Tidy.fresh_ne (tidy : progress.Tidy) (auxiliary : String)
    (unused : progress.supply.next? = some auxiliary) (other : String)
    (defined : progress.grammar.defines other = true) : other ≠ auxiliary :=
  progress.grammar.ne_of_defines other auxiliary defined (tidy.fresh auxiliary unused)

theorem Tidy.defines_of_occurs (tidy : progress.Tidy) (reference : String)
    (occurs : progress.grammar.Occurs (.nonterminal reference)) :
    progress.grammar.defines reference = true :=
  tidy.closed.defines_of_occurs reference occurs

theorem Step.defines_of_defines (step : Step progress name next) (other : String)
    (defined : progress.grammar.defines other = true) : next.grammar.defines other = true := by
  cases step with
  | kept => exact (defines_kept_iff _ _ _).mpr (Or.inr defined)
  | moved => exact (defines_moved_iff _ _ _ _).mpr (Or.inr (Or.inr defined))

-- A step changes the rule of its own name only.
theorem Step.alternatives_ne (step : Step progress name next) (tidy : progress.Tidy)
    (other : String) (different : other ≠ name)
    (defined : progress.grammar.defines other = true) :
    next.grammar.alternatives other = progress.grammar.alternatives other := by
  cases step with
  | kept => rw [alternatives_kept, if_neg different]
  | moved auxiliary _ _ unused =>
      rw [alternatives_moved, if_neg (tidy.fresh_ne auxiliary unused other defined),
        if_neg different]

theorem Step.closed (step : Step progress name next) (tidy : progress.Tidy) :
    next.grammar.Closed := by
  intro other production member reference mentioned
  have occurs := (Grammar.mem_namesIn_iff production reference).mp mentioned
  rcases step.symbol_cases other production member _ occurs with old | empty | ⟨_, new, defined, _⟩
  · exact step.defines_of_defines reference (tidy.defines_of_occurs reference old)
  · cases empty
  · cases new
    exact defined

theorem Step.tidy (step : Step progress name next) (tidy : progress.Tidy) : next.Tidy := by
  refine ⟨step.closed tidy, fun other defined => ?_⟩
  cases step with
  | kept known =>
      rcases (defines_kept_iff _ _ _).mp defined with rfl | old
      · exact tidy.taken other known
      · exact tidy.taken other old
  | moved auxiliary known =>
      rcases (defines_moved_iff _ _ _ _).mp defined with rfl | rfl | old
      · exact List.mem_cons_self
      · exact List.mem_cons_of_mem _ (tidy.taken other known)
      · exact List.mem_cons_of_mem _ (tidy.taken other old)

end Tidy

section Names

variable {progress next : Progress} {name : String}

theorem isGenerated_moved (progress : Progress) (name auxiliary other : String) :
    (progress.moved name auxiliary).grammar.isGenerated other =
      (other == auxiliary || progress.grammar.isGenerated other) :=
  Grammar.isGenerated_insertGenerated _ _ _ _

theorem Step.start_eq (step : Step progress name next) :
    next.grammar.start = progress.grammar.start := by
  cases step <;> rfl

theorem Step.defines_of_isGenerated (step : Step progress name next)
    (marked : ∀ other, progress.grammar.isGenerated other = true →
      progress.grammar.defines other = true) :
    ∀ other, next.grammar.isGenerated other = true → next.grammar.defines other = true := by
  intro other made
  cases step with
  | kept => exact (defines_kept_iff _ _ _).mpr (Or.inr (marked other made))
  | moved auxiliary =>
      rw [isGenerated_moved, Bool.or_eq_true, beq_iff_eq] at made
      rw [defines_moved_iff]
      rcases made with new | old
      · exact Or.inl new
      · exact Or.inr (Or.inr (marked other old))

-- The new name is made up, and all others are what they were.
theorem Step.mem_givenNames_iff (step : Step progress name next) (tidy : progress.Tidy)
    (other : String) :
    other ∈ next.grammar.givenNames ↔ other ∈ progress.grammar.givenNames := by
  rw [Grammar.mem_givenNames_iff, Grammar.mem_givenNames_iff]
  cases step with
  | kept known =>
      rw [defines_kept_iff]
      constructor
      · rintro ⟨rfl | defined, given⟩
        · exact ⟨known, given⟩
        · exact ⟨defined, given⟩
      · rintro ⟨defined, given⟩
        exact ⟨Or.inr defined, given⟩
  | moved auxiliary known _ unused =>
      rw [defines_moved_iff, isGenerated_moved, Bool.or_eq_false_iff, beq_eq_false_iff_ne]
      constructor
      · rintro ⟨new | rfl | defined, old, given⟩
        · exact absurd new old
        · exact ⟨known, given⟩
        · exact ⟨defined, given⟩
      · rintro ⟨defined, given⟩
        exact ⟨Or.inr (Or.inr defined), tidy.fresh_ne auxiliary unused other defined, given⟩

theorem Step.ordering_eq (step : Step progress name next) (tidy : progress.Tidy) :
    next.grammar.ordering = progress.grammar.ordering := by
  have names : next.grammar.givenNames = progress.grammar.givenNames :=
    (next.grammar.rules.keys_ascending.filter _).eq_of_mem_iff
      (progress.grammar.rules.keys_ascending.filter _) (step.mem_givenNames_iff tidy)
  unfold Grammar.ordering
  rw [names, step.start_eq]

end Names

section Course

/-- The states of a run over `ordering`, each with the names that are still to be
processed there. -/
inductive Reached (start : Progress) (ordering : List String) : Progress → List String → Prop where
  | start : Reached start ordering start ordering
  | step {progress next : Progress} {name : String} {rest : List String}
      (earlier : Reached start ordering progress (name :: rest))
      (done : (progress.step name).result = .ok next) : Reached start ordering next rest

variable {first progress last : Progress} {ordering remaining : List String}

theorem Reached.invariant (reached : Reached first ordering progress remaining)
    (invariant : Progress → List String → Prop) (initial : invariant first ordering)
    (preserved : ∀ progress name rest next, Reached first ordering progress (name :: rest) →
      invariant progress (name :: rest) → Step progress name next → invariant next rest) :
    invariant progress remaining := by
  induction reached with
  | start => exact initial
  | step earlier done ih => exact preserved _ _ _ _ earlier ih (step_of_ok _ _ _ done)

theorem Reached.tidy (reached : Reached first ordering progress remaining)
    (tidy : first.Tidy) : progress.Tidy :=
  reached.invariant (fun progress _ => progress.Tidy) tidy
    fun _ _ _ _ _ tidy step => step.tidy tidy

theorem Reached.defines (reached : Reached first ordering progress remaining) (other : String)
    (defined : first.grammar.defines other = true) : progress.grammar.defines other = true :=
  reached.invariant (fun progress _ => progress.grammar.defines other = true) defined
    fun _ _ _ _ _ known step => step.defines_of_defines other known

theorem Reached.nonempty (reached : Reached first ordering progress remaining)
    (nonempty : ∀ name, [] ∉ first.grammar.alternatives name) :
    ∀ name, [] ∉ progress.grammar.alternatives name :=
  reached.invariant (fun progress _ => ∀ name, [] ∉ progress.grammar.alternatives name) nonempty
    fun _ _ _ _ _ nonempty step => step.nonempty nonempty

theorem Reached.defines_of_isGenerated (reached : Reached first ordering progress remaining)
    (marked : ∀ name, first.grammar.isGenerated name = true → first.grammar.defines name = true) :
    ∀ name, progress.grammar.isGenerated name = true → progress.grammar.defines name = true :=
  reached.invariant
    (fun progress _ => ∀ name, progress.grammar.isGenerated name = true →
      progress.grammar.defines name = true)
    marked fun _ _ _ _ _ marked step => step.defines_of_isGenerated marked

theorem Reached.start_eq (reached : Reached first ordering progress remaining) :
    progress.grammar.start = first.grammar.start :=
  reached.invariant (fun progress _ => progress.grammar.start = first.grammar.start) rfl
    fun _ _ _ _ _ before step => step.start_eq.trans before

theorem Reached.ordering_eq (reached : Reached first ordering progress remaining)
    (tidy : first.Tidy) : progress.grammar.ordering = first.grammar.ordering :=
  reached.invariant (fun progress _ => progress.grammar.ordering = first.grammar.ordering) rfl
    fun _ _ _ _ earlier before step => (step.ordering_eq (earlier.tidy tidy)).trans before

theorem Reached.remaining_suffix (reached : Reached first ordering progress remaining) :
    remaining <:+ ordering := by
  induction reached with
  | start => exact List.suffix_refl ordering
  | step _ _ ih => exact (List.suffix_cons _ _).trans ih

theorem Reached.processed_append (reached : Reached first ordering progress remaining) :
    progress.processed ++ remaining = first.processed ++ ordering :=
  reached.invariant
    (fun progress remaining => progress.processed ++ remaining = first.processed ++ ordering) rfl
    fun _ name rest _ _ before step => by rw [step.processed, ← List.append_cons, before]

theorem Reached.completes (reached : Reached first ordering progress remaining)
    (proceeds : ∀ progress name rest, Reached first ordering progress (name :: rest) →
      ∃ next, (progress.step name).result = .ok next) :
    ∃ last, (progress.run remaining).result = .ok last := by
  induction remaining generalizing progress with
  | nil => exact ⟨progress, rfl⟩
  | cons name rest ih =>
      obtain ⟨next, done⟩ := proceeds progress name rest reached
      obtain ⟨last, ran⟩ := ih (.step reached done)
      refine ⟨last, ?_⟩
      rw [result_run_cons, done]
      exact ran

theorem result_run_append (progress : Progress) (front back : List String) :
    (progress.run (front ++ back)).result =
      (progress.run front).result.bind fun middle => (middle.run back).result := by
  induction front generalizing progress with
  | nil => rfl
  | cons name rest ih =>
      rw [List.cons_append, result_run_cons, result_run_cons]
      cases (progress.step name).result with
      | error failure => rfl
      | ok next => exact ih next

theorem run_cons_eq_ok_iff {name : String} {rest : List String} :
    (progress.run (name :: rest)).result = .ok last ↔
      ∃ next, (progress.step name).result = .ok next ∧ (next.run rest).result = .ok last := by
  rw [result_run_cons]
  cases (progress.step name).result <;> simp [Except.bind]

theorem run_append_eq_ok_iff {front back : List String} :
    (progress.run (front ++ back)).result = .ok last ↔
      ∃ middle, (progress.run front).result = .ok middle ∧
        (middle.run back).result = .ok last := by
  rw [result_run_append]
  cases (progress.run front).result <;> simp [Except.bind]

theorem Reached.advance {front back : List String}
    (reached : Reached first ordering progress (front ++ back))
    (done : (progress.run front).result = .ok last) : Reached first ordering last back := by
  induction front generalizing progress with
  | nil =>
      cases done
      exact reached
  | cons name rest ih =>
      obtain ⟨next, processed, ran⟩ := run_cons_eq_ok_iff.mp done
      exact ih (.step reached processed) ran

theorem Reached.finish (reached : Reached first ordering progress remaining)
    (done : (progress.run remaining).result = .ok last) : Reached first ordering last [] := by
  rw [← List.append_nil remaining] at reached
  exact reached.advance done

/-- The states of a run are what the runs over the beginnings of its ordering come to. -/
theorem reached_iff :
    Reached first ordering progress remaining ↔
      ∃ front, ordering = front ++ remaining ∧ (first.run front).result = .ok progress := by
  constructor
  · intro reached
    induction reached with
    | start => exact ⟨[], rfl, rfl⟩
    | @step before next name rest _ done ih =>
        obtain ⟨front, rfl, ran⟩ := ih
        refine ⟨front ++ [name], by simp, ?_⟩
        rw [result_run_append, ran, Except.bind, result_run_cons, done]
        rfl
  · rintro ⟨front, rfl, ran⟩
    exact Reached.start.advance ran

theorem reached_nil_iff :
    Reached first ordering last [] ↔ (first.run ordering).result = .ok last := by
  simp [reached_iff]

end Course

end Progress

namespace Grammar

section Outcome

theorem reached_of_ok (grammar result : Grammar) (ordering : List String)
    (done : (grammar.removeInOrder ordering).result = .ok result) :
    grammar.Closed ∧ ∃ last, Progress.Reached (.start grammar) ordering last [] ∧
      last.grammar = result := by
  rw [result_removeInOrder] at done
  cases verified : grammar.verify.result with
  | error failure => simp [verified, Except.bind] at done
  | ok value =>
      rw [verified] at done
      cases ran : ((Progress.start grammar).run ordering).result with
      | error failure => simp [ran, Except.bind, Except.map] at done
      | ok last =>
          simp only [ran, Except.bind, Except.map, Except.ok.injEq] at done
          exact ⟨(grammar.verify_ok_iff).mp verified, last, Progress.Reached.start.finish ran, done⟩

theorem start_eq_of_ok (grammar result : Grammar) (ordering : List String)
    (done : (grammar.removeInOrder ordering).result = .ok result) :
    result.start = grammar.start := by
  obtain ⟨_, last, reached, rfl⟩ := grammar.reached_of_ok result ordering done
  exact reached.start_eq

end Outcome

end Grammar

end LeftRecursion
