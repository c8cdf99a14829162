import LeftRecursion.Proofs.Given
import LeftRecursion.Proofs.Nullable
import LeftRecursion.Proofs.Preservation
import LeftRecursion.Proofs.Triangular

/-!
Hidden left recursion: a nonterminal that comes back to itself behind symbols
that can be erased. The auxiliaries that a run makes up can all be erased, so it
is not enough to look at what alternatives begin with.

Take a grammar without the empty string, in which no nonterminal derives itself.
Whatever a run makes of an alternative, the part of it without auxiliaries still
derives from its nonterminal in the grammar that was given. Therefore no tail
consists of auxiliaries alone: the nonterminal from which it was split would have
derived itself. So every tail has a symbol that cannot be erased.
-/

namespace LeftRecursion

namespace Grammar

section Stemming

/-- What is left of an alternative without the nonterminals that have no rule. -/
def knownPart (grammar : Grammar) (production : Production) : Production :=
  production.filter fun symbol => symbol.name?.all grammar.defines

/-- Whether an alternative of a nonterminal, in some later state of the grammar,
stems from derivations that are possible in the grammar itself. -/
structure Stems (grammar : Grammar) (name : String) (production : Production) : Prop where
  derived : grammar.DerivesProperly [.nonterminal name] (grammar.knownPart production)
  visible : .terminal "e" ∉ production

/-- Whether something that the grammar knows stays when all else is erased. -/
structure Lasts (grammar : Grammar) (tail : Production) : Prop where
  known : grammar.knownPart tail ≠ []
  visible : .terminal "e" ∉ tail

variable {grammar : Grammar}

theorem knownPart_append (front back : Production) :
    grammar.knownPart (front ++ back) = grammar.knownPart front ++ grammar.knownPart back :=
  List.filter_append front back

theorem knownPart_cons_defined (name : String) (rest : Production)
    (defined : grammar.defines name = true) :
    grammar.knownPart (.nonterminal name :: rest) =
      .nonterminal name :: grammar.knownPart rest := by
  simp [knownPart, Symbol.name?, defined]

theorem knownPart_undefined (name : String) (undefined : grammar.defines name = false) :
    grammar.knownPart [.nonterminal name] = [] := by
  simp [knownPart, Symbol.name?, undefined]

theorem stems_of_mem (closed : grammar.Closed) (visible : ¬ grammar.Occurs (.terminal "e"))
    (name : String) (production : Production) (member : production ∈ grammar.alternatives name) :
    grammar.Stems name production := by
  constructor
  · have whole : grammar.knownPart production = production := by
      refine List.filter_eq_self.mpr fun symbol inProduction => ?_
      cases symbol with
      | terminal text => rfl
      | nonterminal reference =>
          exact closed name production member reference
            ((mem_namesIn_iff production reference).mpr inProduction)
    rw [whole]
    exact .single (grammar.produces_of_mem name production member)
  · intro occurs
    exact visible ⟨name, production, member, occurs⟩

theorem Stems.expand {name source : String} {rest expansion : Production}
    (stems : grammar.Stems name (.nonterminal source :: rest))
    (defined : grammar.defines source = true) (expanded : grammar.Stems source expansion) :
    grammar.Stems name (expansion ++ rest) := by
  constructor
  · have first := stems.derived
    rw [knownPart_cons_defined source rest defined] at first
    have second := DerivesProperly.within expanded.derived [] (grammar.knownPart rest)
    rw [knownPart_append]
    exact .trans first second
  · intro occurs
    rcases List.mem_append.mp occurs with inExpansion | inRest
    · exact expanded.visible inExpansion
    · exact stems.visible (List.mem_cons_of_mem _ inRest)

theorem Stems.append_unknown {name auxiliary : String} {production : Production}
    (stems : grammar.Stems name production) (undefined : grammar.defines auxiliary = false) :
    grammar.Stems name (production ++ [.nonterminal auxiliary]) := by
  constructor
  · rw [knownPart_append, knownPart_undefined auxiliary undefined, List.append_nil]
    exact stems.derived
  · simpa using stems.visible

-- A tail of which nothing is known would leave a derivation of the name from itself.
theorem Stems.lasts {name : String} {tail : Production}
    (stems : grammar.Stems name (.nonterminal name :: tail))
    (defined : grammar.defines name = true)
    (acyclic : ¬ grammar.DerivesProperly [.nonterminal name] [.nonterminal name]) :
    grammar.Lasts tail := by
  constructor
  · intro nothing
    have cycle := stems.derived
    rw [knownPart_cons_defined name tail defined, nothing] at cycle
    exact acyclic cycle
  · intro occurs
    exact stems.visible (List.mem_cons_of_mem _ occurs)

theorem Lasts.not_nullable {result : Grammar} {tail : Production} (lasts : grammar.Lasts tail)
    (stays : ∀ name, grammar.defines name = true → ¬ result.Nullable [.nonterminal name]) :
    ¬ result.Nullable tail := by
  obtain ⟨symbol, member⟩ := List.exists_mem_of_ne_nil _ lasts.known
  obtain ⟨inTail, known⟩ := List.mem_filter.mp member
  apply not_nullable_of_mem tail symbol inTail
  cases symbol with
  | terminal text =>
      apply not_nullable_terminal
      rintro rfl
      exact lasts.visible inTail
  | nonterminal name => exact stays name known

theorem not_nullable_of_visible (given : grammar.IsGiven)
    (visible : ¬ grammar.Occurs (.terminal "e")) (name : String) :
    ¬ grammar.Nullable [.nonterminal name] := by
  have nonempty : ∀ size row word, grammar.Yields size row word → row ≠ [] →
      .terminal "e" ∉ row → word ≠ [] := by
    intro size row word yielded
    induction yielded with
    | nil => exact fun some => absurd rfl some
    | terminal text _ _ =>
        intro _ noEmpty
        have shown : text ≠ "e" := by
          rintro rfl
          exact noEmpty List.mem_cons_self
        simp [eraseEmpty, shown]
    | @nonterminal _ _ origin production _ _ _ member _ _ ih _ =>
        intro _ _ empty
        refine ih ?_ ?_ (List.append_eq_nil_iff.mp empty).1
        · rintro rfl
          exact given.nonempty origin member
        · intro occurs
          exact visible ⟨origin, production, member, occurs⟩
  intro erased
  obtain ⟨size, yielded⟩ := (mem_words_iff _ _).mp erased
  exact nonempty size _ [] yielded (List.cons_ne_nil _ _) (by simp) rfl

end Stemming

end Grammar

namespace Progress

section Tracing

/-- What holds of the alternatives in every state of a run over `source`. -/
structure Traced (source : Grammar) (progress : Progress) : Prop where
  stems : ∀ name, source.defines name = true →
    ∀ production ∈ progress.grammar.alternatives name, source.Stems name production
  lasts : ∀ name, source.defines name = false → ∀ tail,
    tail ++ [.nonterminal name] ∈ progress.grammar.alternatives name → source.Lasts tail

variable {source : Grammar} {progress next : Progress} {name : String}
  {ordering rest made : List String}

theorem start_traced (closed : source.Closed) (visible : ¬ source.Occurs (.terminal "e")) :
    (start source).Traced source := by
  constructor
  · intro name _
    exact source.stems_of_mem closed visible name
  · intro name undefined tail member
    have defined := source.defines_of_mem name _ member
    rw [undefined] at defined
    cases defined

theorem Traced.stems_unfolded (traced : progress.Traced source)
    (defined : source.defines name = true)
    (processed : ∀ other ∈ progress.processed, source.defines other = true) :
    ∀ production ∈ progress.unfolded name, source.Stems name production := by
  apply unfold_induction progress.grammar progress.processed _
    fun target => ∀ production ∈ target, source.Stems name production
  · exact traced.stems name defined
  · intro other before target stems production member
    rcases (mem_substitute_iff _ _ _ _).mp member with
      ⟨old, _⟩ | ⟨expansion, fromSource, tail, old, rfl⟩
    · exact stems production old
    · have known := processed other before
      exact (stems _ old).expand known (traced.stems other known expansion fromSource)

theorem Traced.kept (traced : progress.Traced source) (defined : source.defines name = true)
    (unfolded : ∀ production ∈ progress.unfolded name, source.Stems name production) :
    (progress.kept name).Traced source := by
  constructor
  · intro other known production member
    rw [alternatives_kept] at member
    split at member
    · next same =>
        rw [same]
        exact unfolded production ((Split.mem_others_iff _ _ _).mp member).1
    · exact traced.stems other known production member
  · intro other undefined tail member
    have different := source.ne_of_defines name other defined undefined
    rw [alternatives_kept, if_neg different.symm] at member
    exact traced.lasts other undefined tail member

theorem Traced.moved (traced : progress.Traced source) (auxiliary : String)
    (defined : source.defines name = true) (unknown : source.defines auxiliary = false)
    (unfolded : ∀ production ∈ progress.unfolded name, source.Stems name production)
    (tails : (progress.split name).tails ≠ [])
    (noFallback : (progress.split name).assumesEmptyString = false)
    (acyclic : ¬ source.DerivesProperly [.nonterminal name] [.nonterminal name]) :
    (progress.moved name auxiliary).Traced source := by
  constructor
  · intro other known production member
    have old := source.ne_of_defines other auxiliary known unknown
    rw [alternatives_moved, if_neg old] at member
    split at member
    · next same =>
        rw [Split.mem_baseRewrite_iff, Split.bases_eq_others _ tails noFallback] at member
        obtain ⟨base, inOthers, rfl⟩ := member
        rw [same]
        have stems := unfolded base ((Split.mem_others_iff _ _ _).mp inOthers).1
        exact stems.append_unknown unknown
    · exact traced.stems other known production member
  · intro other undefined tail member
    rw [alternatives_moved] at member
    split at member
    · next new =>
        subst new
        rcases (Split.mem_auxiliaryRewrite_iff _ _ _).mp member with ⟨old, inTails, same⟩ | empty
        · obtain rfl := List.append_cancel_right same
          have stems := unfolded _ ((Split.mem_tails_iff _ _ _).mp inTails).1
          exact stems.lasts defined acyclic
        · have last : Symbol.nonterminal other ∈ epsilon := by
            rw [← empty]
            exact List.mem_append_right tail List.mem_cons_self
          cases List.mem_singleton.mp last
    · have different := source.ne_of_defines name other defined undefined
      rw [if_neg different.symm] at member
      exact traced.lasts other undefined tail member

theorem Traced.step (traced : progress.Traced source) (step : Step progress name next)
    (tidy : progress.Tidy)
    (known : ∀ other, source.defines other = true → progress.grammar.defines other = true)
    (defined : source.defines name = true)
    (processed : ∀ other ∈ progress.processed, source.defines other = true)
    (noFallback : (progress.split name).assumesEmptyString = false)
    (acyclic : ¬ source.DerivesProperly [.nonterminal name] [.nonterminal name]) :
    next.Traced source := by
  have unfolded := traced.stems_unfolded defined processed
  cases step with
  | kept => exact traced.kept defined unfolded
  | moved auxiliary _ tails unused =>
      have unknown : source.defines auxiliary = false := by
        rw [Bool.eq_false_iff]
        intro old
        exact tidy.fresh_ne auxiliary unused auxiliary (known auxiliary old) rfl
      exact traced.moved auxiliary defined unknown unfolded tails noFallback acyclic

theorem Reached.traced (reached : Reached (.start source) ordering progress rest)
    (closed : source.Closed) (given : source.IsGiven) (lists : source.ListsOnce ordering)
    (visible : ¬ source.Occurs (.terminal "e"))
    (acyclic : ∀ name, ¬ source.DerivesProperly [.nonterminal name] [.nonterminal name])
    (productive : source.Productive) : progress.Traced source := by
  have tidy := start_tidy source closed
  apply reached.invariant fun progress _ => progress.Traced source
  · exact start_traced closed visible
  · intro state name later next earlier traced step
    obtain ⟨made, ordered⟩ := earlier.ordered (start_ordered source given closed lists)
    refine traced.step step ordered.tidy earlier.defines ?_ ?_ ?_ (acyclic name)
    · exact (lists.listed name).mp ordered.mem_ordering
    · intro other before
      rw [← lists.listed, ordered.processed]
      exact List.mem_append_left _ before
    · exact earlier.noFallback tidy productive

end Tracing

end Progress

namespace Grammar

section Freedom

variable {source : Grammar} {last : Progress} {ordering made : List String}

theorem not_nullable_of_beginsAmong {grammar : Grammar} (names : List String) (symbol : Symbol)
    (rest : Production) (begins : BeginsAmong names (symbol :: rest))
    (visible : .terminal "e" ∉ symbol :: rest)
    (stays : ∀ name ∈ names, ¬ grammar.Nullable [.nonterminal name]) :
    ¬ grammar.Nullable [symbol] := by
  cases symbol with
  | terminal text =>
      apply not_nullable_terminal
      rintro rfl
      exact visible List.mem_cons_self
  | nonterminal name => exact stays name begins

-- A given nonterminal begins with nothing that can be erased, so it leads past nothing.
theorem leadsPast_given (ordered : Progress.Ordered ordering last [] made)
    (traced : last.Traced source) (lists : source.ListsOnce ordering)
    (stays : ∀ name ∈ ordering, ¬ last.grammar.Nullable [.nonterminal name]) :
    EachBefore (fun name later => ∀ target, last.grammar.LeadsPast name target → target ∈ later)
      ordering := by
  apply (eachBefore_beginsAmong ordered).imp
  rintro name inOrdering later begins target ⟨before, after, member, erased⟩
  have inLater := begins _ member
  cases before with
  | nil => exact inLater
  | cons first rest =>
      have stems := traced.stems name ((lists.listed name).mp inOrdering) _ member
      obtain ⟨index, inside, rfl⟩ := List.mem_iff_getElem.mp inOrdering
      have inRest := beginsAmong_drop ordered index inside _ member
      have solid := not_nullable_of_beginsAmong ordering first _
        (inRest.mono fun _ => List.mem_of_mem_drop) stems.visible stays
      rw [← List.singleton_append, nullable_append_iff] at erased
      exact absurd erased.1 solid

-- The tail of an auxiliary lasts, so the auxiliary does not lead past it to itself.
theorem leadsPast_made (ordered : Progress.Ordered ordering last [] made)
    (traced : last.Traced source) (lists : source.ListsOnce ordering)
    (stays : ∀ name ∈ ordering, ¬ last.grammar.Nullable [.nonterminal name]) :
    EachBefore (fun name older => ∀ target, last.grammar.LeadsPast name target →
      target ∈ older ++ ordering) made := by
  apply ordered.layered.imp
  rintro name inMade older carries target ⟨before, after, member, erased⟩
  have unknown : source.defines name = false := by
    rw [Bool.eq_false_iff, ne_eq, ← lists.listed]
    exact ordered.disjoint name inMade
  rcases carries _ member with empty | ⟨tail, _, same, names⟩
  · have inEmpty : Symbol.nonterminal target ∈ epsilon := by
      rw [← empty]
      exact List.mem_append_right before List.mem_cons_self
    cases List.mem_singleton.mp inEmpty
  · rw [same] at member
    have lasts := traced.lasts name unknown tail member
    rcases append_eq_append_cons _ _ _ _ _ same.symm with ⟨rest, rfl⟩ | ⟨rest, rfl, _⟩
    · exact names target (List.mem_append_right before List.mem_cons_self)
    · have inTail := ((nullable_append_iff tail rest).mp erased).1
      refine absurd inTail (lasts.not_nullable fun other defined => ?_)
      exact stays other ((lists.listed other).mpr defined)

theorem acyclic_leadsPast (ordered : Progress.Ordered ordering last [] made)
    (traced : last.Traced source) (lists : source.ListsOnce ordering)
    (stays : ∀ name ∈ ordering, ¬ last.grammar.Nullable [.nonterminal name]) (name : String) :
    ¬ Relation.TransGen last.grammar.LeadsPast name name := by
  apply acyclic_of_eachBefore last.grammar.LeadsPast (made ++ ordering)
  · rintro other target ⟨before, after, member, _⟩
    exact (ordered.known other).mp (last.grammar.defines_of_mem other _ member)
  · rw [eachBefore_append_iff]
    exact ⟨leadsPast_made ordered traced lists stays, leadsPast_given ordered traced lists stays⟩

/-- Of a grammar that is read, without the empty string and without nonterminals
that derive themselves or nothing at all, a run leaves no left recursion, not
even behind symbols that can be erased. -/
theorem no_hidden_left_recursion (start : String) (location : Location)
    (lines : List (Nat × String)) (grammar result : Grammar)
    (read : (Reading.ofNumbered start location lines).grammar = grammar)
    (visible : ¬ grammar.Occurs (.terminal "e"))
    (acyclic : ∀ name, ¬ grammar.DerivesProperly [.nonterminal name] [.nonterminal name])
    (productive : grammar.Productive)
    (done : grammar.removeLeftRecursion.result = .ok result) (name : String)
    (before after : Production)
    (derived : result.DerivesProperly [.nonterminal name] (before ++ .nonterminal name :: after)) :
    ¬ result.Nullable before := by
  have given : grammar.IsGiven := by
    rw [← read]
    exact Reading.isGiven_ofNumbered start location lines
  have lists := grammar.ordering_listsOnce given
  obtain ⟨closed, last, reached, rfl⟩ := grammar.reached_of_ok result grammar.ordering done
  have tidy := Progress.start_tidy grammar closed
  obtain ⟨made, ordered⟩ := reached.ordered (Progress.start_ordered grammar given closed lists)
  have traced := reached.traced closed given lists visible acyclic productive
  have stays : ∀ name ∈ grammar.ordering, ¬ last.grammar.Nullable [.nonterminal name] := by
    intro name inOrdering
    have kept := reached.language_eq tidy (fun state other rest earlier =>
      earlier.noFallback tidy productive) name ((lists.listed name).mp inOrdering)
    have solid := not_nullable_of_visible given visible name
    rw [Nullable, ← language] at solid ⊢
    rw [kept]
    exact solid
  intro erased
  exact acyclic_leadsPast ordered traced lists stays name
    (DerivesProperly.traced name before after derived erased)

/-- A grammar in which the auxiliary of one nonterminal comes to lead the tail of
another. -/
def veiled : Grammar :=
  ((empty "A").insert "A"
    [[.nonterminal "B"], [.nonterminal "A", .terminal "x"], [.terminal "y"]]).insert "B"
      [[.nonterminal "A", .terminal "z"], [.terminal "w"]]

def unveiled : Grammar :=
  ((((empty "A").insert "A" [[.nonterminal "B", .nonterminal "Z"],
    [.terminal "y", .nonterminal "Z"]]).insert "B"
      [[.terminal "y", .nonterminal "Z", .terminal "z", .nonterminal "Y"],
        [.terminal "w", .nonterminal "Y"]]).insertGenerated "Z"
      [[.terminal "x", .nonterminal "Z"], epsilon]).insertGenerated "Y"
      [[.nonterminal "Z", .terminal "z", .nonterminal "Y"], epsilon]

theorem veiled_visible : ¬ veiled.Occurs (.terminal "e") := by
  rintro ⟨name, production, member, occurs⟩
  have none : ∀ name ∈ veiled.rules.keys, ∀ production ∈ veiled.alternatives name,
      .terminal "e" ∉ production := by decide
  exact none name (veiled.mem_keys_of_mem name production member) production member occurs

theorem veiled_acyclic (name : String) :
    ¬ veiled.DerivesProperly [.nonterminal name] [.nonterminal name] := by
  have nonempty : ∀ name, [] ∉ veiled.alternatives name := by
    intro name member
    have none : ∀ name ∈ veiled.rules.keys, [] ∉ veiled.alternatives name := by decide
    exact none name (veiled.mem_keys_of_mem name [] member) member
  have only : ∀ origin target, veiled.HasUnit origin target → origin = "A" ∧ target = "B" := by
    intro origin target unit
    have each : ∀ origin ∈ veiled.rules.keys, ∀ production ∈ veiled.alternatives origin,
        production.length = 1 → ∀ symbol ∈ production, symbol.isNonterminal = true →
          origin = "A" ∧ symbol = .nonterminal "B" := by decide
    simpa using each origin (veiled.mem_keys_of_mem origin _ unit) _ unit rfl
      (.nonterminal target) List.mem_cons_self rfl
  intro derived
  have cycle := DerivesProperly.units nonempty name name derived
  obtain ⟨middle, first, _⟩ := Relation.TransGen.head'_iff.mp cycle
  obtain ⟨before, _, last⟩ := Relation.TransGen.tail'_iff.mp cycle
  have start := (only _ _ first).1
  rw [(only _ _ last).2] at start
  exact absurd start (by decide)

theorem veiled_productive : veiled.Productive := by
  intro name defined
  have listed : name ∈ veiled.rules.keys := (NameMap.mem_keys_iff _ _).mpr defined
  have some : ∀ name ∈ veiled.rules.keys, [.terminal "y"] ∈ veiled.alternatives name ∨
      [.terminal "w"] ∈ veiled.alternatives name := by decide
  rcases some name listed with member | member
  · exact ⟨["y"], veiled.words_le_language name _ member (yields_terminals ["y"]).derives⟩
  · exact ⟨["w"], veiled.words_le_language name _ member (yields_terminals ["w"]).derives⟩

theorem no_hidden_left_recursion_veiled :
    (Reading.ofLines "A" ["A -> B Ax y", "B -> Az w"]).grammar = veiled ∧
      veiled.removeLeftRecursion.result = .ok unveiled ∧ unveiled.Nullable [.nonterminal "Z"] ∧
      unveiled.DerivesProperly [.nonterminal "Y"]
        [.nonterminal "Z", .terminal "z", .nonterminal "Y"] ∧
      ¬ unveiled.Nullable [.nonterminal "Z", .terminal "z"] := by
  have read : (Reading.ofLines "A" ["A -> B Ax y", "B -> Az w"]).grammar = veiled := by decide
  have done : veiled.removeLeftRecursion.result = .ok unveiled := by decide
  have erased : unveiled.Nullable [.nonterminal "Z"] := by
    apply nullable_of_mem "Z" epsilon (by decide)
    rw [Nullable, words_epsilon]
    exact Language.nil_mem_one
  have derived : unveiled.DerivesProperly [.nonterminal "Y"]
      [.nonterminal "Z", .terminal "z", .nonterminal "Y"] :=
    .single (unveiled.produces_of_mem "Y" _ (by decide))
  exact ⟨read, done, erased, derived,
    no_hidden_left_recursion "A" {} _ veiled unveiled read veiled_visible veiled_acyclic
      veiled_productive done "Y" [.nonterminal "Z", .terminal "z"] [] derived⟩

end Freedom

end Grammar

end LeftRecursion
