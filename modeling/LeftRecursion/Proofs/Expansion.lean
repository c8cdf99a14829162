import LeftRecursion.Proofs.Leading
import LeftRecursion.Proofs.NewNames

/-!
Leftmost expansion. An alternative that begins with one of some names is replaced by
what the alternatives of that name, each with the rest after it, expand to in turn, until
no alternative begins with any of the names. This recursion goes depth first and may
come back to any of the names, while unfolding takes the names one after another.

The two agree where the names lead forward: no alternative of a name begins with that
name or with one before it. Then what is put in front is left to the names that are still
to come, so the recursion ends, and unfolding never brings back a name that it is done
with. The names that a run has processed lead forward.
-/

namespace LeftRecursion

/-- What an alternative expands to, or nothing if that takes more than so many
replacements, each within the one before. -/
def expandWithin (grammar : Grammar) (names : List String) : Nat → Production → Option Rewrite
  | depth, .nonterminal name :: rest =>
      if name ∈ names then
        match depth with
        | 0 => none
        | depth + 1 => do
            let expansions ← (grammar.alternatives name).mapM fun alternative =>
              expandWithin grammar names depth (alternative ++ rest)
            return expansions.flatten
      else some [.nonterminal name :: rest]
  | _, production => some [production]

def BeginsOutside (names : List String) (production : Production) : Prop :=
  ∀ name ∈ names, beginsWith name production = false

/-- Whether no alternative of a name begins with that name or with one before it. -/
def LeadForward (grammar : Grammar) (names : List String) : Prop :=
  ∀ front source, front ++ [source] <+: names →
    ∀ production ∈ grammar.alternatives source, BeginsOutside (front ++ [source]) production

section Beginnings

theorem beginsWith_append (name : String) (front back : Production) (nonempty : front ≠ []) :
    beginsWith name (front ++ back) = beginsWith name front := by
  match front, nonempty with
  | .terminal _ :: _, _ => rfl
  | .nonterminal other :: _, _ =>
      simp only [List.cons_append, beginsWith, stripLeading]
      split <;> rfl

theorem BeginsOutside.append {names : List String} {front : Production}
    (outside : BeginsOutside names front) (nonempty : front ≠ []) (back : Production) :
    BeginsOutside names (front ++ back) := by
  intro name member
  rw [beginsWith_append name front back nonempty]
  exact outside name member

theorem beginsOutside_concat_iff (names : List String) (name : String) (production : Production) :
    BeginsOutside (names ++ [name]) production ↔
      BeginsOutside names production ∧ beginsWith name production = false := by
  simp only [BeginsOutside, List.mem_append, List.mem_singleton, or_imp, forall_and, forall_eq]

theorem beginsOutside_substitute (grammar : Grammar) (front : List String) (source : String)
    (full : [] ∉ grammar.alternatives source)
    (forward : ∀ production ∈ grammar.alternatives source,
      BeginsOutside (front ++ [source]) production)
    (target : Rewrite) (outside : ∀ production ∈ target, BeginsOutside front production) :
    ∀ production ∈ substitute source (grammar.alternatives source) target,
      BeginsOutside (front ++ [source]) production := by
  intro production member
  rcases (mem_substitute_iff _ _ _ _).mp member with
    ⟨old, other⟩ | ⟨expansion, fromSource, rest, _, rfl⟩
  · exact (beginsOutside_concat_iff _ _ _).mpr ⟨outside production old, other⟩
  · have nonempty : expansion ≠ [] := fun empty => full (empty ▸ fromSource)
    exact (forward expansion fromSource).append nonempty rest

end Beginnings

section Unfolding

variable (grammar : Grammar)

theorem unfold_append (sources : List String) (first second : Rewrite) :
    (unfold grammar sources (first ++ second)).rewrite =
      (unfold grammar sources first).rewrite ++ (unfold grammar sources second).rewrite := by
  simp only [unfold_rewrite]
  induction sources generalizing first second with
  | nil => rfl
  | cons source later ih =>
      have apart : substitute source (grammar.alternatives source) (first ++ second) =
          substitute source (grammar.alternatives source) first ++
            substitute source (grammar.alternatives source) second := List.flatMap_append
      simp only [List.foldl_cons, apart]
      exact ih _ _

theorem unfold_eq_flatMap (sources : List String) (rewrite : Rewrite) :
    (unfold grammar sources rewrite).rewrite =
      rewrite.flatMap fun production => (unfold grammar sources [production]).rewrite := by
  induction rewrite with
  | nil =>
      rw [unfold_rewrite]
      exact List.foldl_fixed' (fun _ => rfl) sources
  | cons production rest ih =>
      rw [List.flatMap_cons, ← ih, ← unfold_append]
      rfl

theorem unfold_cons (source : String) (later : List String) (rewrite : Rewrite) :
    (unfold grammar (source :: later) rewrite).rewrite =
      (unfold grammar later
        (substitute source (grammar.alternatives source) rewrite)).rewrite := by
  simp only [unfold_rewrite, List.foldl_cons]

theorem beginsOutside_unfold (nonempty : ∀ name, [] ∉ grammar.alternatives name)
    (front back : List String) (forward : LeadForward grammar (front ++ back))
    (rewrite : Rewrite) (outside : ∀ production ∈ rewrite, BeginsOutside front production) :
    ∀ production ∈ (unfold grammar back rewrite).rewrite,
      BeginsOutside (front ++ back) production := by
  induction back generalizing front rewrite with
  | nil =>
      rw [List.append_nil]
      exact outside
  | cons source later ih =>
      rw [unfold_cons, List.append_cons] at *
      apply ih (front ++ [source]) forward
      exact beginsOutside_substitute grammar front source (nonempty source)
        (forward front source (List.prefix_append _ _)) rewrite outside

end Unfolding

section Expanding

theorem mapM_eq_some {α β : Type} (values : List α) (partly : α → Option β) (wholly : α → β)
    (same : ∀ value ∈ values, partly value = some (wholly value)) :
    values.mapM partly = some (values.map wholly) := by
  induction values with
  | nil => rfl
  | cons value rest ih =>
      rw [List.mapM_cons, same value List.mem_cons_self,
        ih fun other member => same other (List.mem_cons_of_mem value member)]
      rfl

variable (grammar : Grammar)

theorem expandWithin_of_beginsOutside (names : List String) (depth : Nat)
    (production : Production) (outside : BeginsOutside names production) :
    expandWithin grammar names depth production = some [production] := by
  match production with
  | [] => simp [expandWithin]
  | .terminal _ :: _ => simp [expandWithin]
  | .nonterminal name :: rest =>
      have unlisted : name ∉ names := by
        intro listed
        have begins := (beginsWith_iff name (.nonterminal name :: rest)).mpr ⟨rest, rfl⟩
        rw [outside name listed] at begins
        cases begins
      rw [expandWithin.eq_def]
      simp [unlisted]

theorem expandWithin_of_mem (names : List String) (depth : Nat) (name : String)
    (listed : name ∈ names) (rest : Production) :
    expandWithin grammar names (depth + 1) (.nonterminal name :: rest) =
      ((substitute name (grammar.alternatives name) [.nonterminal name :: rest]).mapM
        (expandWithin grammar names depth)).map List.flatten := by
  have replaced : substitute name (grammar.alternatives name) [.nonterminal name :: rest] =
      (grammar.alternatives name).map fun alternative => alternative ++ rest := by
    simp [substitute]
  rw [replaced, List.mapM_map, expandWithin.eq_def]
  simp [listed, Function.comp_def, Option.map_eq_bind]

-- The induction is on the names that are still to be substituted. Whatever the first of
-- them is replaced by begins with none of those before them and not with it either, so one
-- replacement is left for each of the others.
theorem expandWithin_eq_unfold (nonempty : ∀ name, [] ∉ grammar.alternatives name)
    (front back : List String) (forward : LeadForward grammar (front ++ back)) (depth : Nat)
    (deep : back.length ≤ depth) (production : Production)
    (outside : BeginsOutside front production) :
    expandWithin grammar (front ++ back) depth production =
      some (unfold grammar back [production]).rewrite := by
  induction back generalizing front depth production with
  | nil =>
      rw [List.append_nil]
      exact expandWithin_of_beginsOutside grammar front depth production outside
  | cons source later ih =>
      have listed : source ∈ front ++ source :: later := by simp
      rw [List.append_cons] at forward listed ⊢
      rw [unfold_cons]
      cases begins : beginsWith source production with
      | false =>
          have further : BeginsOutside (front ++ [source]) production :=
            (beginsOutside_concat_iff _ _ _).mpr ⟨outside, begins⟩
          rw [substitute_of_not_beginsWith _ _ _ (List.forall_mem_singleton.mpr begins)]
          exact ih (front ++ [source]) forward depth (Nat.le_of_succ_le deep) production further
      | true =>
          obtain ⟨rest, rfl⟩ := (beginsWith_iff source production).mp begins
          obtain ⟨depth, rfl⟩ : ∃ less, depth = less + 1 := Nat.exists_eq_add_one.mpr
            (Nat.lt_of_lt_of_le (Nat.succ_pos later.length) deep)
          have after : ∀ replacement ∈
              substitute source (grammar.alternatives source) [.nonterminal source :: rest],
              expandWithin grammar (front ++ [source] ++ later) depth replacement =
                some (unfold grammar later [replacement]).rewrite := by
            intro replacement member
            apply ih (front ++ [source]) forward depth (Nat.le_of_succ_le_succ deep)
            exact beginsOutside_substitute grammar front source (nonempty source)
              (forward front source (List.prefix_append _ _)) _
              (List.forall_mem_singleton.mpr outside) replacement member
          rw [expandWithin_of_mem grammar _ depth source listed, mapM_eq_some _ _ _ after,
            unfold_eq_flatMap]
          rfl

end Expanding

namespace Progress

section Forward

variable {progress next : Progress} {name : String}

theorem beginsOutside_others (nonempty : ∀ other, [] ∉ progress.grammar.alternatives other)
    (forward : LeadForward progress.grammar progress.processed) :
    ∀ production ∈ (progress.split name).others,
      BeginsOutside (progress.processed ++ [name]) production := by
  intro production member
  obtain ⟨inUnfolded, other⟩ := (Split.mem_others_iff _ _ _).mp member
  have outside := beginsOutside_unfold progress.grammar nonempty [] progress.processed forward
    (progress.grammar.alternatives name) (fun _ _ _ absent => absurd absent List.not_mem_nil)
    production inUnfolded
  exact (beginsOutside_concat_iff _ _ _).mpr ⟨outside, other⟩

theorem Step.beginsOutside (step : Step progress name next) (tidy : progress.Tidy)
    (nonempty : ∀ other, [] ∉ progress.grammar.alternatives other)
    (forward : LeadForward progress.grammar progress.processed) :
    ∀ production ∈ next.grammar.alternatives name,
      BeginsOutside (progress.processed ++ [name]) production := by
  intro production member
  cases step with
  | kept =>
      rw [alternatives_kept, if_pos rfl] at member
      exact beginsOutside_others nonempty forward production member
  | moved auxiliary defined _ unused =>
      rw [alternatives_moved, if_neg (tidy.fresh_ne auxiliary unused name defined),
        if_pos rfl] at member
      obtain ⟨base, inBases, rfl⟩ := (Split.mem_baseRewrite_iff _ _ _).mp member
      rcases Split.mem_others_or_eq_epsilon _ _ inBases with inOthers | rfl
      · have inUnfolded := ((Split.mem_others_iff _ _ _).mp inOthers).1
        have full : base ≠ [] := fun empty =>
          nil_not_mem_unfold progress.grammar nonempty progress.processed _ (nonempty name)
            (empty ▸ inUnfolded)
        exact (beginsOutside_others nonempty forward base inOthers).append full _
      · exact fun _ _ => rfl

theorem Step.leadForward (step : Step progress name next) (tidy : progress.Tidy)
    (nonempty : ∀ other, [] ∉ progress.grammar.alternatives other)
    (known : ∀ other ∈ progress.processed, progress.grammar.defines other = true)
    (new : name ∉ progress.processed)
    (forward : LeadForward progress.grammar progress.processed) :
    LeadForward next.grammar next.processed := by
  rw [step.processed]
  intro front source isPrefix
  rcases List.prefix_concat_iff.mp isPrefix with whole | within
  · obtain ⟨rfl, last⟩ := List.append_inj' whole rfl
    obtain rfl := List.head_eq_of_cons_eq last
    exact step.beginsOutside tidy nonempty forward
  · have processed : source ∈ progress.processed := within.subset (by simp)
    have different : source ≠ name := fun same => new (same ▸ processed)
    rw [step.alternatives_ne tidy source different (known source processed)]
    exact forward front source within

theorem Reached.leadForward {grammar : Grammar} {ordering remaining : List String}
    (reached : Reached (.start grammar) ordering progress remaining)
    (tidy : (Progress.start grammar).Tidy)
    (nonempty : ∀ other, [] ∉ grammar.alternatives other) (nodup : ordering.Nodup)
    (defined : ∀ other ∈ ordering, grammar.defines other = true) :
    LeadForward progress.grammar progress.processed := by
  apply reached.invariant fun progress _ => LeadForward progress.grammar progress.processed
  · intro front source isPrefix
    exact absurd (List.prefix_nil.mp isPrefix) (by simp)
  · intro progress name rest next earlier forward step
    have position : progress.processed ++ name :: rest = ordering := earlier.processed_append
    apply step.leadForward (earlier.tidy tidy) (earlier.nonempty nonempty) _ _ forward
    · intro other processed
      exact earlier.defines other (defined other (position ▸ List.mem_append_left _ processed))
    · rw [← position] at nodup
      exact fun processed => (List.nodup_append.mp nodup).2.2 name processed name
        List.mem_cons_self rfl

end Forward

end Progress

namespace Grammar

section Expansion

/-- What a run substitutes into a rule, one processed name after another, is the leftmost
expansion of its alternatives over all of these names. The recursion always ends, with no
more replacements within each other than there are such names, and no alternative is left
that begins with one of them. -/
theorem unfolded_eq_expansion (grammar : Grammar) (front rest : List String) (name : String)
    (progress : Progress) (nonempty : ∀ other, [] ∉ grammar.alternatives other)
    (nodup : (front ++ name :: rest).Nodup)
    (defined : ∀ other ∈ front ++ name :: rest, grammar.defines other = true)
    (verified : grammar.verify.result = .ok ())
    (ran : ((Progress.start grammar).run front).result = .ok progress) :
    (∀ production, ∃ expansion, ∀ depth, front.length ≤ depth →
        expandWithin progress.grammar front depth production = some expansion) ∧
      (∃ expansions, (∀ depth, front.length ≤ depth →
          (grammar.alternatives name).mapM (expandWithin progress.grammar front depth) =
            some expansions) ∧
        progress.unfolded name = expansions.flatten) ∧
      progress.unfolded name = front.foldl
        (fun target source => substitute source (progress.grammar.alternatives source) target)
        (grammar.alternatives name) ∧
      ∀ production ∈ progress.unfolded name, ∀ source ∈ front,
        beginsWith source production = false := by
  have tidy := Progress.start_tidy grammar (grammar.verify_ok_iff.mp verified)
  have reached : Progress.Reached (.start grammar) front progress [] :=
    Progress.reached_iff.mpr ⟨front, (List.append_nil front).symm, ran⟩
  have processed : progress.processed = front := by
    simpa [Progress.start] using reached.processed_append
  have full := reached.nonempty nonempty
  obtain ⟨unique, _, apart⟩ := List.nodup_append.mp nodup
  have forward : LeadForward progress.grammar front := by
    rw [← processed]
    exact reached.leadForward tidy nonempty unique fun other member =>
      defined other (List.mem_append_left _ member)
  have same : progress.grammar.alternatives name = grammar.alternatives name :=
    reached.alternatives_of_not_mem tidy name (defined name (by simp)) fun member =>
      apart name member name List.mem_cons_self rfl
  have unfolded : progress.unfolded name =
      (unfold progress.grammar front (grammar.alternatives name)).rewrite := by
    rw [Progress.unfolded, processed, same]
  have each : ∀ depth, front.length ≤ depth → ∀ production,
      expandWithin progress.grammar front depth production =
        some (unfold progress.grammar front [production]).rewrite :=
    fun depth deep production => expandWithin_eq_unfold progress.grammar full [] front forward
      depth deep production fun _ absent => absurd absent List.not_mem_nil
  refine ⟨fun production => ⟨_, fun depth deep => each depth deep production⟩,
    ⟨_, fun depth deep => mapM_eq_some _ _ _ fun production _ => each depth deep production, ?_⟩,
    ?_, ?_⟩
  · rw [unfolded, unfold_eq_flatMap]
    rfl
  · rw [unfolded, unfold_rewrite]
  · rw [unfolded]
    exact beginsOutside_unfold progress.grammar full [] front forward _
      fun _ _ _ absent => absurd absent List.not_mem_nil

def cascade : Grammar :=
  (((empty "S").insert "S" [[.nonterminal "A", .terminal "a"], [.terminal "b"]]).insert "A"
    [[.nonterminal "S", .terminal "c"], [.terminal "d"]]).insert "B"
      [[.nonterminal "S", .terminal "x"], [.nonterminal "A", .terminal "y"], [.terminal "z"]]

def descended : Progress where
  grammar := (cascade.insert "A" [[.terminal "b", .terminal "c", .nonterminal "Z"],
    [.terminal "d", .nonterminal "Z"]]).insertGenerated "Z"
      [[.terminal "a", .terminal "c", .nonterminal "Z"], epsilon]
  supply := ⟨["Z", "A", "B", "S"]⟩
  processed := ["S", "A"]

theorem unfolded_eq_expansion_cascade :
    (∀ other, [] ∉ cascade.alternatives other) ∧ ["S", "A", "B"].Nodup ∧
      (∀ other ∈ ["S", "A", "B"], cascade.defines other = true) ∧
      cascade.verify.result = .ok () ∧
      ((Progress.start cascade).run ["S", "A"]).result = .ok descended ∧
      ∃ expansions, (cascade.alternatives "B").mapM
            (expandWithin descended.grammar ["S", "A"] 2) = some expansions ∧
        expansions.flatten =
          [[.terminal "b", .terminal "c", .nonterminal "Z", .terminal "a", .terminal "x"],
            [.terminal "d", .nonterminal "Z", .terminal "a", .terminal "x"],
            [.terminal "b", .terminal "x"],
            [.terminal "b", .terminal "c", .nonterminal "Z", .terminal "y"],
            [.terminal "d", .nonterminal "Z", .terminal "y"], [.terminal "z"]] := by
  have full : ∀ other, ∀ production ∈ cascade.alternatives other, production ≠ [] :=
    cascade.forall_of_keys _ (by decide)
  have nonempty : ∀ other, [] ∉ cascade.alternatives other :=
    fun other member => full other [] member rfl
  have nodup : ["S", "A", "B"].Nodup := by decide
  have defined : ∀ other ∈ ["S", "A", "B"], cascade.defines other = true := by decide
  have verified : cascade.verify.result = .ok () := by decide
  have ran : ((Progress.start cascade).run ["S", "A"]).result = .ok descended := by decide
  obtain ⟨_, ⟨expansions, expanded, same⟩, _⟩ := unfolded_eq_expansion cascade ["S", "A"] [] "B"
    descended nonempty nodup defined verified ran
  exact ⟨nonempty, nodup, defined, verified, ran, expansions, expanded 2 (Nat.le_refl 2),
    same ▸ by decide⟩

end Expansion

end Grammar

end LeftRecursion
