import LeftRecursion.Proofs.NewNames

/-!
Grammars with a history. Rules are added, replaced and marked as made up, the start symbol
changes, and recursion is removed, in any order. No change takes a rule or a mark away, and none
marks a name without a rule, so a made-up name has a rule and stays made up. That is what makes
the listing complete: a marked name that lacks a rule would be passed over when the rules are
written out, and all others are written out once, each with the rule that it has at that time.
-/

namespace LeftRecursion

namespace Grammar

inductive Change where
  | insert (name : String) (rewrite : Rewrite)
  | insertGenerated (name : String) (rewrite : Rewrite)
  | setStart (start : String)
  | substitute (name source : String)
  | removeInOrder (ordering : List String)
  | removeLeftRecursion

section Changes

/-- Substitutes `source` in the rule of `name`, if both have one. -/
def substituteIn (grammar : Grammar) (name source : String) : Grammar :=
  match grammar.productions name, grammar.productions source with
  | some target, some expansions => grammar.insert name (substitute source expansions target)
  | _, _ => grammar

/-- The grammar after a change. A removal that fails leaves it as it is. -/
def apply (grammar : Grammar) : Change → Grammar
  | .insert name rewrite => grammar.insert name rewrite
  | .insertGenerated name rewrite => grammar.insertGenerated name rewrite
  | .setStart start => { grammar with start }
  | .substitute name source => grammar.substituteIn name source
  | .removeInOrder ordering => (grammar.removeInOrder ordering).result.toOption.getD grammar
  | .removeLeftRecursion => grammar.removeLeftRecursion.result.toOption.getD grammar

def applyAll (grammar : Grammar) (changes : List Change) : Grammar :=
  changes.foldl apply grammar

/-- What a change keeps. -/
structure Extends (after before : Grammar) : Prop where
  marks : ∀ name, before.isGenerated name = true → after.isGenerated name = true
  rules : ∀ name, before.defines name = true → after.defines name = true
  marked : (∀ name, before.isGenerated name = true → before.defines name = true) →
    ∀ name, after.isGenerated name = true → after.defines name = true

variable (grammar : Grammar)

theorem Extends.refl : grammar.Extends grammar :=
  ⟨fun _ made => made, fun _ defined => defined, fun marked => marked⟩

theorem Extends.trans {first second third : Grammar} (later : third.Extends second)
    (earlier : second.Extends first) : third.Extends first where
  marks name made := later.marks name (earlier.marks name made)
  rules name defined := later.rules name (earlier.rules name defined)
  marked marked := later.marked (earlier.marked marked)

theorem insert_extends (name : String) (rewrite : Rewrite) :
    (grammar.insert name rewrite).Extends grammar := by
  have rules : ∀ other, grammar.defines other = true →
      (grammar.insert name rewrite).defines other = true := by
    intro other defined
    rw [defines_insert, defined, Bool.or_true]
  exact ⟨fun _ made => made, rules, fun marked other made => rules other (marked other made)⟩

theorem insertGenerated_extends (name : String) (rewrite : Rewrite) :
    (grammar.insertGenerated name rewrite).Extends grammar where
  marks other made := by rw [isGenerated_insertGenerated, made, Bool.or_true]
  rules other defined := by rw [defines_insertGenerated, defined, Bool.or_true]
  marked marked other made := by
    rw [isGenerated_insertGenerated, Bool.or_eq_true] at made
    rw [defines_insertGenerated, Bool.or_eq_true]
    exact made.imp_right (marked other)

theorem substituteIn_extends (name source : String) :
    (grammar.substituteIn name source).Extends grammar := by
  unfold substituteIn
  split
  · exact grammar.insert_extends name _
  · exact .refl grammar

theorem extends_of_ok (result : Grammar) (ordering : List String)
    (done : (grammar.removeInOrder ordering).result = .ok result) : result.Extends grammar := by
  obtain ⟨_, last, reached, rfl⟩ := grammar.reached_of_ok result ordering done
  obtain ⟨made, madeUp⟩ := reached.madeUp
  exact ⟨fun name old => (madeUp.generated name).mpr (Or.inr old), reached.defines,
    reached.defines_of_isGenerated⟩

theorem removed_extends (ordering : List String) :
    ((grammar.removeInOrder ordering).result.toOption.getD grammar).Extends grammar := by
  cases done : (grammar.removeInOrder ordering).result with
  | error failure => exact .refl grammar
  | ok result => exact grammar.extends_of_ok result ordering done

theorem apply_extends (change : Change) : (grammar.apply change).Extends grammar := by
  cases change with
  | insert name rewrite => exact grammar.insert_extends name rewrite
  | insertGenerated name rewrite => exact grammar.insertGenerated_extends name rewrite
  | setStart start => exact ⟨fun _ made => made, fun _ defined => defined, fun marked => marked⟩
  | substitute name source => exact grammar.substituteIn_extends name source
  | removeInOrder ordering => exact grammar.removed_extends ordering
  | removeLeftRecursion => exact grammar.removed_extends grammar.ordering

theorem applyAll_extends (changes : List Change) :
    (grammar.applyAll changes).Extends grammar := by
  induction changes generalizing grammar with
  | nil => exact .refl grammar
  | cons change rest ih => exact (ih (grammar.apply change)).trans (grammar.apply_extends change)

theorem marked_applyAll_empty (start : String) (changes : List Change) (name : String)
    (made : ((empty start).applyAll changes).isGenerated name = true) :
    ((empty start).applyAll changes).defines name = true :=
  ((empty start).applyAll_extends changes).marked (fun _ none => nomatch none) name made

end Changes

section Listing

variable (grammar : Grammar)

theorem givenNames_ascending : grammar.givenNames.Pairwise fun first second => first < second :=
  grammar.rules.keys_ascending.filter _

theorem ordering_eq :
    grammar.ordering =
      (if grammar.start ∈ grammar.givenNames then [grammar.start] else []) ++
        grammar.givenNames.filter fun name => name != grammar.start := by
  have nodup : grammar.givenNames.Nodup := grammar.rules.keys_nodup.filter _
  rw [ordering, List.filter_beq]
  split
  · next given => rw [List.count_eq_one_of_mem nodup given, List.replicate_one]
  · next absent => rw [List.count_eq_zero_of_not_mem absent, List.replicate_zero]

theorem filter_listing :
    (grammar.listing.filter fun name => !grammar.isGenerated name) = grammar.ordering := by
  have given : ∀ name ∈ grammar.ordering, (!grammar.isGenerated name) = true := by
    intro name listed
    rw [((mem_ordering_iff grammar name).mp listed).2]
    rfl
  have made : ∀ name ∈ grammar.generated.keys, ¬ (!grammar.isGenerated name) = true := by
    intro name listed
    rw [isGenerated, (NameMap.mem_keys_iff _ _).mp listed]
    exact Bool.false_ne_true
  rw [listing, List.filter_append, List.filter_eq_self.mpr given, List.filter_eq_nil_iff.mpr made,
    List.append_nil]

/-- Whatever changes a grammar has gone through, no rule and no mark is lost later, and every rule
is written out once: that of a given start symbol, those of the other given names, and those of
the made-up names. The given names are written out in the order of the ordering. -/
theorem entries_after_changes (start : String) (changes : List Change) :
    let grammar := (empty start).applyAll changes
    let names := grammar.entries.map Prod.fst
    (∀ name, grammar.isGenerated name = true → grammar.defines name = true ∧
      ∀ later, (grammar.applyAll later).isGenerated name = true) ∧
    (∀ name, grammar.defines name = true →
      ∀ later, (grammar.applyAll later).defines name = true) ∧
    (∀ name rewrite, (name, rewrite) ∈ grammar.entries ↔
      grammar.productions name = some rewrite) ∧
    names.Nodup ∧
    (∃ others made,
      names = (if grammar.start ∈ grammar.givenNames then [grammar.start] else []) ++ others ++
        made ∧
      (others.Pairwise fun first second => first < second) ∧
      (∀ name, name ∈ others ↔ name ≠ grammar.start ∧ grammar.defines name = true ∧
        grammar.isGenerated name = false) ∧
      (made.Pairwise fun first second => first < second) ∧
      ∀ name, name ∈ made ↔ grammar.isGenerated name = true) ∧
    grammar.ordering = names.filter fun name => !grammar.isGenerated name := by
  intro grammar names
  have marked : ∀ name, grammar.isGenerated name = true → grammar.defines name = true :=
    marked_applyAll_empty start changes
  have listed : names = grammar.listing := grammar.map_fst_entries marked
  refine ⟨fun name made => ⟨marked name made, fun later => ?_⟩, fun name defined later => ?_,
    grammar.mem_entries_iff, ?_,
    ⟨grammar.givenNames.filter fun name => name != grammar.start, grammar.generated.keys, ?_,
      grammar.givenNames_ascending.filter _, fun name => ?_, grammar.generated.keys_ascending,
      NameMap.mem_keys_iff _⟩, ?_⟩
  · exact (grammar.applyAll_extends later).marks name made
  · exact (grammar.applyAll_extends later).rules name defined
  · rw [listed]
    exact grammar.listing_nodup
  · rw [listed, listing, ordering_eq]
  · rw [List.mem_filter, mem_givenNames_iff, bne_iff_ne, and_comm]
  · rw [listed, filter_listing]

-- A name that was given is marked as made up, made-up names get other rules, and one of them
-- becomes the start symbol.
def chequered : List Change :=
  [.insert "Z" [[.terminal "b"]],
    .insert "S" [[.nonterminal "S", .terminal "a"], [.nonterminal "Z"]], .removeLeftRecursion,
    .insertGenerated "Z" [[.terminal "c"]],
    .insert "Y" [[.nonterminal "Y", .terminal "d"], [.terminal "f"]],
    .insert "A" [[.nonterminal "Z", .terminal "x"]], .substitute "A" "Z", .setStart "Y",
    .removeInOrder ["Y"]]

theorem entries_after_changes_chequered :
    let grammar := (empty "S").applyAll chequered
    grammar.entries.map Prod.fst = ["A", "S", "X", "Y", "Z"] ∧ grammar.start = "Y" ∧
      grammar.isGenerated "Z" = true ∧ grammar.defines "Z" = true ∧
      (grammar.applyAll [.insert "Z" [], .setStart "S"]).isGenerated "Z" = true ∧
      ("A", [[.terminal "c", .terminal "x"]]) ∈ grammar.entries ∧
      grammar.ordering = ["A", "S"] := by
  intro grammar
  have names : grammar.entries.map Prod.fst = ["A", "S", "X", "Y", "Z"] := by decide
  have made : grammar.isGenerated "Z" = true := by decide
  obtain ⟨marks, _, rules, _, _, ordering⟩ := entries_after_changes "S" chequered
  obtain ⟨defined, stays⟩ := marks "Z" made
  refine ⟨names, by decide, made, defined, stays _, (rules "A" _).mpr (by decide), ?_⟩
  rw [ordering, names]
  decide

end Listing

end Grammar

end LeftRecursion
