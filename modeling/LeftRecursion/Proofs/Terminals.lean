import LeftRecursion.Proofs.Rules

/-!
Terminals do not count. What a run does hangs on how alternatives begin with nonterminals, on
names, and on where alternatives end, and the only terminal that it writes itself is the empty
string. So if each terminal is replaced by another, also where several become one, but the
empty string stays, every function of the run does the same as before: it goes the same way,
notes the same, and comes to what it came to with the terminals replaced.
-/

namespace LeftRecursion

namespace NameMap

variable {α β : Type} (change : α → β) (map : NameMap α)

def mapValues : NameMap β :=
  ⟨map.entries.map fun entry => (entry.1, change entry.2), List.pairwise_map.mpr map.ascending⟩

@[simp] theorem keys_mapValues : (map.mapValues change).keys = map.keys := by
  simp [keys, mapValues]

@[simp] theorem get?_mapValues (name : String) :
    (map.mapValues change).get? name = (map.get? name).map change := by
  have each : ∀ entries : List (String × α),
      find name (entries.map fun entry => (entry.1, change entry.2)) =
        (find name entries).map change := by
    intro entries
    induction entries with
    | nil => rfl
    | cons head rest ih =>
        simp only [List.map_cons, find, ih]
        split <;> rfl
  exact each map.entries

@[simp] theorem contains_mapValues (name : String) :
    (map.mapValues change).contains name = map.contains name := by
  simp [contains]

@[simp] theorem mapValues_insert (name : String) (value : α) :
    (map.insert name value).mapValues change =
      (map.mapValues change).insert name (change value) := by
  apply ext_get?
  intro other
  simp only [get?_mapValues, get?_insert]
  split <;> rfl

end NameMap

namespace Logged

variable {ε α β γ : Type}

def map (change : α → β) (work : Logged ε α) : Logged ε β :=
  ⟨work.events, work.result.map change⟩

@[simp] theorem map_noting (change : α → β) (events : List Event) (work : Logged ε α) :
    (work.noting events).map change = (work.map change).noting events := rfl

@[simp] theorem map_andThen (change : β → γ) (first : Logged ε α) (rest : α → Logged ε β) :
    (first.andThen rest).map change = first.andThen fun value => (rest value).map change := by
  obtain ⟨events, result⟩ := first
  cases result <;> rfl

@[simp] theorem andThen_map (change : α → β) (first : Logged ε α) (rest : β → Logged ε γ) :
    (first.map change).andThen rest = first.andThen fun value => rest (change value) := by
  obtain ⟨events, result⟩ := first
  cases result <;> rfl

end Logged

section Alternatives

variable (change : String → String)

def Symbol.mapTerminal : Symbol → Symbol
  | .terminal text => .terminal (change text)
  | .nonterminal name => .nonterminal name

def mapProduction (production : Production) : Production :=
  production.map (Symbol.mapTerminal change)

def mapRewrite (rewrite : Rewrite) : Rewrite :=
  rewrite.map (mapProduction change)

@[simp] theorem mapProduction_append (front back : Production) :
    mapProduction change (front ++ back) =
      mapProduction change front ++ mapProduction change back :=
  List.map_append

@[simp] theorem mapProduction_epsilon (keepsEmpty : change "e" = "e") :
    mapProduction change epsilon = epsilon := by
  simp [mapProduction, epsilon, Symbol.mapTerminal, keepsEmpty]

@[simp] theorem isEmpty_mapProduction (production : Production) :
    (mapProduction change production).isEmpty = production.isEmpty := by
  simp [mapProduction]

@[simp] theorem namesIn_mapProduction (production : Production) :
    Grammar.namesIn (mapProduction change production) = Grammar.namesIn production := by
  have each : ∀ symbol : Symbol, (symbol.mapTerminal change).name? = symbol.name? := by
    intro symbol
    cases symbol <;> rfl
  simp [Grammar.namesIn, mapProduction, List.filterMap_map, each]

@[simp] theorem stripLeading_mapProduction (name : String) (production : Production) :
    stripLeading name (mapProduction change production) =
      (stripLeading name production).map (mapProduction change) := by
  cases production with
  | nil => rfl
  | cons symbol rest =>
      cases symbol with
      | terminal text => rfl
      | nonterminal first =>
          by_cases same : first = name <;>
            simp [mapProduction, Symbol.mapTerminal, stripLeading, same]

@[simp] theorem beginsWith_mapProduction (name : String) (production : Production) :
    beginsWith name (mapProduction change production) = beginsWith name production := by
  simp [beginsWith]

@[simp] theorem isLeftRecursive_mapRewrite (name : String) (rewrite : Rewrite) :
    isLeftRecursive name (mapRewrite change rewrite) = isLeftRecursive name rewrite := by
  simp [isLeftRecursive, mapRewrite, List.any_map, Function.comp_def]

end Alternatives

section Unfolding

variable (change : String → String)

theorem expandLeading_mapProduction (source : String) (expansions : Rewrite)
    (production : Production) :
    expandLeading source (mapRewrite change expansions) (mapProduction change production) =
      mapRewrite change (expandLeading source expansions production) := by
  unfold expandLeading
  rw [stripLeading_mapProduction]
  cases stripLeading source production with
  | none => rfl
  | some rest => simp [mapRewrite, Function.comp_def]

theorem substitute_mapRewrite (source : String) (expansions target : Rewrite) :
    substitute source (mapRewrite change expansions) (mapRewrite change target) =
      mapRewrite change (substitute source expansions target) := by
  induction target with
  | nil => rfl
  | cons production rest ih =>
      have here := expandLeading_mapProduction change source expansions production
      simp only [substitute, mapRewrite, List.map_cons, List.flatMap_cons, List.map_append]
        at ih here ⊢
      rw [ih, here]

def Grammar.mapTerminals (grammar : Grammar) : Grammar :=
  { grammar with rules := grammar.rules.mapValues (mapRewrite change) }

@[simp] theorem Grammar.productions_mapTerminals (grammar : Grammar) (name : String) :
    (grammar.mapTerminals change).productions name =
      (grammar.productions name).map (mapRewrite change) :=
  NameMap.get?_mapValues _ _ _

@[simp] theorem Grammar.alternatives_mapTerminals (grammar : Grammar) (name : String) :
    (grammar.mapTerminals change).alternatives name =
      mapRewrite change (grammar.alternatives name) := by
  rw [alternatives, alternatives, productions_mapTerminals]
  cases grammar.productions name <;> rfl

theorem unfold_mapRewrite (grammar : Grammar) (sources : List String) (rewrite : Rewrite) :
    unfold (grammar.mapTerminals change) sources (mapRewrite change rewrite) =
      ⟨(unfold grammar sources rewrite).sources,
        mapRewrite change (unfold grammar sources rewrite).rewrite⟩ := by
  induction sources generalizing rewrite with
  | nil => rfl
  | cons source later ih =>
      simp only [unfold, isLeftRecursive_mapRewrite, Grammar.alternatives_mapTerminals,
        substitute_mapRewrite, ih]
      split <;> rfl

end Unfolding

section Elimination

variable (change : String → String)

def Split.mapTerminals (split : Split) : Split :=
  ⟨mapRewrite change split.tails, split.cycles, mapRewrite change split.others⟩

def Elimination.mapTerminals (elimination : Elimination) : Elimination :=
  ⟨mapRewrite change elimination.rewrite,
    elimination.auxiliary.map fun (name, rewrite) => (name, mapRewrite change rewrite)⟩

@[simp] theorem ofRewrite_mapRewrite (name : String) (rewrite : Rewrite) :
    Split.ofRewrite name (mapRewrite change rewrite) =
      (Split.ofRewrite name rewrite).mapTerminals change := by
  have stripped : (mapRewrite change rewrite).filterMap (stripLeading name) =
      mapRewrite change (rewrite.filterMap (stripLeading name)) := by
    simp [mapRewrite, List.filterMap_map, List.map_filterMap]
  rw [Split.ofRewrite, Split.ofRewrite, stripped]
  simp [Split.mapTerminals, mapRewrite, List.filter_map, Function.comp_def]

@[simp] theorem isEmpty_mapRewrite (rewrite : Rewrite) :
    (mapRewrite change rewrite).isEmpty = rewrite.isEmpty := by
  simp [mapRewrite]

@[simp] theorem warnings_mapTerminals (split : Split) (name : String) :
    (split.mapTerminals change).warnings name = split.warnings name := by
  have assumes : (split.mapTerminals change).assumesEmptyString = split.assumesEmptyString := by
    simp [Split.assumesEmptyString, Split.mapTerminals]
  rw [Split.warnings, Split.warnings, assumes]
  rfl

theorem map_append_mapRewrite (auxiliary : String) (rewrite : Rewrite) :
    (mapRewrite change rewrite).map (fun production => production ++ [.nonterminal auxiliary]) =
      mapRewrite change
        (rewrite.map fun production => production ++ [.nonterminal auxiliary]) := by
  simp [mapRewrite, mapProduction, Symbol.mapTerminal, Function.comp_def]

variable (keepsEmpty : change "e" = "e")
include keepsEmpty

@[simp] theorem baseRewrite_mapTerminals (split : Split) (auxiliary : String) :
    (split.mapTerminals change).baseRewrite auxiliary =
      mapRewrite change (split.baseRewrite auxiliary) := by
  have bases : (split.mapTerminals change).bases = mapRewrite change split.bases := by
    simp only [Split.bases, Split.mapTerminals, isEmpty_mapRewrite]
    split
    · simp [mapRewrite, keepsEmpty]
    · rfl
  rw [Split.baseRewrite, Split.baseRewrite, bases, map_append_mapRewrite]

@[simp] theorem auxiliaryRewrite_mapTerminals (split : Split) (auxiliary : String) :
    (split.mapTerminals change).auxiliaryRewrite auxiliary =
      mapRewrite change (split.auxiliaryRewrite auxiliary) := by
  have empty : mapRewrite change [epsilon] = [epsilon] := by
    simp [mapRewrite, keepsEmpty]
  have tails := map_append_mapRewrite change auxiliary split.tails
  calc (split.mapTerminals change).auxiliaryRewrite auxiliary
    _ = mapRewrite change (split.tails.map fun tail => tail ++ [.nonterminal auxiliary]) ++
          mapRewrite change [epsilon] := by rw [← tails, empty]; rfl
    _ = mapRewrite change (split.auxiliaryRewrite auxiliary) := List.map_append.symm

@[simp] theorem split_eliminate_mapTerminals (split : Split) (supply : NameSupply) :
    (split.mapTerminals change).eliminate supply =
      (split.eliminate supply).map fun (elimination, left) =>
        (elimination.mapTerminals change, left) := by
  have tails : (split.mapTerminals change).tails.isEmpty = split.tails.isEmpty :=
    isEmpty_mapRewrite change split.tails
  rw [Split.eliminate, Split.eliminate, tails]
  split
  · rfl
  · cases supply.allocate with
    | none => rfl
    | some found =>
        simp [Except.map, Elimination.mapTerminals, keepsEmpty]

theorem eliminate_mapRewrite (supply : NameSupply) (name : String) (rewrite : Rewrite) :
    eliminate supply name (mapRewrite change rewrite) =
      (eliminate supply name rewrite).map fun (elimination, left) =>
        (elimination.map (Elimination.mapTerminals change), left) := by
  unfold eliminate
  rw [isLeftRecursive_mapRewrite]
  split
  · simp only [ofRewrite_mapRewrite, warnings_mapTerminals,
      split_eliminate_mapTerminals change keepsEmpty]
    cases (Split.ofRewrite name rewrite).eliminate supply <;> rfl
  · rfl

end Elimination

namespace Progress

section Runs

variable (change : String → String)

def mapTerminals (progress : Progress) : Progress :=
  { progress with grammar := progress.grammar.mapTerminals change }

@[simp] theorem insert_mapTerminals (grammar : Grammar) (name : String) (rewrite : Rewrite) :
    (grammar.insert name rewrite).mapTerminals change =
      (grammar.mapTerminals change).insert name (mapRewrite change rewrite) := by
  simp [Grammar.mapTerminals, Grammar.insert]

@[simp] theorem insertGenerated_mapTerminals (grammar : Grammar) (name : String)
    (rewrite : Rewrite) :
    (grammar.insertGenerated name rewrite).mapTerminals change =
      (grammar.mapTerminals change).insertGenerated name (mapRewrite change rewrite) := by
  simp [Grammar.mapTerminals, Grammar.insertGenerated]

theorem store_mapTerminals (grammar : Grammar) (name : String) (unfolded : Rewrite)
    (elimination : Option Elimination) :
    store (grammar.mapTerminals change) name (mapRewrite change unfolded)
        (elimination.map (Elimination.mapTerminals change)) =
      (store grammar name unfolded elimination).mapTerminals change := by
  cases elimination with
  | none => exact (insert_mapTerminals _ _ _ _).symm
  | some elimination =>
      obtain ⟨rewrite, auxiliary⟩ := elimination
      cases auxiliary with
      | none => exact (insert_mapTerminals _ _ _ _).symm
      | some auxiliary =>
          simp [store, Elimination.mapTerminals]

theorem notes_mapTerminals (name : String) (elimination : Option Elimination) :
    notes name (elimination.map (Elimination.mapTerminals change)) = notes name elimination := by
  cases elimination with
  | none => rfl
  | some elimination =>
      obtain ⟨rewrite, auxiliary⟩ := elimination
      cases auxiliary <;> rfl

variable (keepsEmpty : change "e" = "e")
include keepsEmpty

theorem step_mapTerminals (progress : Progress) (name : String) :
    (progress.mapTerminals change).step name =
      (progress.step name).map (mapTerminals change) := by
  unfold step
  have found : (progress.mapTerminals change).grammar.productions name =
      (progress.grammar.productions name).map (mapRewrite change) :=
    Grammar.productions_mapTerminals change progress.grammar name
  rw [found]
  cases progress.grammar.productions name with
  | none => rfl
  | some rewrite =>
      simp only [Option.map_some, mapTerminals, unfold_mapRewrite,
        eliminate_mapRewrite change keepsEmpty, Logged.andThen_map, store_mapTerminals,
        notes_mapTerminals, Logged.map_noting, Logged.map_andThen]
      rfl

theorem run_mapTerminals (progress : Progress) (ordering : List String) :
    (progress.mapTerminals change).run ordering =
      (progress.run ordering).map (mapTerminals change) := by
  induction ordering generalizing progress with
  | nil => rfl
  | cons name rest ih =>
      simp only [run, step_mapTerminals change keepsEmpty, Logged.andThen_map, ih,
        Logged.map_andThen]

end Runs

end Progress

namespace Grammar

section Runs

variable (change : String → String) (grammar : Grammar)

@[simp] theorem ordering_mapTerminals :
    (grammar.mapTerminals change).ordering = grammar.ordering := by
  simp only [ordering, givenNames, mapTerminals, NameMap.keys_mapValues, isGenerated]

@[simp] theorem entries_mapTerminals :
    (grammar.mapTerminals change).entries =
      grammar.entries.map fun (name, rewrite) => (name, mapRewrite change rewrite) := by
  have made : (grammar.mapTerminals change).generated = grammar.generated := rfl
  simp [entries, made, List.map_filterMap,
    Function.comp_def]

theorem verify_mapTerminals : (grammar.mapTerminals change).verify = grammar.verify := by
  have references : (grammar.mapTerminals change).references = grammar.references := by
    simp [references, List.flatMap_map, mapRewrite]
  have defines : ∀ name, (grammar.mapTerminals change).defines name = grammar.defines name :=
    NameMap.contains_mapValues _ _
  have undefinedNames :
      (grammar.mapTerminals change).undefinedNames = grammar.undefinedNames := by
    simp only [undefinedNames, references, defines]
  rw [verify, verify, undefinedNames]

theorem removeInOrder_mapTerminals (keepsEmpty : change "e" = "e") (ordering : List String) :
    (grammar.mapTerminals change).removeInOrder ordering =
      (grammar.removeInOrder ordering).map (mapTerminals change) := by
  have start : Progress.start (grammar.mapTerminals change) =
      (Progress.start grammar).mapTerminals change := by
    simp [Progress.start, Progress.mapTerminals, NameSupply.ofGrammar, mapTerminals]
  simp only [removeInOrder, verify_mapTerminals, start,
    Progress.run_mapTerminals change keepsEmpty, Logged.andThen_map, Logged.map_andThen]
  rfl

/-- A run never looks at terminals. With its terminals replaced in any way that keeps the empty
string, a grammar comes to the same result with its terminals replaced, with the same
made-up names, or fails for the same reason, and what is noted on the way is the same. -/
theorem removeInOrder_blind_to_terminals (keepsEmpty : change "e" = "e")
    (ordering : List String) :
    (∀ result, (grammar.removeInOrder ordering).result = .ok result →
      ((grammar.mapTerminals change).removeInOrder ordering).result =
          .ok (result.mapTerminals change) ∧
        (result.mapTerminals change).generated = result.generated) ∧
    (∀ failure, (grammar.removeInOrder ordering).result = .error failure →
      ((grammar.mapTerminals change).removeInOrder ordering).result = .error failure) ∧
    ((grammar.mapTerminals change).removeInOrder ordering).events =
      (grammar.removeInOrder ordering).events := by
  rw [removeInOrder_mapTerminals change grammar keepsEmpty ordering, Logged.map]
  refine ⟨fun result done => ⟨?_, rfl⟩, fun failure failed => ?_, rfl⟩
  · rw [done, Except.map]
  · rw [failed, Except.map]

def misleading (text : String) : String :=
  if text = "a" then "e" else if text = "b" then "S" else text

def plain : Grammar :=
  ((empty "S").insert "S" [[.nonterminal "S", .terminal "a"], [.terminal "b"]]).insert "A"
    [[.nonterminal "S", .terminal "b"], [.terminal "b", .nonterminal "A"]]

def plainDone : Grammar :=
  ((plain.insert "S" [[.terminal "b", .nonterminal "Z"]]).insertGenerated "Z"
    [[.terminal "a", .nonterminal "Z"], epsilon]).insert "A"
      [[.terminal "b", .nonterminal "Z", .terminal "b"], [.terminal "b", .nonterminal "A"]]

theorem removeInOrder_blind_to_terminals_misleading :
    misleading "e" = "e" ∧
      (plain.removeInOrder ["S", "A"]).result = .ok plainDone ∧
      (plain.mapTerminals misleading).alternatives "S" =
        [[.nonterminal "S", .terminal "e"], [.terminal "S"]] ∧
      ((plain.mapTerminals misleading).removeInOrder ["S", "A"]).result =
        .ok (plainDone.mapTerminals misleading) ∧
      (plainDone.mapTerminals misleading).alternatives "A" =
        [[.terminal "S", .nonterminal "Z", .terminal "S"], [.terminal "S", .nonterminal "A"]] ∧
      (plain.removeInOrder ["S", "Q"]).result = .error (.undefined "Q") ∧
      ((plain.mapTerminals misleading).removeInOrder ["S", "Q"]).result =
        .error (.undefined "Q") := by
  have keepsEmpty : misleading "e" = "e" := by decide
  have done : (plain.removeInOrder ["S", "A"]).result = .ok plainDone := by decide
  have failed : (plain.removeInOrder ["S", "Q"]).result = .error (.undefined "Q") := by decide
  have same := removeInOrder_blind_to_terminals misleading plain keepsEmpty ["S", "A"]
  have alsoFails := removeInOrder_blind_to_terminals misleading plain keepsEmpty ["S", "Q"]
  exact ⟨keepsEmpty, done, by decide, (same.1 plainDone done).1, by decide, failed,
    alsoFails.2.1 _ failed⟩

end Runs

end Grammar

end LeftRecursion
