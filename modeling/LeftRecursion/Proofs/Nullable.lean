import LeftRecursion.Proofs.Derivation

/-!
Symbols that can be erased. A row of symbols is nullable if the empty string is
one of its words. A nonterminal leads past such rows: to every nonterminal of its
alternatives in front of which all can be erased. Where a derivation from a
nonterminal comes back to it behind a nullable row, it leads back to itself.
-/

namespace LeftRecursion

theorem append_eq_append_cons {α : Type} (left right front back : List α) (middle : α)
    (same : left ++ right = front ++ middle :: back) :
    (∃ rest, left = front ++ middle :: rest) ∨
      ∃ rest, front = left ++ rest ∧ right = rest ++ middle :: back := by
  rcases List.append_eq_append_iff.mp same with ⟨rest, inFront, inRight⟩ | ⟨rest, inLeft, tail⟩
  · exact Or.inr ⟨rest, inFront, inRight⟩
  · rcases List.cons_eq_append_iff.mp tail with ⟨rfl, inRight⟩ | ⟨later, rfl, _⟩
    · rw [List.append_nil] at inLeft
      exact Or.inr ⟨[], by simp [inLeft], by simp [inRight]⟩
    · exact Or.inl ⟨later, inLeft⟩

namespace Grammar

section Erasing

variable {grammar : Grammar}

def Nullable (grammar : Grammar) (symbols : Production) : Prop :=
  [] ∈ grammar.words symbols

theorem nullable_append_iff (front back : Production) :
    grammar.Nullable (front ++ back) ↔ grammar.Nullable front ∧ grammar.Nullable back := by
  unfold Nullable
  rw [words_append, Language.mem_mul]
  constructor
  · rintro ⟨left, inFront, right, inBack, empty⟩
    obtain ⟨rfl, rfl⟩ := List.append_eq_nil_iff.mp empty
    exact ⟨inFront, inBack⟩
  · rintro ⟨inFront, inBack⟩
    exact ⟨[], inFront, [], inBack, rfl⟩

theorem nullable_of_mem (name : String) (production : Production)
    (member : production ∈ grammar.alternatives name) (erased : grammar.Nullable production) :
    grammar.Nullable [.nonterminal name] :=
  grammar.words_le_language name production member erased

theorem not_nullable_of_mem (symbols : Production) (symbol : Symbol) (member : symbol ∈ symbols)
    (stays : ¬ grammar.Nullable [symbol]) : ¬ grammar.Nullable symbols := by
  obtain ⟨front, back, rfl⟩ := List.append_of_mem member
  rw [nullable_append_iff, ← List.singleton_append, nullable_append_iff]
  rintro ⟨_, erased, _⟩
  exact stays erased

theorem not_nullable_terminal (text : String) (visible : text ≠ "e") :
    ¬ grammar.Nullable [.terminal text] := by
  rw [Nullable, mem_words_terminal_iff]
  simp [eraseEmpty, visible]

end Erasing

section Leading

variable {grammar : Grammar}

/-- One nonterminal leads to another past symbols that can be erased. -/
def LeadsPast (grammar : Grammar) (name target : String) : Prop :=
  ∃ before after, before ++ .nonterminal target :: after ∈ grammar.alternatives name ∧
    grammar.Nullable before

/-- What stands behind a nullable row stems from a nonterminal that stood there
before: from itself, or from one that leads to it. -/
theorem Produces.traced {source target : Production} (step : grammar.Produces source target)
    (front back : Production) (name : String) (same : target = front ++ .nonterminal name :: back)
    (erased : grammar.Nullable front) :
    ∃ before origin after, source = before ++ .nonterminal origin :: after ∧
      grammar.Nullable before ∧ (origin = name ∨ grammar.LeadsPast origin name) := by
  cases step with
  | replace left right replaced production member =>
      rcases append_eq_append_cons _ _ _ _ _ same with ⟨rest, inMiddle⟩ | ⟨rest, rfl, rfl⟩
      · rcases append_eq_append_cons _ _ _ _ _ inMiddle with ⟨later, rfl⟩ | ⟨past, rfl, rfl⟩
        · refine ⟨front, name, later ++ .nonterminal replaced :: right, ?_, erased, Or.inl rfl⟩
          rw [List.append_assoc, List.cons_append]
        · have parts := (nullable_append_iff left past).mp erased
          exact ⟨left, replaced, right, rfl, parts.1, Or.inr ⟨past, rest, member, parts.2⟩⟩
      · rw [nullable_append_iff, nullable_append_iff] at erased
        obtain ⟨⟨inLeft, inProduction⟩, inRest⟩ := erased
        have owner := nullable_of_mem replaced production member inProduction
        refine ⟨left ++ ([.nonterminal replaced] ++ rest), name, back, by simp, ?_, Or.inl rfl⟩
        rw [nullable_append_iff, nullable_append_iff]
        exact ⟨inLeft, owner, inRest⟩

theorem Derives.traced {source : Production} (before after : Production) (name : String)
    (derived : grammar.Derives source (before ++ .nonterminal name :: after))
    (erased : grammar.Nullable before) :
    ∃ front first back, source = front ++ .nonterminal first :: back ∧
      grammar.Nullable front ∧ Relation.ReflTransGen grammar.LeadsPast first name := by
  induction derived using Relation.ReflTransGen.head_induction_on with
  | refl => exact ⟨before, name, after, rfl, erased, .refl⟩
  | head step _ ih =>
      obtain ⟨front, first, back, same, inFront, path⟩ := ih
      obtain ⟨left, origin, right, inSource, inLeft, leads⟩ :=
        step.traced front back first same inFront
      refine ⟨left, origin, right, inSource, inLeft, ?_⟩
      rcases leads with rfl | leads
      · exact path
      · exact .head leads path

theorem mem_of_produces (name : String) (row : Production)
    (step : grammar.Produces [.nonterminal name] row) : row ∈ grammar.alternatives name := by
  generalize same : [Symbol.nonterminal name] = source at step
  cases step with
  | replace left right replaced production member =>
      rcases List.singleton_eq_append_iff.mp same with ⟨rfl, single⟩ | ⟨_, single⟩
      · cases single
        simpa using member
      · cases single

theorem DerivesProperly.traced (name : String) (before after : Production)
    (derived : grammar.DerivesProperly [.nonterminal name] (before ++ .nonterminal name :: after))
    (erased : grammar.Nullable before) : Relation.TransGen grammar.LeadsPast name name := by
  obtain ⟨row, step, rest⟩ := Relation.TransGen.head'_iff.mp derived
  have member := mem_of_produces name row step
  obtain ⟨front, first, back, rfl, inFront, path⟩ := Derives.traced before after name rest erased
  exact .head' ⟨front, back, member, inFront⟩ path

end Leading

section Units

variable {grammar : Grammar}

/-- One nonterminal is an alternative of another, with nothing else in it. -/
def HasUnit (grammar : Grammar) (name target : String) : Prop :=
  [.nonterminal target] ∈ grammar.alternatives name

theorem Produces.hasUnit {source target : Production} (step : grammar.Produces source target)
    (nonempty : ∀ name, [] ∉ grammar.alternatives name) (name : String)
    (single : target = [.nonterminal name]) :
    ∃ origin, source = [.nonterminal origin] ∧ grammar.HasUnit origin name := by
  cases step with
  | replace left right replaced production member =>
      have some : production ≠ [] := by
        rintro rfl
        exact nonempty replaced member
      rw [List.append_assoc, List.append_eq_singleton_iff] at single
      rcases single with ⟨rfl, whole⟩ | ⟨_, none⟩
      · rcases List.append_eq_singleton_iff.mp whole with ⟨empty, _⟩ | ⟨rfl, rfl⟩
        · exact absurd empty some
        · exact ⟨replaced, rfl, member⟩
      · exact absurd (List.append_eq_nil_iff.mp none).1 some

theorem Derives.units {source : Production} (nonempty : ∀ name, [] ∉ grammar.alternatives name)
    (name : String) (derived : grammar.Derives source [.nonterminal name]) :
    ∃ origin, source = [.nonterminal origin] ∧
      Relation.ReflTransGen grammar.HasUnit origin name := by
  induction derived using Relation.ReflTransGen.head_induction_on with
  | refl => exact ⟨name, rfl, .refl⟩
  | head step _ ih =>
      obtain ⟨middle, same, path⟩ := ih
      obtain ⟨origin, rfl, unit⟩ := step.hasUnit nonempty middle same
      exact ⟨origin, rfl, .head unit path⟩

-- Where no alternative is empty, rows never get shorter on the way.
theorem DerivesProperly.units (nonempty : ∀ name, [] ∉ grammar.alternatives name)
    (name target : String)
    (derived : grammar.DerivesProperly [.nonterminal name] [.nonterminal target]) :
    Relation.TransGen grammar.HasUnit name target := by
  obtain ⟨row, step, rest⟩ := Relation.TransGen.head'_iff.mp derived
  obtain ⟨middle, rfl, path⟩ := Derives.units nonempty target rest
  exact .head' (mem_of_produces name _ step) path

end Units

end Grammar

end LeftRecursion
