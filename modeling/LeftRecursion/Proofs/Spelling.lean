import LeftRecursion.Proofs.Tokens
import LeftRecursion.Rule.Alternative

/-!
Alternatives and their texts. Reading takes the longest known name that fits at
each place, so of two names that fit it takes the one with more characters, and
the text of what it reads is the text that it read. An alternative comes back from
its text if at each of its symbols no longer name fits. Names begin with an
uppercase letter and terminals do not, so only at a nonterminal can one fit.
-/

namespace LeftRecursion

section Names

theorem isName_iff (text : String) :
    isName text = true ↔ ∃ c rest, text.toList = c :: rest ∧ Text.isUppercase c = true := by
  unfold isName
  cases text.toList <;> simp

@[simp] theorem isName_singleton (c : Char) :
    isName (String.singleton c) = Text.isUppercase c := by
  simp [isName]

theorem isWord_singleton (c : Char) (solid : Text.isBlank c = false) :
    IsWord (String.singleton c) where
  nonempty := by
    intro empty
    have none := congrArg String.toList empty
    simp at none
  solid := by simpa using solid
  whole := by simp

theorem nil_not_mem_toList (names : List String) (nonempty : ∀ name ∈ names, name ≠ "") :
    [] ∉ names.map String.toList := by
  intro member
  obtain ⟨name, known, empty⟩ := List.mem_map.mp member
  exact nonempty name known (String.toList_eq_nil_iff.mp empty)

/-- Whether a symbol is one that can be read from a text: a terminal of one
character, or a nonterminal whose name is a word. -/
def Symbol.IsWritten : Symbol → Prop
  | .terminal text =>
      ∃ c, text = String.singleton c ∧ Text.isUppercase c = false ∧ Text.isBlank c = false
  | .nonterminal name => isName name = true ∧ IsWord name

theorem Symbol.IsWritten.isWord {symbol : Symbol} (written : symbol.IsWritten) :
    IsWord symbol.text := by
  match symbol, written with
  | .terminal _, ⟨c, rfl, _, solid⟩ => exact isWord_singleton c solid
  | .nonterminal _, written => exact written.2

theorem Symbol.isWritten_ofText_singleton (c : Char) (solid : Text.isBlank c = false) :
    (Symbol.ofText (String.singleton c)).IsWritten := by
  unfold Symbol.ofText
  split
  · next named => exact ⟨named, isWord_singleton c solid⟩
  · next unnamed =>
      refine ⟨c, rfl, ?_, solid⟩
      rw [← isName_singleton, Bool.eq_false_iff]
      exact unnamed

theorem Symbol.ofText_of_isName (name : String) (named : isName name = true) :
    Symbol.ofText name = .nonterminal name := by
  simp [Symbol.ofText, named]

end Names

section LongestName

variable (names : List String)

theorem length_le_of_utf8ByteSize_le (first second : String) (text : List Char)
    (firstFits : first.toList <+: text) (secondFits : second.toList <+: text)
    (smaller : first.utf8ByteSize ≤ second.utf8ByteSize) : first.length ≤ second.length := by
  by_contra longer
  have shorter : second.toList.length ≤ first.toList.length := by
    simp only [String.length_toList]
    omega
  obtain ⟨extra, joined⟩ := List.prefix_of_prefix_length_le secondFits firstFits shorter
  have same : first = second ++ String.ofList extra := by
    rw [← String.toList_inj, String.toList_append, String.toList_ofList, joined]
  have none : String.ofList extra = "" := by
    rw [← String.utf8ByteSize_eq_zero_iff]
    rw [same, String.utf8ByteSize_append] at smaller
    omega
  rw [same, none, String.append_empty] at longer
  exact longer (Nat.le_refl _)

theorem eq_of_fits_of_length (first second : String) (text : List Char)
    (firstFits : first.toList <+: text) (secondFits : second.toList <+: text)
    (same : first.length = second.length) : first = second := by
  have lengths : first.toList.length = second.toList.length := by
    simpa only [String.length_toList] using same
  have within := List.prefix_of_prefix_length_le firstFits secondFits (Nat.le_of_eq lengths)
  exact String.toList_injective (within.eq_of_length lengths)

theorem leadingName_eq_none_iff (text : List Char) :
    leadingName (names.map String.toList) text = none ↔
      ∀ name ∈ names, ¬ name.toList <+: text := by
  simp [leadingName, List.find?_eq_none]

theorem leadingName_eq_some
    (descending : names.Pairwise fun first second => second.utf8ByteSize ≤ first.utf8ByteSize)
    (text found : List Char) (taken : leadingName (names.map String.toList) text = some found) :
    ∃ name ∈ names, found = name.toList ∧ name.toList <+: text ∧
      ∀ other ∈ names, other.toList <+: text → other.length ≤ name.length := by
  induction names with
  | nil => simp [leadingName] at taken
  | cons first rest ih =>
      obtain ⟨below, later⟩ := List.pairwise_cons.mp descending
      by_cases fits : first.toList <+: text
      · have same : first.toList = found := by
          simpa [leadingName, fits] using taken
        refine ⟨first, List.mem_cons_self, same.symm, fits, fun other member otherFits => ?_⟩
        rcases List.mem_cons.mp member with rfl | inRest
        · exact Nat.le_refl _
        · exact length_le_of_utf8ByteSize_le other first text otherFits fits (below other inRest)
      · have takenLater : leadingName (rest.map String.toList) text = some found := by
          simpa [leadingName, fits] using taken
        obtain ⟨name, member, same, nameFits, longest⟩ := ih later takenLater
        refine ⟨name, List.mem_cons_of_mem first member, same, nameFits, ?_⟩
        intro other inList otherFits
        rcases List.mem_cons.mp inList with rfl | inRest
        · exact absurd otherFits fits
        · exact longest other inRest otherFits

theorem leadingName_eq_some_iff
    (descending : names.Pairwise fun first second => second.utf8ByteSize ≤ first.utf8ByteSize)
    (text : List Char) (name : String) :
    leadingName (names.map String.toList) text = some name.toList ↔
      name ∈ names ∧ name.toList <+: text ∧
        ∀ other ∈ names, other.toList <+: text → other.length ≤ name.length := by
  constructor
  · intro taken
    obtain ⟨other, known, same, fits, longest⟩ := leadingName_eq_some names descending _ _ taken
    obtain rfl := String.toList_injective same
    exact ⟨known, fits, longest⟩
  · rintro ⟨known, fits, longest⟩
    cases taken : leadingName (names.map String.toList) text with
    | none => exact absurd fits ((leadingName_eq_none_iff names text).mp taken name known)
    | some found =>
        obtain ⟨other, alsoKnown, rfl, alsoFits, alsoLongest⟩ :=
          leadingName_eq_some names descending _ _ taken
        have lengths : other.length = name.length :=
          Nat.le_antisymm (longest other alsoKnown alsoFits) (alsoLongest name known fits)
        rw [eq_of_fits_of_length other name text alsoFits fits lengths]

theorem leadingName_congr {names others : List String}
    (descending : names.Pairwise fun first second => second.utf8ByteSize ≤ first.utf8ByteSize)
    (alsoDescending : others.Pairwise
      fun first second => second.utf8ByteSize ≤ first.utf8ByteSize)
    (same : ∀ name, name ∈ names ↔ name ∈ others) (text : List Char) :
    leadingName (names.map String.toList) text = leadingName (others.map String.toList) text := by
  cases taken : leadingName (others.map String.toList) text with
  | none =>
      rw [leadingName_eq_none_iff] at taken ⊢
      exact fun name member => taken name ((same name).mp member)
  | some found =>
      obtain ⟨name, member, rfl, fits, longest⟩ :=
        leadingName_eq_some others alsoDescending text found taken
      exact (leadingName_eq_some_iff names descending text name).mpr ⟨(same name).mpr member, fits,
        fun other inNames => longest other ((same other).mp inNames)⟩

end LongestName

section Munch

variable (names : List (List Char))

theorem munch_append (front back : List Char) :
    munch names front.length (front ++ back) = munch names 0 back := by
  induction front with
  | nil => rfl
  | cons c rest ih => simpa [munch] using ih

theorem munch_of_leadingName (found text : List Char) (nonempty : text ≠ [])
    (taken : leadingName names text = some found) :
    ∃ rest, munch names 0 text = .ofText (String.ofList found) :: rest := by
  cases text with
  | nil => exact absurd rfl nonempty
  | cons c later => exact ⟨munch names (found.length - 1) later, by simp [munch, taken]⟩

theorem munch_of_leadingName_append (found back : List Char) (nonempty : found ≠ [])
    (taken : leadingName names (found ++ back) = some found) :
    munch names 0 (found ++ back) = .ofText (String.ofList found) :: munch names 0 back := by
  cases found with
  | nil => exact absurd rfl nonempty
  | cons c rest =>
      rw [List.cons_append] at taken ⊢
      simp [munch, taken, munch_append]

theorem munch_of_no_name (c : Char) (rest : List Char)
    (none : leadingName names (c :: rest) = none) :
    munch names 0 (c :: rest) = .ofText (String.singleton c) :: munch names 0 rest := by
  simp [munch, none]

theorem munch_congr (others : List (List Char))
    (same : ∀ text, leadingName names text = leadingName others text) (skip : Nat)
    (text : List Char) : munch names skip text = munch others skip text := by
  fun_induction munch names skip text with
  | case1 => simp [munch]
  | case2 skip c rest ih => simpa [munch] using ih
  | case3 c rest name taken ih =>
      rw [same] at taken
      simp [munch, taken, ih]
  | case4 c rest none ih =>
      rw [same] at none
      simp [munch, none, ih]

theorem mem_munch (skip : Nat) (text : List Char) (symbol : Symbol)
    (member : symbol ∈ munch names skip text) :
    (∃ name ∈ names, symbol = .ofText (String.ofList name)) ∨
      ∃ c ∈ text, symbol = .ofText (String.singleton c) := by
  fun_induction munch names skip text with
  | case1 => cases member
  | case2 skip c rest ih =>
      rcases ih member with ofName | ⟨d, inRest, same⟩
      · exact Or.inl ofName
      · exact Or.inr ⟨d, List.mem_cons_of_mem c inRest, same⟩
  | case3 c rest name taken ih =>
      rcases List.mem_cons.mp member with same | later
      · exact Or.inl ⟨name, List.mem_of_find?_eq_some taken, same⟩
      · rcases ih later with ofName | ⟨d, inRest, same⟩
        · exact Or.inl ofName
        · exact Or.inr ⟨d, List.mem_cons_of_mem c inRest, same⟩
  | case4 c rest none ih =>
      rcases List.mem_cons.mp member with same | later
      · exact Or.inr ⟨c, List.mem_cons_self, same⟩
      · rcases ih later with ofName | ⟨d, inRest, same⟩
        · exact Or.inl ofName
        · exact Or.inr ⟨d, List.mem_cons_of_mem c inRest, same⟩

theorem toList_productionText_munch (nonempty : [] ∉ names) (skip : Nat) (text : List Char) :
    (productionText (munch names skip text)).toList = text.drop skip := by
  rw [toList_productionText]
  fun_induction munch names skip text with
  | case1 => simp
  | case2 skip c rest ih => simpa using ih
  | case3 c rest name taken ih =>
      have fits : name <+: c :: rest := by
        simpa using List.find?_some taken
      have inNames : name ∈ names := List.mem_of_find?_eq_some taken
      cases name with
      | nil => exact absurd inNames nonempty
      | cons first later =>
          obtain ⟨back, joined⟩ := fits
          obtain ⟨rfl, rfl⟩ := List.cons.inj joined
          simpa using ih
  | case4 c rest none ih => simpa using ih

theorem readAlternative_congr {names others : List String}
    (descending : names.Pairwise fun first second => second.utf8ByteSize ≤ first.utf8ByteSize)
    (alsoDescending : others.Pairwise
      fun first second => second.utf8ByteSize ≤ first.utf8ByteSize)
    (same : ∀ name, name ∈ names ↔ name ∈ others) (word : String) :
    readAlternative names word = readAlternative others word := by
  unfold readAlternative
  rw [munch_congr _ _ (leadingName_congr descending alsoDescending same)]

theorem mem_readAlternative (names : List String) (word : String) (symbol : Symbol)
    (member : symbol ∈ readAlternative names word) :
    (∃ name ∈ names, symbol = .ofText name) ∨
      ∃ c ∈ word.toList, symbol = .ofText (String.singleton c) := by
  unfold readAlternative at member
  split at member
  · next empty =>
      obtain rfl := List.mem_singleton.mp member
      exact Or.inr ⟨'e', by simp [empty], by decide⟩
  · rcases mem_munch _ _ _ _ member with ⟨_, inNames, rfl⟩ | ofCharacter
    · obtain ⟨name, known, rfl⟩ := List.mem_map.mp inNames
      exact Or.inl ⟨name, known, by rw [String.ofList_toList]⟩
    · exact Or.inr ofCharacter

theorem isWritten_of_mem_readAlternative (names : List String)
    (named : ∀ name ∈ names, isName name = true ∧ IsWord name) (word : String)
    (solid : ∀ c ∈ word.toList, Text.isBlank c = false) (symbol : Symbol)
    (member : symbol ∈ readAlternative names word) : symbol.IsWritten := by
  rcases mem_readAlternative names word symbol member with ⟨name, known, rfl⟩ | ⟨c, inWord, rfl⟩
  · rw [Symbol.ofText_of_isName name (named name known).1]
    exact named name known
  · exact Symbol.isWritten_ofText_singleton c (solid c inWord)

end Munch

section Legible

/-- Whether no name that fits at a symbol is longer than that symbol. -/
def Legible (names : List String) : Production → Prop
  | [] => True
  | symbol :: rest =>
      (∀ name ∈ names, name.toList <+: (productionText (symbol :: rest)).toList →
        name.length ≤ symbol.text.length) ∧ Legible names rest

instance decidableLegible (names : List String) :
    (production : Production) → Decidable (Legible names production)
  | [] => isTrue trivial
  | _ :: rest =>
      have := decidableLegible names rest
      inferInstanceAs (Decidable (_ ∧ _))

/-- Whether an alternative comes back from its text: no arrow arises in it, and no
longer name takes the place of a symbol. -/
structure ReadsBack (names : List String) (production : Production) : Prop where
  whole : ¬ HoldsArrow (productionText production).toList
  legible : Legible names production

instance (names : List String) (production : Production) :
    Decidable (ReadsBack names production) :=
  decidable_of_iff
    (¬ HoldsArrow (productionText production).toList ∧ Legible names production)
    ⟨fun both => ⟨both.1, both.2⟩, fun back => ⟨back.whole, back.legible⟩⟩

theorem Legible.congr {names others : List String} (same : ∀ name, name ∈ names ↔ name ∈ others)
    (production : Production) : Legible names production ↔ Legible others production := by
  induction production with
  | nil => exact Iff.rfl
  | cons symbol rest ih => simp only [Legible, same, ih]

theorem toList_productionText_cons (symbol : Symbol) (rest : Production) :
    (productionText (symbol :: rest)).toList =
      symbol.text.toList ++ (productionText rest).toList := by
  simp [toList_productionText]

theorem solid_productionText (production : Production)
    (written : ∀ symbol ∈ production, symbol.IsWritten) :
    ∀ c ∈ (productionText production).toList, Text.isBlank c = false := by
  intro c member
  rw [toList_productionText, List.mem_flatMap] at member
  obtain ⟨symbol, occurs, inText⟩ := member
  exact (written symbol occurs).isWord.solid c inText

theorem isWord_productionText (production : Production) (nonempty : production ≠ [])
    (written : ∀ symbol ∈ production, symbol.IsWritten)
    (whole : ¬ HoldsArrow (productionText production).toList) :
    IsWord (productionText production) where
  nonempty := by
    intro empty
    cases production with
    | nil => exact nonempty rfl
    | cons symbol rest =>
        have characters := toList_productionText_cons symbol rest
        rw [empty, String.toList_empty] at characters
        have none := (List.append_eq_nil_iff.mp characters.symm).1
        exact (written symbol List.mem_cons_self).isWord.nonempty
          (String.toList_eq_nil_iff.mp none)
  solid := solid_productionText production written
  whole := whole

variable {names : List String}

theorem not_fits_of_not_uppercase (named : ∀ name ∈ names, isName name = true) (c : Char)
    (rest : List Char) (small : Text.isUppercase c = false) :
    ∀ name ∈ names, ¬ name.toList <+: c :: rest := by
  rintro name member ⟨back, joined⟩
  obtain ⟨first, later, characters, upper⟩ := (isName_iff name).mp (named name member)
  rw [characters] at joined
  obtain ⟨rfl, _⟩ := List.cons.inj joined
  rw [small] at upper
  cases upper

-- The word `e` needs no case of its own where names begin with uppercase letters.
theorem readAlternative_eq_munch (named : ∀ name ∈ names, isName name = true) (word : String) :
    readAlternative names word = munch (names.map String.toList) 0 word.toList := by
  unfold readAlternative
  split
  · next empty =>
      have none := not_fits_of_not_uppercase named 'e' [] (by decide)
      have munched := munch_of_no_name _ 'e' [] ((leadingName_eq_none_iff names _).mpr none)
      rw [empty, show "e".toList = ['e'] from rfl, munched]
      rfl
  · rfl

theorem ne_nil_of_named (named : ∀ name ∈ names, isName name = true) :
    ∀ name ∈ names, name.toList ≠ [] := by
  intro name member
  obtain ⟨c, later, characters, _⟩ := (isName_iff name).mp (named name member)
  simp [characters]

theorem productionText_readAlternative (named : ∀ name ∈ names, isName name = true)
    (word : String) : productionText (readAlternative names word) = word := by
  have nonempty : [] ∉ names.map String.toList := nil_not_mem_toList names fun name member =>
    mt String.toList_eq_nil_iff.mpr (ne_nil_of_named named name member)
  rw [readAlternative_eq_munch named, ← String.toList_inj,
    toList_productionText_munch _ nonempty, List.drop_zero]

theorem munch_name_iff
    (descending : names.Pairwise fun first second => second.utf8ByteSize ≤ first.utf8ByteSize)
    (named : ∀ name ∈ names, isName name = true) (name : String) (known : name ∈ names)
    (back : List Char) (rest : Production) :
    munch (names.map String.toList) 0 (name.toList ++ back) = .nonterminal name :: rest ↔
      (∀ other ∈ names, other.toList <+: name.toList ++ back → other.length ≤ name.length) ∧
        munch (names.map String.toList) 0 back = rest := by
  have fits : name.toList <+: name.toList ++ back := List.prefix_append _ _
  have nonempty := ne_nil_of_named named
  cases taken : leadingName (names.map String.toList) (name.toList ++ back) with
  | none => exact absurd fits ((leadingName_eq_none_iff names _).mp taken name known)
  | some found =>
      obtain ⟨other, member, rfl, otherFits, longest⟩ :=
        leadingName_eq_some names descending _ found taken
      by_cases same : other = name
      · subst same
        rw [munch_of_leadingName_append _ _ _ (nonempty other member) taken, String.ofList_toList,
          Symbol.ofText_of_isName other (named other member), List.cons.injEq]
        exact ⟨fun read => ⟨longest, read.2⟩, fun read => ⟨rfl, read.2⟩⟩
      · have joinedNonempty : name.toList ++ back ≠ [] := by simp [nonempty name known]
        obtain ⟨later, munched⟩ := munch_of_leadingName _ _ _ joinedNonempty taken
        rw [munched, String.ofList_toList, Symbol.ofText_of_isName other (named other member)]
        constructor
        · intro read
          cases read
          exact absurd rfl same
        · rintro ⟨noLonger, _⟩
          have lengths : other.length = name.length :=
            Nat.le_antisymm (noLonger other member otherFits) (longest name known fits)
          exact absurd (eq_of_fits_of_length other name _ otherFits fits lengths) same

theorem munch_productionText_iff
    (descending : names.Pairwise fun first second => second.utf8ByteSize ≤ first.utf8ByteSize)
    (named : ∀ name ∈ names, isName name = true) (production : Production)
    (written : ∀ symbol ∈ production, symbol.IsWritten)
    (known : ∀ name, .nonterminal name ∈ production → name ∈ names) :
    munch (names.map String.toList) 0 (productionText production).toList = production ↔
      Legible names production := by
  induction production with
  | nil => simp [Legible, productionText, munch]
  | cons symbol rest ih =>
      have later := ih (fun other member => written other (List.mem_cons_of_mem symbol member))
        fun name member => known name (List.mem_cons_of_mem symbol member)
      rw [Legible, toList_productionText_cons]
      cases symbol with
      | terminal text =>
          obtain ⟨c, rfl, small, _⟩ := written _ List.mem_cons_self
          have none := not_fits_of_not_uppercase named c (productionText rest).toList small
          have notName : Symbol.ofText (String.singleton c) = .terminal (String.singleton c) := by
            simp [Symbol.ofText, small]
          simp only [Symbol.text, String.toList_singleton, List.singleton_append]
          rw [munch_of_no_name _ c _ ((leadingName_eq_none_iff names _).mpr none), notName]
          simp only [List.cons.injEq, true_and, later]
          constructor
          · exact fun legible => ⟨fun name member fits => absurd fits (none name member), legible⟩
          · exact And.right
      | nonterminal name =>
          have inNames := known name List.mem_cons_self
          rw [← later]
          exact munch_name_iff descending named name inNames _ rest

end Legible

end LeftRecursion
