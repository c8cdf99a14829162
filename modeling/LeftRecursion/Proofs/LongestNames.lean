import LeftRecursion.Proofs.Spelling

/-!
Alternatives and the names in them. At each place the longest name that fits is read, and where
none fits the next character; what is read is the only alternative of which this is so and
whose text is the word. The names are tried from the longest to the shortest, in bytes. Of
two names that fit at one place one begins with the other, so the first that fits has the
most characters too, and there is no other of its length. Hence the order of names of one
length does not count, nor how often a name is listed.
-/

namespace LeftRecursion

section Next

/-- Whether a text is what is read where so much of a word remains: the longest name that fits
there, or the next character if no name does. -/
def IsNext (names : List String) (text : String) (remaining : List Char) : Prop :=
  (text ∈ names ∧ text.toList <+: remaining ∧
    ∀ other ∈ names, other.toList <+: remaining → other.length ≤ text.length) ∨
    (∀ other ∈ names, ¬ other.toList <+: remaining) ∧
      ∃ c, remaining.head? = some c ∧ text = String.singleton c

def EachNext (names : List String) : Production → Prop
  | [] => True
  | symbol :: rest =>
      symbol = .ofText symbol.text ∧
        IsNext names symbol.text (productionText (symbol :: rest)).toList ∧ EachNext names rest

variable {names : List String}

theorem IsNext.nonempty {text : String} {remaining : List Char}
    (next : IsNext names text remaining) (nonempty : ∀ name ∈ names, name ≠ "") : text ≠ "" := by
  rcases next with ⟨known, _, _⟩ | ⟨_, c, _, rfl⟩
  · exact nonempty text known
  · intro empty
    have none := congrArg String.toList empty
    simp at none

theorem length_le_of_eachNext (nonempty : ∀ name ∈ names, name ≠ "") (production : Production)
    (each : EachNext names production) :
    production.length ≤ (productionText production).length := by
  induction production with
  | nil => exact Nat.zero_le _
  | cons symbol rest ih =>
      obtain ⟨_, next, later⟩ := each
      have after := ih later
      have here : 0 < symbol.text.toList.length :=
        List.length_pos_of_ne_nil (mt String.toList_eq_nil_iff.mp (next.nonempty nonempty))
      rw [← String.length_toList] at after ⊢
      rw [toList_productionText_cons, List.length_append, List.length_cons]
      omega

end Next

section Munch

variable {names : List String}

theorem eachNext_munch (nonempty : ∀ name ∈ names, name ≠ "")
    (descending : names.Pairwise fun first second => second.utf8ByteSize ≤ first.utf8ByteSize)
    (skip : Nat) (text : List Char) :
    EachNext names (munch (names.map String.toList) skip text) := by
  -- What remains at a place is the text of the symbols that are read from there on.
  have spelled := toList_productionText_munch _ (nil_not_mem_toList names nonempty) 0
  fun_induction munch (names.map String.toList) skip text with
  | case1 => trivial
  | case2 skip c rest ih => exact ih
  | case3 c rest found taken ih =>
      have remaining := spelled (c :: rest)
      rw [munch, taken] at remaining
      obtain ⟨name, known, rfl, fits, longest⟩ := leadingName_eq_some names descending _ _ taken
      refine ⟨by rw [Symbol.text_ofText], ?_, ih⟩
      rw [remaining, Symbol.text_ofText, String.ofList_toList]
      exact Or.inl ⟨known, fits, longest⟩
  | case4 c rest none ih =>
      have remaining := spelled (c :: rest)
      rw [munch, none] at remaining
      refine ⟨by rw [Symbol.text_ofText], ?_, ih⟩
      rw [remaining, Symbol.text_ofText]
      exact Or.inr ⟨(leadingName_eq_none_iff names _).mp none, c, rfl, rfl⟩

theorem munch_of_eachNext (nonempty : ∀ name ∈ names, name ≠ "")
    (descending : names.Pairwise fun first second => second.utf8ByteSize ≤ first.utf8ByteSize)
    (production : Production) (each : EachNext names production) :
    munch (names.map String.toList) 0 (productionText production).toList = production := by
  induction production with
  | nil => simp [productionText, munch]
  | cons symbol rest ih =>
      obtain ⟨made, next, later⟩ := each
      have after := ih later
      rw [toList_productionText_cons] at next ⊢
      rcases next with ⟨known, fits, longest⟩ | ⟨noName, c, first, single⟩
      · have taken := (leadingName_eq_some_iff names descending _ _).mpr ⟨known, fits, longest⟩
        have full : symbol.text.toList ≠ [] :=
          mt String.toList_eq_nil_iff.mp (nonempty symbol.text known)
        rw [munch_of_leadingName_append _ _ _ full taken, String.ofList_toList, ← made, after]
      · have none := (leadingName_eq_none_iff names _).mpr noName
        rw [single, String.toList_singleton, List.singleton_append] at none ⊢
        rw [munch_of_no_name _ c _ none, ← single, ← made, after]

theorem readAlternative_eq_iff (nonempty : ∀ name ∈ names, name ≠ "")
    (descending : names.Pairwise fun first second => second.utf8ByteSize ≤ first.utf8ByteSize)
    (word : String) (full : word ≠ "e") (production : Production) :
    readAlternative names word = production ↔
      productionText production = word ∧ EachNext names production := by
  have munched : readAlternative names word =
      munch (names.map String.toList) 0 word.toList := by simp [readAlternative, full]
  constructor
  · rintro rfl
    rw [munched]
    refine ⟨?_, eachNext_munch nonempty descending 0 word.toList⟩
    rw [← String.toList_inj, toList_productionText_munch _ (nil_not_mem_toList names nonempty),
      List.drop_zero]
  · rintro ⟨rfl, each⟩
    rw [munched]
    exact munch_of_eachNext nonempty descending production each

/-- What is read from a word spells the word out, in one symbol at most for each of its
characters. But for the word `e`, it is the one alternative that takes the longest name at
each place. Only which names there are makes a difference to it. -/
theorem readAlternative_takes_longest (names : List String) (word : String)
    (nonempty : ∀ name ∈ names, name ≠ "")
    (descending : names.Pairwise fun first second => second.utf8ByteSize ≤ first.utf8ByteSize) :
    productionText (readAlternative names word) = word ∧
      (readAlternative names word).length ≤ word.length ∧
      (word = "e" → readAlternative names word = epsilon) ∧
      (word ≠ "e" → ∀ production, readAlternative names word = production ↔
        productionText production = word ∧ EachNext names production) ∧
      ∀ others : List String,
        (others.Pairwise fun first second => second.utf8ByteSize ≤ first.utf8ByteSize) →
          (∀ name, name ∈ others ↔ name ∈ names) →
            readAlternative others word = readAlternative names word := by
  have exact := readAlternative_eq_iff nonempty descending word
  have onlyNames : ∀ others : List String,
      (others.Pairwise fun first second => second.utf8ByteSize ≤ first.utf8ByteSize) →
        (∀ name, name ∈ others ↔ name ∈ names) →
          readAlternative others word = readAlternative names word :=
    fun _ alsoDescending same => readAlternative_congr alsoDescending descending same word
  by_cases empty : word = "e"
  · have isEpsilon : readAlternative names word = epsilon := by simp [readAlternative, empty]
    refine ⟨?_, ?_, fun _ => isEpsilon, exact, onlyNames⟩
    · rw [isEpsilon, empty]
      rfl
    · rw [isEpsilon, empty]
      decide
  · obtain ⟨spelled, each⟩ := (exact empty _).mp rfl
    refine ⟨spelled, ?_, fun same => absurd same empty, exact, onlyNames⟩
    have bound := length_le_of_eachNext nonempty _ each
    rwa [spelled] at bound

-- Some of the names begin with others, one is listed twice, and two have more bytes than
-- characters.
theorem readAlternative_takes_longest_overlapping :
    (∀ name ∈ ["ÉAB", "Éa", "AB", "AB", "A", "B"], name ≠ "") ∧
      (["ÉAB", "Éa", "AB", "AB", "A", "B"].Pairwise
        fun first second => second.utf8ByteSize ≤ first.utf8ByteSize) ∧
      EachNext ["ÉAB", "Éa", "AB", "AB", "A", "B"] [.nonterminal "Éa", .nonterminal "AB",
        .terminal "x", .nonterminal "É", .nonterminal "B", .nonterminal "A"] ∧
      readAlternative ["ÉAB", "Éa", "AB", "B", "A"] "ÉaABxÉBA" =
        readAlternative ["ÉAB", "Éa", "AB", "AB", "A", "B"] "ÉaABxÉBA" := by
  have nonempty : ∀ name ∈ ["ÉAB", "Éa", "AB", "AB", "A", "B"], name ≠ "" := by decide
  have descending : ["ÉAB", "Éa", "AB", "AB", "A", "B"].Pairwise
      fun first second => second.utf8ByteSize ≤ first.utf8ByteSize := by decide
  obtain ⟨_, _, _, unique, others⟩ :=
    readAlternative_takes_longest _ "ÉaABxÉBA" nonempty descending
  refine ⟨nonempty, descending, ((unique (by decide) _).mp (by decide)).2,
    others _ (by decide) fun name => ?_⟩
  simp only [List.mem_cons, List.not_mem_nil, or_false]
  tauto

end Munch

end LeftRecursion
