import LeftRecursion.Proofs.Written

/-!
Symbols and their texts. A symbol that is read is made of a name or of one character, so its
text alone tells whether it is a nonterminal, and no terminal is longer than a character. What a
run adds is the empty string and new names, which are uppercase letters.
-/

namespace LeftRecursion

/-- Whether a symbol is the one that its text stands for, with one character if it is a
terminal. -/
structure Symbol.IsExact (symbol : Symbol) : Prop where
  ofText : symbol = .ofText symbol.text
  single : ∀ text, symbol = .terminal text → text.length = 1

theorem Symbol.IsWritten.isExact {symbol : Symbol} (written : symbol.IsWritten) :
    symbol.IsExact := by
  cases symbol with
  | terminal text =>
      obtain ⟨c, rfl, small, _⟩ := written
      refine ⟨?_, ?_⟩
      · simp [Symbol.text, Symbol.ofText, small]
      · rintro _ ⟨⟩
        exact String.length_singleton
  | nonterminal name =>
      obtain ⟨named, _⟩ := written
      refine ⟨(Symbol.ofText_of_isName name named).symm, ?_⟩
      rintro _ ⟨⟩

theorem name_of_mem_readAlternative (names : List String) (word name : String)
    (member : .nonterminal name ∈ readAlternative names word) :
    name ∈ names ∨ ∃ c, name = String.singleton c ∧ Text.isUppercase c = true := by
  have text : ∀ other, Symbol.nonterminal name = .ofText other →
      name = other ∧ isName other = true := by
    intro other same
    have named := congrArg Symbol.isNonterminal same
    have spelled := congrArg Symbol.text same
    rw [Symbol.isNonterminal_ofText] at named
    rw [Symbol.text_ofText] at spelled
    exact ⟨spelled, named.symm⟩
  rcases mem_readAlternative names word _ member with ⟨other, known, same⟩ | ⟨c, _, same⟩
  · rw [(text other same).1]
    exact Or.inl known
  · obtain ⟨spelled, named⟩ := text _ same
    rw [isName_singleton] at named
    exact Or.inr ⟨c, spelled, named⟩

namespace Grammar

structure IsExact (grammar : Grammar) : Prop where
  nonempty : ∀ name, [] ∉ grammar.alternatives name
  symbols : ∀ symbol, grammar.Occurs symbol → symbol.IsExact

theorem IsReadable.isExact {grammar : Grammar} (readable : grammar.IsReadable) :
    grammar.IsExact :=
  ⟨readable.nonempty, fun symbol occurs => (readable.written.symbols symbol occurs).isExact⟩

end Grammar

namespace Reading

variable (start : String) (location : Location) (lines : List (Nat × String))

theorem name_of_occurs (name : String)
    (occurs : (ofNumbered start location lines).grammar.Occurs (.nonterminal name)) :
    (ofNumbered start location lines).grammar.defines name = true ∨
      ∃ c, name = String.singleton c ∧ Text.isUppercase c = true := by
  obtain ⟨source, production, member, inProduction⟩ := occurs
  obtain ⟨word, _, rfl⟩ := exists_word_of_mem start location lines source production member
  rw [← mem_namesOf_iff_defines]
  exact name_of_mem_readAlternative _ word name inProduction

/-- A grammar as it is read has no made-up names, only exact symbols and no alternative without
symbols, and its nonterminals are names with a rule or single uppercase characters. Whatever
ordering is run over, the result again has only exact symbols and no alternative without
symbols, and each nonterminal of it is a name with a rule. -/
theorem exact_throughout :
    (ofNumbered start location lines).grammar.generated = .empty ∧
    (ofNumbered start location lines).grammar.IsExact ∧
    (∀ name, (ofNumbered start location lines).grammar.Occurs (.nonterminal name) →
      (ofNumbered start location lines).grammar.defines name = true ∨
        ∃ c, name = String.singleton c ∧ Text.isUppercase c = true) ∧
    ∀ ordering result,
      ((ofNumbered start location lines).grammar.removeInOrder ordering).result = .ok result →
        result.IsExact ∧
          ∀ name, result.Occurs (.nonterminal name) → result.defines name = true := by
  refine ⟨(frame_ofNumbered start location lines).2,
    (isReadable_ofNumbered start location lines).isExact, name_of_occurs start location lines, ?_⟩
  intro ordering result done
  have output := Grammar.isOutput_of_ok start location lines ordering result done
  exact ⟨output.isExact, output.closed.defines_of_occurs⟩

def nested : Grammar :=
  ((Grammar.empty "A").insert "A" [[.nonterminal "A", .terminal "a", .nonterminal "AB"]]).insert
    "AB" [[.nonterminal "A", .terminal "b"], epsilon]

def unnested : Grammar :=
  (((nested.insert "A" [[.terminal "e", .nonterminal "Z"]]).insertGenerated "Z"
    [[.terminal "a", .nonterminal "AB", .nonterminal "Z"], epsilon])).insert "AB"
      [[.terminal "e", .nonterminal "Z", .terminal "b"], epsilon]

theorem exact_throughout_nested :
    (ofNumbered "A" {} [(1, "A -> AaAB"), (2, "AB -> Ab e")]).grammar = nested ∧
      (nested.removeInOrder ["A", "AB"]).result = .ok unnested ∧ unnested.IsExact ∧
      unnested.Occurs (.nonterminal "Z") ∧ unnested.defines "Z" = true := by
  have read : (ofNumbered "A" {} [(1, "A -> AaAB"), (2, "AB -> Ab e")]).grammar = nested := by
    decide
  have done : (nested.removeInOrder ["A", "AB"]).result = .ok unnested := by decide
  have occurs : unnested.Occurs (.nonterminal "Z") :=
    ⟨"A", [.terminal "e", .nonterminal "Z"], by decide, by decide⟩
  obtain ⟨_, _, _, results⟩ := exact_throughout "A" {} [(1, "A -> AaAB"), (2, "AB -> Ab e")]
  rw [read] at results
  obtain ⟨exact, defined⟩ := results ["A", "AB"] unnested done
  exact ⟨read, done, exact, occurs, defined "Z" occurs⟩

end Reading

end LeftRecursion
