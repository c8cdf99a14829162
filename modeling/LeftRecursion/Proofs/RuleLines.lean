import LeftRecursion.Grammar.Render
import LeftRecursion.Proofs.Tokens
import LeftRecursion.Rule.Line
import LeftRecursion.Text.Lines

/-!
Lines that are rules, and rules that are written as lines. A line is a rule if its
tokens are a name, an arrow and words. The line of a written rule always begins
with the name and the arrow, so it is a rule again unless an arrow has come up
inside one of its alternatives. Lines joined by newlines are split at them again.
-/

namespace LeftRecursion

namespace Rule

section Reading

theorem ofTokens_eq_ok_iff (tokens : List Token) (rule : Rule) :
    ofTokens tokens = .ok rule ↔
      tokens = .word rule.name :: .arrow :: rule.words.map .word ∧ isName rule.name = true := by
  constructor
  · intro read
    unfold ofTokens at read
    split at read
    · cases read
    · split at read
      · next name rest _ =>
          split at read
          · next named =>
              split at read
              · next words found =>
                  cases read
                  exact ⟨by rw [(wordsOf?_eq_some_iff rest words).mp found], named⟩
              · cases read
          · cases read
      · cases read
  · rintro ⟨rfl, named⟩
    simp [ofTokens, named, (wordsOf?_eq_some_iff _ _).mpr rfl]

theorem ofLine_eq_ok_iff (line : String) (rule : Rule) :
    ofLine line = .ok rule ↔
      Token.ofLine line = .word rule.name :: .arrow :: rule.words.map .word ∧
        isName rule.name = true :=
  ofTokens_eq_ok_iff _ _

theorem ofLine_of_isBlankLine (line : String) (blank : Text.isBlankLine line = true) :
    ofLine line = .error .missingArrow := by
  have none : Token.ofLine line = [] := by
    have scanned := Token.scan_blanks line.toList [] (List.all_eq_true.mp blank)
    rw [List.append_nil] at scanned
    exact scanned
  simp [ofLine, none, ofTokens]

theorem isWord_name (line : String) (rule : Rule) (read : ofLine line = .ok rule) :
    IsWord rule.name := by
  apply Token.isWord_of_mem_ofLine line
  rw [((ofLine_eq_ok_iff line rule).mp read).1]
  exact List.mem_cons_self

theorem isWord_of_mem_words (line : String) (rule : Rule) (read : ofLine line = .ok rule) :
    ∀ text ∈ rule.words, IsWord text := by
  intro text member
  apply Token.isWord_of_mem_ofLine line
  rw [((ofLine_eq_ok_iff line rule).mp read).1]
  exact List.mem_cons_of_mem _ (List.mem_cons_of_mem _ (List.mem_map_of_mem member))

end Reading

section Writing

theorem mem_intercalate (separator : String) (texts : List String) (c : Char)
    (member : c ∈ (separator.intercalate texts).toList) :
    c ∈ separator.toList ∨ ∃ text ∈ texts, c ∈ text.toList := by
  induction texts with
  | nil => simp at member
  | cons first rest ih =>
      cases rest with
      | nil => exact Or.inr ⟨first, List.mem_cons_self, by simpa using member⟩
      | cons second later =>
          rw [String.intercalate_cons_cons, String.toList_append, String.toList_append,
            List.append_assoc, List.mem_append, List.mem_append] at member
          rcases member with inFirst | inSeparator | inRest
          · exact Or.inr ⟨first, List.mem_cons_self, inFirst⟩
          · exact Or.inl inSeparator
          · rcases ih inRest with inSeparator | ⟨text, inList, inText⟩
            · exact Or.inl inSeparator
            · exact Or.inr ⟨text, List.mem_cons_of_mem first inList, inText⟩

theorem infix_intercalate (separator text : String) (texts : List String)
    (member : text ∈ texts) : text.toList <:+: (separator.intercalate texts).toList := by
  induction texts with
  | nil => cases member
  | cons first rest ih =>
      cases rest with
      | nil =>
          obtain rfl := List.mem_singleton.mp member
          rw [String.intercalate_singleton]
      | cons second later =>
          rw [String.intercalate_cons_cons, String.toList_append, String.toList_append]
          rcases List.mem_cons.mp member with rfl | inRest
          · exact ((List.prefix_append _ _).trans (List.prefix_append _ _)).isInfix
          · exact (ih inRest).trans (List.suffix_append _ _).isInfix

variable (name : String) (rewrite : Rewrite)

@[simp] theorem toList_ruleText :
    (ruleText name rewrite).toList =
      name.toList ++ ' ' :: '-' :: '>' :: ' ' ::
        (" ".intercalate (rewrite.map productionText)).toList := by
  rw [ruleText, String.toList_append, String.toList_append, List.append_assoc]
  rfl

@[simp] theorem not_isBlankLine_ruleText : Text.isBlankLine (ruleText name rewrite) = false := by
  simp [Text.isBlankLine, show Text.isBlank '-' = false by decide]

theorem newline_not_mem_ruleText (solidName : ∀ c ∈ name.toList, Text.isBlank c = false)
    (solid : ∀ production ∈ rewrite, ∀ c ∈ (productionText production).toList,
      Text.isBlank c = false) :
    '\n' ∉ (ruleText name rewrite).toList := by
  have blank : Text.isBlank '\n' = true := by decide
  intro member
  rw [toList_ruleText, List.mem_append] at member
  rcases member with inName | later
  · rw [solidName _ inName] at blank
    cases blank
  · have inTexts : '\n' ∈ (" ".intercalate (rewrite.map productionText)).toList := by
      simpa using later
    rcases mem_intercalate _ _ _ inTexts with inSeparator | ⟨text, inList, inText⟩
    · simp at inSeparator
    · obtain ⟨production, inRewrite, rfl⟩ := List.mem_map.mp inList
      rw [solid production inRewrite _ inText] at blank
      cases blank

theorem tokens_ruleText (isWord : IsWord name) :
    Token.ofLine (ruleText name rewrite) =
      .word name :: .arrow ::
        Token.scan [] (" ".intercalate (rewrite.map productionText)).toList := by
  rw [Token.ofLine, toList_ruleText, Token.scan_word_blank name isWord, Token.scan_arrow,
    Token.scan_blank [] ' ' _ (by decide), Token.finishWord]

theorem head_tokens_ruleText (isWord : IsWord name) :
    (Token.ofLine (ruleText name rewrite)).head? = some (.word name) := by
  rw [tokens_ruleText name rewrite isWord, List.head?_cons]

theorem ofLine_ruleText (named : isName name = true) (isWord : IsWord name)
    (areWords : ∀ production ∈ rewrite, IsWord (productionText production)) :
    ofLine (ruleText name rewrite) = .ok ⟨name, rewrite.map productionText⟩ := by
  rw [ofLine_eq_ok_iff, tokens_ruleText name rewrite isWord, Token.scan_intercalate]
  · exact ⟨rfl, named⟩
  · intro text member
    obtain ⟨production, inRewrite, rfl⟩ := List.mem_map.mp member
    exact areWords production inRewrite

theorem name_of_ofLine_ruleText (isWord : IsWord name) (rule : Rule)
    (read : ofLine (ruleText name rewrite) = .ok rule) : rule.name = name := by
  have tokens := ((ofLine_eq_ok_iff _ _).mp read).1
  rw [tokens_ruleText name rewrite isWord] at tokens
  injection tokens with same _
  exact (Token.word.inj same).symm

theorem not_holdsArrow_of_ofLine_ruleText (isWord : IsWord name) (rule : Rule)
    (read : ofLine (ruleText name rewrite) = .ok rule) (production : Production)
    (member : production ∈ rewrite) : ¬ HoldsArrow (productionText production).toList := by
  intro holds
  have tokens := ((ofLine_eq_ok_iff _ _).mp read).1
  rw [tokens_ruleText name rewrite isWord] at tokens
  have within := infix_intercalate " " _ _ (List.mem_map_of_mem (f := productionText) member)
  have secondArrow : Token.arrow ∈ rule.words.map Token.word := by
    rw [← (List.cons.inj (List.cons.inj tokens).2).2, Token.arrow_mem_scan_iff]
    exact List.IsInfix.trans holds within
  simp at secondArrow

end Writing

end Rule

namespace Text

section Joining

theorem allLines_append_newline {α : Type} [DecidableEq α] (newline : α) (items rest : List α)
    (single : newline ∉ items) :
    allLines newline (items ++ newline :: rest) = items :: allLines newline rest := by
  unfold allLines
  rw [splitLines_append_newline newline [] items rest single]
  by_cases ended : (splitLines newline [] rest).2 = [] <;> simp [ended]

theorem lines_intercalate (lines : List String) (single : ∀ line ∈ lines, '\n' ∉ line.toList)
    (nonempty : ∀ line ∈ lines, line ≠ "") : Text.lines ("\n".intercalate lines) = lines := by
  induction lines with
  | nil => rfl
  | cons first rest ih =>
      have here := single first List.mem_cons_self
      cases rest with
      | nil =>
          have some : first.toList ≠ [] := by
            simpa using nonempty first List.mem_cons_self
          simp [Text.lines, allLines, splitLines_of_not_mem _ _ _ here, some]
      | cons second later =>
          have others := ih (fun line member => single line (List.mem_cons_of_mem first member))
            fun line member => nonempty line (List.mem_cons_of_mem first member)
          rw [Text.lines] at others ⊢
          rw [String.intercalate_cons_cons, String.toList_append, String.toList_append,
            List.append_assoc]
          rw [show "\n".toList ++ ("\n".intercalate (second :: later)).toList =
            '\n' :: ("\n".intercalate (second :: later)).toList from rfl,
            allLines_append_newline _ _ _ here, List.map_cons, others, String.ofList_toList]

end Joining

end Text

end LeftRecursion
