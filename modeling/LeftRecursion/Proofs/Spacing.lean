import LeftRecursion.Proofs.Tokens

/-!
Lines and the ways to write them. Tokens are written one after another with blank
characters around them, as many as one likes, and none at all around an arrow; only two
words that follow each other need one between them. Whichever way is chosen, the line is
read as these tokens, and there is no line that is not such a way to write what is read
from it. A word next to an arrow may end in a dash or begin with the tip of an arrow: the
arrow is still found where it was written.
-/

namespace LeftRecursion

namespace Token

section Spellings

def characters : Token → List Char
  | arrow => ['-', '>']
  | word text => text.toList

/-- Whether a text is made of tokens, each with the blank characters that follow it, of which
there is one at least between two words. -/
inductive Spells : List Token → List Char → Prop where
  | nil : Spells [] []
  | cons (token : Token) (gap : List Char) {tokens : List Token} {text : List Char}
      (blank : ∀ c ∈ gap, Text.isBlank c = true)
      (apart : ∀ first second rest, token :: tokens = word first :: word second :: rest →
        gap ≠ [])
      (later : Spells tokens text) : Spells (token :: tokens) (token.characters ++ (gap ++ text))

/-- Whether a text is a way to write tokens out: blank characters may also precede them. -/
def IsSpelling (tokens : List Token) (text : List Char) : Prop :=
  ∃ lead body, (∀ c ∈ lead, Text.isBlank c = true) ∧ text = lead ++ body ∧ Spells tokens body

end Spellings

section Boundaries

def EndsWord (text : List Char) : Prop :=
  text = [] ∨ (∃ c rest, text = c :: rest ∧ Text.isBlank c = true) ∨
    ∃ rest, text = '-' :: '>' :: rest

theorem EndsWord.head?_ne {text : List Char} (ends : EndsWord text) : text.head? ≠ some '>' := by
  rcases ends with rfl | ⟨c, rest, rfl, blank⟩ | ⟨rest, rfl⟩
  · simp
  · rintro same
    obtain rfl := Option.some.inj same
    exact absurd blank (by decide)
  · simp

theorem scan_of_endsWord (held text : List Char) (ends : EndsWord text) :
    scan held text = finishWord held (scan [] text) := by
  rcases ends with rfl | ⟨c, rest, rfl, blank⟩ | ⟨rest, rfl⟩
  · rfl
  · rw [scan_blank held c rest blank, scan_blank [] c rest blank]
    rfl
  · rfl

variable {tokens : List Token} {text : List Char}

theorem Spells.endsWord (spells : Spells tokens text)
    (other : ∀ first rest, tokens ≠ word first :: rest) : EndsWord text := by
  cases spells with
  | nil => exact Or.inl rfl
  | cons token gap =>
      cases token with
      | arrow => exact Or.inr (Or.inr ⟨_, rfl⟩)
      | word first => exact absurd rfl (other first _)

end Boundaries

section Reading

variable {tokens : List Token} {text : List Char}

theorem scan_of_spells (spells : Spells tokens text)
    (areWords : ∀ first, word first ∈ tokens → IsWord first) : scan [] text = tokens := by
  induction spells with
  | nil => rfl
  | @cons token gap tokens text blank apart later ih =>
      have after : scan [] (gap ++ text) = tokens := by
        rw [scan_blanks gap text blank]
        exact ih fun first member => areWords first (List.mem_cons_of_mem token member)
      cases token with
      | arrow => exact (scan_arrow (gap ++ text)).trans (congrArg (arrow :: ·) after)
      | word first =>
          have isWord := areWords first List.mem_cons_self
          have ends : EndsWord (gap ++ text) := by
            cases gap with
            | nil =>
                apply later.endsWord
                rintro second rest rfl
                exact apart first second rest rfl rfl
            | cons c more => exact Or.inr (Or.inl ⟨c, _, rfl, blank c List.mem_cons_self⟩)
          rw [characters, scan_append [] _ _ isWord.solid isWord.whole fun both =>
            ends.head?_ne both.2, List.append_nil, scan_of_endsWord _ _ ends, after,
            finishWord_word first isWord.nonempty]

theorem isSpelling_finishWord (held gap : List Char)
    (blank : ∀ c ∈ gap, Text.isBlank c = true)
    (apart : ∀ second rest, tokens = word second :: rest → gap ≠ [])
    (spells : Spells tokens text) :
    IsSpelling (finishWord held tokens) (held.reverse ++ (gap ++ text)) := by
  cases held with
  | nil => exact ⟨gap, text, blank, rfl, spells⟩
  | cons c earlier =>
      have spelled := Spells.cons (word (String.ofList (c :: earlier).reverse)) gap blank
        (fun _ second rest same => apart second rest (List.cons.inj same).2) spells
      rw [characters, String.toList_ofList] at spelled
      exact ⟨[], _, by simp, rfl, spelled⟩

-- The induction follows the scanner. The held characters stand in front of the text that is
-- left, and a word that they make ends with the blank characters that come next.
theorem isSpelling_scan (held text : List Char) :
    IsSpelling (scan held text) (held.reverse ++ text) := by
  fun_induction scan held text with
  | case1 held => exact isSpelling_finishWord held [] (by simp) (by simp) .nil
  | case2 held rest ih =>
      obtain ⟨lead, body, blank, same, spells⟩ := ih
      obtain rfl : rest = lead ++ body := same
      exact isSpelling_finishWord held [] (by simp) (by simp)
        (Spells.cons arrow lead blank (by simp) spells)
  | case3 held c rest _ blankHere ih =>
      obtain ⟨lead, body, blank, same, spells⟩ := ih
      obtain rfl : rest = lead ++ body := same
      exact isSpelling_finishWord held (c :: lead) (List.forall_mem_cons.mpr ⟨blankHere, blank⟩)
        (by simp) spells
  | case4 held c rest _ _ ih => simpa using ih

theorem Spells.length_le (spells : Spells tokens text)
    (areWords : ∀ first, word first ∈ tokens → IsWord first) : tokens.length ≤ text.length := by
  induction spells with
  | nil => exact Nat.le_refl _
  | @cons token gap tokens text _ _ _ ih =>
      have after := ih fun first member => areWords first (List.mem_cons_of_mem token member)
      have here : 0 < token.characters.length := by
        cases token with
        | arrow => exact Nat.succ_pos 1
        | word first =>
            have nonempty := (areWords first List.mem_cons_self).nonempty
            exact List.length_pos_of_ne_nil (mt String.toList_eq_nil_iff.mp nonempty)
      simp only [List.length_cons, List.length_append]
      omega

end Reading

/-- Reading a line inverts writing it, with any spacing, and every line is a spelling of
the tokens that are read from it. Each of these takes one character at least. -/
theorem ofLine_inverts_spelling (line : String) :
    (∀ tokens, ofLine line = tokens ↔
      (∀ text, word text ∈ tokens → IsWord text) ∧ IsSpelling tokens line.toList) ∧
      (ofLine line).length ≤ line.length := by
  have spelled : IsSpelling (ofLine line) line.toList := isSpelling_scan [] line.toList
  have areWords := isWord_of_mem_ofLine line
  constructor
  · intro tokens
    constructor
    · rintro rfl
      exact ⟨areWords, spelled⟩
    · rintro ⟨valid, lead, body, blank, same, spells⟩
      rw [ofLine, same, scan_blanks lead body blank]
      exact scan_of_spells spells valid
  · obtain ⟨lead, body, _, same, spells⟩ := spelled
    have bound := spells.length_le areWords
    have size := congrArg List.length same
    rw [String.length_toList, List.length_append] at size
    omega

-- A word that ends in a dash, two arrows in a row, and a word that begins with the tip of one.
example : ofLine "A-->->>b ->" = [word "A-", arrow, arrow, word ">b", arrow] := by decide

end Token

end LeftRecursion
