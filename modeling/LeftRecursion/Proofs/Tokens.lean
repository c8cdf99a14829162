import LeftRecursion.Rule.Token
import Mathlib.Data.List.Infix

/-!
Words and arrows in a text. A word is a text without blank characters and without
an arrow inside it. The tokens of a text are words and arrows, and a word is read
as it stands where nothing after it makes an arrow of its last character. An arrow
can come up where two texts meet, although neither of them holds one.
-/

namespace LeftRecursion

section Arrows

def HoldsArrow (text : List Char) : Prop :=
  ['-', '>'] <:+: text

instance (text : List Char) : Decidable (HoldsArrow text) :=
  inferInstanceAs (Decidable (_ <:+: _))

@[simp] theorem not_holdsArrow_nil : ¬ HoldsArrow [] := by
  simp [HoldsArrow]

@[simp] theorem not_holdsArrow_singleton (c : Char) : ¬ HoldsArrow [c] := by
  intro holds
  have bound := holds.length_le
  simp at bound

theorem holdsArrow_append_iff (front back : List Char) :
    HoldsArrow (front ++ back) ↔
      HoldsArrow front ∨ HoldsArrow back ∨
        front.getLast? = some '-' ∧ back.head? = some '>' := by
  unfold HoldsArrow
  rw [List.infix_append_iff]
  constructor
  · rintro (inFront | inBack | ⟨left, right, joined, inFront, inBack⟩)
    · exact Or.inl inFront
    · exact Or.inr (Or.inl inBack)
    · rcases List.cons_eq_append_iff.mp joined with ⟨rfl, rfl⟩ | ⟨tail, rfl, rest⟩
      · exact Or.inr (Or.inl inBack.isInfix)
      · rcases List.cons_eq_append_iff.mp rest with ⟨rfl, rfl⟩ | ⟨later, rfl, none⟩
        · obtain ⟨before, rfl⟩ := inFront
          obtain ⟨after, rfl⟩ := inBack
          exact Or.inr (Or.inr ⟨by simp, rfl⟩)
        · obtain ⟨rfl, rfl⟩ := List.append_eq_nil_iff.mp none.symm
          exact Or.inl inFront.isInfix
  · rintro (inFront | inBack | ⟨last, first⟩)
    · exact Or.inl inFront
    · exact Or.inr (Or.inl inBack)
    · obtain ⟨before, rfl⟩ := List.getLast?_eq_some_iff.mp last
      obtain ⟨after, rfl⟩ := List.head?_eq_some_iff.mp first
      exact Or.inr (Or.inr ⟨['-'], ['>'], rfl, List.suffix_append _ _, List.prefix_append _ _⟩)

@[simp] theorem holdsArrow_cons_iff (c : Char) (rest : List Char) :
    HoldsArrow (c :: rest) ↔ HoldsArrow rest ∨ c = '-' ∧ rest.head? = some '>' := by
  have joined := holdsArrow_append_iff [c] rest
  simpa using joined

end Arrows

/-- Whether a text can be one word of a line. -/
structure IsWord (text : String) : Prop where
  nonempty : text ≠ ""
  solid : ∀ c ∈ text.toList, Text.isBlank c = false
  whole : ¬ HoldsArrow text.toList

namespace Token

section Scanning

theorem scan_blank (held : List Char) (c : Char) (rest : List Char)
    (blank : Text.isBlank c = true) :
    scan held (c :: rest) = finishWord held (scan [] rest) := by
  have notDash : c ≠ '-' := by
    rintro rfl
    exact absurd blank (by decide)
  rw [scan.eq_def]
  simp [notDash, blank]

theorem scan_blanks (gap text : List Char) (blank : ∀ c ∈ gap, Text.isBlank c = true) :
    scan [] (gap ++ text) = scan [] text := by
  induction gap with
  | nil => rfl
  | cons c rest ih =>
      rw [List.cons_append, scan_blank [] c _ (blank c List.mem_cons_self)]
      exact ih fun d member => blank d (List.mem_cons_of_mem c member)

theorem scan_solid (held : List Char) (c : Char) (rest : List Char)
    (solid : Text.isBlank c = false) (apart : ¬ (c = '-' ∧ rest.head? = some '>')) :
    scan held (c :: rest) = scan (c :: held) rest := by
  rw [scan.eq_def]
  split
  · next empty => cases empty
  · next later same =>
      cases same
      exact absurd ⟨rfl, rfl⟩ apart
  · next same =>
      cases same
      exact if_neg (Bool.eq_false_iff.mp solid)

theorem scan_arrow (rest : List Char) : scan [] ('-' :: '>' :: rest) = arrow :: scan [] rest := rfl

-- The characters of a word are held until something ends it.
theorem scan_append (held word rest : List Char)
    (solid : ∀ c ∈ word, Text.isBlank c = false) (whole : ¬ HoldsArrow word)
    (apart : ¬ (word.getLast? = some '-' ∧ rest.head? = some '>')) :
    scan held (word ++ rest) = scan (word.reverse ++ held) rest := by
  induction word generalizing held with
  | nil => rfl
  | cons c later ih =>
      rw [holdsArrow_cons_iff, not_or] at whole
      have here : ¬ (c = '-' ∧ (later ++ rest).head? = some '>') := by
        cases later with
        | nil => simpa using apart
        | cons _ _ => simpa using whole.2
      have after : ¬ (later.getLast? = some '-' ∧ rest.head? = some '>') := by
        rintro ⟨last, first⟩
        exact apart ⟨by simp [List.getLast?_cons, last], first⟩
      rw [List.cons_append, scan_solid held c _ (solid c List.mem_cons_self) here,
        ih (c :: held) (fun d member => solid d (List.mem_cons_of_mem c member)) whole.1 after]
      simp

theorem finishWord_word (text : String) (nonempty : text ≠ "") (tokens : List Token) :
    finishWord text.toList.reverse tokens = word text :: tokens := by
  cases held : text.toList.reverse with
  | nil =>
      have none : text.toList = [] := by simpa using held
      exact absurd (String.toList_eq_nil_iff.mp none) nonempty
  | cons c rest =>
      have back : String.ofList (c :: rest).reverse = text := by
        rw [← held, List.reverse_reverse, String.ofList_toList]
      simp only [finishWord, back]

theorem scan_word (text : String) (isWord : IsWord text) : scan [] text.toList = [word text] := by
  have scanned := scan_append [] text.toList [] isWord.solid isWord.whole (by simp)
  rw [List.append_nil, List.append_nil] at scanned
  exact scanned.trans (finishWord_word text isWord.nonempty [])

theorem scan_word_blank (text : String) (isWord : IsWord text) (rest : List Char) :
    scan [] (text.toList ++ ' ' :: rest) = word text :: scan [] rest := by
  rw [scan_append [] text.toList _ isWord.solid isWord.whole (by simp), List.append_nil,
    scan_blank _ ' ' rest (by decide), finishWord_word text isWord.nonempty]

theorem scan_intercalate (words : List String) (areWords : ∀ text ∈ words, IsWord text) :
    scan [] (" ".intercalate words).toList = words.map word := by
  induction words with
  | nil => rfl
  | cons first rest ih =>
      have isWord := areWords first List.mem_cons_self
      cases rest with
      | nil => simpa using scan_word first isWord
      | cons second later =>
          have others := ih fun text member => areWords text (List.mem_cons_of_mem first member)
          rw [String.intercalate_cons_cons, String.toList_append, String.toList_append,
            List.append_assoc]
          exact (scan_word_blank first isWord _).trans (congrArg _ others)

@[simp] theorem arrow_mem_finishWord_iff (held : List Char) (tokens : List Token) :
    arrow ∈ finishWord held tokens ↔ arrow ∈ tokens := by
  cases held <;> simp [finishWord]

theorem arrow_mem_scan_iff (held characters : List Char) :
    arrow ∈ scan held characters ↔ HoldsArrow characters := by
  fun_induction scan held characters with
  | case1 held => simp
  | case2 held rest ih => simp
  | case3 held c rest notArrow blank ih =>
      have notDash : c ≠ '-' := by
        rintro rfl
        exact absurd blank (by decide)
      rw [arrow_mem_finishWord_iff, ih, holdsArrow_cons_iff]
      simp [notDash]
  | case4 held c rest notArrow _ ih =>
      have apart : ¬ (c = '-' ∧ rest.head? = some '>') := by
        rintro ⟨same, first⟩
        obtain ⟨later, found⟩ := List.head?_eq_some_iff.mp first
        exact notArrow later same found
      rw [ih, holdsArrow_cons_iff]
      simp [apart]

theorem isWord_of_mem_finishWord (held : List Char) (tokens : List Token)
    (solid : ∀ c ∈ held, Text.isBlank c = false) (whole : ¬ HoldsArrow held.reverse)
    (text : String) (member : word text ∈ finishWord held tokens) :
    IsWord text ∨ word text ∈ tokens := by
  cases held with
  | nil => exact Or.inr member
  | cons last earlier =>
      rcases List.mem_cons.mp member with same | later
      · rw [word.injEq] at same
        subst same
        refine Or.inl ⟨by simp, fun c inWord => solid c ?_, by simpa using whole⟩
        simpa [or_comm] using inWord
      · exact Or.inr later

/-- What is read as a word is one. The held characters are free of arrows, and so
is the place where the next character joins them. -/
theorem isWord_of_mem_scan (held characters : List Char)
    (solid : ∀ c ∈ held, Text.isBlank c = false) (whole : ¬ HoldsArrow held.reverse)
    (apart : ¬ (held.head? = some '-' ∧ characters.head? = some '>'))
    (text : String) (member : word text ∈ scan held characters) : IsWord text := by
  fun_induction scan held characters with
  | case1 held =>
      rcases isWord_of_mem_finishWord held [] solid whole text member with isWord | later
      · exact isWord
      · cases later
  | case2 held rest ih =>
      rcases isWord_of_mem_finishWord held _ solid whole text member with isWord | later
      · exact isWord
      · rcases List.mem_cons.mp later with impossible | inRest
        · cases impossible
        · exact ih (by simp) not_holdsArrow_nil (by simp) inRest
  | case3 held c rest _ _ ih =>
      rcases isWord_of_mem_finishWord held _ solid whole text member with isWord | later
      · exact isWord
      · exact ih (by simp) not_holdsArrow_nil (by simp) later
  | case4 held c rest notArrow notBlank ih =>
      apply ih _ _ _ member
      · intro d inHeld
        rcases List.mem_cons.mp inHeld with rfl | old
        · simpa using notBlank
        · exact solid d old
      · rw [List.reverse_cons, holdsArrow_append_iff]
        rintro (old | single | ⟨last, first⟩)
        · exact whole old
        · exact not_holdsArrow_singleton c single
        · exact apart ⟨by simpa using last, first⟩
      · rintro ⟨same, first⟩
        obtain ⟨later, found⟩ := List.head?_eq_some_iff.mp first
        exact notArrow later (by simpa using same) found

theorem isWord_of_mem_ofLine (line text : String) (member : word text ∈ ofLine line) :
    IsWord text :=
  isWord_of_mem_scan [] line.toList (by simp) not_holdsArrow_nil (by simp) text member

end Scanning

end Token

end LeftRecursion
