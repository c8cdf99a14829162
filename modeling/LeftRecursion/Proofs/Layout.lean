import LeftRecursion.Proofs.Prompts

/-!
The layout of a batch: lines that announce the number of its cases, and for each case
lines that announce the number of its rules, with the rules after them. A count is
announced by the line that holds it, after any number of blank lines.

Reading follows the layout. After lines that hold some of the cases the others are asked
for, and wherever a batch is cut off within its layout, one more line is awaited: a count,
or a rule of the case that was announced last.
-/

namespace LeftRecursion.Batch

def LineStream.ofLines (lines : List String) : LineStream :=
  lines.map .ok

theorem LineStream.ofLines_append (first second : List String) :
    ofLines (first ++ second) = ofLines first ++ ofLines second :=
  List.map_append

@[simp] theorem LineStream.length_ofLines (lines : List String) :
    (ofLines lines).length = lines.length :=
  List.length_map _

theorem LineStream.take_ofLines_append (lines : List String) (back : LineStream) (count : Nat)
    (inside : count ≤ lines.length) :
    (ofLines lines ++ back).take count = ofLines (lines.take count) := by
  rw [List.take_append_of_le_length (length_ofLines lines ▸ inside), ofLines, ofLines,
    List.map_take]

section Counts

def AreBlank (lines : List String) : Prop :=
  ∀ line ∈ lines, Text.trim line = ""

instance (lines : List String) : Decidable (AreBlank lines) :=
  List.decidableBAll (fun line => Text.trim line = "") lines

theorem areBlank_nil : AreBlank [] :=
  List.forall_mem_nil _

/-- Whether lines announce a count: the last one holds it, and the others are blank. -/
def Announces (lines : List String) (count : Nat) : Prop :=
  ∃ blanks line, lines = blanks ++ [line] ∧ AreBlank blanks ∧
    Text.readCount (Text.trim line) = some count

variable (location : Location) (counted : Counted)

theorem takeCount_of_blank (taken : Nat) (blanks : List String) (blank : AreBlank blanks)
    (rest : LineStream) :
    Input.takeCount location counted taken (.ofLines blanks ++ rest) =
      Input.takeCount location counted (taken + blanks.length) rest := by
  induction blanks generalizing taken with
  | nil => rfl
  | cons first later ih =>
      have here : Text.trim first = "" := blank first List.mem_cons_self
      have there := ih (taken + 1) fun line member => blank line (List.mem_cons_of_mem first member)
      simp only [LineStream.ofLines, List.map_cons, List.cons_append, Input.takeCount, here,
        if_true] at there ⊢
      rw [there, List.length_cons, Nat.add_assoc, Nat.add_comm 1]

theorem readCount_empty : Text.readCount "" = none := by decide

theorem takeCount_of_announces (taken : Nat) (lines : List String) (count : Nat)
    (announces : Announces lines count) (rest : LineStream) :
    Input.takeCount location counted taken (.ofLines lines ++ rest) =
      (.ok count, ⟨taken + lines.length, rest⟩) := by
  obtain ⟨blanks, line, rfl, blank, holds⟩ := announces
  have solid : Text.trim line ≠ "" := by
    intro empty
    rw [empty, readCount_empty] at holds
    cases holds
  rw [LineStream.ofLines_append, List.append_assoc, takeCount_of_blank _ _ _ _ blank]
  simp [LineStream.ofLines, Input.takeCount, solid, holds, Nat.add_assoc]

theorem takeCount_of_refused (taken : Nat) (line : String) (solid : Text.trim line ≠ "")
    (refused : Text.readCount (Text.trim line) = none) (rest : LineStream) :
    Input.takeCount location counted taken (.ok line :: rest) =
      (.error ⟨location.atLine (taken + 1), .invalidCount (Text.trim line)⟩,
        ⟨taken + 1, rest⟩) := by
  simp [Input.takeCount, solid, refused]

end Counts

section Cases

/-- Whether lines announce so many cases in all and hold the given ones, whole and in order. -/
inductive HoldsCases (total : Nat) : List String → List Case → Prop where
  | opened {opening : List String} (announced : Announces opening total) :
      HoldsCases total opening []
  | next {before announcement rules : List String} {cases : List Case}
      (holds : HoldsCases total before cases) (more : cases.length < total)
      (announced : Announces announcement rules.length) (granted : rules.length ≤ mostLines) :
      HoldsCases total (before ++ announcement ++ rules)
        (cases ++ [⟨cases.length + 1, Reading.numberFrom (before.length + announcement.length + 1)
          (rules.map Text.trim)⟩])

theorem HoldsCases.length_le {total : Nat} {lines : List String} {cases : List Case}
    (holds : HoldsCases total lines cases) : cases.length ≤ total := by
  cases holds with
  | opened => exact Nat.zero_le total
  | next _ more =>
      rw [List.length_append]
      exact more

variable {α : Type} (location : Location)

open Dialogue

theorem read_count_of_announces (counted : Counted) (next : Nat → Dialogue α) (taken : Nat)
    (lines : List String) (number : Nat) (announces : Announces lines number)
    (rest : LineStream) :
    (count counted next).read location ⟨taken, .ofLines lines ++ rest⟩ =
      (next number).read location ⟨taken + lines.length, rest⟩ := by
  simp only [Dialogue.read, takeCount_of_announces location counted taken lines number announces]

theorem read_askRules (number expected taken : Nat) (rules : List String)
    (next : List (Nat × String) → Dialogue α) (left : Nat) (held : List (Nat × String))
    (rest : LineStream) :
    (askRules number expected next (left + rules.length) held).read location
        ⟨taken, .ofLines rules ++ rest⟩ =
      (askRules number expected next left
        ((Reading.numberFrom (taken + 1) (rules.map Text.trim)).reverse ++ held)).read location
          ⟨taken + rules.length, rest⟩ := by
  induction rules generalizing taken held with
  | nil => rfl
  | cons rule later ih =>
      have there := ih (taken + 1) ((taken + 1, Text.trim rule) :: held)
      simp only [LineStream.ofLines, List.map_cons, List.cons_append, List.length_cons,
        ← Nat.add_assoc, askRules, Dialogue.read, Input.takeLine] at there ⊢
      rw [there]
      simp [Reading.numberFrom, Nat.add_right_comm]

theorem read_askCase (number taken : Nat) (announcement rules : List String)
    (announced : Announces announcement rules.length) (granted : rules.length ≤ mostLines)
    (next : Case → Dialogue α) (rest : LineStream) :
    (askCase number next).read location ⟨taken, .ofLines (announcement ++ rules) ++ rest⟩ =
      (next ⟨number, Reading.numberFrom (taken + announcement.length + 1)
        (rules.map Text.trim)⟩).read location
          ⟨taken + (announcement ++ rules).length, rest⟩ := by
  have asked := read_askRules location number rules.length (taken + announcement.length) rules
    (fun lines => next ⟨number, lines⟩) 0 [] rest
  rw [Nat.zero_add] at asked
  simp only [askCase, Dialogue.read, LineStream.ofLines_append, List.append_assoc,
    takeCount_of_announces location _ _ _ _ announced, granted, if_true, asked, askRules,
    List.append_nil, List.reverse_reverse, List.length_append, Nat.add_assoc]

theorem HoldsCases.read {total : Nat} {lines : List String} {cases : List Case}
    (holds : HoldsCases total lines cases) (rest : LineStream) :
    askBatch.read location (.start (.ofLines lines ++ rest)) =
      (askCases total (total - cases.length) cases.reverse).read location
        ⟨lines.length, rest⟩ := by
  induction holds generalizing rest with
  | opened announced =>
      simp [askBatch, Dialogue.read, Input.start, takeCount_of_announces location _ _ _ _ announced]
  | @next before announcement rules cases holds more announced granted ih =>
      obtain ⟨left, rest_eq⟩ : ∃ left, total - cases.length = left + 1 :=
        ⟨total - cases.length - 1, by omega⟩
      have number : total - left = cases.length + 1 := by omega
      have others : total - (cases.length + 1) = left := by omega
      rw [List.append_assoc, LineStream.ofLines_append, List.append_assoc, ih, rest_eq, askCases,
        read_askCase location _ _ _ _ announced granted, number]
      simp [others, Nat.add_assoc]

end Cases

end LeftRecursion.Batch
