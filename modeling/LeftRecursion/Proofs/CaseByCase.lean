import LeftRecursion.Proofs.Layout
import LeftRecursion.Proofs.Readings

/-!
Batches and their cases. A batch is written as the number of its cases and, for each case,
blank lines, the number of its rules and the rules, whatever these look like. Reading it
finds every case where it was written. What a case comes to hangs on its lines alone, so a
batch comes to what its cases come to one at a time, in their order.
-/

namespace LeftRecursion

namespace Reading

section Texts

variable (start : String)

theorem grammarOf_congr (first second : List (Located Rule))
    (same : first.map Located.value = second.map Located.value) :
    grammarOf start first = grammarOf start second := by
  have named : ∀ rules, namesOf rules =
      longestFirst ((rules.map Located.value).map Rule.name).eraseDups := by
    intro rules
    rw [namesOf, List.map_map, Function.comp_def]
  have folded : ∀ rules, grammarOf start rules =
      (rules.map Located.value).foldl (fun grammar rule => grammar.insert rule.name
        (rule.words.map (readAlternative (namesOf rules)))) (.empty start) := by
    intro rules
    rw [List.foldl_map]
    rfl
  rw [folded, folded, named, named, same]

/-- A grammar hangs on the texts of the lines, not on their place and numbers. -/
theorem grammar_ofNumbered (location : Location) (lines : List (Nat × String)) :
    (ofNumbered start location lines).grammar =
      (ofLines start (lines.map Prod.snd)).grammar := by
  apply grammarOf_congr
  rw [rules_of_numbered, rules_of_lines]

end Texts

end Reading

namespace Batch

section Writing

def textOf (lines : List String) : String :=
  String.join (lines.map (· ++ "\n"))

theorem ofText_textOf (lines : List String) (unbroken : ∀ line ∈ lines, '\n' ∉ line.toList) :
    LineStream.ofText (textOf lines) none = .ofLines lines := by
  have split : Text.splitLines '\n' [] (textOf lines).toList = (lines.map String.toList, []) := by
    induction lines with
    | nil => rfl
    | cons line later ih =>
        have here := unbroken line List.mem_cons_self
        have there := ih fun other member => unbroken other (List.mem_cons_of_mem line member)
        have first : (textOf (line :: later)).toList =
            line.toList ++ '\n' :: (textOf later).toList := by
          simp [textOf, String.toList_join]
        rw [first, Text.splitLines_append_newline _ _ _ _ here, there]
        rfl
  simp [LineStream.ofText, split, LineStream.lastLine, LineStream.ofLines]

/-- A case as it is written in a batch, with no more rules than memory can hold. -/
structure WrittenCase where
  blanks : List String
  rules : List String
  blank : AreBlank blanks
  unbroken : ∀ line ∈ blanks ++ rules, '\n' ∉ line.toList
  granted : rules.length ≤ mostLines

def WrittenCase.announcement (written : WrittenCase) : List String :=
  written.blanks ++ [toString written.rules.length]

def WrittenCase.lines (written : WrittenCase) : List String :=
  written.announcement ++ written.rules

def batchLines (cases : List WrittenCase) : List String :=
  toString cases.length :: cases.flatMap WrittenCase.lines

end Writing

section Reading

theorem trim_of_solid (text : String) (solid : ∀ c ∈ text.toList, Text.isBlank c = false) :
    Text.trim text = text := by
  have kept : ∀ items : List Char, (∀ c ∈ items, Text.isBlank c = false) →
      Text.trimStart items = items := by
    intro items solid
    cases items with
    | nil => rfl
    | cons first later => simp [Text.trimStart, solid first List.mem_cons_self]
  rw [Text.trim, Text.trimEnd, kept _ solid, kept _ (by simpa using solid), List.reverse_reverse,
    String.ofList_toList]

theorem isBlank_of_isDigit (c : Char) (digit : c.isDigit = true) : Text.isBlank c = false := by
  simp only [Char.isDigit, Bool.and_eq_true, decide_eq_true_eq] at digit
  have low : 48 ≤ c.toNat := UInt32.le_iff_toNat_le.mp digit.1
  have high : c.toNat ≤ 57 := UInt32.le_iff_toNat_le.mp digit.2
  simp only [Text.isBlank, Bool.or_eq_false_iff, Bool.and_eq_false_iff, decide_eq_false_iff_not,
    beq_eq_false_iff_ne]
  omega

theorem announces_toString (blanks : List String) (blank : AreBlank blanks) (count : Nat)
    (counted : count < Text.countBound) : Announces (blanks ++ [toString count]) count := by
  have solid : Text.trim (toString count) = toString count :=
    trim_of_solid _ fun c member =>
      isBlank_of_isDigit c (Text.isDigit_of_mem_toString count c member)
  exact ⟨blanks, _, rfl, blank, by rw [solid, Text.readCount_toString count counted]⟩

theorem WrittenCase.announces (written : WrittenCase) :
    Announces written.announcement written.rules.length :=
  announces_toString written.blanks written.blank _
    (Nat.lt_of_le_of_lt written.granted (by decide))

/-- Written cases as they are read, from a number on and after so many lines. -/
def foundCases (number taken : Nat) : List WrittenCase → List Case
  | [] => []
  | written :: later =>
      ⟨number, Reading.numberFrom (taken + written.announcement.length + 1)
        (written.rules.map Text.trim)⟩ ::
          foundCases (number + 1) (taken + written.lines.length) later

theorem length_foundCases (number taken : Nat) (cases : List WrittenCase) :
    (foundCases number taken cases).length = cases.length := by
  induction cases generalizing number taken with
  | nil => rfl
  | cons written later ih => simp [foundCases, ih]

theorem HoldsCases.append_written {total : Nat} {before : List String} {held : List Case}
    (holds : HoldsCases total before held) (cases : List WrittenCase)
    (within : held.length + cases.length ≤ total) :
    HoldsCases total (before ++ cases.flatMap WrittenCase.lines)
      (held ++ foundCases (held.length + 1) before.length cases) := by
  induction cases generalizing before held with
  | nil => simpa [foundCases] using holds
  | cons written later ih =>
      rw [List.length_cons] at within
      have next := ih (.next holds (by omega) written.announces written.granted)
        (by simp; omega)
      simpa [foundCases, WrittenCase.lines, Nat.add_assoc] using next

theorem holdsCases_batchLines (cases : List WrittenCase)
    (counted : cases.length < Text.countBound) :
    HoldsCases cases.length (batchLines cases) (foundCases 1 1 cases) := by
  have opened : HoldsCases cases.length [toString cases.length] [] :=
    .opened (announces_toString [] areBlank_nil _ counted)
  exact opened.append_written cases (by simp)

theorem read_batchLines (location : Location) (cases : List WrittenCase)
    (counted : cases.length < Text.countBound) :
    ((Dialogue.ofInput false).read location (.start (.ofLines (batchLines cases)))).1 =
      .ok (foundCases 1 1 cases) := by
  have greeted : ∀ input, (Dialogue.ofInput false).read location input =
      Dialogue.askBatch.read location input := fun _ => rfl
  have asked := (holdsCases_batchLines cases counted).read location []
  rw [List.append_nil, length_foundCases, Nat.sub_self, Dialogue.askCases, Dialogue.read,
    List.reverse_reverse] at asked
  rw [greeted, asked]

@[simp] theorem takeRest_ofLines (location : Location) (taken : Nat) (lines : List String) :
    Input.takeRest location taken (.ofLines lines) =
      (.ok (Reading.numberFrom (taken + 1) (lines.map Text.trim)),
        ⟨taken + lines.length, []⟩) := by
  induction lines generalizing taken with
  | nil => rfl
  | cons line later ih =>
      have there := ih (taken + 1)
      simp only [LineStream.ofLines, List.map_cons, Input.takeRest] at there ⊢
      rw [there]
      simp [Except.map, Reading.numberFrom, Nat.add_assoc, Nat.add_comm 1]

theorem read_alone (location : Location) (lines : List String) :
    ((Dialogue.ofInput true).read location (.start (.ofLines lines))).1 =
      .ok [⟨1, Reading.numberFrom 1 (lines.map Text.trim)⟩] := by
  simp [Dialogue.ofInput, Dialogue.askSingle, Dialogue.read, Input.start]

end Reading

section Results

variable (start : String) (location : Location)

def outcomeOf (lines : List String) : Except Failure String :=
  (Reading.ofLines start lines).grammar.removeLeftRecursion.result.map Grammar.render

theorem Case.result_transform (work : Case) :
    (work.transform start location).result =
      (outcomeOf start (work.lines.map Prod.snd)).mapError (⟨location.forCase work.number, ·⟩) := by
  have same := Reading.grammar_ofNumbered start (location.forCase work.number) work.lines
  rw [Case.transform, outcomeOf, ← same]
  cases ended : (Reading.ofNumbered start (location.forCase work.number)
      work.lines).grammar.removeLeftRecursion.result with
  | error failure => simp [Except.map, Except.mapError]
  | ok grammar => simp [Except.map, Except.mapError]

namespace Report

variable (done : Logged (Located Failure) String)
  (results : List (Logged (Located Failure) String))

theorem cons_of_ok (text : String) (result : done.result = .ok text) :
    outputs (done :: results) = text :: outputs results ∧
      failuresOf (done :: results) = failuresOf results := by
  obtain ⟨events, _⟩ := done
  cases result
  exact ⟨rfl, rfl⟩

theorem cons_of_error (failure : Located Failure) (result : done.result = .error failure) :
    outputs (done :: results) = outputs results ∧
      failuresOf (done :: results) = failure :: failuresOf results := by
  obtain ⟨events, _⟩ := done
  cases result
  exact ⟨rfl, rfl⟩

def ofOne (place : Location) : Except Failure String → Report
  | .ok text => ⟨text, []⟩
  | .error failure => ⟨"", [⟨place, failure⟩]⟩

theorem ofOne_failures_length_le (place : Location) (outcome : Except Failure String) :
    (ofOne place outcome).failures.length ≤ 1 := by
  cases outcome <;> simp [ofOne]

end Report

theorem ofResults_transform (work : Case) :
    Report.ofResults [work.transform start location] =
      .ofOne (location.forCase work.number) (outcomeOf start (work.lines.map Prod.snd)) := by
  have result := work.result_transform start location
  rw [Report.ofResults]
  cases outcome : outcomeOf start (work.lines.map Prod.snd) with
  | ok text =>
      rw [outcome] at result
      obtain ⟨outputs, failures⟩ := Report.cons_of_ok _ [] text result
      rw [outputs, failures]
      rfl
  | error failure =>
      rw [outcome] at result
      obtain ⟨outputs, failures⟩ := Report.cons_of_error _ [] _ result
      rw [outputs, failures]
      rfl

theorem results_foundCases (place : Location) (number taken : Nat) (cases : List WrittenCase) :
    let reports := cases.map fun written =>
      Report.ofOne place (outcomeOf start (written.rules.map Text.trim))
    let results := (foundCases number taken cases).map (Case.transform start location)
    Report.outputs results =
        (reports.filter fun report => report.failures.isEmpty).map Report.text ∧
      Report.failuresOf results = (reports.zipIdx number).flatMap fun (report, number) =>
        report.failures.map fun failure => ⟨location.forCase number, failure.value⟩ := by
  induction cases generalizing number taken with
  | nil => exact ⟨rfl, rfl⟩
  | cons written later ih =>
      obtain ⟨outputs, failures⟩ := ih (number + 1) (taken + written.lines.length)
      have result := Case.result_transform start location ⟨number, Reading.numberFrom
        (taken + written.announcement.length + 1) (written.rules.map Text.trim)⟩
      rw [Reading.map_snd_numberFrom] at result
      simp only [foundCases, List.map_cons]
      cases outcome : outcomeOf start (written.rules.map Text.trim) with
      | ok text =>
          rw [outcome] at result
          obtain ⟨first, noFailure⟩ := Report.cons_of_ok _ _ text result
          rw [first, noFailure, outputs, failures]
          exact ⟨rfl, rfl⟩
      | error failure =>
          rw [outcome] at result
          obtain ⟨noOutput, first⟩ := Report.cons_of_error _ _ _ result
          rw [noOutput, first, outputs, failures]
          exact ⟨rfl, rfl⟩

end Results

section Agreement

variable (options : Options) (location : Location) (room : Option Room)

theorem run_alone (silent : options.interactive = false) (written : WrittenCase) :
    (run { options with single := true } location room
        (.ofText (textOf written.rules) none)).result =
      .ok (.ofOne (location.forCase 1)
        (outcomeOf options.start (written.rules.map Text.trim))) := by
  have unbroken : ∀ line ∈ written.rules, '\n' ∉ line.toList := fun line member =>
    written.unbroken line (List.mem_append_right written.blanks member)
  rw [(run_of_silent { options with single := true } location _ silent room).1, reported,
    ofText_textOf _ unbroken, read_alone, Except.map, transformCases_eq_map, List.map_singleton,
    ofResults_transform, Reading.map_snd_numberFrom]

theorem unbroken_batchLines (cases : List WrittenCase) :
    ∀ line ∈ batchLines cases, '\n' ∉ line.toList := by
  have number : ∀ count : Nat, '\n' ∉ (toString count).toList := by
    intro count member
    have digit := Text.isDigit_of_mem_toString count '\n' member
    simp at digit
  intro line member
  rw [batchLines, List.mem_cons, List.mem_flatMap] at member
  rcases member with rfl | ⟨written, _, inside⟩
  · exact number cases.length
  · simp only [WrittenCase.lines, WrittenCase.announcement, List.mem_append,
      List.mem_singleton] at inside
    rcases inside with (inBlanks | rfl) | inRules
    · exact written.unbroken line (List.mem_append_left _ inBlanks)
    · exact number written.rules.length
    · exact written.unbroken line (List.mem_append_right _ inRules)

/-- A batch comes to what its cases come to one at a time. It is read whole, however its
cases look; its text is made of the texts of the cases that go well alone, in their order,
and its failures are those of the other cases, each at its case as a whole. -/
theorem run_agrees_with_cases_alone (batched : options.single = false)
    (silent : options.interactive = false) (elsewhere : Location) (cases : List WrittenCase)
    (counted : cases.length < Text.countBound) :
    let alone := fun (written : WrittenCase) =>
      (run { options with single := true } elsewhere room
        (.ofText (textOf written.rules) none)).result
    ∃ reports : List Report, cases.map alone = reports.map .ok ∧
      (∀ report ∈ reports, report.failures.length ≤ 1) ∧
      (run options location room (.ofText (textOf (batchLines cases)) none)).result = .ok
        { text := "\n\n".intercalate
            ((reports.filter fun report => report.failures.isEmpty).map Report.text)
          failures := (reports.zipIdx 1).flatMap fun (report, number) =>
            report.failures.map fun failure => ⟨location.forCase number, failure.value⟩ } := by
  intro alone
  refine ⟨cases.map fun written => Report.ofOne (elsewhere.forCase 1)
    (outcomeOf options.start (written.rules.map Text.trim)), ?_, ?_, ?_⟩
  · rw [List.map_map]
    exact List.map_congr_left fun written _ => run_alone options elsewhere room silent written
  · simp only [List.forall_mem_map]
    exact fun written _ => Report.ofOne_failures_length_le _ _
  · obtain ⟨outputs, failures⟩ := results_foundCases options.start location
      (elsewhere.forCase 1) 1 1 cases
    rw [(run_of_silent options location _ silent room).1, reported, batched,
      ofText_textOf _ (unbroken_batchLines cases), read_batchLines location cases counted,
      Except.map, transformCases_eq_map, Report.ofResults, outputs, failures]

def threeCases : List WrittenCase :=
  [⟨["", "\t"], ["  S -> Sa b", "", "no rule"], by decide, by decide, by decide⟩,
    ⟨[], ["S -> Ab"], by decide, by decide, by decide⟩,
    ⟨[" "], ["E -> -> e", "E -> e"], by decide, by decide, by decide⟩]

theorem run_agrees_with_cases_alone_threeCases :
    let aloneFailure : Located Failure := ⟨Location.standardInput.forCase 1, .undefined "A"⟩
    let batchFailure : Located Failure := ⟨Location.standardInput.forCase 2, .undefined "A"⟩
    (threeCases.map fun written =>
        (run { single := true } .standardInput none (.ofText (textOf written.rules) none)).result) =
      [.ok ⟨"S -> bZ\nZ -> aZ e", []⟩, .ok ⟨"", [aloneFailure]⟩, .ok ⟨"E -> e", []⟩] ∧
    (run {} .standardInput none (.ofText (textOf (batchLines threeCases)) none)).result =
      .ok ⟨"S -> bZ\nZ -> aZ e\n\nE -> e", [batchFailure]⟩ := by
  intro aloneFailure batchFailure
  have alone : (threeCases.map fun written =>
      (run { single := true } .standardInput none (.ofText (textOf written.rules) none)).result) =
    ([⟨"S -> bZ\nZ -> aZ e", []⟩, ⟨"", [aloneFailure]⟩, ⟨"E -> e", []⟩] : List Report).map .ok := by
    decide +kernel
  obtain ⟨reports, singly, -, together⟩ := run_agrees_with_cases_alone {} .standardInput none
    rfl rfl .standardInput threeCases (by decide)
  obtain rfl := List.map_injective_iff.mpr (fun _ _ => Except.ok.inj) (singly.symm.trans alone)
  exact ⟨alone, together⟩

end Agreement

end Batch

end LeftRecursion
