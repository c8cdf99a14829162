import LeftRecursion.Proofs.Layout

/-!
Batches that are cut off. As long as the lines of a batch keep to its layout, either more
are awaited or they close it: all cases are there, or the last line is refused as a count,
or it announces more rules than memory can hold. Reading takes the lines that close a batch
and no others.
-/

namespace LeftRecursion.Batch

inductive Awaited where
  | count (counted : Counted)
  | rule (caseNumber expected found : Nat)

def Awaited.atEnd (location : Location) (taken : Nat) : Awaited → Located Fault
  | count counted => ⟨location.atLine taken, .missingCount counted⟩
  | rule caseNumber expected found =>
      ⟨(location.forCase caseNumber).atLine taken, .unexpectedEnd expected found⟩

section Layout

/-- Whether lines end with the announcement of a case and of the number of its rules. -/
inductive OpensCase : List String → Nat → Nat → Prop where
  | opened {total expected : Nat} {before announcement : List String} {cases : List Case}
      (holds : HoldsCases total before cases) (more : cases.length < total)
      (announced : Announces announcement expected) (granted : expected ≤ mostLines) :
      OpensCase (before ++ announcement) (cases.length + 1) expected

/-- What is awaited after the lines of a batch that is not complete. -/
inductive Opens : List String → Awaited → Prop where
  | cases {blanks : List String} (blank : AreBlank blanks) : Opens blanks (.count .cases)
  | rules {total : Nat} {before blanks : List String} {cases : List Case}
      (holds : HoldsCases total before cases) (more : cases.length < total)
      (blank : AreBlank blanks) : Opens (before ++ blanks) (.count .rules)
  | rule {before rules : List String} {number expected : Nat}
      (opened : OpensCase before number expected) (more : rules.length < expected) :
      Opens (before ++ rules) (.rule number expected rules.length)

/-- What is read from lines that leave nothing to be awaited. -/
inductive Closes (location : Location) :
    List String → Except Halt (List Case) → Prop where
  | whole {total : Nat} {lines : List String} {cases : List Case}
      (holds : HoldsCases total lines cases) (all : cases.length = total) :
      Closes location lines (.ok cases)
  | refused {front : List String} {line : String} {counted : Counted}
      (opens : Opens front (.count counted)) (solid : Text.trim line ≠ "")
      (refused : Text.readCount (Text.trim line) = none) :
      Closes location (front ++ [line])
        (.error (.fault ⟨location.atLine (front.length + 1), .invalidCount (Text.trim line)⟩))
  | overflow {total expected : Nat} {before announcement : List String} {cases : List Case}
      (holds : HoldsCases total before cases) (more : cases.length < total)
      (announced : Announces announcement expected) (exceeds : mostLines < expected) :
      Closes location (before ++ announcement) (.error .overflow)

end Layout

section Course

variable (location : Location)

def Keeps (lines : List String) : Prop :=
  (∃ awaited, Opens lines awaited) ∨ ∃ result, Closes location lines result

theorem AreBlank.concat {blanks : List String} {line : String} (blank : AreBlank blanks)
    (empty : Text.trim line = "") : AreBlank (blanks ++ [line]) := by
  intro other member
  rcases List.mem_append.mp member with before | last
  · exact blank other before
  · rwa [List.mem_singleton.mp last]

theorem HoldsCases.keeps {total : Nat} {lines : List String} {cases : List Case}
    (holds : HoldsCases total lines cases) : Keeps location lines := by
  rcases Nat.lt_or_eq_of_le holds.length_le with more | all
  · have opens := Opens.rules holds more areBlank_nil
    rw [List.append_nil] at opens
    exact .inl ⟨_, opens⟩
  · exact .inr ⟨_, .whole holds all⟩

theorem OpensCase.keeps {before rules : List String} {number expected : Nat}
    (opened : OpensCase before number expected) (within : rules.length ≤ expected) :
    Keeps location (before ++ rules) := by
  rcases Nat.lt_or_eq_of_le within with more | all
  · exact .inl ⟨_, .rule opened more⟩
  · obtain ⟨holds, more, announced, granted⟩ := opened
    exact (HoldsCases.next holds more (all ▸ announced) (all ▸ granted)).keeps location

theorem HoldsCases.keeps_announced {total expected : Nat} {before announcement : List String}
    {cases : List Case} (holds : HoldsCases total before cases) (more : cases.length < total)
    (announced : Announces announcement expected) : Keeps location (before ++ announcement) := by
  by_cases granted : expected ≤ mostLines
  · have keeps : Keeps location (before ++ announcement ++ []) :=
      (OpensCase.opened holds more announced granted).keeps location (Nat.zero_le expected)
    rwa [List.append_nil] at keeps
  · exact .inr ⟨_, .overflow holds more announced (Nat.lt_of_not_le granted)⟩

theorem Opens.step {lines : List String} {awaited : Awaited} (opens : Opens lines awaited)
    (line : String) : Keeps location (lines ++ [line]) := by
  cases awaited with
  | count counted =>
      by_cases empty : Text.trim line = ""
      · left
        cases opens with
        | cases blank => exact ⟨_, .cases (blank.concat empty)⟩
        | rules holds more blank =>
            rw [List.append_assoc]
            exact ⟨_, .rules holds more (blank.concat empty)⟩
      · cases announced : Text.readCount (Text.trim line) with
        | none => exact .inr ⟨_, .refused opens empty announced⟩
        | some number =>
            cases opens with
            | cases blank =>
                have opening : HoldsCases number _ [] := .opened ⟨_, line, rfl, blank, announced⟩
                exact opening.keeps location
            | rules holds more blank =>
                rw [List.append_assoc]
                exact holds.keeps_announced location more ⟨_, line, rfl, blank, announced⟩
  | rule number expected found =>
      cases opens with
      | @rule before rules _ _ opened more =>
          have within : (rules ++ [line]).length ≤ expected := by
            rw [List.length_append]
            exact more
          rw [List.append_assoc]
          exact opened.keeps location within

/-- The lines of any stream keep to the layout up to where they close a batch, or to the
end of the stream, or to a line that cannot be read. -/
theorem Opens.course {lines : List String} {awaited : Awaited} (opens : Opens lines awaited)
    (stream : LineStream) :
    ∃ more back, stream = .ofLines more ++ back ∧
      (∀ cut < more.length, ∃ awaited, Opens (lines ++ more.take cut) awaited) ∧
      ((∃ result, Closes location (lines ++ more) result) ∨
        (∃ awaited, Opens (lines ++ more) awaited) ∧
          (back = [] ∨ ∃ fault rest, back = .error fault :: rest)) := by
  induction stream generalizing lines awaited with
  | nil => exact ⟨[], [], rfl, by simp, .inr ⟨⟨_, by simpa using opens⟩, .inl rfl⟩⟩
  | cons first later ih =>
      cases first with
      | error fault =>
          exact ⟨[], _, rfl, by simp, .inr ⟨⟨_, by simpa using opens⟩, .inr ⟨fault, later, rfl⟩⟩⟩
      | ok line =>
          rcases opens.step location line with ⟨_, still⟩ | closed
          · obtain ⟨more, back, rfl, opensBefore, ended⟩ := ih still
            rw [List.append_assoc] at ended
            refine ⟨line :: more, back, rfl, ?_, ended⟩
            intro cut inside
            cases cut with
            | zero => exact ⟨_, by simpa using opens⟩
            | succ cut =>
                have before := opensBefore cut (Nat.lt_of_succ_lt_succ inside)
                rwa [List.append_assoc] at before
          · refine ⟨[line], later, rfl, ?_, .inl closed⟩
            intro cut inside
            obtain rfl : cut = 0 := Nat.lt_one_iff.mp inside
            exact ⟨_, by simpa using opens⟩

end Course

section Reading

variable {α : Type} (location : Location)

open Dialogue

/-- Whether a dialogue asks for a line, whatever it says before. -/
inductive Awaits : Dialogue α → Awaited → Prop where
  | say (prompt : String) {next : Dialogue α} {awaited : Awaited}
      (awaits : Awaits next awaited) : Awaits (.say prompt next) awaited
  | count (counted : Counted) (next : Nat → Dialogue α) :
      Awaits (.count counted next) (.count counted)
  | rule (caseNumber expected found : Nat) (next : Nat × String → Dialogue α) :
      Awaits (.rule caseNumber expected found next) (.rule caseNumber expected found)

theorem Awaits.read_ended {dialogue : Dialogue α} {awaited : Awaited}
    (awaits : Awaits dialogue awaited) (taken : Nat) :
    dialogue.read location ⟨taken, []⟩ =
      (.error (.fault (awaited.atEnd location taken)), ⟨taken, []⟩) := by
  induction awaits with
  | say prompt _ ih => exact ih
  | count | rule => rfl

theorem Awaits.read_failed {dialogue : Dialogue α} {awaited : Awaited}
    (awaits : Awaits dialogue awaited) (taken : Nat) (fault : DeviceFault) (rest : LineStream) :
    dialogue.read location ⟨taken, .error fault :: rest⟩ =
      (.error (.fault ⟨location.atLine (taken + 1), .device fault⟩), ⟨taken + 1, rest⟩) := by
  induction awaits with
  | say prompt _ ih => exact ih
  | count | rule => rfl

theorem Awaits.read_blank {dialogue : Dialogue α} {counted : Counted}
    (awaits : Awaits dialogue (.count counted)) (taken : Nat) (blanks : List String)
    (blank : AreBlank blanks) (rest : LineStream) :
    dialogue.read location ⟨taken, .ofLines blanks ++ rest⟩ =
      dialogue.read location ⟨taken + blanks.length, rest⟩ := by
  generalize counts : Awaited.count counted = awaited at awaits
  induction awaits with
  | say prompt _ ih => exact ih counts
  | count counted next =>
      simp only [Dialogue.read, takeCount_of_blank location counted taken blanks blank]
  | rule => cases counts

theorem Awaits.read_refused {dialogue : Dialogue α} {counted : Counted}
    (awaits : Awaits dialogue (.count counted)) (taken : Nat) (line : String)
    (solid : Text.trim line ≠ "") (refused : Text.readCount (Text.trim line) = none)
    (rest : LineStream) :
    dialogue.read location ⟨taken, .ok line :: rest⟩ =
      (.error (.fault ⟨location.atLine (taken + 1), .invalidCount (Text.trim line)⟩),
        ⟨taken + 1, rest⟩) := by
  generalize counts : Awaited.count counted = awaited at awaits
  induction awaits with
  | say prompt _ ih => exact ih counts
  | count counted next =>
      simp only [Dialogue.read, takeCount_of_refused location counted taken line solid refused]
  | rule => cases counts

theorem askBatch_awaits : Awaits askBatch (.count .cases) :=
  .say _ (.count _ _)

theorem askCases_awaits (total left : Nat) (held : List Case) :
    Awaits (askCases total (left + 1) held) (.count .rules) :=
  .say _ (.say _ (.count _ _))

theorem askRules_awaits (number expected left : Nat) (next : List (Nat × String) → Dialogue α)
    (held : List (Nat × String)) :
    Awaits (askRules number expected next (left + 1) held)
      (.rule number expected (expected - (left + 1))) :=
  .say _ (.rule _ _ _ _)

theorem HoldsCases.read_announced {total expected : Nat} {before announcement : List String}
    {cases : List Case} (holds : HoldsCases total before cases) (more : cases.length < total)
    (announced : Announces announcement expected) :
    ∃ next, ∀ rest, askBatch.read location (.start (.ofLines (before ++ announcement) ++ rest)) =
      (reserve expected (askRules (cases.length + 1) expected next expected [])).read location
        ⟨(before ++ announcement).length, rest⟩ := by
  obtain ⟨left, unread⟩ : ∃ left, total - cases.length = left + 1 :=
    ⟨total - cases.length - 1, by omega⟩
  have number : total - left = cases.length + 1 := by omega
  refine ⟨fun lines => askCases total left (⟨cases.length + 1, lines⟩ :: cases.reverse), ?_⟩
  intro rest
  rw [LineStream.ofLines_append, List.append_assoc, holds.read, unread, askCases, askCase,
    Dialogue.read, Dialogue.read, read_count_of_announces location _ _ _ _ _ announced,
    Dialogue.read, Dialogue.read, number, List.length_append]

theorem OpensCase.read {lines : List String} {number expected : Nat}
    (opened : OpensCase lines number expected) :
    ∃ next, ∀ rest, askBatch.read location (.start (.ofLines lines ++ rest)) =
      (askRules number expected next expected []).read location ⟨lines.length, rest⟩ := by
  obtain ⟨holds, more, announced, granted⟩ := opened
  obtain ⟨next, reads⟩ := holds.read_announced location more announced
  refine ⟨next, fun rest => ?_⟩
  rw [reads, Dialogue.read, if_pos granted]

theorem Opens.read {lines : List String} {awaited : Awaited} (opens : Opens lines awaited) :
    ∃ dialogue, Awaits dialogue awaited ∧
      ∀ rest, askBatch.read location (.start (.ofLines lines ++ rest)) =
        dialogue.read location ⟨lines.length, rest⟩ := by
  cases opens with
  | cases blank =>
      refine ⟨askBatch, askBatch_awaits, fun rest => ?_⟩
      rw [Input.start, askBatch_awaits.read_blank location _ _ blank, Nat.zero_add]
  | @rules total before blanks cases holds more blank =>
      obtain ⟨left, unread⟩ : ∃ left, total - cases.length = left + 1 :=
        ⟨total - cases.length - 1, by omega⟩
      have awaits := askCases_awaits total left cases.reverse
      refine ⟨_, awaits, fun rest => ?_⟩
      rw [LineStream.ofLines_append, List.append_assoc, holds.read, unread,
        awaits.read_blank location _ _ blank, List.length_append]
  | @rule before rules number expected opened more =>
      obtain ⟨next, reads⟩ := opened.read location
      obtain ⟨left, unread⟩ : ∃ left, left + 1 + rules.length = expected :=
        ⟨expected - rules.length - 1, by omega⟩
      have found : expected - (left + 1) = rules.length := by omega
      obtain ⟨held, asked⟩ : ∃ held, ∀ rest,
          (askRules number expected next expected []).read location
              ⟨before.length, .ofLines rules ++ rest⟩ =
            (askRules number expected next (left + 1) held).read location
              ⟨before.length + rules.length, rest⟩ :=
        ⟨_, unread ▸ read_askRules location number (left + 1 + rules.length) before.length rules
          next (left + 1) []⟩
      refine ⟨_, found ▸ askRules_awaits number expected left next held, fun rest => ?_⟩
      rw [LineStream.ofLines_append, List.append_assoc, reads, asked, List.length_append]

theorem Closes.read {lines : List String} {result : Except Halt (List Case)}
    (closes : Closes location lines result) (rest : LineStream) :
    askBatch.read location (.start (.ofLines lines ++ rest)) = (result, ⟨lines.length, rest⟩) := by
  cases closes with
  | whole holds all =>
      rw [holds.read, all, Nat.sub_self, askCases, Dialogue.read, List.reverse_reverse]
  | @refused front line counted opens solid refused =>
      obtain ⟨dialogue, awaits, reads⟩ := opens.read location
      rw [LineStream.ofLines_append, List.append_assoc, reads, List.length_append]
      exact awaits.read_refused location front.length line solid refused rest
  | overflow holds more announced exceeds =>
      obtain ⟨next, reads⟩ := holds.read_announced location more announced
      rw [reads, Dialogue.read, if_neg (Nat.not_le.mpr exceeds)]

theorem Opens.read_ended {lines : List String} {awaited : Awaited} (opens : Opens lines awaited) :
    askBatch.read location (.start (.ofLines lines)) =
      (.error (.fault (awaited.atEnd location lines.length)), ⟨lines.length, []⟩) := by
  obtain ⟨dialogue, awaits, reads⟩ := opens.read location
  have ended := reads []
  rwa [List.append_nil, awaits.read_ended] at ended

theorem Opens.read_truncated {lines : List String} {awaited : Awaited}
    (opens : Opens lines awaited) :
    let read := (askBatch.read location (.start (.ofLines lines))).1
    (∃ counted, read = .error (.fault ⟨location.atLine lines.length, .missingCount counted⟩)) ∨
      ∃ (before delivered : List String) (number expected : Nat),
        lines = before ++ delivered ∧
        OpensCase before number expected ∧ delivered.length < expected ∧
        read = .error (.fault ⟨(location.forCase number).atLine lines.length,
          .unexpectedEnd expected delivered.length⟩) := by
  intro read
  have ended : read = .error (.fault (awaited.atEnd location lines.length)) :=
    congrArg Prod.fst (opens.read_ended location)
  cases opens with
  | cases | rules => exact .inl ⟨_, ended⟩
  | @rule before delivered number expected opened more =>
      exact .inr ⟨before, delivered, number, expected, rfl, opened, more, ended⟩

theorem Opens.read_failed {lines : List String} {awaited : Awaited} (opens : Opens lines awaited)
    (fault : DeviceFault) (rest : LineStream) :
    askBatch.read location (.start (.ofLines lines ++ .error fault :: rest)) =
      (.error (.fault ⟨location.atLine (lines.length + 1), .device fault⟩),
        ⟨lines.length + 1, rest⟩) := by
  obtain ⟨dialogue, awaits, reads⟩ := opens.read location
  rw [reads, awaits.read_failed]

/-- Whether reading came to its end, or to a line that is refused as a count or breaks it off. -/
def IsDecided : Except Halt (List Case) → Prop
  | .ok _ | .error .overflow => True
  | .error (.fault found) => ∃ text, found.value = .invalidCount text

theorem not_isDecided_atEnd (awaited : Awaited) (taken : Nat) :
    ¬ IsDecided (.error (.fault (awaited.atEnd location taken))) := by
  rintro ⟨text, invalid⟩
  cases awaited <;> cases invalid

theorem closes_of_isDecided (stream : LineStream)
    (decided : IsDecided (askBatch.read location (.start stream)).1) :
    ∃ lines back result, stream = .ofLines lines ++ back ∧ Closes location lines result ∧
      ∀ cut < lines.length, ∃ awaited, Opens (lines.take cut) awaited := by
  have start : Opens [] (.count .cases) := .cases areBlank_nil
  obtain ⟨lines, back, rfl, opensBefore, closed | ⟨⟨awaited, opens⟩, ended | failed⟩⟩ :=
    start.course location stream
  · obtain ⟨result, closes⟩ := closed
    exact ⟨lines, back, result, rfl, closes, opensBefore⟩
  · rw [List.nil_append] at opens
    rw [ended, List.append_nil, opens.read_ended] at decided
    exact absurd decided (not_isDecided_atEnd location awaited lines.length)
  · obtain ⟨fault, rest, rfl⟩ := failed
    rw [List.nil_append] at opens
    rw [opens.read_failed] at decided
    obtain ⟨text, invalid⟩ := decided
    cases invalid

end Reading

section Cuts

variable (options : Options) (location : Location) (room : Option Room)

def readStream (stream : LineStream) : Except Halt (List Case) × Session :=
  readCases options location ⟨.start stream, .start options.interactive room⟩

theorem readStream_of_silent (batched : options.single = false)
    (silent : options.interactive = false) (stream : LineStream) :
    (readStream options location room stream).1 =
        (Dialogue.askBatch.read location (.start stream)).1 ∧
      (readStream options location room stream).2.input =
        (Dialogue.askBatch.read location (.start stream)).2 := by
  have written := (Dialogue.ofInput options.single).run_eq_write location (.start stream)
    (.start options.interactive room)
  rw [silent, Console.write_of_not_wanted _ _ rfl] at written
  rw [readStream, readCases, silent, written, batched]
  exact ⟨rfl, rfl⟩

/-- Where reading is decided, every stream that begins with the lines taken comes to the same.
One that ends sooner is found to lack a count, or rules of the case that it opened last, and
one that fails sooner is reported at the line that cannot be read. -/
theorem read_decided_by_lines_taken (batched : options.single = false)
    (silent : options.interactive = false) (stream : LineStream)
    (decided : IsDecided (readStream options location room stream).1) :
    let read := fun other => (readStream options location room other).1
    let taken := (readStream options location room stream).2.input.taken
    taken ≤ stream.length ∧
    (∀ other : LineStream, other.take taken = stream.take taken → read other = read stream) ∧
    ∀ cut < taken,
      ((∃ counted, read (stream.take cut) =
          .error (.fault ⟨location.atLine cut, .missingCount counted⟩)) ∨
        ∃ (before delivered : List String) (number expected : Nat),
          stream.take cut = LineStream.ofLines (before ++ delivered) ∧
          OpensCase before number expected ∧ delivered.length < expected ∧
          read (stream.take cut) = .error (.fault ⟨(location.forCase number).atLine cut,
            .unexpectedEnd expected delivered.length⟩)) ∧
      ∀ fault rest, read (stream.take cut ++ .error fault :: rest) =
        .error (.fault ⟨location.atLine (cut + 1), .device fault⟩) := by
  intro read taken
  have heard : ∀ other, read other = (Dialogue.askBatch.read location (.start other)).1 :=
    fun other => (readStream_of_silent options location room batched silent other).1
  have counted : taken = (Dialogue.askBatch.read location (.start stream)).2.taken :=
    congrArg Input.taken (readStream_of_silent options location room batched silent stream).2
  obtain ⟨lines, back, result, rfl, closes, opensBefore⟩ :=
    closes_of_isDecided location stream (heard stream ▸ decided)
  have length : taken = lines.length := by rw [counted, closes.read]
  clear_value taken
  subst length
  refine ⟨by simp, ?_, ?_⟩
  · intro other same
    rw [LineStream.take_ofLines_append lines back _ (Nat.le_refl _), List.take_length] at same
    rw [heard, heard, ← List.take_append_drop lines.length other, same, closes.read, closes.read]
  · intro cut inside
    obtain ⟨awaited, opens⟩ := opensBefore cut inside
    have size : (lines.take cut).length = cut := by
      rw [List.length_take, Nat.min_eq_left (Nat.le_of_lt inside)]
    rw [LineStream.take_ofLines_append lines back cut (Nat.le_of_lt inside), heard]
    constructor
    · have truncated := opens.read_truncated location
      simp only [size] at truncated
      refine truncated.imp_right ?_
      rintro ⟨before, delivered, number, expected, split, unread⟩
      exact ⟨before, delivered, number, expected, congrArg _ split, unread⟩
    · intro fault rest
      rw [heard, opens.read_failed, size]

def twoRules : LineStream :=
  [.ok "1", .ok "", .ok "2", .ok "S -> Sa b", .ok "", .ok "S -> c"]

theorem read_decided_by_lines_taken_twoRules :
    let decided := readStream {} .standardInput none twoRules
    let ofRules := Location.standardInput.forCase 1
    decided = (.ok [⟨1, [(4, "S -> Sa b"), (5, "")]⟩], ⟨⟨5, [.ok "S -> c"]⟩, .start false none⟩) ∧
      (readStream {} .standardInput none (twoRules.take 5)).1 = decided.1 ∧
      (readStream {} .standardInput none (twoRules.take 4)).1 =
        .error (.fault ⟨ofRules.atLine 4, .unexpectedEnd 2 1⟩) ∧
      (readStream {} .standardInput none (twoRules.take 2 ++ [.error .invalidText])).1 =
        .error (.fault ⟨Location.standardInput.atLine 3, .device .invalidText⟩) := by
  intro decided ofRules
  have read : decided =
      (.ok [⟨1, [(4, "S -> Sa b"), (5, "")]⟩], ⟨⟨5, [.ok "S -> c"]⟩, .start false none⟩) := by
    decide +kernel
  obtain ⟨-, same, cut⟩ := read_decided_by_lines_taken {} .standardInput none rfl rfl twoRules
    (show IsDecided decided.1 by rw [read]; trivial)
  rw [show decided.2.input.taken = 5 by rw [read]] at same cut
  exact ⟨read, same (twoRules.take 5) rfl, by decide +kernel,
    (cut 2 (by decide)).2 .invalidText []⟩

end Cuts

end LeftRecursion.Batch
