import LeftRecursion.Batch.Report

/-!
Prompts. What a dialogue comes to hangs on its input alone, and so does what it says on
the way. To carry it out is to write all that it says to the console at once: where the
console takes it, the dialogue comes to what its input makes of it, and where the console
fails, nothing but the fault is left, with as much shown as there was room for.

Prompts are made of characters of one byte, so room for characters is room for bytes.
-/

namespace LeftRecursion.Batch

namespace Console

section Writing

variable (shown text : String) (left : Nat) (fault : DeviceFault)

@[simp] theorem write_of_unlimited :
    (⟨true, shown, none⟩ : Console).write text = (⟨true, shown ++ text, none⟩, none) := rfl

@[simp] theorem write_of_fits (fits : text.length ≤ left) :
    (⟨true, shown, some ⟨left, fault⟩⟩ : Console).write text =
      (⟨true, shown ++ text, some ⟨left - text.length, fault⟩⟩, none) := by
  simp [write, fits]

@[simp] theorem write_of_exceeds (exceeds : left < text.length) :
    (⟨true, shown, some ⟨left, fault⟩⟩ : Console).write text =
      (⟨true, shown ++ String.ofList (text.toList.take left), some ⟨0, fault⟩⟩, some fault) := by
  simp [write, Nat.not_le.mpr exceeds]

@[simp] theorem write_empty (console : Console) : console.write "" = (console, none) := by
  obtain ⟨wanted, shown, room⟩ := console
  match wanted, room with
  | false, _ => exact write_of_not_wanted _ _ rfl
  | true, none => simp
  | true, some ⟨left, fault⟩ => simp

theorem write_append (console : Console) (first second : String) :
    console.write (first ++ second) =
      match console.write first with
      | (after, none) => after.write second
      | (after, some fault) => (after, some fault) := by
  obtain ⟨wanted, shown, room⟩ := console
  match wanted, room with
  | false, _ => simp
  | true, none => simp [String.append_assoc]
  | true, some ⟨left, fault⟩ =>
      by_cases fits : first.length ≤ left
      · rw [write_of_fits shown first left fault fits]
        by_cases alsoFits : second.length ≤ left - first.length
        · have both : (first ++ second).length ≤ left := by
            rw [String.length_append]
            omega
          simp only [write_of_fits _ _ _ _ both, write_of_fits _ _ _ _ alsoFits]
          simp [String.append_assoc, Nat.sub_sub]
        · have exceeds : left < (first ++ second).length := by
            rw [String.length_append]
            omega
          have whole : first.toList.take left = first.toList :=
            List.take_of_length_le (String.length_toList ▸ fits)
          simp only [write_of_exceeds _ _ _ _ exceeds,
            write_of_exceeds _ _ _ _ (Nat.not_le.mp alsoFits)]
          simp [List.take_append, whole, String.append_assoc, String.length_toList]
      · have exceeds : left < (first ++ second).length := by
          rw [String.length_append]
          omega
        have none : left - first.toList.length = 0 := by
          rw [String.length_toList]
          omega
        rw [write_of_exceeds _ _ _ _ exceeds, write_of_exceeds _ _ _ _ (Nat.not_le.mp fits)]
        simp [List.take_append, none]

theorem write_of_shown (console : Console) :
    console.write text =
      ({ (({ console with shown := "" } : Console).write text).1 with
        shown := console.shown ++ (({ console with shown := "" } : Console).write text).1.shown },
        (({ console with shown := "" } : Console).write text).2) := by
  obtain ⟨wanted, shown, room⟩ := console
  match wanted, room with
  | false, _ => simp
  | true, none => simp
  | true, some ⟨left, fault⟩ =>
      by_cases fits : text.length ≤ left
      · simp [fits]
      · simp [Nat.not_le.mp fits]

end Writing

end Console

namespace Dialogue

variable {α : Type} (location : Location)

/-- What a dialogue comes to when its prompts go nowhere. -/
def read : Dialogue α → Input → Except Halt α × Input
  | finish result, input => (.ok result, input)
  | say _ next, input => next.read input
  | count counted next, input =>
      match Input.takeCount location counted input.taken input.remaining with
      | (.ok number, input) => (next number).read input
      | (.error fault, input) => (.error (.fault fault), input)
  | rule caseNumber expected found next, input =>
      match input.takeLine location caseNumber (.unexpectedEnd expected found) with
      | (.ok line, input) => (next line).read input
      | (.error fault, input) => (.error (.fault fault), input)
  | rest next, input =>
      match Input.takeRest location input.taken input.remaining with
      | (.ok lines, input) => (next lines).read input
      | (.error fault, input) => (.error (.fault fault), input)
  | reserve lines next, input =>
      if lines ≤ mostLines then next.read input else (.error .overflow, input)

def prompts : Dialogue α → Input → String
  | finish _, _ => ""
  | say prompt next, input => prompt ++ next.prompts input
  | count counted next, input =>
      match Input.takeCount location counted input.taken input.remaining with
      | (.ok number, input) => (next number).prompts input
      | (.error _, _) => ""
  | rule caseNumber expected found next, input =>
      match input.takeLine location caseNumber (.unexpectedEnd expected found) with
      | (.ok line, input) => (next line).prompts input
      | (.error _, _) => ""
  | rest next, input =>
      match Input.takeRest location input.taken input.remaining with
      | (.ok lines, input) => (next lines).prompts input
      | (.error _, _) => ""
  | reserve lines next, input => if lines ≤ mostLines then next.prompts input else ""

section Writing

/-- Carrying a dialogue out is writing all that it says at once, which the console
either takes or does not. -/
theorem run_eq_write (dialogue : Dialogue α) (input : Input) (console : Console) :
    match console.write (dialogue.prompts location input) with
    | (after, none) =>
        dialogue.run location ⟨input, console⟩ =
          ((dialogue.read location input).1, ⟨(dialogue.read location input).2, after⟩)
    | (after, some fault) =>
        (dialogue.run location ⟨input, console⟩).1 = .error (.fault ⟨location, .device fault⟩) ∧
          (dialogue.run location ⟨input, console⟩).2.console = after := by
  induction dialogue generalizing input console with
  | finish result => simp [prompts, run, read]
  | say prompt next ih =>
      rw [prompts, Console.write_append]
      cases said : console.write prompt with
      | mk between fault =>
          cases fault with
          | none => simpa only [run, said, read] using ih input between
          | some fault => simp [run, said]
  | count counted next ih =>
      cases taken : Input.takeCount location counted input.taken input.remaining with
      | mk answer later =>
          cases answer with
          | ok number => simpa only [prompts, run, read, taken] using ih number later console
          | error fault => simp [prompts, run, read, taken]
  | rule caseNumber expected found next ih =>
      cases taken : input.takeLine location caseNumber (.unexpectedEnd expected found) with
      | mk answer later =>
          cases answer with
          | ok line => simpa only [prompts, run, read, taken] using ih line later console
          | error fault => simp [prompts, run, read, taken]
  | rest next ih =>
      cases taken : Input.takeRest location input.taken input.remaining with
      | mk answer later =>
          cases answer with
          | ok lines => simpa only [prompts, run, read, taken] using ih lines later console
          | error fault => simp [prompts, run, read, taken]
  | reserve lines next ih =>
      by_cases granted : lines ≤ mostLines
      · simpa only [prompts, run, read, granted, if_true] using ih input console
      · simp [prompts, run, read, granted]

end Writing

section Narrow

def IsNarrow (text : String) : Prop :=
  ∀ c ∈ text.toList, c.utf8Size = 1

def SaysNarrow : Dialogue α → Prop
  | finish _ => True
  | say prompt next => IsNarrow prompt ∧ next.SaysNarrow
  | count _ next => ∀ number, (next number).SaysNarrow
  | rule _ _ _ next => ∀ line, (next line).SaysNarrow
  | rest next => ∀ lines, (next lines).SaysNarrow
  | reserve _ next => next.SaysNarrow

-- Only the characters of the text are looked at; there are instances that try all others.
instance (text : String) : Decidable (IsNarrow text) :=
  List.decidableBAll (fun c : Char => c.utf8Size = 1) text.toList

theorem IsNarrow.append {first second : String} (narrow : IsNarrow first)
    (alsoNarrow : IsNarrow second) : IsNarrow (first ++ second) := by
  intro c member
  rw [String.toList_append] at member
  rcases List.mem_append.mp member with inFirst | inSecond
  · exact narrow c inFirst
  · exact alsoNarrow c inSecond

theorem isNarrow_toString (number : Nat) : IsNarrow (toString number) := by
  intro c member
  have digit := Text.isDigit_of_mem_toString number c member
  rw [Char.utf8Size_eq_one_iff]
  simp only [Char.isDigit, Bool.and_eq_true, decide_eq_true_eq] at digit
  exact UInt32.le_trans digit.2 (by decide)

theorem IsNarrow.utf8ByteSize_eq {text : String} (narrow : IsNarrow text) :
    text.utf8ByteSize = text.length := by
  obtain ⟨characters, rfl⟩ : ∃ characters, text = String.ofList characters :=
    ⟨text.toList, (String.ofList_toList).symm⟩
  rw [IsNarrow, String.toList_ofList] at narrow
  induction characters with
  | nil => rfl
  | cons c rest ih =>
      have here : c.utf8Size = 1 := narrow c List.mem_cons_self
      have later := ih fun other member => narrow other (List.mem_cons_of_mem c member)
      rw [String.ofList_cons, String.utf8ByteSize_append, String.utf8ByteSize_singleton, here,
        later, String.length_append, String.length_singleton]

theorem IsNarrow.take {text : String} (narrow : IsNarrow text) (count : Nat)
    (inside : count ≤ text.length) :
    text = String.ofList (text.toList.take count) ++ String.ofList (text.toList.drop count) ∧
      (String.ofList (text.toList.take count)).utf8ByteSize = count := by
  have front : IsNarrow (String.ofList (text.toList.take count)) := by
    intro c member
    rw [String.toList_ofList] at member
    exact narrow c (List.mem_of_mem_take member)
  constructor
  · rw [← String.ofList_append, List.take_append_drop, String.ofList_toList]
  · rw [front.utf8ByteSize_eq, String.length_ofList, List.length_take, String.length_toList,
      Nat.min_eq_left inside]

theorem isNarrow_prompts (dialogue : Dialogue α) (narrow : dialogue.SaysNarrow) (input : Input) :
    IsNarrow (dialogue.prompts location input) := by
  induction dialogue generalizing input with
  | finish _ => simp [prompts, IsNarrow]
  | say prompt next ih => exact narrow.1.append (ih narrow.2 input)
  | count counted next ih =>
      rw [prompts]
      split
      · exact ih _ (narrow _) _
      · simp [IsNarrow]
  | rule caseNumber expected found next ih =>
      rw [prompts]
      split
      · exact ih _ (narrow _) _
      · simp [IsNarrow]
  | rest next ih =>
      rw [prompts]
      split
      · exact ih _ (narrow _) _
      · simp [IsNarrow]
  | reserve lines next ih =>
      rw [prompts]
      split
      · exact ih narrow _
      · simp [IsNarrow]

theorem askRules_saysNarrow (number expected left : Nat) (held : List (Nat × String))
    (next : List (Nat × String) → Dialogue α) (narrow : ∀ lines, (next lines).SaysNarrow) :
    (askRules number expected next left held).SaysNarrow := by
  induction left generalizing held with
  | zero => exact narrow _
  | succ left ih =>
      refine ⟨?_, fun line => ih _⟩
      exact ((show IsNarrow "  Production " by decide +kernel).append (isNarrow_toString _)).append
        (by decide +kernel)

theorem askCase_saysNarrow (number : Nat) (next : Case → Dialogue α)
    (narrow : ∀ found, (next found).SaysNarrow) : (askCase number next).SaysNarrow := by
  have heading : IsNarrow ("\n--- Case " ++ toString number ++ " ---\n") :=
    ((show IsNarrow "\n--- Case " by decide +kernel).append (isNarrow_toString number)).append
      (by decide +kernel)
  refine ⟨heading, by decide +kernel, fun expected => ⟨?_, by decide +kernel, ?_⟩⟩
  · exact ((show IsNarrow "Enter " by decide +kernel).append (isNarrow_toString expected)).append
      (by decide +kernel)
  · exact askRules_saysNarrow number expected expected [] _ fun _ => narrow _

theorem askCases_saysNarrow (total left : Nat) (held : List Case) :
    (askCases total left held).SaysNarrow := by
  induction left generalizing held with
  | zero => trivial
  | succ left ih => exact askCase_saysNarrow _ _ fun _ => ih _

theorem ofInput_saysNarrow (single : Bool) : (ofInput single).SaysNarrow := by
  refine ⟨by decide +kernel, by decide +kernel, ?_⟩
  cases single with
  | true => exact ⟨by decide +kernel, fun _ => trivial⟩
  | false => exact ⟨by decide +kernel, fun total => askCases_saysNarrow total total []⟩

end Narrow

end Dialogue

section Batches

variable (options : Options) (location : Location) (stream : LineStream)

/-- What a batch comes to when its prompts go nowhere. -/
def reported : Except Halt Report :=
  ((Dialogue.ofInput options.single).read location (.start stream)).1.map fun cases =>
    .ofResults (transformCases options location cases)

/-- All that is said about a batch: what is asked while it is read and, if that goes well,
the heading of the results. -/
def allPrompts : String :=
  (Dialogue.ofInput options.single).prompts location (.start stream) ++
    match ((Dialogue.ofInput options.single).read location (.start stream)).1 with
    | .ok _ => resultsHeading
    | .error _ => ""

theorem run_eq_write (room : Option Room) :
    match (Console.start options.interactive room).write (allPrompts options location stream) with
    | (after, none) =>
        (run options location room stream).result = reported options location stream ∧
          (run options location room stream).prompts = after.shown
    | (after, some fault) =>
        (run options location room stream).result = .error (.fault ⟨location, .device fault⟩) ∧
          (run options location room stream).prompts = after.shown := by
  have asked := (Dialogue.ofInput options.single).run_eq_write location (.start stream)
    (.start options.interactive room)
  rw [allPrompts, Console.write_append]
  cases said : (Console.start options.interactive room).write
      ((Dialogue.ofInput options.single).prompts location (.start stream)) with
  | mk between fault =>
      rw [said] at asked
      cases fault with
      | some fault =>
          cases carried : (Dialogue.ofInput options.single).run location
              ⟨.start stream, .start options.interactive room⟩ with
          | mk answer session =>
              simp only [carried] at asked
              obtain ⟨rfl, rfl⟩ := asked
              simp [run, readCases, carried, Outcome.prompts]
      | none =>
          simp only at asked ⊢
          cases heard : (Dialogue.ofInput options.single).read location (.start stream) with
          | mk answer later =>
              rw [heard] at asked
              cases answer with
              | error fault =>
                  simp [run, readCases, asked, reported, heard,
                    Outcome.prompts, Except.map]
              | ok cases =>
                  simp only [run, readCases, asked, reported, heard]
                  rw [Console.write_of_shown]
                  cases announced : ({ between with shown := "" } : Console).write
                      resultsHeading with
                  | mk after fault =>
                      cases fault <;> simp [Outcome.prompts, Except.map]

theorem isNarrow_resultsHeading : Dialogue.IsNarrow resultsHeading := by
  have rule : Dialogue.IsNarrow (String.ofList (List.replicate 50 '=')) := by
    intro c member
    rw [String.toList_ofList] at member
    rw [List.eq_of_mem_replicate member]
    rfl
  exact ((((show Dialogue.IsNarrow "\n" by decide +kernel).append rule).append
    (by decide +kernel)).append rule).append (by decide +kernel)

theorem isNarrow_allPrompts : Dialogue.IsNarrow (allPrompts options location stream) := by
  apply Dialogue.IsNarrow.append
  · exact Dialogue.isNarrow_prompts location _ (Dialogue.ofInput_saysNarrow _) _
  · split
    · exact isNarrow_resultsHeading
    · decide +kernel

theorem run_of_silent (silent : options.interactive = false) (room : Option Room) :
    (run options location room stream).result = reported options location stream ∧
      (run options location room stream).prompts = "" := by
  have written := run_eq_write options location stream room
  rwa [silent, Console.start, Console.write_of_not_wanted _ _ rfl] at written

theorem run_of_unlimited (wanted : options.interactive = true) :
    (run options location none stream).result = reported options location stream ∧
      (run options location none stream).prompts = allPrompts options location stream := by
  have written := run_eq_write options location stream none
  rw [wanted, Console.start, Console.write_of_unlimited] at written
  simpa using written

theorem run_of_room (wanted : options.interactive = true) (room : Room)
    (fits : (allPrompts options location stream).utf8ByteSize ≤ room.left) :
    (run options location (some room) stream).result = reported options location stream ∧
      (run options location (some room) stream).prompts = allPrompts options location stream := by
  obtain ⟨left, fault⟩ := room
  rw [(isNarrow_allPrompts options location stream).utf8ByteSize_eq] at fits
  have written := run_eq_write options location stream (some ⟨left, fault⟩)
  rw [wanted, Console.start, Console.write_of_fits "" _ left fault fits] at written
  simpa using written

theorem run_of_no_room (wanted : options.interactive = true) (room : Room)
    (exceeds : room.left < (allPrompts options location stream).utf8ByteSize) :
    (run options location (some room) stream).result =
        .error (.fault ⟨location, .device room.fault⟩) ∧
      ∃ unseen, allPrompts options location stream =
          (run options location (some room) stream).prompts ++ unseen ∧
        (run options location (some room) stream).prompts.utf8ByteSize = room.left := by
  obtain ⟨left, fault⟩ := room
  have narrow := isNarrow_allPrompts options location stream
  rw [narrow.utf8ByteSize_eq] at exceeds
  have written := run_eq_write options location stream (some ⟨left, fault⟩)
  rw [wanted, Console.start, Console.write_of_exceeds "" _ left fault exceeds] at written
  obtain ⟨failed, shown⟩ := written
  rw [String.empty_append] at shown
  obtain ⟨whole, size⟩ := narrow.take left (Nat.le_of_lt exceeds)
  rw [shown]
  exact ⟨failed, _, whole, size⟩

/-- Prompts decide nothing: a batch comes to the same with them and without them. A console
that has no room for all of them reports its own fault and holds as many bytes of them as it
takes. -/
theorem result_independent_of_prompts (options : Options) (location : Location)
    (stream : LineStream) :
    let silent := { options with interactive := false }
    let wanted := { options with interactive := true }
    let spoken := run wanted location none stream
    (∀ room, (run silent location room stream).result = spoken.result ∧
      (run silent location room stream).prompts = "") ∧
    ∀ room : Room,
      let limited := run wanted location (some room) stream
      (spoken.prompts.utf8ByteSize ≤ room.left →
        limited.result = spoken.result ∧ limited.prompts = spoken.prompts) ∧
      (room.left < spoken.prompts.utf8ByteSize →
        limited.result = .error (.fault ⟨location, .device room.fault⟩) ∧
          ∃ unseen, spoken.prompts = limited.prompts ++ unseen ∧
            limited.prompts.utf8ByteSize = room.left) := by
  intro silent wanted spoken
  obtain ⟨answered, said⟩ : spoken.result = reported wanted location stream ∧
      spoken.prompts = allPrompts wanted location stream :=
    run_of_unlimited wanted location stream rfl
  refine ⟨fun room => ?_, fun room => ?_⟩
  · obtain ⟨unprompted, nothing⟩ := run_of_silent silent location stream rfl room
    exact ⟨unprompted.trans answered.symm, nothing⟩
  · rw [answered, said]
    exact ⟨run_of_room wanted location stream rfl room,
      run_of_no_room wanted location stream rfl room⟩

/-- A batch of one case, with 392 bytes of prompts. -/
def oneCase : LineStream :=
  [.ok "1", .ok "", .ok "1", .ok "S -> Sa b"]

def promptFull : DeviceFault :=
  ⟨.other, "prompt full"⟩

theorem result_independent_of_prompts_oneCase :
    let wanted : Options := { interactive := true }
    let spoken := run wanted .standardInput none oneCase
    spoken.prompts.utf8ByteSize = 392 ∧
      (run {} .standardInput none oneCase).result = spoken.result ∧
      (run wanted .standardInput (some ⟨392, promptFull⟩) oneCase).result = spoken.result ∧
      (run wanted .standardInput (some ⟨120, promptFull⟩) oneCase).result =
        .error (.fault ⟨.standardInput, .device promptFull⟩) := by
  intro wanted spoken
  have size : spoken.prompts.utf8ByteSize = 392 := by decide +kernel
  obtain ⟨silent, limited⟩ := result_independent_of_prompts {} .standardInput oneCase
  exact ⟨size, (silent none).1, ((limited ⟨392, promptFull⟩).1 (Nat.le_of_eq size)).1,
    ((limited ⟨120, promptFull⟩).2 (size ▸ by decide)).1⟩

-- More rules are announced than memory can hold, which is found before the first is asked for.
example :
    let spoken := run { interactive := true } .standardInput none
      [.ok "1", .ok "18446744073709551615", .ok "S -> a"]
    spoken.result = .error .overflow ∧ spoken.announced = "" ∧
      spoken.asked.endsWith "Example: S -> Sa b\n" = true := by
  decide +kernel

end Batches

end LeftRecursion.Batch
