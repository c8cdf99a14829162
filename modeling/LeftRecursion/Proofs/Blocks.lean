import LeftRecursion.Proofs.CaseByCase
import LeftRecursion.Proofs.Rereading

/-!
The text of a report, cut into its parts again. The transformed grammars stand in it with an
empty line between two of them, and the rules of each on lines of their own. No line is empty and
none has a newline inside it, since names and symbols hold no blank characters. So two newlines in
a row are never part of a grammar, whether it has rules or not, and a newline never part of
a rule.
-/

namespace LeftRecursion

namespace Text

section Cutting

/-- The pieces of a text between the occurrences of a separator, each looked for after the one
before. The piece that is being read has the held characters, last first, and so many characters
of an occurrence are still to be passed over. -/
def cut (separator : List Char) : Nat → List Char → List Char → List (List Char)
  | _, held, [] => [held.reverse]
  | skip + 1, held, _ :: rest => cut separator skip held rest
  | 0, held, c :: rest =>
      if separator <+: c :: rest then
        held.reverse :: cut separator (separator.length - 1) [] rest
      else cut separator 0 (c :: held) rest

def pieces (separator text : String) : List String :=
  (cut separator.toList 0 [] text.toList).map String.ofList

/-- Whether no occurrence of a separator begins inside a text, also if one follows it. -/
def IsPiece (separator text : List Char) : Prop :=
  ∀ back, back <:+ text → back ≠ [] → ¬ separator <+: back ++ separator

variable {separator : List Char}

theorem isPiece_nil : IsPiece separator [] :=
  fun _ isSuffix nonempty => absurd (List.suffix_nil.mp isSuffix) nonempty

theorem isPiece_cons_iff (c : Char) (rest : List Char) :
    IsPiece separator (c :: rest) ↔
      ¬ separator <+: c :: rest ++ separator ∧ IsPiece separator rest := by
  constructor
  · intro whole
    refine ⟨whole _ (List.suffix_refl _) (List.cons_ne_nil c rest), fun back isSuffix => ?_⟩
    exact whole back (isSuffix.trans (List.suffix_cons c rest))
  · rintro ⟨here, later⟩ back isSuffix nonempty
    rcases List.suffix_cons_iff.mp isSuffix with rfl | inRest
    · exact here
    · exact later back inRest nonempty

-- An occurrence that begins inside a piece would end before the separator after it does.
theorem IsPiece.not_prefix {c : Char} {rest : List Char} (whole : IsPiece separator (c :: rest))
    (after : List Char) : ¬ separator <+: c :: rest ++ separator ++ after := by
  intro fits
  have short : separator.length ≤ (c :: rest ++ separator).length := by
    rw [List.length_append]
    omega
  exact ((isPiece_cons_iff c rest).mp whole).1
    (List.prefix_of_prefix_length_le fits (List.prefix_append _ _) short)

theorem cut_skip (front held rest : List Char) :
    cut separator front.length held (front ++ rest) = cut separator 0 held rest := by
  induction front with
  | nil => rfl
  | cons c later ih => exact ih

theorem cut_of_isPiece (held piece : List Char) (whole : IsPiece separator piece) :
    cut separator 0 held piece = [held.reverse ++ piece] := by
  induction piece generalizing held with
  | nil => simp [cut]
  | cons c rest ih =>
      obtain ⟨here, later⟩ := (isPiece_cons_iff c rest).mp whole
      have other : ¬ separator <+: c :: rest := fun fits =>
        here (fits.trans (List.prefix_append _ _))
      rw [cut, if_neg other, ih _ later]
      simp

theorem cut_piece_append (full : separator ≠ []) (held piece after : List Char)
    (whole : IsPiece separator piece) :
    cut separator 0 held (piece ++ separator ++ after) =
      (held.reverse ++ piece) :: cut separator 0 [] after := by
  induction piece generalizing held with
  | nil =>
      obtain ⟨c, rest, rfl⟩ := List.exists_cons_of_ne_nil full
      have passed : cut (c :: rest) rest.length [] (rest ++ after) = cut (c :: rest) 0 [] after :=
        cut_skip rest [] after
      simpa [cut] using passed
  | cons c rest ih =>
      have other := whole.not_prefix after
      rw [List.cons_append, List.cons_append] at other ⊢
      rw [cut, if_neg other, ih _ ((isPiece_cons_iff c rest).mp whole).2]
      simp

theorem pieces_intercalate (separator : String) (full : separator ≠ "") (texts : List String)
    (some : texts ≠ []) (whole : ∀ text ∈ texts, IsPiece separator.toList text.toList) :
    pieces separator (separator.intercalate texts) = texts := by
  have fullList : separator.toList ≠ [] := mt String.toList_eq_nil_iff.mp full
  induction texts with
  | nil => exact absurd rfl some
  | cons first rest ih =>
      have here := whole first List.mem_cons_self
      cases rest with
      | nil => simp [pieces, cut_of_isPiece [] _ here]
      | cons second later =>
          have others := ih (List.cons_ne_nil second later) fun text member =>
            whole text (List.mem_cons_of_mem first member)
          rw [pieces] at others ⊢
          rw [String.intercalate_cons_cons, String.toList_append, String.toList_append,
            cut_piece_append fullList [] _ _ here, List.map_cons, others]
          simp

end Cutting

section Lines

theorem isPiece_newline (text : List Char) (unbroken : '\n' ∉ text) : IsPiece ['\n'] text := by
  intro back isSuffix nonempty fits
  obtain ⟨c, rest, rfl⟩ := List.exists_cons_of_ne_nil nonempty
  have first : '\n' = c := by simpa using fits
  exact unbroken (first ▸ isSuffix.subset List.mem_cons_self)

theorem isPiece_line_append (line after : List Char) (unbroken : '\n' ∉ line)
    (whole : IsPiece ['\n', '\n'] after) : IsPiece ['\n', '\n'] (line ++ after) := by
  induction line with
  | nil => exact whole
  | cons c rest ih =>
      rw [List.mem_cons, not_or] at unbroken
      refine (isPiece_cons_iff c _).mpr ⟨?_, ih unbroken.2⟩
      simp [unbroken.1]

theorem prefix_intercalate (separator first : String) (rest : List String) :
    first.toList <+: (separator.intercalate (first :: rest)).toList := by
  cases rest with
  | nil => rw [String.intercalate_singleton]
  | cons second later =>
      rw [String.intercalate_cons_cons, String.toList_append, String.toList_append,
        List.append_assoc]
      exact List.prefix_append _ _

theorem isPiece_intercalate (lines : List String)
    (unbroken : ∀ line ∈ lines, '\n' ∉ line.toList) (nonempty : ∀ line ∈ lines, line ≠ "") :
    IsPiece ['\n', '\n'] ("\n".intercalate lines).toList := by
  induction lines with
  | nil => exact isPiece_nil
  | cons first rest ih =>
      have here := unbroken first List.mem_cons_self
      cases rest with
      | nil =>
          rw [String.intercalate_singleton, ← List.append_nil first.toList]
          exact isPiece_line_append _ _ here isPiece_nil
      | cons second later =>
          have whole := ih (fun line member => unbroken line (List.mem_cons_of_mem first member))
            fun line member => nonempty line (List.mem_cons_of_mem first member)
          have inLines : second ∈ first :: second :: later := by simp
          obtain ⟨c, others, characters⟩ := List.exists_cons_of_ne_nil
            (mt String.toList_eq_nil_iff.mp (nonempty second inLines))
          have shown : c ≠ '\n' := by
            rintro rfl
            exact unbroken second inLines (by simp [characters])
          obtain ⟨after, joined⟩ := prefix_intercalate "\n" second later
          rw [String.intercalate_cons_cons, String.toList_append, String.toList_append,
            List.append_assoc]
          apply isPiece_line_append _ _ here
          refine (isPiece_cons_iff '\n' _).mpr ⟨?_, whole⟩
          rw [← joined, characters]
          simp [shown.symm]

end Lines

end Text

namespace Grammar

section Blocks

variable {grammar : Grammar}

theorem IsReadable.render_eq_empty_iff (readable : grammar.IsReadable) :
    grammar.render = "" ↔ grammar.entries = [] := by
  rw [render, lines]
  constructor
  · intro empty
    cases entries : grammar.entries with
    | nil => rfl
    | cons first rest =>
        have line : ruleText first.1 first.2 ∈ grammar.lines := by simp [lines, entries]
        have inside := Rule.infix_intercalate "\n" _ _ line
        rw [lines, empty] at inside
        have none : ruleText first.1 first.2 = "" :=
          String.toList_eq_nil_iff.mp (List.infix_nil.mp inside)
        exact absurd none (readable.unbroken_lines _ line).1
  · intro none
    rw [none]
    rfl

theorem IsReadable.isPiece_render (readable : grammar.IsReadable) :
    Text.IsPiece ['\n', '\n'] grammar.render.toList :=
  Text.isPiece_intercalate _ (fun line member => (readable.unbroken_lines line member).2)
    fun line member => (readable.unbroken_lines line member).1

theorem IsReadable.pieces_render (readable : grammar.IsReadable) (some : grammar.render ≠ "") :
    Text.pieces "\n" grammar.render =
      grammar.entries.map fun entry => ruleText entry.1 entry.2 := by
  apply Text.pieces_intercalate "\n" (by decide)
  · intro none
    rw [lines, List.map_eq_nil_iff] at none
    exact some (readable.render_eq_empty_iff.mpr none)
  · exact fun line member => Text.isPiece_newline _ (readable.unbroken_lines line member).2

end Blocks

end Grammar

namespace Batch

section Blocks

variable (options : Options) (location : Location)

def Case.transformed? (start : String) (location : Location) (work : Case) : Option Grammar :=
  (Reading.ofNumbered start (location.forCase work.number)
    work.lines).grammar.removeLeftRecursion.result.toOption

theorem Case.isOutput_of_transformed (start : String) (work : Case) (grammar : Grammar)
    (found : work.transformed? start location = some grammar) : grammar.IsOutput := by
  unfold transformed? at found
  cases done : (Reading.ofNumbered start (location.forCase work.number)
      work.lines).grammar.removeLeftRecursion.result with
  | error failure => simp [done, Except.toOption] at found
  | ok result =>
      simp only [done, Except.toOption, Option.some.injEq] at found
      subst found
      exact Grammar.isOutput_of_ok start _ work.lines _ result done

theorem results_transform (start : String) (cases : List Case) :
    let results := cases.map (Case.transform start location)
    let grammars := cases.filterMap (Case.transformed? start location)
    Report.outputs results = grammars.map Grammar.render ∧
      (Report.failuresOf results).length + grammars.length = cases.length := by
  induction cases with
  | nil => exact ⟨rfl, rfl⟩
  | cons work later ih =>
      obtain ⟨outputs, counted⟩ := ih
      have result := work.result_transform start location
      rw [outcomeOf, ← Reading.grammar_ofNumbered start (location.forCase work.number)] at result
      simp only [List.map_cons, List.length_cons]
      cases done : (Reading.ofNumbered start (location.forCase work.number)
          work.lines).grammar.removeLeftRecursion.result with
      | ok grammar =>
          have found : work.transformed? start location = some grammar := by
            rw [Case.transformed?, done, Except.toOption]
          rw [done] at result
          obtain ⟨first, noFailure⟩ := Report.cons_of_ok _ (later.map _) _ result
          rw [first, noFailure, outputs, List.filterMap_cons_some found]
          refine ⟨rfl, ?_⟩
          rw [List.length_cons]
          omega
      | error failure =>
          have none : work.transformed? start location = none := by
            rw [Case.transformed?, done, Except.toOption]
          rw [done] at result
          obtain ⟨noOutput, first⟩ := Report.cons_of_error _ (later.map _) _ result
          rw [noOutput, first, outputs, List.filterMap_cons_none none]
          refine ⟨rfl, ?_⟩
          rw [List.length_cons]
          omega

variable (room : Option Room) (stream : LineStream)

theorem exists_cases_of_run (report : Report)
    (done : (run options location room stream).result = .ok report) :
    ∃ cases, (readCases options location ⟨.start stream, .start options.interactive room⟩).1 =
        .ok cases ∧
      report = .ofResults (cases.map (Case.transform options.start location)) := by
  unfold run at done
  split at done
  · cases done
  · next cases session read =>
      refine ⟨cases, by rw [read], ?_⟩
      simp only [transformCases_eq_map] at done
      split at done
      · exact (Except.ok.inj done).symm
      · cases done

/-- Every case is reported once, as a text or as a failure. Cut at empty lines, the text falls
into those of the transformed grammars, and one of these, unless it is empty, cut at newlines into
its rules. -/
theorem report_falls_into_blocks (report : Report)
    (done : (run options location room stream).result = .ok report) :
    ∃ cases, (readCases options location ⟨.start stream, .start options.interactive room⟩).1 =
        .ok cases ∧
      let grammars := cases.filterMap (Case.transformed? options.start location)
      report.failures.length + grammars.length = cases.length ∧
        (grammars ≠ [] → Text.pieces "\n\n" report.text = grammars.map Grammar.render) ∧
        ∀ grammar ∈ grammars,
          (grammar.render = "" ↔ grammar.entries = []) ∧
          (grammar.render ≠ "" → Text.pieces "\n" grammar.render =
            grammar.entries.map fun entry =>
              entry.1 ++ " -> " ++ " ".intercalate (entry.2.map productionText)) ∧
          grammar.entries.map Prod.fst = grammar.ordering ++ grammar.generated.keys ∧
          (grammar.entries.map Prod.fst).Nodup ∧
          ∀ name rewrite, (name, rewrite) ∈ grammar.entries ↔
            grammar.productions name = some rewrite := by
  obtain ⟨cases, read, rfl⟩ := exists_cases_of_run options location room stream report done
  obtain ⟨outputs, counted⟩ := results_transform location options.start cases
  have readable : ∀ grammar ∈ cases.filterMap (Case.transformed? options.start location),
      grammar.IsReadable := by
    intro grammar member
    obtain ⟨work, _, found⟩ := List.mem_filterMap.mp member
    exact (work.isOutput_of_transformed location options.start grammar found).toIsReadable
  refine ⟨cases, read, counted, ?_, ?_⟩
  · intro some
    rw [Report.ofResults, outputs]
    apply Text.pieces_intercalate "\n\n" (by decide)
    · simpa using some
    · rw [List.forall_mem_map]
      exact fun grammar member => (readable grammar member).isPiece_render
  · intro grammar member
    have isReadable := readable grammar member
    have names := grammar.map_fst_entries isReadable.marked
    refine ⟨isReadable.render_eq_empty_iff, isReadable.pieces_render, names, ?_,
      grammar.mem_entries_iff⟩
    rw [names]
    exact grammar.listing_nodup

def fourCases : LineStream :=
  ["4", "1", "S -> Sa b", "1", "no rule", "1", "S -> Q", "", "2", "A -> a", "B -> A"].map .ok

def firstTransformed : Grammar :=
  ((Grammar.empty "S").insert "S" [[.terminal "b", .nonterminal "Z"]]).insertGenerated "Z"
    [[.terminal "a", .nonterminal "Z"], epsilon]

theorem report_falls_into_blocks_fourCases :
    (run {} .standardInput none fourCases).result =
        .ok ⟨"S -> bZ\nZ -> aZ e\n\n\n\nA -> a\nB -> a",
          [⟨Location.standardInput.forCase 3, .undefined "Q"⟩]⟩ ∧
      Text.pieces "\n\n" "S -> bZ\nZ -> aZ e\n\n\n\nA -> a\nB -> a" =
        ["S -> bZ\nZ -> aZ e", "", "A -> a\nB -> a"] ∧
      firstTransformed.render ≠ "" ∧
      Text.pieces "\n" firstTransformed.render = ["S -> bZ", "Z -> aZ e"] := by
  have done : (run {} .standardInput none fourCases).result =
      .ok ⟨"S -> bZ\nZ -> aZ e\n\n\n\nA -> a\nB -> a",
        [⟨Location.standardInput.forCase 3, .undefined "Q"⟩]⟩ := by decide +kernel
  obtain ⟨cases, read, _, blocks, lines⟩ :=
    report_falls_into_blocks {} .standardInput none fourCases _ done
  have found : (readCases {} .standardInput ⟨.start fourCases, .start false none⟩).1 =
      .ok [⟨1, [(3, "S -> Sa b")]⟩, ⟨2, [(5, "no rule")]⟩, ⟨3, [(7, "S -> Q")]⟩,
        ⟨4, [(10, "A -> a"), (11, "B -> A")]⟩] := by decide +kernel
  obtain rfl := Except.ok.inj (read.symm.trans found)
  have shown : firstTransformed.render ≠ "" := by decide +kernel
  refine ⟨done, ?_, shown, ?_⟩
  · rw [blocks (by decide +kernel)]
    decide +kernel
  · rw [(lines firstTransformed (by decide +kernel)).2.1 shown]
    decide +kernel

end Blocks

end Batch

end LeftRecursion
