/-!
Lines of a text. A line ends at a newline and nowhere else; what stands after
the last newline is left over, and is a line of its own unless it is empty.
-/

namespace LeftRecursion.Text

variable {α : Type} [DecidableEq α]

/-- The lines that are ended by a newline, and what is left over. The line being
read has the held items, last first. -/
def splitLines (newline : α) (held : List α) : List α → List (List α) × List α
  | [] => ([], held.reverse)
  | item :: rest =>
      if item = newline then
        let later := splitLines newline [] rest
        (held.reverse :: later.1, later.2)
      else splitLines newline (item :: held) rest

def allLines (newline : α) (items : List α) : List (List α) :=
  let split := splitLines newline [] items
  if split.2.isEmpty then split.1 else split.1 ++ [split.2]

def lines (text : String) : List String :=
  (allLines '\n' text.toList).map String.ofList

theorem splitLines_of_not_mem (newline : α) (held items : List α) (single : newline ∉ items) :
    splitLines newline held items = ([], held.reverse ++ items) := by
  induction items generalizing held with
  | nil => simp [splitLines]
  | cons item rest ih =>
      have different : item ≠ newline := fun same => single (same ▸ List.mem_cons_self)
      have later : newline ∉ rest := fun member => single (List.mem_cons_of_mem _ member)
      simp [splitLines, different, ih (item :: held) later]

theorem splitLines_append_newline (newline : α) (held items rest : List α)
    (single : newline ∉ items) :
    splitLines newline held (items ++ newline :: rest) =
      ((held.reverse ++ items) :: (splitLines newline [] rest).1,
        (splitLines newline [] rest).2) := by
  induction items generalizing held with
  | nil => simp [splitLines]
  | cons item later ih =>
      have different : item ≠ newline := fun same => single (same ▸ List.mem_cons_self)
      have free : newline ∉ later := fun member => single (List.mem_cons_of_mem _ member)
      simp [splitLines, different, ih (item :: held) free]

end LeftRecursion.Text
