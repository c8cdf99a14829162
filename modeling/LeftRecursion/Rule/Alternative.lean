import LeftRecursion.Symbol

/-!
Alternatives as they are written: symbols side by side, with nothing between
them. At each place the longest known name that fits there is a symbol, and
where none fits the next character alone is one. A word that is just `e` stands
for the empty string.
-/

namespace LeftRecursion

section LongestFirst

def placeByLength (name : String) : List String → List String
  | [] => [name]
  | first :: rest =>
      if first.utf8ByteSize ≤ name.utf8ByteSize then name :: first :: rest
      else first :: placeByLength name rest

/-- The names from the longest to the shortest; names of one length keep their
order. -/
def longestFirst (names : List String) : List String :=
  names.foldr placeByLength []

theorem mem_placeByLength (name other : String) (names : List String) :
    other ∈ placeByLength name names ↔ other = name ∨ other ∈ names := by
  induction names with
  | nil => simp [placeByLength]
  | cons first rest ih =>
      simp only [placeByLength]
      split
      · simp
      · simp [ih, or_left_comm]

@[simp] theorem mem_longestFirst (other : String) (names : List String) :
    other ∈ longestFirst names ↔ other ∈ names := by
  induction names with
  | nil => simp [longestFirst]
  | cons first rest ih =>
      have unfolded : longestFirst (first :: rest) = placeByLength first (longestFirst rest) := rfl
      rw [unfolded, mem_placeByLength, ih, List.mem_cons]

theorem placeByLength_descending (name : String) (names : List String)
    (descending : names.Pairwise fun first second => second.utf8ByteSize ≤ first.utf8ByteSize) :
    (placeByLength name names).Pairwise
      fun first second => second.utf8ByteSize ≤ first.utf8ByteSize := by
  induction names with
  | nil => simp [placeByLength]
  | cons first rest ih =>
      obtain ⟨below, later⟩ := List.pairwise_cons.mp descending
      simp only [placeByLength]
      split
      · next shorter =>
          refine List.pairwise_cons.mpr ⟨?_, descending⟩
          intro other member
          rcases List.mem_cons.mp member with rfl | inRest
          · exact shorter
          · exact Nat.le_trans (below other inRest) shorter
      · next longer =>
          refine List.pairwise_cons.mpr ⟨?_, ih later⟩
          intro other member
          rcases (mem_placeByLength name other rest).mp member with rfl | inRest
          · omega
          · exact below other inRest

theorem longestFirst_descending (names : List String) :
    (longestFirst names).Pairwise
      fun first second => second.utf8ByteSize ≤ first.utf8ByteSize := by
  induction names with
  | nil => exact .nil
  | cons first rest ih => exact placeByLength_descending first _ ih

end LongestFirst

section Munch

def leadingName (names : List (List Char)) (text : List Char) : Option (List Char) :=
  names.find? fun name => name.isPrefixOf text

/-- The symbols of a text, of which the first `skip` characters belong to a
symbol that is already taken. -/
def munch (names : List (List Char)) : Nat → List Char → Production
  | _, [] => []
  | skip + 1, _ :: rest => munch names skip rest
  | 0, c :: rest =>
      match leadingName names (c :: rest) with
      | some name => .ofText (String.ofList name) :: munch names (name.length - 1) rest
      | none => .ofText (String.singleton c) :: munch names 0 rest

/-- The symbols of an alternative. Where several of the names fit, the one
listed first is taken. -/
def readAlternative (names : List String) (word : String) : Production :=
  if word = "e" then epsilon
  else munch (names.map String.toList) 0 word.toList

end Munch

end LeftRecursion
