/-!
Finite maps from names. The entries are kept in strictly ascending order of
their names, by code points, so two maps with the same look-ups are the same
map, and the order in which names are listed does not depend on the order in
which they were added.
-/

namespace LeftRecursion

structure NameMap (α : Type) where
  entries : List (String × α)
  ascending : entries.Pairwise fun first second => first.1 < second.1

namespace NameMap

variable {α : Type}

section Entries

def find (name : String) : List (String × α) → Option α
  | [] => none
  | (key, value) :: rest => if key = name then some value else find name rest

def put (name : String) (value : α) : List (String × α) → List (String × α)
  | [] => [(name, value)]
  | (key, old) :: rest =>
      if name < key then (name, value) :: (key, old) :: rest
      else if key = name then (name, value) :: rest
      else (key, old) :: put name value rest

theorem lt_of_not_lt_of_ne (first second : String) (notLess : ¬ first < second)
    (different : second ≠ first) : second < first :=
  Decidable.byContradiction fun notMore =>
    different (String.le_antisymm (String.not_lt.mp notLess) (String.not_lt.mp notMore))

theorem mem_put (name : String) (value : α) (entry : String × α)
    (entries : List (String × α)) (member : entry ∈ put name value entries) :
    entry = (name, value) ∨ entry ∈ entries := by
  induction entries with
  | nil => exact Or.inl (by simpa [put] using member)
  | cons head rest ih =>
      obtain ⟨key, old⟩ := head
      simp only [put] at member
      split at member
      · simpa using member
      · split at member
        · rcases List.mem_cons.mp member with same | later
          · exact Or.inl same
          · exact Or.inr (List.mem_cons_of_mem _ later)
        · rcases List.mem_cons.mp member with same | later
          · exact Or.inr (same ▸ List.mem_cons_self)
          · rcases ih later with same | old
            · exact Or.inl same
            · exact Or.inr (List.mem_cons_of_mem _ old)

theorem put_ascending (name : String) (value : α) (entries : List (String × α))
    (ascending : entries.Pairwise fun first second => first.1 < second.1) :
    (put name value entries).Pairwise fun first second => first.1 < second.1 := by
  induction entries with
  | nil => simp [put]
  | cons head rest ih =>
      obtain ⟨key, old⟩ := head
      obtain ⟨above, later⟩ := List.pairwise_cons.mp ascending
      simp only [put]
      split
      · next less =>
          refine List.pairwise_cons.mpr ⟨?_, ascending⟩
          intro entry member
          rcases List.mem_cons.mp member with rfl | inRest
          · exact less
          · exact String.lt_trans less (above entry inRest)
      · next notLess =>
          split
          · next same =>
              subst same
              exact List.pairwise_cons.mpr ⟨above, later⟩
          · next different =>
              refine List.pairwise_cons.mpr ⟨?_, ih later⟩
              intro entry member
              rcases mem_put name value entry rest member with rfl | old
              · exact lt_of_not_lt_of_ne _ _ notLess different
              · exact above entry old

theorem find_put_self (name : String) (value : α) (entries : List (String × α)) :
    find name (put name value entries) = some value := by
  induction entries with
  | nil => simp [put, find]
  | cons head rest ih =>
      obtain ⟨key, old⟩ := head
      simp only [put]
      split
      · simp [find]
      · split
        · simp [find]
        · next different => simp [find, different, ih]

theorem find_put_ne (name other : String) (value : α) (entries : List (String × α))
    (different : other ≠ name) :
    find other (put name value entries) = find other entries := by
  induction entries with
  | nil => simp [put, find, different.symm]
  | cons head rest ih =>
      obtain ⟨key, old⟩ := head
      simp only [put]
      split
      · simp [find, different.symm]
      · split
        · next same =>
            subst same
            simp [find, different.symm]
        · simp [find, ih]

theorem find_eq_none_of_lt (name : String) (entries : List (String × α))
    (below : ∀ entry ∈ entries, name < entry.1) : find name entries = none := by
  induction entries with
  | nil => rfl
  | cons head rest ih =>
      obtain ⟨key, old⟩ := head
      have less : name < key := below _ List.mem_cons_self
      have different : key ≠ name := by
        rintro rfl
        exact String.lt_irrefl _ less
      simp only [find, different, if_false]
      exact ih fun entry member => below entry (List.mem_cons_of_mem _ member)

theorem find_eq_some_iff (name : String) (value : α) (entries : List (String × α))
    (ascending : entries.Pairwise fun first second => first.1 < second.1) :
    find name entries = some value ↔ (name, value) ∈ entries := by
  induction entries with
  | nil => simp [find]
  | cons head rest ih =>
      obtain ⟨key, old⟩ := head
      obtain ⟨above, later⟩ := List.pairwise_cons.mp ascending
      by_cases same : key = name
      · subst same
        have absent : (key, value) ∉ rest := fun member =>
          String.lt_irrefl key (above _ member)
        simp [find, absent, eq_comm]
      · simp [find, same, ih later, Ne.symm same]

theorem find_ext (first second : List (String × α))
    (firstAscending : first.Pairwise fun a b => a.1 < b.1)
    (secondAscending : second.Pairwise fun a b => a.1 < b.1)
    (same : ∀ name, find name first = find name second) : first = second := by
  induction first generalizing second with
  | nil =>
      cases second with
      | nil => rfl
      | cons head rest =>
          have found := same head.1
          simp [find] at found
  | cons head rest ih =>
      obtain ⟨key, value⟩ := head
      obtain ⟨above, later⟩ := List.pairwise_cons.mp firstAscending
      cases second with
      | nil =>
          have found := same key
          simp [find] at found
      | cons head' rest' =>
          obtain ⟨key', value'⟩ := head'
          obtain ⟨above', later'⟩ := List.pairwise_cons.mp secondAscending
          have inSecond : (key, value) ∈ (key', value') :: rest' := by
            rw [← find_eq_some_iff key value _ secondAscending, ← same key]
            simp [find]
          have inFirst : (key', value') ∈ (key, value) :: rest := by
            rw [← find_eq_some_iff key' value' _ firstAscending, same key']
            simp [find]
          have heads : (key, value) = (key', value') := by
            rcases List.mem_cons.mp inSecond with equal | inRest'
            · exact equal
            · rcases List.mem_cons.mp inFirst with equal | inRest
              · exact equal.symm
              · exact absurd (String.lt_trans (above _ inRest) (above' _ inRest'))
                  (String.lt_irrefl key)
          obtain ⟨rfl, rfl⟩ := Prod.mk.inj heads
          have rests : rest = rest' := by
            refine ih rest' later later' fun name => ?_
            by_cases equal : key = name
            · subst equal
              rw [find_eq_none_of_lt key rest above, find_eq_none_of_lt key rest' above']
            · simpa [find, equal] using same name
          rw [rests]

end Entries

section Operations

def empty : NameMap α :=
  ⟨[], .nil⟩

def get? (map : NameMap α) (name : String) : Option α :=
  find name map.entries

def contains (map : NameMap α) (name : String) : Bool :=
  (map.get? name).isSome

/-- Replaces the value of a name that is there already. -/
def insert (map : NameMap α) (name : String) (value : α) : NameMap α :=
  ⟨put name value map.entries, put_ascending name value map.entries map.ascending⟩

def keys (map : NameMap α) : List String :=
  map.entries.map (·.1)

def size (map : NameMap α) : Nat :=
  map.entries.length

instance [DecidableEq α] : DecidableEq (NameMap α) := fun first second =>
  if same : first.entries = second.entries then
    isTrue (by cases first; cases second; cases same; rfl)
  else isFalse fun equal => same (equal ▸ rfl)

end Operations

section Laws

-- Two maps that answer every look-up alike are equal.
theorem ext_get? (first second : NameMap α)
    (same : ∀ name, first.get? name = second.get? name) : first = second := by
  cases first with
  | mk entries ascending =>
    cases second with
    | mk entries' ascending' =>
      have equal := find_ext entries entries' ascending ascending' same
      subst equal
      rfl

@[simp] theorem get?_empty (name : String) : (empty : NameMap α).get? name = none := rfl

@[simp] theorem get?_insert (map : NameMap α) (name other : String) (value : α) :
    (map.insert name value).get? other =
      if other = name then some value else map.get? other := by
  split
  · next same =>
      subst same
      exact find_put_self other value map.entries
  · next different => exact find_put_ne name other value map.entries different

theorem get?_eq_some_iff (map : NameMap α) (name : String) (value : α) :
    map.get? name = some value ↔ (name, value) ∈ map.entries :=
  find_eq_some_iff name value map.entries map.ascending

@[simp] theorem mem_keys_iff (map : NameMap α) (name : String) :
    name ∈ map.keys ↔ map.contains name = true := by
  simp only [keys, contains, Option.isSome_iff_exists, get?_eq_some_iff, List.mem_map]
  constructor
  · rintro ⟨⟨key, value⟩, member, rfl⟩
    exact ⟨value, member⟩
  · rintro ⟨value, member⟩
    exact ⟨(name, value), member, rfl⟩

theorem keys_ascending (map : NameMap α) :
    map.keys.Pairwise fun first second => first < second :=
  List.pairwise_map.mpr map.ascending

theorem keys_nodup (map : NameMap α) : map.keys.Nodup := by
  refine map.keys_ascending.imp ?_
  rintro first second less rfl
  exact String.lt_irrefl first less

@[simp] theorem contains_insert (map : NameMap α) (name other : String) (value : α) :
    (map.insert name value).contains other = (other == name || map.contains other) := by
  simp only [contains, get?_insert]
  by_cases same : other = name <;> simp [same]

end Laws

end NameMap

/-- Sets of names, listed in ascending order by `keys`. -/
abbrev NameSet := NameMap Unit

namespace NameSet

def add (set : NameSet) (name : String) : NameSet :=
  NameMap.insert set name ()

def ofList (names : List String) : NameSet :=
  names.foldl add .empty

@[simp] theorem contains_add (set : NameSet) (name other : String) :
    NameMap.contains (add set name) other = (other == name || set.contains other) :=
  NameMap.contains_insert set name other ()

end NameSet

end LeftRecursion
