import LeftRecursion.Batch.Fault

/-!
The console, where prompts go. It shows nothing unless prompts are wanted, and
it may take no more than so much before writing to it fails. Prompts are ASCII,
so the bytes that it takes are characters.
-/

namespace LeftRecursion.Batch

/-- How many characters are still taken, and what happens after those. -/
structure Room where
  left : Nat
  fault : DeviceFault
  deriving DecidableEq

structure Console where
  wanted : Bool
  shown : String
  room : Option Room
  deriving DecidableEq

namespace Console

def start (wanted : Bool) (room : Option Room) : Console :=
  ⟨wanted, "", room⟩

def write (console : Console) (text : String) : Console × Option DeviceFault :=
  if !console.wanted then (console, none)
  else
    match console.room with
    | none => ({ console with shown := console.shown ++ text }, none)
    | some room =>
        if text.length ≤ room.left then
          ({ console with
            shown := console.shown ++ text
            room := some { room with left := room.left - text.length } }, none)
        else
          ({ console with
            shown := console.shown ++ String.ofList (text.toList.take room.left)
            room := some { room with left := 0 } }, some room.fault)

@[simp] theorem write_of_not_wanted (console : Console) (text : String)
    (silent : console.wanted = false) : console.write text = (console, none) := by
  simp [write, silent]

end Console

end LeftRecursion.Batch
