/-!
Outcomes, that is values or failures, are compared by what they hold.
-/

namespace LeftRecursion

instance decidableEqOutcome {ε α : Type} [DecidableEq ε] [DecidableEq α] :
    DecidableEq (Except ε α)
  | .ok first, .ok second =>
      if same : first = second then isTrue (congrArg _ same)
      else isFalse fun equal => same (Except.ok.inj equal)
  | .error first, .error second =>
      if same : first = second then isTrue (congrArg _ same)
      else isFalse fun equal => same (Except.error.inj equal)
  | .ok _, .error _ => isFalse nofun
  | .error _, .ok _ => isFalse nofun

end LeftRecursion
