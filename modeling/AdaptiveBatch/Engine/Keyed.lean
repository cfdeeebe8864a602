import AdaptiveBatch.Engine.State

/-!
# Keyed offers

Keys and values come as two lists and are offered as pairs.
-/

namespace AdaptiveBatch
namespace Engine

variable {κ β ν : Type}

/-- The pairs as one offer, or the refusal of lists that do not match.  One pair is
offered as one item. -/
def pairOffer (keys : List κ) (values : List β) : Except (EngineError ν) (Offer (κ × β)) :=
  if keys.length ≠ values.length then
    .error (.lengthMismatch keys.length values.length)
  else
    match keys.zip values with
    | [pair] => .ok (.one pair)
    | pairs => .ok (.all pairs)

end Engine
end AdaptiveBatch
