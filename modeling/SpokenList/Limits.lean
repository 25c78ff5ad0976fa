/-! # Limits

The two bounds that hold everywhere: how large a quantity or an adjustment of
one entry may be, and how long a command may be that comes in a request.
-/
namespace SpokenList

/-- Bounds on what a single command may say. -/
structure Limits where
  /-- The largest quantity, and the largest size of an adjustment. -/
  quantity : Int
  /-- The greatest number of characters of a command. -/
  utterance : Int
  deriving DecidableEq, Repr

namespace Limits

/-- The bounds that hold unless the environment sets others. -/
def standard : Limits := ⟨999, 2000⟩

end Limits
end SpokenList
