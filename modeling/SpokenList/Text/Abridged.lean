import SpokenList.Text.Basic

/-! # Abridged texts

A text that is too wide is shown by its two ends.  The width of a character is
the number of bytes that it takes in UTF-8, and no character is cut in two.
-/
namespace SpokenList.Text

/-- How many bytes the text takes. -/
def width (t : Text) : Nat := t.foldr (fun c n => c.utf8Size + n) 0

/-- The longest beginning that is not wider than `room`. -/
def startWithin (room : Nat) : Text → Text
  | [] => []
  | c :: t => if c.utf8Size ≤ room then c :: startWithin (room - c.utf8Size) t else []

/-- The longest ending that is not wider than `room`. -/
def endWithin (room : Nat) (t : Text) : Text := (startWithin room t.reverse).reverse

/-- The text itself if it is not wider than fifty, else its two ends. -/
def abridged (t : Text) : Text :=
  if t.width ≤ 50 then t else startWithin 25 t ++ "..." ++ endWithin 24 t

end SpokenList.Text
