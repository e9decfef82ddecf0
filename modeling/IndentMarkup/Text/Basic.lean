/-!
# Text

Templates and markup are sequences of characters. Every offset, width and column
counts characters, never the bytes of an encoding.
-/

namespace IndentMarkup

abbrev Text := List Char

namespace Text

/-- The characters at offsets `start` up to `stop`. A range that is reversed or
leaves the text selects nothing. -/
def slice (text : Text) (start stop : Nat) : Text :=
  let piece := (text.drop start).take (stop - start)
  if piece.length = stop - start then piece else []

/-- Carriage returns carry no meaning, so both common line endings read alike. -/
def normalize (text : Text) : Text :=
  text.filter (· ≠ '\r')

theorem slice_of_le {text : Text} {start stop : Nat} (ordered : start ≤ stop)
    (inside : stop ≤ text.length) :
    text.slice start stop = (text.drop start).take (stop - start) := by
  have fits : min (stop - start) (text.length - start) = stop - start := by omega
  simp [slice, fits]

theorem slice_of_length_lt {text : Text} {start stop : Nat} (outside : text.length < stop) :
    text.slice start stop = [] := by
  simp only [slice]
  split
  next whole =>
    have fits : min (stop - start) (text.length - start) = stop - start := by simpa using whole
    have nothing : stop - start = 0 := by omega
    simp [nothing]
  next => rfl

theorem slice_of_drop {text piece after : Text} {start : Nat}
    (placed : text.drop start = piece ++ after) :
    text.slice start (start + piece.length) = piece := by
  simp [slice, placed]

theorem normalize_idem (text : Text) : normalize (normalize text) = normalize text := by
  simp [normalize]

end Text

end IndentMarkup
