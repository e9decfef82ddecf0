import IndentMarkup.Text.Basic

/-!
# Character entities

The four characters that mean something in markup are written as entities.
-/

namespace IndentMarkup

def entity (c : Char) : Text :=
  if c = '&' then ['&', 'a', 'm', 'p', ';']
  else if c = '<' then ['&', 'l', 't', ';']
  else if c = '>' then ['&', 'g', 't', ';']
  else if c = '"' then ['&', 'q', 'u', 'o', 't', ';']
  else [c]

/-- Whether the character means something in markup. -/
def isSpecial (c : Char) : Bool :=
  c = '&' || c = '<' || c = '>' || c = '"'

theorem entity_of_not_special {c : Char} (plain : ¬ isSpecial c = true) : entity c = [c] := by
  simp only [isSpecial, Bool.or_eq_true, decide_eq_true_eq, not_or] at plain
  simp [entity, plain]

namespace Text

/-- A text with no special character is left as it is. -/
def encode (text : Text) : Text :=
  if text.any isSpecial then text.flatMap entity else text

/-- The text that is left as it is would not be changed by the entities either. -/
theorem encode_eq_flatMap (text : Text) : text.encode = text.flatMap entity := by
  rw [encode]
  split
  · rfl
  next plain =>
    have alone : ∀ c ∈ text, entity c = [c] := fun c member =>
      entity_of_not_special fun special => plain (List.any_eq_true.mpr ⟨c, member, special⟩)
    rw [List.flatMap_def, List.map_congr_left alone, ← List.flatMap_def, List.flatMap_singleton']

@[simp] theorem encode_nil : encode [] = [] := rfl

@[simp] theorem encode_cons (c : Char) (text : Text) :
    encode (c :: text) = entity c ++ encode text := by
  rw [encode_eq_flatMap, encode_eq_flatMap, List.flatMap_cons]

theorem encode_append (first second : Text) :
    encode (first ++ second) = encode first ++ encode second := by
  simp only [encode_eq_flatMap, List.flatMap_append]

end Text

end IndentMarkup
