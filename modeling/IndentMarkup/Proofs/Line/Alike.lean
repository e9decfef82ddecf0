import IndentMarkup.Proofs.Line.Seam
import IndentMarkup.Proofs.Result

/-! Lines that look alike. Their tokens are of the same kinds and texts, and the source from
each token on is the same, but the tokens may stand elsewhere in another source. Whatever is
read from one of two such lines is read from the other, up to the places that errors name. -/
namespace IndentMarkup

variable {E : ParseError → ParseError → Prop} {source source' : Text} {line line' : Line}

/-- Both lines look alike, and errors about tokens that stand in one place are related. -/
inductive Line.Alike (E : ParseError → ParseError → Prop) (source source' : Text) :
    Line → Line → Prop where
  | nil : Alike E source source' [] []
  | cons {t t' : Token} {rest rest' : Line} (kind : t.kind = t'.kind) (text : t.text = t'.text)
      (blame : E (.ofToken t) (.ofToken t'))
      (span : Line.sourceText source (t :: rest) = Line.sourceText source' (t' :: rest'))
      (later : Alike E source source' rest rest') :
      Alike E source source' (t :: rest) (t' :: rest')

/-- The same was read, and what is left looks alike. -/
structure Line.ReadAlike {α : Type} (E : ParseError → ParseError → Prop) (source source' : Text)
    (first second : α × Line) : Prop where
  read : first.1 = second.1
  left : Line.Alike E source source' first.2 second.2

namespace Line.Alike

/-- The tokens of one text look alike in any two sources that hold the text. -/
theorem of_shifted {text after after' : Text} {p q : Position}
    (placed : p.Before source (text ++ after)) (placed' : q.Before source' (text ++ after'))
    (blame : ∀ ⦃t t'⦄, Token.Shifted p q text.length t t' → E (.ofToken t) (.ofToken t'))
    (shifted : List.Forall₂ (Token.Shifted p q text.length) line line') :
    Alike E source source' line line' := by
  induction shifted with
  | nil => exact .nil
  | cons here later ih =>
    exact .cons here.kind here.text (blame here)
      (Line.sourceText_shifted placed placed' (.cons here later)) ih

/-- And so do its lines. -/
theorem split_listFrom {text after after' : Text} {p q : Position}
    (placed : p.Before source (text ++ after)) (placed' : q.Before source' (text ++ after'))
    (blame : ∀ ⦃t t'⦄, Token.Shifted p q text.length t t' → E (.ofToken t) (.ofToken t')) :
    List.Forall₂ (Alike E source source') (Line.split (Token.listFrom p text))
      (Line.split (Token.listFrom q text)) := by
  have lines := Line.split_related (fun _ _ same => same.kind) (Token.listFrom_shifted p q text)
  exact lines.imp fun _ _ shifted => of_shifted placed placed' blame shifted

theorem sourceText (alike : Alike E source source' line line') :
    line.sourceText source = line'.sourceText source' := by
  cases alike with
  | nil => rfl
  | cons _ _ _ span => exact span

theorem trimmedText (alike : Alike E source source' line line') :
    line.trimmedText source = line'.trimmedText source' := by
  rw [Line.trimmedText, Line.trimmedText, alike.sourceText]

theorem startsWith (alike : Alike E source source' line line') (kind : Token.Kind) :
    line.startsWith kind = line'.startsWith kind := by
  cases alike with
  | nil => rfl
  | cons same => simp [Line.startsWith, same]

theorem startsWithAny (alike : Alike E source source' line line') (kinds : List Token.Kind) :
    line.startsWithAny kinds = line'.startsWithAny kinds := by
  cases alike with
  | nil => rfl
  | cons same => simp [Line.startsWithAny, same]

theorem isBlank (alike : Alike E source source' line line') : line.isBlank = line'.isBlank := by
  induction alike with
  | nil => rfl
  | cons kind _ _ _ _ ih =>
    simp only [Line.isBlank, List.all_cons] at ih ⊢
    rw [kind, ih]

theorem indent (alike : Alike E source source' line line') : line.indent = line'.indent := by
  cases alike with
  | nil => rfl
  | cons kind text => rw [Line.indent, Line.indent, kind, text]

theorem skipSpace (alike : Alike E source source' line line') :
    Alike E source source' line.skipSpace line'.skipSpace := by
  induction alike with
  | nil => exact .nil
  | @cons t t' rest rest' kind text blame span later ih =>
    by_cases space : t.kind = .space
    · simpa [Line.skipSpace, space, ← kind] using ih
    · simpa [Line.skipSpace, space, ← kind] using Alike.cons kind text blame span later

variable [Std.Refl E]

theorem refl (source : Text) (line : Line) : Alike E source source line line := by
  induction line with
  | nil => exact .nil
  | cons t rest ih => exact .cons rfl rfl (Std.Refl.refl _) rfl ih

theorem unexpected (alike : Alike E source source' line line') :
    E line.unexpected line'.unexpected := by
  cases alike with
  | nil => exact Std.Refl.refl _
  | cons _ _ blame => exact blame

/-- A token that is taken may stand elsewhere, but it is of the same kind and text. -/
structure Taken (E : ParseError → ParseError → Prop) (source source' : Text)
    (first second : Token × Line) : Prop where
  kind : first.1.kind = second.1.kind
  text : first.1.text = second.1.text
  left : Alike E source source' first.2 second.2

theorem next (alike : Alike E source source' line line') :
    Agree E (Taken E source source') line.next line'.next := by
  cases alike with
  | nil => exact .error (Std.Refl.refl _)
  | @cons t t' rest rest' kind text blame span later =>
    rw [Line.next, Line.next, ← kind]
    split
    · exact .error (Std.Refl.refl _)
    · exact .ok ⟨kind, text, later⟩

theorem expect (alike : Alike E source source' line line') (kind : Token.Kind) :
    Agree E (Taken E source source') (line.expect kind) (line'.expect kind) := by
  rw [Line.expect, Line.expect, alike.startsWith kind]
  split
  · exact alike.next
  · exact .error alike.unexpected

theorem requiredText (alike : Alike E source source' line line') :
    Agree E Eq (line.requiredText source) (line'.requiredText source') := by
  rw [Line.requiredText, Line.requiredText, alike.trimmedText]
  split
  · exact .error (Std.Refl.refl _)
  · exact .ok rfl

end Line.Alike

end IndentMarkup
