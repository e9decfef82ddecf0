import IndentMarkup.Proofs.Cursor.Program
import IndentMarkup.Proofs.Token.InPlace
import IndentMarkup.Proofs.Token.Partition
import Mathlib.Data.List.Forall2

/-! Where a cursor stands in its text tells its line and column, however it came there. The places
that it saved are told with their lines and columns in the same way. -/
namespace IndentMarkup

namespace TextCursor

/-- The offset is within the text, and the line and the column are those of the offset. -/
structure Knows (text : Text) (p : Position) : Prop where
  inside : p.index ≤ text.length
  located : p.LocatedIn text

/-- The cursor is in the text, and its two stacks are the saved places and their lines and columns,
entry by entry. -/
structure LocatedIn (text : Text) (c : TextCursor) : Prop where
  items : c.chars.items = text
  here : Knows text c.position
  saved : List.Forall₂ (fun index mark => Knows text ⟨index, mark.1, mark.2⟩)
    c.chars.saved c.saved

variable {text : Text} {c : TextCursor}

theorem knows_advance (before after : Text) :
    Knows (before ++ after) (Position.start.advance before) := by
  rw [Position.advance_start]
  exact ⟨by simp, by simp [Position.LocatedIn]⟩

theorem Knows.eq_advance {p : Position} (known : Knows text p) :
    p = Position.start.advance (text.take p.index) := by
  rw [Position.advance_start]
  obtain ⟨line, column⟩ := known.located
  have inside : (text.take p.index).length = p.index := by
    rw [List.length_take, Nat.min_eq_left known.inside]
  rw [inside, ← line, ← column]

/-- Behind a character is the next position. -/
theorem Knows.step {p : Position} {char : Char} (known : Knows text p)
    (here : text[p.index]? = some char) : Knows text (p.step char) := by
  obtain ⟨bound, rfl⟩ := List.getElem?_eq_some_iff.mp here
  have passed : p.step text[p.index] =
      Position.start.advance (text.take (p.index + 1)) := by
    rw [List.take_succ_eq_append_getElem bound, Position.advance_append, ← known.eq_advance]
    rfl
  have behind := knows_advance (text.take (p.index + 1)) (text.drop (p.index + 1))
  rwa [List.take_append_drop, ← passed] at behind

theorem locatedIn_start (text : Text) : (start text).LocatedIn text where
  items := rfl
  here := ⟨Nat.zero_le _, rfl, rfl⟩
  saved := .nil

theorem LocatedIn.consume (known : c.LocatedIn text) : c.consume.LocatedIn text := by
  cases here : c.current? with
  | none => rwa [consume_of_ended here]
  | some char =>
    rw [consume_of_current here]
    have next : text[c.position.index]? = some char := known.items ▸ here
    exact ⟨known.items, known.here.step next, known.saved⟩

theorem LocatedIn.save (known : c.LocatedIn text) : c.save.LocatedIn text :=
  ⟨known.items, known.here, .cons known.here known.saved⟩

theorem LocatedIn.commit (known : c.LocatedIn text) : c.commit.LocatedIn text := by
  obtain ⟨⟨items, index, places⟩, line, column, marks⟩ := c
  refine ⟨known.items, known.here, ?_⟩
  cases known.saved with
  | nil => exact .nil
  | cons _ below => exact below

/-- The places of both stacks are those of one cursor that was there before. -/
theorem LocatedIn.rollback (known : c.LocatedIn text) : c.rollback.LocatedIn text := by
  obtain ⟨⟨items, index, places⟩, line, column, marks⟩ := c
  have saved : List.Forall₂ (fun index mark => Knows text ⟨index, mark.1, mark.2⟩) places marks :=
    known.saved
  cases saved with
  | nil => exact known
  | cons latest below => exact ⟨known.items, latest, below⟩

/-- Wherever a program for a new cursor comes by, inside of its attempts too, the cursor is within
the text, its line and column are told by its index, and so are those of all its saved places. -/
theorem locatedIn_states (text : Text) (p : Program) :
    (p.run (start text)).LocatedIn text ∧ ∀ c ∈ p.states (start text), c.LocatedIn text := by
  have everywhere : ∀ c ∈ p.states (start text), c.LocatedIn text :=
    p.invariant (P := LocatedIn text) (fun _ => LocatedIn.consume) (fun _ => LocatedIn.save)
      (fun _ => LocatedIn.commit) (fun _ => LocatedIn.rollback) (locatedIn_start text)
  exact ⟨everywhere _ (p.run_mem_states _), everywhere⟩

/-- An attempt gives up its own place and one that was saved outside, and when it fails the cursor
goes back to a further one from outside. -/
theorem locatedIn_states_outer :
    (Program.save (.consume (.save (.consume (.attempt (.commit (.rollback (.consume .done))) false
      .done))))).run (start ['a', '\n', 'b']) = start ['a', '\n', 'b'] ∧
    LocatedIn ['a', '\n', 'b']
      ((start ['a', '\n', 'b']).save.consume.save.consume.save.commit.rollback.consume) := by
  refine ⟨rfl, (locatedIn_states _ (.save (.consume (.save (.consume (.attempt
    (.commit (.rollback (.consume .done))) false .done)))))).2 _ ?_⟩
  decide

end TextCursor

end IndentMarkup
