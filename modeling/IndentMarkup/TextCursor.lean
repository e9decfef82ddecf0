import IndentMarkup.Cursor
import IndentMarkup.Position

/-!
# Text cursors

A cursor over characters that also knows its line and column. Places and line
positions are saved and restored together.
-/

namespace IndentMarkup

structure TextCursor where
  chars : Cursor Char
  line : Nat := 1
  column : Nat := 1
  /-- Line and column of every saved place, the latest first. -/
  saved : List (Nat × Nat) := []
  deriving DecidableEq, Repr

namespace TextCursor

variable {β : Type}

def start (text : Text) : TextCursor :=
  { chars := .start text }

def current? (c : TextCursor) : Option Char :=
  c.chars.current?

def peek? (c : TextCursor) (n : Nat) : Option Char :=
  c.chars.peek? n

def atEnd (c : TextCursor) : Bool :=
  c.chars.atEnd

def position (c : TextCursor) : Position :=
  ⟨c.chars.index, c.line, c.column⟩

def remaining (c : TextCursor) : Text :=
  c.chars.remaining

def since (c : TextCursor) (origin : Nat) : Text :=
  c.chars.since origin

def consume (c : TextCursor) : TextCursor :=
  match c.current? with
  | none => c
  | some char =>
    let next := c.position.step char
    { c with chars := c.chars.consume, line := next.line, column := next.column }

/-- Consumes `n` characters, or all if fewer are left. -/
def advance (c : TextCursor) : Nat → TextCursor
  | 0 => c
  | n + 1 => c.consume.advance n

def save (c : TextCursor) : TextCursor :=
  { c with chars := c.chars.save, saved := (c.line, c.column) :: c.saved }

def commit (c : TextCursor) : TextCursor :=
  { c with chars := c.chars.commit, saved := c.saved.tail }

def rollback (c : TextCursor) : TextCursor :=
  let chars := c.chars.rollback
  match c.saved with
  | [] => { c with chars }
  | (line, column) :: saved => { chars, line, column, saved }

def depth (c : TextCursor) : Nat :=
  c.chars.depth

/-- Runs `body` on trial: its progress stays if it has a result. -/
def attempt (c : TextCursor) (body : TextCursor → Option β × TextCursor) :
    Option β × TextCursor :=
  match body c.save with
  | (some result, reached) => (some result, reached.commit)
  | (none, reached) => (none, reached.rollback)

/-- Whether `body` would have a result here. Its progress is always undone. -/
def lookahead (c : TextCursor) (body : TextCursor → Option β × TextCursor) :
    Bool × TextCursor :=
  let (result, reached) := body c.save
  (result.isSome, reached.rollback)

@[simp] theorem rollback_save (c : TextCursor) : c.save.rollback = c := rfl

@[simp] theorem commit_save (c : TextCursor) : c.save.commit = c := rfl

theorem consume_of_atEnd {c : TextCursor} (ended : c.atEnd = true) : c.consume = c := by
  have bound : c.chars.items.length ≤ c.chars.index := of_decide_eq_true ended
  simp [consume, current?, Cursor.current?, bound]

end TextCursor

end IndentMarkup
