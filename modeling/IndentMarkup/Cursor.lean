/-!
# Cursors

A cursor walks a finite sequence and can be sent back: `save` remembers where it
stands, `commit` forgets the latest saved place, `rollback` returns to it. Saved
places form a stack, so attempts nest.
-/

namespace IndentMarkup

structure Cursor (α : Type) where
  items : List α
  index : Nat := 0
  /-- The latest saved place comes first. -/
  saved : List Nat := []
  deriving DecidableEq, Repr

namespace Cursor

variable {α β : Type}

def start (items : List α) : Cursor α :=
  { items }

def current? (c : Cursor α) : Option α :=
  c.items[c.index]?

/-- The item `n` places ahead of the current one. -/
def peek? (c : Cursor α) (n : Nat) : Option α :=
  c.items[c.index + n]?

def atEnd (c : Cursor α) : Bool :=
  c.items.length ≤ c.index

/-- Moves one item ahead; at the end, nowhere. -/
def consume (c : Cursor α) : Cursor α :=
  if c.index < c.items.length then { c with index := c.index + 1 } else c

def advance (c : Cursor α) : Nat → Cursor α
  | 0 => c
  | n + 1 => c.consume.advance n

def remaining (c : Cursor α) : List α :=
  c.items.drop c.index

/-- The items between the place `origin` and the cursor. -/
def since (c : Cursor α) (origin : Nat) : List α :=
  (c.items.take c.index).drop origin

def save (c : Cursor α) : Cursor α :=
  { c with saved := c.index :: c.saved }

def commit (c : Cursor α) : Cursor α :=
  { c with saved := c.saved.tail }

def rollback (c : Cursor α) : Cursor α :=
  match c.saved with
  | [] => c
  | place :: saved => { c with index := place, saved }

def depth (c : Cursor α) : Nat :=
  c.saved.length

/-- Runs `body` on trial: its progress stays if it has a result. -/
def attempt (c : Cursor α) (body : Cursor α → Option β × Cursor α) : Option β × Cursor α :=
  match body c.save with
  | (some result, reached) => (some result, reached.commit)
  | (none, reached) => (none, reached.rollback)

@[simp] theorem rollback_save (c : Cursor α) : c.save.rollback = c := rfl

@[simp] theorem commit_save (c : Cursor α) : c.save.commit = c := rfl

theorem consume_of_atEnd {c : Cursor α} (ended : c.atEnd = true) : c.consume = c := by
  have bound : c.items.length ≤ c.index := of_decide_eq_true ended
  simp [consume, Nat.not_lt.mpr bound]

@[simp] theorem items_consume (c : Cursor α) : c.consume.items = c.items := by
  unfold consume; split <;> rfl

@[simp] theorem saved_consume (c : Cursor α) : c.consume.saved = c.saved := by
  unfold consume; split <;> rfl

theorem remaining_consume (c : Cursor α) : c.consume.remaining = c.remaining.tail := by
  unfold consume remaining
  split
  · simp
  next ended => simp [List.drop_eq_nil_of_le (Nat.not_lt.mp ended)]

end Cursor

end IndentMarkup
