import IndentMarkup.Text.Basic

/-!
# Positions in a source

An offset counts from zero, lines and columns from one. The character after a line
feed stands in column one of the next line.
-/

namespace IndentMarkup

structure Position where
  index : Nat
  line : Nat
  column : Nat
  deriving DecidableEq, Repr

namespace Position

def start : Position :=
  ⟨0, 1, 1⟩

/-- The position behind the character `c`. -/
def step (p : Position) (c : Char) : Position :=
  if c = '\n' then ⟨p.index + 1, p.line + 1, 1⟩ else ⟨p.index + 1, p.line, p.column + 1⟩

def advance (p : Position) (passed : Text) : Position :=
  passed.foldl step p

def display (p : Position) : String :=
  p.line.repr ++ ":" ++ p.column.repr

@[simp] theorem advance_nil (p : Position) : p.advance [] = p := rfl

@[simp] theorem advance_cons (p : Position) (c : Char) (passed : Text) :
    p.advance (c :: passed) = (p.step c).advance passed := rfl

@[simp] theorem advance_append (p : Position) (first second : Text) :
    p.advance (first ++ second) = (p.advance first).advance second :=
  List.foldl_append

@[simp] theorem index_step (p : Position) (c : Char) : (p.step c).index = p.index + 1 := by
  unfold step; split <;> rfl

@[simp] theorem index_advance (p : Position) (passed : Text) :
    (p.advance passed).index = p.index + passed.length := by
  induction passed generalizing p with
  | nil => rfl
  | cons c rest ih => simp [ih, Nat.add_comm, Nat.add_left_comm]

end Position

end IndentMarkup
