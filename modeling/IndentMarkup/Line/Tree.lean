import IndentMarkup.Line.Basic

/-!
# Lines by indentation

Every line owns the deeper lines that follow it, up to the next line that is indented
no deeper. A blank line counts as indented like the next line that is not blank, or not
at all if none follows, so it never ends the lines it stands among.
-/

namespace IndentMarkup

structure LineTree where
  line : Line
  indent : Nat
  nested : List LineTree
  deriving Repr

namespace LineTree

/-- The indent that counts for a line in front of the given trees. -/
def indentBefore (line : Line) (later : List LineTree) : Nat :=
  if line.isBlank then (later.head?.map indent).getD 0 else line.indent

/-- Puts a line in front: the leading trees that are deeper become its own. -/
def graft (line : Line) (later : List LineTree) : List LineTree :=
  let indent := indentBefore line later
  ⟨line, indent, later.takeWhile (indent < ·.indent)⟩ :: later.dropWhile (indent < ·.indent)

def ofLines (lines : List Line) : List LineTree :=
  lines.foldr graft []

def isBlank (tree : LineTree) : Bool :=
  tree.line.isBlank

mutual

/-- The lines of a tree in source order, its own line first. -/
def lines : LineTree → List Line
  | ⟨line, _, nested⟩ => line :: forestLines nested

def forestLines : List LineTree → List Line
  | [] => []
  | tree :: trees => tree.lines ++ forestLines trees

end

/-- All lines below a tree's own. -/
def descendants (tree : LineTree) : List Line :=
  forestLines tree.nested

theorem forestLines_append (first second : List LineTree) :
    forestLines (first ++ second) = forestLines first ++ forestLines second := by
  induction first with
  | nil => simp [forestLines]
  | cons tree trees ih => simp [forestLines, ih]

theorem forestLines_graft (line : Line) (later : List LineTree) :
    forestLines (graft line later) = line :: forestLines later := by
  simp [graft, forestLines, lines, ← forestLines_append]

theorem forestLines_ofLines (lines : List Line) : forestLines (ofLines lines) = lines := by
  induction lines with
  | nil => rfl
  | cons line rest ih =>
    rw [ofLines, List.foldr_cons, forestLines_graft]
    exact congrArg _ ih

end LineTree

/-- The nested lines as literal text. The first line that is not blank sets how many
leading blanks every line loses, also a line within a quoted string; blank lines are
left empty, and the end is trimmed. -/
def blockText (source : Text) (nested : List LineTree) : Text :=
  let lines := LineTree.forestLines nested
  let width := ((lines.find? (!·.isBlank)).map Line.indent).getD 0
  let pieces := lines.flatMap fun line =>
    if line.isBlank then [[]]
    else ((line.sourceText source).splitOn '\n').map (Text.dedent width)
  Text.trimEnd (['\n'].intercalate pieces)

end IndentMarkup
