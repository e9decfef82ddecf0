import IndentMarkup.Line.Basic
import IndentMarkup.Template.Basic

/-!
# Tag lines

A tag line names a tag with its classes, ids and attributes, and says what the tag
holds: inline content, the nested lines as elements or as text, or, behind a colon, a
further tag that takes the nested lines in its place.
-/

namespace IndentMarkup

inductive TagLine where
  /-- The nested lines are elements. -/
  | plain (head : TagHead) (content : Option Content)
  /-- The nested lines are text. -/
  | textBlock (head : TagHead)
  /-- The tag holds one other tag. -/
  | around (head : TagHead) (inner : TagLine)
  deriving DecidableEq, Repr

namespace TagLine

/-- The kinds of token that a tag line starts with. -/
def startKinds : List Token.Kind :=
  [.word, .symbol .dot, .symbol .hash]

def readName : Line → Text × Line
  | [] => (TagHead.defaultName, [])
  | t :: rest => if t.kind = .word then (t.text, rest) else (TagHead.defaultName, t :: rest)

/-- Reads classes and at most one id. A dot at the very end, as in an empty text block,
names no class. -/
def readSelectors (head : TagHead) : Line → Except ParseError (TagHead × Line)
  | [] => .ok (head, [])
  | t :: rest =>
    if t.kind = .symbol .dot then
      match rest with
      | [] => .ok (head, [])
      | name :: left =>
        if name.kind.isName then readSelectors (head.addClass name.text) left
        else .error (.ofToken name)
    else if t.kind = .symbol .hash then
      if head.id.isSome then .error (.ofToken t)
      else match rest with
        | [] => .error .unexpectedEnd
        | name :: left =>
          if name.kind.isName then readSelectors { head with id := some name.text } left
          else .error (.ofToken name)
    else .ok (head, t :: rest)

/-- Where in a list of attributes a reader stands. -/
inductive AttributeStage where
  | between
  | named (name : Text)
  | assigned (name : Text)
  deriving DecidableEq, Repr

/-- Reads attributes up to the closing parenthesis. Blanks and commas stand between
them, and blanks around the equals sign of each. -/
def readAttributes : AttributeStage → TagHead → Line → Except ParseError (TagHead × Line)
  | _, _, [] => .error .unexpectedEnd
  | .between, head, t :: rest =>
    if t.kind = .space ∨ t.kind = .symbol .comma then readAttributes .between head rest
    else if t.kind = .symbol .closeParen then .ok (head, rest)
    else if t.kind.isName then readAttributes (.named t.text) head rest
    else .error (.ofToken t)
  | .named name, head, t :: rest =>
    if t.kind = .space then readAttributes (.named name) head rest
    else if t.kind = .symbol .equals ∨ t.kind = .symbol .inlineValue then
      readAttributes (.assigned name) head rest
    else .error (.ofToken t)
  | .assigned name, head, t :: rest =>
    if t.kind = .space then readAttributes (.assigned name) head rest
    else if t.kind = .quoted then readAttributes .between (head.addAttribute name t.text) rest
    else .error (.ofToken t)

def readParentheses (head : TagHead) : Line → Except ParseError (TagHead × Line)
  | [] => .ok (head, [])
  | t :: rest =>
    if t.kind = .symbol .openParen then readAttributes .between head rest
    else .ok (head, t :: rest)

def readHead (line : Line) : Except ParseError (TagHead × Line) := do
  let (name, rest) := readName line
  let (head, rest) ← readSelectors { name } rest
  let (head, rest) ← readParentheses head rest
  readSelectors head rest

theorem length_readName_le (line : Line) : (readName line).2.length ≤ line.length := by
  unfold readName
  split
  · simp
  · split <;> simp

theorem length_readSelectors_le {head : TagHead} {line : Line} {result : TagHead × Line}
    (read : readSelectors head line = .ok result) : result.2.length ≤ line.length := by
  fun_induction readSelectors head line with
  | case1 => cases read; simp
  | case2 => cases read; simp
  | case3 _ _ _ _ _ _ ih => exact Nat.le_succ_of_le (Nat.le_succ_of_le (ih read))
  | case7 _ _ _ _ _ _ _ _ ih => exact Nat.le_succ_of_le (Nat.le_succ_of_le (ih read))
  | case9 => cases read; simp
  | _ => contradiction

theorem length_readAttributes_lt {stage : AttributeStage} {head : TagHead} {line : Line}
    {result : TagHead × Line} (read : readAttributes stage head line = .ok result) :
    result.2.length < line.length := by
  fun_induction readAttributes stage head line with
  | case3 => cases read; simp
  | case2 _ _ _ _ ih => exact Nat.lt_succ_of_lt (ih read)
  | case4 _ _ _ _ _ _ ih => exact Nat.lt_succ_of_lt (ih read)
  | case6 _ _ _ _ _ ih => exact Nat.lt_succ_of_lt (ih read)
  | case7 _ _ _ _ _ _ ih => exact Nat.lt_succ_of_lt (ih read)
  | case9 _ _ _ _ _ ih => exact Nat.lt_succ_of_lt (ih read)
  | case10 _ _ _ _ _ _ ih => exact Nat.lt_succ_of_lt (ih read)
  | _ => contradiction

theorem length_readParentheses_le {head : TagHead} {line : Line} {result : TagHead × Line}
    (read : readParentheses head line = .ok result) : result.2.length ≤ line.length := by
  unfold readParentheses at read
  split at read
  · cases read; simp
  · split at read
    · exact Nat.le_succ_of_le (Nat.le_of_lt (length_readAttributes_lt read))
    · cases read; simp

theorem length_readHead_le {line : Line} {result : TagHead × Line}
    (read : readHead line = .ok result) : result.2.length ≤ line.length := by
  unfold readHead at read
  simp only [bind, Except.bind] at read
  split at read
  · contradiction
  next first selectors =>
    split at read
    · contradiction
    next second parentheses =>
      have named := length_readName_le line
      have selected := length_readSelectors_le selectors
      have listed := length_readParentheses_le parentheses
      have final := length_readSelectors_le read
      omega

/-- Reads a tag line to its end, and returns what is left of it: tokens behind a block
marker, of which a line has none. -/
def read (source : Text) (line : Line) : Except ParseError (TagLine × Line) :=
  match _read : readHead line with
  | .error error => .error error
  | .ok (head, []) => .ok (.plain head none, [])
  | .ok (head, t :: rest) =>
    match t.kind with
    | .symbol .inlineValue | .symbol .equals => do
      let (value, left) ← (Line.skipSpace rest).readRequired source
      return (.plain head (some (.expression value)), left)
    | .space =>
      match Line.readText source rest with
      | ([], left) => .ok (.plain head none, left)
      | (value, left) => .ok (.plain head (some (.text value)), left)
    | .symbol .block => .ok (.textBlock head, rest)
    | .symbol .colon =>
      if (Line.skipSpace rest).startsWithAny startKinds then
        (read source (Line.skipSpace rest)).map fun (inner, left) => (.around head inner, left)
      else .error (Line.skipSpace rest).unexpected
    | _ => .error (.ofToken t)
termination_by line.length
decreasing_by
  have shorter := length_readHead_le _read
  have skipped := Line.length_skipSpace_le rest
  simp only [List.length_cons] at shorter
  omega

end TagLine

end IndentMarkup
