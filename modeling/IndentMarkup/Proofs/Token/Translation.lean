import IndentMarkup.Proofs.Line.Seam

/-! Reading has no memory. From the start of any token on, a text is read as the tokens that are left,
with their positions counted from there, and behind a text of whole lines another one is read as by
itself, with its positions moved behind those lines. -/
namespace IndentMarkup

namespace Position

/-- The position as it is counted from another one in front of it. -/
def seenFrom (origin p : Position) : Position where
  index := p.index - origin.index
  line := p.line - origin.line + 1
  column := if p.line = origin.line then p.column - origin.column + 1 else p.column

/-- The position of a text that is moved behind the one given. -/
def movedBehind (before : Text) (p : Position) : Position :=
  ⟨p.index + before.length, p.line + before.count '\n', p.column⟩

/-- The second position is the first or stands behind it. -/
structure Reaches (p q : Position) : Prop where
  index : p.index ≤ q.index
  line : p.line ≤ q.line
  column : q.line = p.line → p.column ≤ q.column

theorem Reaches.refl (p : Position) : Reaches p p :=
  ⟨Nat.le_refl _, Nat.le_refl _, fun _ => Nat.le_refl _⟩

theorem Reaches.step {p q : Position} (reaches : Reaches p q) (c : Char) :
    Reaches p (q.step c) := by
  obtain ⟨index, line, column⟩ := reaches
  unfold Position.step
  split
  · refine ⟨Nat.le_succ_of_le index, Nat.le_succ_of_le line, fun same => ?_⟩
    change q.line + 1 = p.line at same
    omega
  · exact ⟨Nat.le_succ_of_le index, line, fun same => Nat.le_succ_of_le (column same)⟩

/-- Each step is the same wherever it is counted from. -/
theorem Reaches.seenFrom_step {p q : Position} (reaches : Reaches p q) (c : Char) :
    p.seenFrom (q.step c) = (p.seenFrom q).step c := by
  obtain ⟨index, line, column⟩ := reaches
  by_cases feed : c = '\n'
  · have later : q.line + 1 ≠ p.line := by omega
    simp [seenFrom, Position.step, feed, later]
    omega
  · by_cases same : q.line = p.line
    · have behind := column same
      simp [seenFrom, Position.step, feed, same]
      omega
    · simp [seenFrom, Position.step, feed, same]
      omega

theorem reaches_advance (p : Position) (passed : Text) : Reaches p (p.advance passed) := by
  induction passed using List.reverseRecOn with
  | nil => exact .refl p
  | append_singleton passed c ih => simpa using ih.step c

theorem seenFrom_advance (p : Position) (passed : Text) :
    p.seenFrom (p.advance passed) = start.advance passed := by
  induction passed using List.reverseRecOn with
  | nil => simp [seenFrom, start]
  | append_singleton passed c ih => simp [(reaches_advance p passed).seenFrom_step c, ih]

/-- Behind whole lines the next one starts in column one. -/
theorem advance_endsLine {before : Text} (ended : before.EndsLine) :
    start.advance before = movedBehind before start := by
  rw [advance_start, movedBehind, start]
  by_cases nonempty : before = []
  · simp [nonempty]
  · obtain ⟨line, rfl⟩ := ended.eq_append nonempty
    simp

theorem movedBehind_advance (before passed : Text) (p : Position) :
    movedBehind before (p.advance passed) = (movedBehind before p).advance passed := by
  induction passed generalizing p with
  | nil => rfl
  | cons c passed ih =>
    have first : movedBehind before (p.step c) = (movedBehind before p).step c := by
      unfold step
      split <;> simp [movedBehind] <;> omega
    rw [advance_cons, ih, first, advance_cons]

end Position

namespace Token

def seenFrom (origin : Position) (t : Token) : Token :=
  { t with position := origin.seenFrom t.position }

def movedBehind (before : Text) (t : Token) : Token :=
  { t with position := t.position.movedBehind before }

/-- Where positions are counted differently, the tokens of a text are the same otherwise. -/
theorem listFrom_map {p q : Position} {f : Token → Token} {move : Position → Position}
    (own : ∀ t, f t = { t with position := move t.position })
    (moves : ∀ passed, move (p.advance passed) = q.advance passed) (text : Text) :
    listFrom q text = (listFrom p text).map f := by
  have shifted := listFrom_shifted p q text
  generalize listFrom p text = tokens, listFrom q text = tokens' at shifted
  induction shifted with
  | nil => rfl
  | @cons t t' _ _ same _ ih =>
    obtain ⟨passed, first, second⟩ := same.offset
    have here : t' = f t := by
      obtain ⟨kind, text, position⟩ := t
      obtain ⟨kind', text', position'⟩ := t'
      obtain ⟨rfl, rfl, -, -⟩ := same
      dsimp only at first second
      rw [own, first, second, moves]
    rw [List.map_cons, here, ih]

/-- From its start on, a token and those behind it are what the rest of the text is read as. -/
theorem listFrom_drop (p : Position) (text : Text) {k : Nat} {t : Token}
    (found : (listFrom p text)[k]? = some t) :
    ∃ before rest, text = before ++ rest ∧ t.position = p.advance before ∧
      (listFrom p text).drop k = listFrom (p.advance before) rest := by
  fun_induction listFrom p text generalizing k with
  | case1 => contradiction
  | case2 p text first taken ih =>
    cases k with
    | zero =>
      obtain rfl := Option.some.inj found
      refine ⟨[], text, rfl, rfl, ?_⟩
      rw [Position.advance_nil, listFrom_of_first p (Grammar.first_of_standard taken)]
      rfl
    | succ k =>
      obtain ⟨before, rest, split, placed, left⟩ := ih found
      refine ⟨first.taken ++ before, rest, ?_, by simp [placed], by simp [left]⟩
      rw [List.append_assoc, ← split]
      exact (Grammar.first_of_standard taken).append

/-- From the start of each token on, a text is read as the tokens from that one on, as they are seen
from there. And where a text of whole lines, none of whose strings is left open, stands in front of
another one, both are read as by themselves, the second one moved behind those lines. -/
theorem ofText_translates :
    (∀ source : Text, ∃ tokens, ofText source = .ok tokens ∧
      ∀ k t, tokens[k]? = some t →
        (∀ u ∈ tokens.drop k, t.position.Reaches u.position) ∧
        ofText (source.drop t.position.index) =
          .ok ((tokens.drop k).map (seenFrom t.position))) ∧
    ∀ a b : Text, a.EndsLine → ∃ first second, ofText a = .ok first ∧ ofText b = .ok second ∧
      ((∀ t ∈ first, t.isUnclosed = false) →
        ofText (a ++ b) = .ok (first ++ second.map (movedBehind a))) := by
  constructor
  · refine fun source => ⟨_, ofText_eq_listFrom source, fun k t found => ?_⟩
    obtain ⟨before, rest, rfl, placed, left⟩ := listFrom_drop .start source found
    have index : t.position.index = before.length := by simp [placed, Position.advance_start]
    rw [left, placed, ofText_eq_listFrom, ← placed, index, List.drop_left, placed]
    refine ⟨fun u member => ?_, congrArg _ ?_⟩
    · obtain ⟨passed, found, -, -, rfl⟩ := mem_listFrom member
      exact Position.reaches_advance _ passed
    · exact listFrom_map (fun _ => rfl) (Position.seenFrom_advance _) rest
  · refine fun a b ended => ⟨_, _, ofText_eq_listFrom a, ofText_eq_listFrom b, fun closed => ?_⟩
    rw [ofText_eq_listFrom, listFrom_append .start ended closed, Position.advance_endsLine ended]
    have moved : listFrom (Position.start.movedBehind a) b = (listFrom .start b).map (movedBehind a) :=
      listFrom_map (fun _ => rfl) (Position.movedBehind_advance a · .start) b
    rw [moved]

/-- A string over two lines in the first text, and the token behind it seen from the string. -/
theorem ofText_translates_string : ∃ first second third,
    ofText "p \"a\nb\" c\n".toList = .ok first ∧ first[2]? = some third ∧ third.kind = .quoted ∧
      ofText "\"a\nb\" c\n".toList = .ok ((first.drop 2).map (seenFrom third.position)) ∧
      ofText "d e".toList = .ok second ∧
      ofText "p \"a\nb\" c\nd e".toList =
        .ok (first ++ second.map (movedBehind "p \"a\nb\" c\n".toList)) := by
  obtain ⟨first, read, later⟩ := ofText_translates.1 "p \"a\nb\" c\n".toList
  obtain ⟨again, second, same, alone, joined⟩ :=
    ofText_translates.2 "p \"a\nb\" c\n".toList "d e".toList (by decide)
  have tokens : ofText "p \"a\nb\" c\n".toList = .ok [⟨.word, ['p'], ⟨0, 1, 1⟩⟩,
      ⟨.space, [' '], ⟨1, 1, 2⟩⟩, ⟨.quoted, ['a', '\n', 'b'], ⟨2, 1, 3⟩⟩, ⟨.space, [' '], ⟨7, 2, 3⟩⟩,
      ⟨.word, ['c'], ⟨8, 2, 4⟩⟩, ⟨.symbol .newLine, ['\n'], ⟨9, 2, 5⟩⟩] := by
    decide +kernel
  obtain rfl := Except.ok.inj (read.symm.trans tokens)
  obtain rfl := Except.ok.inj (same.symm.trans tokens)
  exact ⟨_, second, _, tokens, rfl, rfl, (later 2 _ rfl).2, alone, joined (by decide)⟩

end Token

end IndentMarkup
