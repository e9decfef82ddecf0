import IndentMarkup.Proofs.Line.Padded
import IndentMarkup.Proofs.Line.Rest
import IndentMarkup.Proofs.Template.Body
import IndentMarkup.Proofs.Template.Marked

/-! The text that is nested under a line is what the source has there, line by line without the
indent of the first. Lines are those of the source here, also within a string, and only a line of
tokens that is blank is left empty. -/
namespace IndentMarkup

namespace Text

theorem splitOn_intercalate {texts : List Text} (nonempty : texts ≠ []) :
    (['\n'].intercalate texts).splitOn '\n' = texts.flatMap (·.splitOn '\n') := by
  induction texts with
  | nil => contradiction
  | cons text later ih =>
    by_cases alone : later = []
    · rw [alone, List.intercalate_singleton, List.flatMap_cons, List.flatMap_nil, List.append_nil]
    · rw [List.intercalate_cons_of_ne_nil alone, List.append_assoc, List.singleton_append,
        List.splitOn_append_cons_of_beq _ _ (beq_self_eq_true _), ih alone, List.flatMap_cons]

/-- The lines of a text take up its length, if a line feed stands behind the last of them too. -/
theorem extent_splitOn (text : Text) :
    extent List.length (text.splitOn '\n') = text.length + 1 := by
  induction text using Text.line_induction with
  | last line within => rw [splitOn_last within]; rfl
  | cons line rest within ih =>
    rw [splitOn_feed within, extent, ih, List.length_append, List.length_cons]
    omega

theorem dedent_eq (width : Nat) (text : Text) :
    text.dedent width = text.drop (min width (text.takeWhile IndentMarkup.isBlank).length) := by
  induction text generalizing width with
  | nil => cases width <;> rfl
  | cons c rest ih =>
    cases width with
    | zero => rw [Nat.zero_min, List.drop_zero]; rfl
    | succ width =>
      by_cases blank : IndentMarkup.isBlank c = true
      · rw [dedent, if_pos blank, ih, List.takeWhile_cons_of_pos blank, List.length_cons,
          Nat.succ_min_succ, List.drop_succ_cons]
      · rw [dedent, if_neg blank, List.takeWhile_cons_of_neg blank, List.length_nil, Nat.min_zero,
          List.drop_zero]

/-- The line that begins at the offset, without the longest blanks in front that are no wider than
`width`. Nothing is left of it if it is one of the blank lines. -/
def dedented (blanks : List Nat) (width : Nat) (entry : Nat × Text) : Text :=
  if entry.1 ∈ blanks then [] else
    entry.2.drop (min width (entry.2.takeWhile IndentMarkup.isBlank).length)

/-- All lines of the text dedented, without the blanks at the end. The blank lines are given by the
offsets at which they begin. -/
def dedentLines (blanks : List Nat) (width : Nat) (text : Text) : Text :=
  trimEnd (['\n'].intercalate
    ((withOffsets List.length 0 (text.splitOn '\n')).map (dedented blanks width)))

end Text

/-- The offsets at which blank lines begin. -/
def Line.blankOffsets (source : Text) (o : Nat) (lines : List Line) : List Nat :=
  ((Line.located source o lines).filter (·.2.isBlank)).map Prod.fst

variable {source : Text}

theorem Line.blankOffsets_cons (o : Nat) (line : Line) (later : List Line) :
    Line.blankOffsets source o (line :: later) = (if line.isBlank then [o] else []) ++
      Line.blankOffsets source (o + (line.sourceText source).length + 1) later := by
  rw [Line.blankOffsets, Line.located, withOffsets, List.filter_cons]
  split <;> rfl

theorem Line.le_of_mem_blankOffsets {o : Nat} {lines : List Line} :
    ∀ b ∈ Line.blankOffsets source o lines, o ≤ b := by
  rintro b member
  obtain ⟨entry, found, rfl⟩ := List.mem_map.mp member
  exact (withOffsets_bounds entry (List.mem_filter.mp found).1).1

/-- Line by line of the source or line by line of tokens, the same is left. -/
theorem dedented_lines (width : Nat) {blanks : List Nat} {lines : List Line} (nonempty : lines ≠ [])
    (feedless : ∀ line ∈ lines, line.isBlank = true → '\n' ∉ line.sourceText source) (o : Nat)
    (own : ∀ b, o ≤ b → (b ∈ blanks ↔ b ∈ Line.blankOffsets source o lines)) :
    (withOffsets List.length o ((['\n'].intercalate (lines.map (Line.sourceText source))).splitOn
        '\n')).map (Text.dedented blanks width) =
      lines.flatMap fun line => if line.isBlank then [[]]
        else ((line.sourceText source).splitOn '\n').map (Text.dedent width) := by
  rw [Text.splitOn_intercalate (by simpa using nonempty)]
  clear nonempty
  induction lines generalizing o with
  | nil => rfl
  | cons line later ih =>
    rw [List.forall_mem_cons] at feedless
    rw [List.map_cons, List.flatMap_cons, List.flatMap_cons, withOffsets_append, List.map_append,
      Text.extent_splitOn, ← Nat.add_assoc]
    have behind : ∀ b, o + (line.sourceText source).length + 1 ≤ b → (b ∈ blanks ↔
        b ∈ Line.blankOffsets source (o + (line.sourceText source).length + 1) later) := by
      intro b past
      have apart : b ∉ if line.isBlank = true then [o] else [] := by
        split
        · rw [List.mem_singleton]
          omega
        · exact List.not_mem_nil
      rw [own b (by omega), Line.blankOffsets_cons, List.mem_append, or_iff_right apart]
    have here : ∀ b, o ≤ b → b ≤ o + (line.sourceText source).length →
        (b ∈ blanks ↔ line.isBlank = true ∧ b = o) := by
      intro b after before
      have apart : b ∉
          Line.blankOffsets source (o + (line.sourceText source).length + 1) later := by
        intro member
        have late := Line.le_of_mem_blankOffsets b member
        omega
      rw [own b after, Line.blankOffsets_cons, List.mem_append, or_iff_left apart]
      split <;> simp_all
    refine congrArg₂ _ ?_ (ih feedless.2 _ behind)
    by_cases blank : line.isBlank = true
    · have gone : o ∈ blanks := (here o (Nat.le_refl o) (Nat.le_add_right ..)).mpr ⟨blank, rfl⟩
      rw [Text.splitOn_last (feedless.1 blank), if_pos blank, withOffsets, withOffsets,
        List.map_singleton, Text.dedented, if_pos gone]
    · rw [if_neg blank]
      have pieces :
          (withOffsets List.length o ((line.sourceText source).splitOn '\n')).map Prod.snd =
            (line.sourceText source).splitOn '\n' := map_withOffsets _
      conv_rhs => rw [← pieces, List.map_map]
      refine List.map_congr_left fun entry member => ?_
      have bounds := withOffsets_bounds entry member
      rw [Text.extent_splitOn] at bounds
      have kept : entry.1 ∉ blanks := fun inside =>
        blank ((here entry.1 bounds.1 (by omega)).mp inside).1
      rw [Text.dedented, if_neg kept, Function.comp_apply, Text.dedent_eq]

/-- A blank line holds no string, so its text is on one line. -/
theorem Line.feedless_of_blank {line : Line}
    (member : line ∈ Line.split (Token.listFrom .start source)) (blank : line.isBlank = true) :
    '\n' ∉ line.sourceText source := by
  intro feed
  obtain ⟨k, place⟩ := List.mem_iff_getElem?.mp feed
  obtain ⟨first, head, t, inside, quoted, -⟩ :=
    (madeOf_split .start source).feeds_quoted rfl line member k place
  have space := List.all_eq_true.mp blank t inside
  simp [quoted] at space

namespace LineTree

/-- The indent of the first line that is not blank. -/
def lead (lines : List Line) : Option Nat :=
  (lines.find? (!·.isBlank)).map Line.indent

theorem lead_append (first second : List Line) :
    lead (first ++ second) = (lead first).or (lead second) := by
  rw [lead, List.find?_append, Option.map_or]
  rfl

/-- The lines `inner` that follow a line are nested under it, and the line behind them is not. -/
structure Encloses (own : Line) (inner after : List Line) : Prop where
  deeper : ∀ j < inner.length, ∃ width ∈ lead (inner.drop j), own.indent < width
  ends : after ≠ [] → (lead after).getD 0 ≤ own.indent

variable {own : Line} {before inner after : List Line}

/-- What the lines behind a line are indented by, blank lines included. -/
theorem level_behind {j : Nat} (inside : j ≤ inner.length) :
    level (before ++ own :: (inner ++ after)) (before.length + 1 + j) =
      ((lead (inner.drop j)).or (lead after)).getD 0 := by
  rw [← lead_append, level, ← List.drop_append_of_le_length inside, Nat.add_assoc, ← List.drop_drop,
    List.drop_left, Nat.add_comm 1, List.drop_succ_cons]
  rfl

theorem nestedTo_iff (solid : own.isBlank = false) :
    NestedTo (before ++ own :: (inner ++ after)) before.length (before.length + 1 + inner.length) ↔
      Encloses own inner after := by
  have width : level (before ++ own :: (inner ++ after)) before.length = own.indent := by
    simp [level, solid]
  have beyond : level (before ++ own :: (inner ++ after)) (before.length + 1 + inner.length) =
      (lead after).getD 0 := by
    rw [level_behind (Nat.le_refl _), List.drop_length]
    exact congrArg (Option.getD · 0) Option.none_or
  have length : (before ++ own :: (inner ++ after)).length =
      before.length + 1 + inner.length + after.length := by
    simp only [List.length_append, List.length_cons]
    omega
  constructor
  · intro nested
    have ends : after ≠ [] → (lead after).getD 0 ≤ own.indent := by
      intro more
      have positive := List.length_pos_iff.mpr more
      have shallow := nested.ends (by omega)
      rwa [beyond, width] at shallow
    refine ⟨fun j inside => ?_, ends⟩
    have deeper := nested.deeper (before.length + 1 + j) (by omega) (by omega)
    rw [level_behind (Nat.le_of_lt inside), width] at deeper
    cases first : lead (inner.drop j) with
    | some found => exact ⟨found, rfl, by simpa [first] using deeper⟩
    | none =>
      -- blank lines are as deep as the line behind them, which is not nested
      rw [first, Option.none_or] at deeper
      by_cases none : after = []
      · rw [none] at deeper
        exact absurd deeper (Nat.not_lt_zero _)
      · exact absurd deeper (Nat.not_lt_of_le (ends none))
  · intro encloses
    refine ⟨by omega, by omega, fun k past inside => ?_, fun more => ?_⟩
    · obtain ⟨j, rfl⟩ := Nat.exists_eq_add_of_le past
      obtain ⟨found, first, deeper⟩ := encloses.deeper j (by omega)
      rw [level_behind (by omega), width, Option.mem_def.mp first]
      exact deeper
    · rw [beyond, width]
      exact encloses.ends (List.ne_nil_of_length_pos (by omega))

theorem Encloses.last_solid (encloses : Encloses own inner after) :
    ∀ last ∈ inner.getLast?, last.isBlank = false := by
  intro last closing
  obtain ⟨front, rfl⟩ := List.getLast?_eq_some_iff.mp closing
  obtain ⟨width, first, -⟩ := encloses.deeper front.length (by simp)
  rw [List.drop_left] at first
  by_contra blank
  simp [lead, blank] at first

theorem Encloses.exists_first (encloses : Encloses own inner after) (nonempty : inner ≠ []) :
    ∃ first, inner.find? (!·.isBlank) = some first := by
  obtain ⟨width, first, -⟩ := encloses.deeper 0 (List.length_pos_iff.mpr nonempty)
  obtain ⟨line, found, -⟩ := Option.map_eq_some_iff.mp first
  exact ⟨line, found⟩

variable {m i : Nat} {tree : LineTree} {front : List Line} {head body tail : Text}

/-- The lines of the source around those that are nested under a line. -/
structure Nests (source : Text) (tree : LineTree) (front after : List Line) : Prop where
  lines : Template.linesOf source = front ++ tree.line :: (tree.descendants ++ after)
  solid : tree.line.isBlank = false
  nonempty : tree.descendants ≠ []
  encloses : Encloses tree.line tree.descendants after

theorem descendants_ne_nil (nested : tree.nested ≠ []) : tree.descendants ≠ [] := by
  obtain ⟨⟨line, _, _⟩, later, same⟩ := List.exists_cons_of_ne_nil nested
  simp [descendants, same, forestLines, lines]

/-- The lines around a tree: those before it, its own, those nested under it and those behind. -/
theorem exists_around {lines : List Line} (place : (within (ofLines lines))[i]? = some tree) :
    ∃ before after, lines = before ++ tree.line :: (tree.descendants ++ after) ∧
      before.length = i ∧ NestedTo lines i (i + 1 + tree.descendants.length) := by
  obtain ⟨nestedTo, below⟩ := nestedTo_ofLines place
  obtain ⟨bound, own⟩ := List.getElem?_eq_some_iff.mp (getElem?_ofLines.2 ⟨tree, place, rfl⟩)
  rw [length_within, ← descendants] at nestedTo below
  rw [List.drop_take, Nat.add_sub_cancel_left] at below
  have behind := List.take_append_drop tree.descendants.length (lines.drop (i + 1))
  rw [below] at behind
  refine ⟨lines.take i, (lines.drop (i + 1)).drop tree.descendants.length, ?_, ?_, nestedTo⟩
  · rw [behind, ← own, ← List.drop_eq_getElem_cons bound, List.take_append_drop]
  · rw [List.length_take, Nat.min_eq_left (Nat.le_of_lt bound)]

theorem exists_nests
    (place : (within (ofLines ((Template.linesOf source).drop m)))[i]? = some tree)
    (nested : tree.nested ≠ []) :
    ∃ front after, Nests source tree front after ∧ front.length = m + i := by
  have member := List.mem_of_getElem? place
  have solid : tree.line.isBlank = false :=
    Bool.eq_false_iff.mpr fun blank => nested (nested_eq_nil_of_blank member blank)
  obtain ⟨before, after, split, rfl, nestedTo⟩ := exists_around place
  have bound : m ≤ (Template.linesOf source).length := by
    by_contra beyond
    rw [List.drop_eq_nil_of_le (by omega)] at split
    simp at split
  rw [split] at nestedTo
  refine ⟨(Template.linesOf source).take m ++ before, after, ⟨?_, solid, descendants_ne_nil nested,
    (nestedTo_iff solid).mp nestedTo⟩, ?_⟩
  · rw [List.append_assoc, ← split, List.take_append_drop]
  · rw [List.length_append, List.length_take, Nat.min_eq_left bound]

/-- The source that is nested under a line. It begins behind the line feed of that line and ends
with the last of the nested ones. -/
structure HasBody (source : Text) (tree : LineTree) (head body tail : Text) : Prop where
  whole : source = head ++ '\n' :: (body ++ tail)
  begins : tree.line.EndsAt source head.length
  ends : ∃ last ∈ tree.descendants.getLast?, last.EndsAt source (head.length + 1 + body.length)
  lines : body = ['\n'].intercalate (tree.descendants.map (Line.sourceText source))

/-- The lines above a body are known too. At the end of the source a body ends in no line feed. -/
structure Framed (source : Text) (tree : LineTree) (front : List Line) (head body tail : Text) :
    Prop extends HasBody source tree head body tail where
  above : head = ['\n'].intercalate ((front ++ [tree.line]).map (Line.sourceText source))
  open_ : tail = [] → ¬ body.EndsLine

theorem endsAt_of_last {line : Line} (solid : line.isBlank = false) (whole : source = head ++ tail)
    (last : ∀ t ∈ line.getLast?, Line.lastStop t = head.length) (ended : LineEnd tail) :
    line.EndsAt source head.length := by
  have nonempty : line ≠ [] := by
    rintro rfl
    contradiction
  have final := List.getLast?_eq_some_getLast nonempty
  refine ⟨⟨_, final, last _ final⟩, ?_, ?_⟩
  · rw [whole, List.length_append]
    exact Nat.le_add_right ..
  · rwa [whole, List.drop_left]

theorem Nests.exists_body (nests : Nests source tree front after) :
    ∃ head body tail, Framed source tree front head body tail := by
  have made := madeOf_split .start source
  have placed : Position.start.Before source source := rfl
  change MadeOf _ _ (Template.linesOf source) at made
  rw [nests.lines, List.append_cons] at made
  obtain ⟨head, below, whole, ended, joined, -, last, inner⟩ :=
    made.first_lines (by simp) placed
  cases below with
  | nil =>
    have none := inner.eq_nil_iff.mp rfl
    exact absurd (List.append_eq_nil_iff.mp none).1 nests.nonempty
  | cons c rest =>
    obtain rfl : c = '\n' := ended
    have placed' : (Position.start.advance (head ++ ['\n'])).Before source rest := by
      have front : Position.start.Before source ((head ++ ['\n']) ++ rest) := by
        rw [← List.append_cons]
        exact placed.trans whole
      exact front.advance _
    obtain ⟨body, tail, rfl, ended', joined', open_, last', -⟩ :=
      inner.first_lines nests.nonempty placed'
    refine ⟨head, body, tail, ⟨whole, ?_, ?_, joined'⟩, joined, open_⟩
    · refine endsAt_of_last nests.solid whole (fun t closing => ?_) rfl
      rw [last tree.line (by simp) t closing]
      exact Nat.zero_add _
    · have final := List.getLast?_eq_some_getLast nests.nonempty
      have solid := nests.encloses.last_solid _ final
      have size : (head ++ '\n' :: body).length = head.length + 1 + body.length := by
        rw [List.length_append, List.length_cons]
        omega
      rw [← size]
      refine ⟨_, final, endsAt_of_last solid (by rw [whole]; simp) (fun t closing => ?_) ended'⟩
      rw [last' _ final t closing, size, Position.index_advance, List.length_append]
      exact congrArg (· + body.length) (Nat.zero_add _)

/-- The nested lines as text are the source there, dedented. -/
theorem Nests.blockText_eq (nests : Nests source tree front after)
    (covers : HasBody source tree head body tail) {first : Line}
    (found : tree.descendants.find? (!·.isBlank) = some first) :
    blockText source tree.nested =
      body.dedentLines (Line.blankOffsets source 0 tree.descendants) first.indent := by
  have feedless : ∀ line ∈ tree.descendants, line.isBlank = true →
      '\n' ∉ line.sourceText source := by
    intro line member
    refine Line.feedless_of_blank (show line ∈ Template.linesOf source from ?_)
    rw [nests.lines]
    exact List.mem_append_right _ (.tail _ (List.mem_append_left _ member))
  have pieces := dedented_lines first.indent nests.nonempty feedless 0 fun b _ => Iff.rfl
  rw [← covers.lines] at pieces
  rw [descendants] at found
  rw [Text.dedentLines, pieces, blockText, found]
  rfl

end LineTree

end IndentMarkup
