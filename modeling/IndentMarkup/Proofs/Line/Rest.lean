import IndentMarkup.Proofs.Line.Remainder

/-! The rest of a line from a token on. It is what the source has from there to the end of the line,
and where blanks stand behind the token they can be left out of it. -/
namespace IndentMarkup

namespace Text

/-- The offset behind the blanks that stand at the one given, if any. -/
def behindBlanks (source : Text) (offset : Nat) : Nat :=
  offset + ((source.drop offset).takeWhile isInlineBlank).length

theorem behindBlanks_ended {source : Text} {start : Nat} (ended : LineEnd (source.drop start)) :
    source.behindBlanks start = start := by
  rw [behindBlanks]
  cases onward : source.drop start with
  | nil => rfl
  | cons c rest =>
    rw [onward] at ended
    obtain rfl : c = '\n' := ended
    rfl

/-- The blanks behind an offset are one token, unless another one stands there. -/
theorem behindBlanks_token {source : Text} {line : Line} {t : Token} (lexed : line.Lexed source)
    (member : t ∈ line) :
    source.behindBlanks t.position.index =
      if t.kind = .space then t.stop else t.position.index := by
  obtain ⟨found, first, kind, text⟩ := lexed.read t member
  have length : found.taken.length = t.sourceLength := by
    rw [← first.length_taken t.position, kind, text]
  rw [behindBlanks]
  change _ + ((t.onward source).takeWhile isInlineBlank).length = _
  split
  next space => rw [first.takeWhile_of_space (kind.trans space), length, Token.stop]
  next solid =>
    obtain ⟨c, rest, onward⟩ := List.exists_cons_of_ne_nil first.text_ne_nil
    have blank : isBlank c = false := by
      rw [onward] at first
      refine Bool.eq_false_iff.mpr fun blank => ?_
      rcases first.blank_iff.mpr blank with space | newLine
      · exact solid (kind ▸ space)
      · exact lexed.feedless t member (kind ▸ newLine)
    rw [onward, List.takeWhile_cons_of_neg (by simp [isInlineBlank, blank])]
    rfl

end Text

namespace Line

/-- The text of the line goes on up to that offset. There its line of the source ends, or the source
does. -/
structure EndsAt (source : Text) (line : Line) (stop : Nat) : Prop where
  last : ∃ t ∈ line.getLast?, lastStop t = stop
  inside : stop ≤ source.length
  ended : LineEnd (source.drop stop)

/-- The value is the source from the offset to the end of the line, without the blanks at the end.
A line feed in it is inside of a string. -/
structure Yields (source : Text) (line : Line) (start : Nat) (value : Text) : Prop where
  verbatim : ∃ stop, line.EndsAt source stop ∧ start ≤ stop ∧
    value = (source.slice start stop).trimEnd
  feeds : ∀ k, value[k]? = some '\n' → ∃ t ∈ line, t.kind = .quoted ∧
    t.position.index < start + k ∧ start + k + 1 < t.stop

variable {source : Text} {line rest : Line} {start stop : Nat} {t : Token}

/-- The rest of a line of the source begins at the offset. -/
structure Remains (source : Text) (line : Line) (start : Nat) (rest : Line) : Prop where
  member : line ∈ split (Token.listFrom .start source)
  within : rest <:+ line
  spans : ∀ stop, line.EndsAt source stop → rest.Spans start stop ∧ start ≤ stop

theorem exists_endsAt (member : line ∈ split (Token.listFrom .start source))
    (nonempty : line ≠ []) : ∃ stop, line.EndsAt source stop := by
  obtain ⟨p, piece, tail, placed, begins⟩ :=
    (madeOf_split .start source).exists_beginsLine rfl line member
  obtain ⟨start, stop, inside, adjacent⟩ := (leftOf_of_mem_split member).adjacent
  have last := List.getLast?_eq_some_getLast nonempty
  have same := begins.spans.last _ last
  refine ⟨p.index + piece.length, ⟨_, last, same⟩, ?_, ?_⟩
  · rw [← same]
    exact (adjacent.lastStop_bounds last).2.trans inside
  · rw [← List.drop_drop, placed, List.drop_left]
    exact begins.ended

namespace Remains

theorem leftOf (remains : Remains source line start rest) : rest.LeftOf source :=
  ⟨line, remains.member, remains.within⟩

theorem of_suffix (member : line ∈ split (Token.listFrom .start source))
    (within : t :: rest <:+ line) : Remains source line t.position.index (t :: rest) := by
  refine ⟨member, within, fun stop ends => ?_⟩
  obtain ⟨final, last, rfl⟩ := ends.last
  obtain ⟨before, rfl⟩ := within
  rw [List.getLast?_append_of_ne_nil _ (List.cons_ne_nil t rest)] at last
  obtain ⟨first, stop, -, adjacent⟩ :=
    LeftOf.adjacent ⟨before ++ t :: rest, member, List.suffix_append before (t :: rest)⟩
  obtain rfl : t.position.index = first := adjacent.1
  refine ⟨⟨by simp, fun u same => ?_, nofun⟩, Nat.le_of_lt (adjacent.lastStop_bounds last).1⟩
  rw [Option.some.inj (same.symm.trans last)]

/-- A token is taken from the front. -/
theorem next (remains : Remains source line start (t :: rest)) (inside : t.kind.endsLine = false) :
    Remains source line t.stop rest := by
  cases rest with
  | nil =>
    refine ⟨remains.member, (List.suffix_cons t []).trans remains.within, fun stop ends => ?_⟩
    have last := (remains.spans stop ends).1.last t rfl
    have unmarked : t.kind ≠ .symbol .block := by
      intro block
      simp [Token.Kind.endsLine, block] at inside
    rw [lastStop, if_neg unmarked] at last
    exact last ▸ ⟨spans_nil _, Nat.le_refl _⟩
  | cons u rest =>
    obtain ⟨first, stop, -, -, -, placed, -⟩ := remains.leftOf.adjacent
    rw [← placed]
    exact of_suffix remains.member ((List.suffix_cons t _).trans remains.within)

theorem index (remains : Remains source line start (t :: rest)) : t.position.index = start := by
  have nonempty : line ≠ [] := List.ne_nil_of_mem (remains.within.subset (List.mem_cons_self ..))
  obtain ⟨stop, ends⟩ := exists_endsAt remains.member nonempty
  exact (remains.spans stop ends).1.first t rfl

theorem skipSpace (remains : Remains source line start rest) :
    Remains source line (source.behindBlanks start) rest.skipSpace := by
  cases rest with
  | nil =>
    refine ⟨remains.member, remains.within, fun stop ends => ?_⟩
    obtain rfl := (remains.spans stop ends).1.empty rfl
    rw [Text.behindBlanks_ended ends.ended]
    exact ⟨spans_nil _, Nat.le_refl _⟩
  | cons t rest =>
    have lexed := remains.leftOf.lexed
    rw [← remains.index, Text.behindBlanks_token lexed (List.mem_cons_self ..),
      remains.leftOf.skipSpace_cons]
    split
    next space => exact remains.next (by simp [space, Token.Kind.endsLine])
    next => exact of_suffix remains.member remains.within

theorem sourceText (remains : Remains source line start rest) (ends : line.EndsAt source stop) :
    rest.sourceText source = (source.drop start).take (stop - start) := by
  obtain ⟨spans, ordered⟩ := remains.spans stop ends
  rw [sourceText_of_spans spans, Text.slice_of_le ordered ends.inside]

/-- Between the start of the line and its end, a line feed is inside of a string. -/
theorem feed_quoted (remains : Remains source line start line) (ends : line.EndsAt source stop)
    {i : Nat} (behind : start ≤ i) (before : i < stop) (feed : source[i]? = some '\n') :
    ∃ t ∈ line, t.kind = .quoted ∧ t.position.index < i ∧ i + 1 < t.stop := by
  have own : (line.sourceText source)[i - start]? = some '\n' := by
    rw [remains.sourceText ends, List.getElem?_take_of_lt (by omega), List.getElem?_drop,
      Nat.add_sub_cancel' behind, feed]
  obtain ⟨first, head, t, member, quoted, after, early⟩ :=
    (madeOf_split .start source).feeds_quoted rfl line remains.member _ own
  obtain ⟨rest, rfl⟩ := List.head?_eq_some_iff.mp head
  rw [remains.index] at after early
  exact ⟨t, member, quoted, by omega, by omega⟩

theorem yields (remains : Remains source line start rest) (nonempty : line ≠ []) :
    line.Yields source start (rest.trimmedText source) := by
  obtain ⟨stop, ends⟩ := exists_endsAt remains.member nonempty
  obtain ⟨spans, ordered⟩ := remains.spans stop ends
  have value : rest.trimmedText source = (source.slice start stop).trimEnd := by
    rw [trimmedText, sourceText_of_spans spans]
  refine ⟨⟨stop, ends, ordered, value⟩, fun k feed => ?_⟩
  have within : (rest.sourceText source)[k]? = some '\n' := by
    obtain ⟨blanks, whole⟩ := Text.trimEnd_isPrefix (rest.sourceText source)
    rw [trimmedText] at feed
    rw [← whole, List.getElem?_append_left (List.getElem?_eq_some_iff.mp feed).1, feed]
  rw [remains.sourceText ends, List.getElem?_take] at within
  split at within
  case isFalse => contradiction
  rw [List.getElem?_drop] at within
  cases rest with
  | nil =>
    have same := spans.empty rfl
    omega
  | cons u rest =>
    obtain ⟨first, more, rfl⟩ := List.exists_cons_of_ne_nil nonempty
    have whole := of_suffix remains.member (List.suffix_refl (first :: more))
    obtain ⟨_, _, -, adjacent⟩ := whole.leftOf.adjacent
    have after := adjacent.start_le_index u (remains.within.subset (List.mem_cons_self ..))
    rw [← adjacent.1, remains.index] at after
    exact whole.feed_quoted ends (by omega) (by omega) within

end Remains

end Line

end IndentMarkup
