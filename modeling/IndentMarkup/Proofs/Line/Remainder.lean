import IndentMarkup.Proofs.Line.Splitting
import IndentMarkup.Proofs.Token.Partition

/-! What is left of a line when some of its tokens have been taken. It has a text, which is more
than blanks if its first token is. -/
namespace IndentMarkup

namespace Adjacent

theorem start_le_stop {start stop : Nat} {tokens : List Token}
    (adjacent : Adjacent start tokens stop) : start ≤ stop := by
  induction tokens generalizing start with
  | nil => exact Nat.le_of_eq adjacent
  | cons t rest ih => exact Nat.le_trans (Nat.le_of_lt adjacent.2.1) (ih adjacent.2.2)

theorem start_le_index {start stop : Nat} {tokens : List Token}
    (adjacent : Adjacent start tokens stop) : ∀ t ∈ tokens, start ≤ t.position.index := by
  induction tokens generalizing start with
  | nil => exact List.forall_mem_nil _
  | cons t rest ih =>
    obtain ⟨placed, positive, later⟩ := adjacent
    exact List.forall_mem_cons.mpr
      ⟨placed.ge, fun u member => (Nat.le_of_lt positive).trans (ih later u member)⟩

theorem append_left {start stop : Nat} {first second : List Token}
    (adjacent : Adjacent start (first ++ second) stop) :
    ∃ middle ≤ stop, Adjacent start first middle := by
  induction first generalizing start with
  | nil => exact ⟨start, adjacent.start_le_stop, rfl⟩
  | cons t first ih =>
    obtain ⟨placed, positive, later⟩ := adjacent
    obtain ⟨middle, inside, adjacent⟩ := ih later
    exact ⟨middle, inside, placed, positive, adjacent⟩

theorem append_right {start stop : Nat} {first second : List Token}
    (adjacent : Adjacent start (first ++ second) stop) : ∃ middle, Adjacent middle second stop := by
  induction first generalizing start with
  | nil => exact ⟨start, adjacent⟩
  | cons t first ih => exact ih adjacent.2.2

/-- The text of the last token ends behind its start, and not behind the tokens. -/
theorem lastStop_bounds {start stop : Nat} {line : Line} (adjacent : Adjacent start line stop)
    {last : Token} (final : last ∈ line.getLast?) :
    start < Line.lastStop last ∧ Line.lastStop last ≤ stop := by
  induction line generalizing start with
  | nil => contradiction
  | cons t rest ih =>
    obtain ⟨rfl, positive, later⟩ := adjacent
    cases rest with
    | nil =>
      obtain rfl := Option.some.inj final
      obtain rfl : t.stop = stop := later
      rw [Line.lastStop]
      split
      · exact ⟨Nat.lt_succ_self _, positive⟩
      · exact ⟨positive, Nat.le_refl _⟩
    | cons next rest =>
      obtain ⟨above, below⟩ := ih later final
      exact ⟨Nat.lt_trans positive above, below⟩

end Adjacent

namespace Line

/-- The line is what is left of one of the lines of the source. -/
def LeftOf (source : Text) (rest : Line) : Prop :=
  ∃ line ∈ split (Token.listFrom .start source), rest <:+ line

theorem leftOf_of_mem_split {source : Text} {line : Line}
    (member : line ∈ split (Token.listFrom .start source)) : line.LeftOf source :=
  ⟨line, member, List.suffix_refl line⟩

namespace LeftOf

variable {source : Text} {line rest : Line} {t : Token}

theorem suffix (left : line.LeftOf source) (within : rest <:+ line) : rest.LeftOf source := by
  obtain ⟨whole, member, cut⟩ := left
  exact ⟨whole, member, within.trans cut⟩

theorem tail (left : LeftOf source (t :: rest)) : rest.LeftOf source :=
  left.suffix (List.suffix_cons t rest)

theorem skipSpace (left : line.LeftOf source) : line.skipSpace.LeftOf source :=
  left.suffix (List.dropWhile_suffix _)

theorem lexed (left : line.LeftOf source) : line.Lexed source := by
  obtain ⟨whole, member, cut⟩ := left
  exact (lexed_of_mem_split member).suffix cut

/-- The blanks in front are one token. -/
theorem skipSpace_cons (left : LeftOf source (t :: rest)) :
    Line.skipSpace (t :: rest) = if t.kind = .space then rest else t :: rest := by
  split
  next space =>
    rw [Line.skipSpace, List.dropWhile_cons_of_pos (by simpa using space)]
    cases rest with
    | nil => rfl
    | cons u rest =>
      have apart : u.kind ≠ .space := (List.isChain_cons_cons.mp left.lexed.apart).1 space
      exact List.dropWhile_cons_of_neg (by simpa using apart)
  next solid => exact List.dropWhile_cons_of_neg (by simpa using solid)

theorem kind_ne_eof (left : line.LeftOf source) (member : t ∈ line) : t.kind ≠ .eof := by
  obtain ⟨found, first, same, -⟩ := left.lexed.read t member
  exact same ▸ first.kind_ne_eof

/-- Nothing is left behind a block marker. -/
theorem nil_of_block (left : LeftOf source (t :: rest)) (block : t.kind = .symbol .block) :
    rest = [] := by
  obtain ⟨whole, member, within⟩ := left
  exact eq_nil_of_block member within block

/-- The tokens follow each other without gaps, within the source. -/
theorem adjacent (left : line.LeftOf source) :
    ∃ start stop, stop ≤ source.length ∧ Adjacent start line stop := by
  obtain ⟨whole, member, cut⟩ := left
  obtain ⟨before, after, tokens⟩ := cut.isInfix.trans ((split_isInfix _).2 whole member)
  have all := Token.listFrom_adjacent .start source
  rw [← tokens] at all
  obtain ⟨stop, inside, front⟩ := all.append_left
  obtain ⟨start, own⟩ := front.append_right
  exact ⟨start, stop, by simpa [Position.start] using inside, own⟩

theorem sourceText_ne_nil (left : line.LeftOf source) (nonempty : line ≠ []) :
    line.sourceText source ≠ [] := by
  obtain ⟨start, stop, inside, own⟩ := left.adjacent
  obtain ⟨t, rest, rfl⟩ := List.exists_cons_of_ne_nil nonempty
  have final := List.getLast?_eq_some_getLast nonempty
  obtain ⟨above, below⟩ := own.lastStop_bounds final
  have placed : t.position.index = start := own.1
  rw [sourceText, final]
  simp only [List.head?_cons]
  rw [Text.slice_of_le (by omega) (by omega)]
  refine List.ne_nil_of_length_pos ?_
  rw [List.length_take, List.length_drop]
  omega

/-- The text from a token on that is not blank. -/
theorem requiredText (left : line.LeftOf source) (nonempty : line ≠ [])
    (solid : line.startsWith .space = false) :
    line.requiredText source = .ok (line.trimmedText source) := by
  have leading := left.lexed.leading solid
  obtain ⟨c, rest, spelled⟩ := List.exists_cons_of_ne_nil (left.sourceText_ne_nil nonempty)
  have kept : line.trimmedText source ≠ [] := by
    intro blank
    have blanks := List.rdropWhile_eq_nil_iff.mp blank
    rw [Text.trimStart, List.dropWhile_eq_self_iff] at leading
    rw [spelled] at blanks leading
    exact leading (Nat.zero_lt_succ _) (blanks c (List.mem_cons_self ..))
  rw [Line.requiredText]
  split
  next blank => exact absurd blank kept
  next => rfl

end LeftOf

end Line

end IndentMarkup
