import IndentMarkup.Proofs.Token.InPlace

/-! Reading in place does what reading a text does. A matcher that accepts nothing leaves the
cursor as it was, and one that accepts a token leaves it behind that token, with the same saved
places. -/
namespace IndentMarkup

namespace TextCursor

variable {c : TextCursor} {g : Grammar}

theorem advance_of_ahead {c : TextCursor} {run : Text} (ahead : run <+: c.remaining) :
    c.advance run.length = c.moveTo (c.position.advance run) := by
  rw [advance_eq_moveTo, ← List.prefix_iff_eq_take.mp ahead]

theorem since_advance {c : TextCursor} {run : Text} (ahead : run <+: c.remaining) :
    (c.advance run.length).since c.position.index = run := by
  have passed : (c.position.advance run).index - c.position.index = run.length := by
    have moved := c.position.index_advance run
    omega
  rw [advance_of_ahead ahead]
  calc (c.moveTo (c.position.advance run)).since c.position.index
      = c.remaining.take ((c.position.advance run).index - c.position.index) := List.drop_take ..
    _ = run := by rw [passed, ← List.prefix_iff_eq_take.mp ahead]

theorem closeString_eq (delimiter : Char) (text : Text) (c : TextCursor) :
    ∃ n, c.closeString delimiter text =
        (match c.remaining.dropWhile (· ≠ delimiter) with
          | [] => none
          | _ :: _ => some (text ++ c.remaining.takeWhile (· ≠ delimiter)), c.advance n) ∧
      (c.remaining.dropWhile (· ≠ delimiter) ≠ [] →
        n = (c.remaining.takeWhile (· ≠ delimiter)).length + 1) := by
  fun_induction closeString delimiter text c with
  | case1 text c here =>
    refine ⟨0, ?_, ?_⟩
    · simp [remaining_of_ended here, advance]
    · simp [remaining_of_ended here]
  | case2 text c here =>
    refine ⟨1, ?_, ?_⟩
    · simp [remaining_of_current here, advance]
    · simp [remaining_of_current here]
  | case3 text c char here other ih =>
    obtain ⟨n, closed, whole⟩ := ih
    refine ⟨n + 1, ?_, ?_⟩
    · rw [closed]
      simp [remaining_of_current here, other, advance]
    · intro left
      simp only [remaining_of_current here, List.dropWhile_cons, List.takeWhile_cons] at left ⊢
      simp [other] at left whole ⊢
      simp [whole left]

theorem skipBlanks_eq (c : TextCursor) :
    c.skipBlanks = c.advance (c.remaining.takeWhile isInlineBlank).length := by
  fun_induction skipBlanks c with
  | case1 c here => simp [remaining_of_ended here, advance]
  | case2 c char here blank ih => simp [remaining_of_current here, blank, ih, advance]
  | case3 c char here solid => simp [remaining_of_current here, solid, advance]

theorem skipWord_eq (g : Grammar) (c : TextCursor) :
    c.skipWord g = c.advance (Matcher.splitWord g.stops c.remaining).1.length := by
  fun_induction skipWord g c with
  | case1 c after ended =>
    rw [endsWord_eq] at ended
    obtain ⟨stopped, rfl⟩ := Prod.mk.inj ended
    cases text : c.remaining with
    | nil => rfl
    | cons char rest => simp [Matcher.splitWord, ← text, stopped, advance]
  | case2 c after within ih =>
    obtain ⟨rfl, char, here⟩ := exists_current within
    rw [endsWord_eq] at within
    obtain ⟨goes, -⟩ := Prod.mk.inj within
    rw [remaining_of_current here] at goes ⊢
    simp [ih, Matcher.splitWord, goes, advance]

@[simp] theorem remaining_advance (c : TextCursor) (n : Nat) :
    (c.advance n).remaining = c.remaining.drop n := by
  induction n generalizing c with
  | zero => rfl
  | succ n ih =>
    rw [advance, ih]
    cases here : c.current? with
    | none => simp [consume_of_ended here, remaining_of_ended here]
    | some char => rw [remaining_of_current here, List.drop_succ_cons]

theorem advance_add (c : TextCursor) (m n : Nat) : c.advance (m + n) = (c.advance m).advance n := by
  induction m generalizing c with
  | zero => rw [Nat.zero_add]; rfl
  | succ m ih => rw [Nat.succ_add, advance, ih]; rfl

end TextCursor

/-- What matching does to a cursor. If it fails, nothing at all; else the cursor goes ahead
within its text, from where the token stands, and keeps the saved places. -/
def TextCursor.Transacted (c : TextCursor) : Option Token × TextCursor → Prop
  | (none, after) => after = c
  | (some t, after) =>
    t.position = c.position ∧ c.chars.index < after.chars.index ∧
      after.chars.index ≤ c.chars.items.length ∧ after.chars.items = c.chars.items ∧
      after.saved = c.saved ∧ after.chars.saved = c.chars.saved

namespace Matcher

open TextCursor

variable {g : Grammar}

/-- The token of a match at a cursor. -/
def tokenAt (c : TextCursor) (found : Match) : Token :=
  ⟨found.kind, found.text, c.position⟩

/-- A matcher goes on from the cursor, and if it has a match, to where that ends. -/
theorem readHere_eq (g : Grammar) (m : Matcher) (c : TextCursor) :
    ∃ n, m.readHere g c = ((m.scan g.stops c.remaining).map (tokenAt c), c.advance n) ∧
      ∀ found, m.scan g.stops c.remaining = some found → n = found.taken.length := by
  cases m with
  | quoted delimiter =>
    rw [readHere]
    cases here : c.current? with
    | none => exact ⟨0, by simp [remaining_of_ended here, scan, advance], by
        simp [remaining_of_ended here, scan]⟩
    | some char =>
      rw [remaining_of_current here]
      by_cases opens : char = delimiter
      · obtain ⟨n, closed, whole⟩ := c.consume.closeString_eq delimiter []
        refine ⟨n + 1, ?_, ?_⟩
        · simp only [opens, if_true, closed, scan, advance]
          cases c.consume.remaining.dropWhile (· ≠ delimiter) <;> rfl
        · intro found matched
          simp only [scan, opens, if_true] at matched
          split at matched
          · contradiction
          next left =>
            obtain rfl := Option.some.inj matched
            rw [whole (left ▸ List.cons_ne_nil _ _)]
            simp
      · refine ⟨0, ?_, ?_⟩
        · simp [scan, opens, advance]
        · simp [scan, opens]
  | symbol kind literal =>
    obtain ⟨n, consumed, whole⟩ := c.consumeLiteral_eq literal.chars
    refine ⟨n, ?_, ?_⟩
    · rw [readHere, consumed, scan, Literal.strip?]
      cases literal.chars.isPrefixOf c.remaining <;> rfl
    · intro found matched
      obtain ⟨rest, split, rfl⟩ := Option.map_eq_some_iff.mp matched
      obtain ⟨starts, -⟩ := Option.ite_none_right_eq_some.mp split
      exact whole starts
  | keyword kind literal =>
    obtain ⟨n, consumed, whole⟩ := c.consumeLiteral_eq literal.chars
    refine ⟨n, ?_, ?_⟩
    · rw [readHere, consumed, scan, Literal.strip?]
      cases starts : literal.chars.isPrefixOf c.remaining with
      | false => rfl
      | true =>
        simp only [if_true, endsWord_eq, remaining_advance, whole starts]
        cases ended g.stops (c.remaining.drop literal.chars.length) <;> rfl
    · intro found matched
      rw [scan] at matched
      cases split : literal.strip? c.remaining with
      | none => simp [split] at matched
      | some rest =>
        simp only [split, Option.ite_none_right_eq_some] at matched
        obtain ⟨-, rfl⟩ := matched.imp_right Option.some.inj
        obtain ⟨starts, -⟩ := Option.ite_none_right_eq_some.mp split
        exact whole starts
  | blanks =>
    refine ⟨(c.remaining.takeWhile isInlineBlank).length, ?_, ?_⟩
    · simp only [readHere, skipBlanks_eq, since_advance (List.takeWhile_prefix _), scan]
      cases c.remaining.takeWhile isInlineBlank <;> rfl
    · intro found matched
      rw [scan] at matched
      split at matched
      · contradiction
      · obtain rfl := Option.some.inj matched
        rfl
  | word =>
    have ahead : (splitWord g.stops c.remaining).1 <+: c.remaining :=
      ⟨_, splitWord_append g.stops c.remaining⟩
    refine ⟨(splitWord g.stops c.remaining).1.length, ?_, ?_⟩
    · simp only [readHere, skipWord_eq, since_advance ahead, scan]
      rcases splitWord g.stops c.remaining with ⟨_ | _, _⟩ <;> rfl
    · intro found matched
      rw [scan] at matched
      split at matched
      · contradiction
      next split =>
        obtain rfl := Option.some.inj matched
        rw [split]

theorem exists_current_of_scan {stops : Text → Bool} {m : Matcher} {c : TextCursor} {found : Match}
    (matched : m.scan stops c.remaining = some found) : ∃ char, c.current? = some char := by
  apply Option.ne_none_iff_exists'.mp
  intro ended
  have whole := scan_append matched
  rw [remaining_of_ended ended] at whole
  exact scan_taken_ne_nil matched (List.append_eq_nil_iff.mp whole).1

/-- Reading at a cursor finds the match that the text ahead has. -/
theorem read_eq (g : Grammar) (m : Matcher) (c : TextCursor) :
    m.read g c = match m.tryMatch g.stops c with
      | some (t, after) => (some t, after)
      | none => (none, c) := by
  obtain ⟨n, ran, whole⟩ := m.readHere_eq g c.save
  have same : c.save.remaining = c.remaining := rfl
  rw [same] at ran whole
  rw [read, attempt_of_advance ran, tryMatch]
  cases matched : m.scan g.stops c.remaining with
  | none => exact ite_self _
  | some found =>
    obtain rfl := whole found matched
    obtain ⟨char, here⟩ := exists_current_of_scan matched
    rw [atEnd_eq_isNone, here]
    rfl

theorem exists_of_read {m : Matcher} {c after : TextCursor} {t : Token}
    (matched : m.read g c = (some t, after)) :
    ∃ found, m.scan g.stops c.remaining = some found ∧ t = tokenAt c found ∧
      after = c.advance found.taken.length := by
  rw [read_eq, tryMatch] at matched
  cases scanned : m.scan g.stops c.remaining with
  | none => simp [scanned] at matched
  | some found =>
    rw [scanned] at matched
    obtain ⟨same, rfl⟩ := Prod.mk.inj matched
    exact ⟨found, rfl, (Option.some.inj same).symm, rfl⟩

theorem read_of_scan {m : Matcher} {c : TextCursor} {found : Match}
    (scanned : m.scan g.stops c.remaining = some found) :
    m.read g c = (some (tokenAt c found), c.advance found.taken.length) := by
  rw [read_eq, tryMatch, scanned]
  rfl

theorem read_of_scan_none {m : Matcher} {c : TextCursor}
    (scanned : m.scan g.stops c.remaining = none) : m.read g c = (none, c) := by
  rw [read_eq, tryMatch, scanned]
  rfl

theorem transacted_read (g : Grammar) (m : Matcher) (c : TextCursor) :
    c.Transacted (m.read g c) := by
  cases scanned : m.scan g.stops c.remaining with
  | none =>
    rw [read_of_scan_none scanned]
    rfl
  | some found =>
    rw [read_of_scan scanned]
    have ahead : found.taken <+: c.remaining := ⟨found.rest, scan_append scanned⟩
    have positive := List.length_pos_iff.mpr (scan_taken_ne_nil scanned)
    have fits : found.taken.length ≤ c.chars.items.length - c.chars.index := by
      simpa [remaining, Cursor.remaining] using ahead.length_le
    have moved : (c.position.advance found.taken).index = c.chars.index + found.taken.length :=
      Position.index_advance ..
    rw [advance_of_ahead ahead]
    refine ⟨rfl, ?_, ?_, rfl, rfl, rfl⟩ <;> simp only [moveTo, moved] <;> omega

/-- A matcher that only delimits. -/
def isSymbol : Matcher → Bool
  | .symbol .. => true
  | _ => false

/-- Symbols as delimiters stop words at the same places as a grammar made of them. -/
theorem anyStarts_of_isSymbol {symbols : List Matcher}
    (only : ∀ s ∈ symbols, s.isSymbol = true) : anyStarts symbols = Grammar.stops ⟨symbols⟩ := by
  funext text
  rw [anyStarts, Grammar.stops, Grammar.delimiters, List.any_filterMap, Bool.eq_iff_iff,
    List.any_eq_true, List.any_eq_true]
  refine exists_congr fun s => and_congr_right fun member => ?_
  have symbol := only s member
  cases s with
  | symbol kind literal => simp [scan, Literal.strip?]
  | _ => contradiction

end Matcher

end IndentMarkup
