import IndentMarkup.Proofs.Token.Partition
import IndentMarkup.Proofs.Token.Transaction

/-! Every run of a lexer comes to an end, whatever its grammar. Each match goes ahead, so there are
no more tokens than characters. Where no matcher accepts anything the lexer hands out one error, and
behind it, as behind the last character, nothing any more. -/
namespace IndentMarkup

open TextCursor Matcher

variable {g : Grammar} {c after last : TextCursor} {t : Token} {tokens : List Token}

namespace Grammar

/-- The first matcher that accepts a token at a cursor, and where that match ends. -/
def Accepts (g : Grammar) (c : TextCursor) (t : Token) (after : TextCursor) : Prop :=
  ∃ earlier m later, g.matchers = earlier ++ m :: later ∧
    (∀ other ∈ earlier, other.read g c = (none, c)) ∧ m.read g c = (some t, after)

/-- Tokens that are accepted one after another, each where the match before it ended. -/
inductive Reads (g : Grammar) : TextCursor → List Token → TextCursor → Prop
  | done (c : TextCursor) : Reads g c [] c
  | token {c after last : TextCursor} {t : Token} {later : List Token} :
      g.Accepts c t after → t.position = c.position → Reads g after later last →
      Reads g c (t :: later) last

/-- Every matcher fails. -/
def Stuck (g : Grammar) (c : TextCursor) : Prop :=
  ∀ m ∈ g.matchers, m.read g c = (none, c)

theorem scan_of_read_none {m : Matcher} (missed : m.read g c = (none, c)) :
    m.scan g.stops c.remaining = none := by
  cases scanned : m.scan g.stops c.remaining with
  | none => rfl
  | some found =>
    rw [read_of_scan scanned] at missed
    cases missed

theorem next?_of_stuck (stuck : g.Stuck c) : g.next? c.remaining = none :=
  List.findSome?_eq_none_iff.mpr fun m member => scan_of_read_none (stuck m member)

theorem stuck_of_next? (none : g.next? c.remaining = none) : g.Stuck c := fun m member =>
  read_of_scan_none (List.findSome?_eq_none_iff.mp none m member)

theorem accepts_of_next? {found : Match} (taken : g.next? c.remaining = some found) :
    g.Accepts c (tokenAt c found) (c.advance found.taken.length) := by
  obtain ⟨earlier, m, later, split, scanned, missed⟩ := List.findSome?_eq_some_iff.mp taken
  exact ⟨earlier, m, later, split, fun other member => read_of_scan_none (missed other member),
    read_of_scan scanned⟩

theorem next?_of_accepts (accepted : g.Accepts c t after) :
    ∃ found, g.next? c.remaining = some found ∧ t = tokenAt c found ∧
      after = c.advance found.taken.length := by
  obtain ⟨earlier, m, later, split, missed, matched⟩ := accepted
  obtain ⟨found, scanned, token, place⟩ := exists_of_read matched
  refine ⟨found, List.findSome?_eq_some_iff.mpr ?_, token, place⟩
  refine ⟨earlier, m, later, split, scanned, ?_⟩
  exact fun other member => scan_of_read_none (missed other member)

theorem read_of_accepts (accepted : g.Accepts c t after) :
    g.read g.matchers c = (some t, after) := by
  obtain ⟨earlier, m, later, split, missed, matched⟩ := accepted
  rw [split]
  clear split
  induction earlier with
  | nil => rw [List.nil_append, read, matched]
  | cons other earlier ih =>
    obtain ⟨here, others⟩ := List.forall_mem_cons.mp missed
    rw [List.cons_append, read, here]
    exact ih others

theorem read_of_stuck (stuck : g.Stuck c) : g.read g.matchers c = (none, c) := by
  rw [Stuck] at stuck
  generalize g.matchers = matchers at stuck
  induction matchers with
  | nil => rfl
  | cons m later ih =>
    obtain ⟨here, others⟩ := List.forall_mem_cons.mp stuck
    rw [read, here]
    exact ih others

theorem exists_current {found : Match} (taken : g.next? c.remaining = some found) :
    ∃ char, c.current? = some char := by
  obtain ⟨m, -, scanned⟩ := next?_eq_some taken
  exact exists_current_of_scan scanned

theorem advance_of_next? {found : Match} (taken : g.next? c.remaining = some found) :
    found.taken <+: c.remaining ∧ 0 < found.taken.length := by
  obtain ⟨m, -, scanned⟩ := next?_eq_some taken
  exact ⟨⟨found.rest, scan_append scanned⟩, List.length_pos_iff.mpr (scan_taken_ne_nil scanned)⟩

/-- From every cursor the tokens lead to one where no matcher goes on. -/
theorem exists_reads (g : Grammar) (c : TextCursor) :
    ∃ tokens last, g.Reads c tokens last ∧ g.Stuck last := by
  induction ahead : c.remaining.length using Nat.strong_induction_on generalizing c with
  | _ n ih =>
    cases taken : g.next? c.remaining with
    | none => exact ⟨[], c, .done c, stuck_of_next? taken⟩
    | some found =>
      have shorter : (c.advance found.taken.length).remaining.length < n := by
        obtain ⟨whole, positive⟩ := advance_of_next? taken
        have fits := whole.length_le
        rw [remaining_advance, List.length_drop]
        omega
      obtain ⟨tokens, last, reads, stuck⟩ := ih _ shorter _ rfl
      exact ⟨_, last, .token (accepts_of_next? taken) rfl reads, stuck⟩

/-- Every token takes at least one character. -/
theorem advance_of_reads (reads : g.Reads c tokens last) :
    ∃ n, last = c.advance n ∧ tokens.length ≤ n ∧ n ≤ c.remaining.length := by
  induction reads with
  | done c => exact ⟨0, rfl, Nat.le_refl _, Nat.zero_le _⟩
  | @token c after last t later accepted _ _ ih =>
    obtain ⟨found, taken, -, rfl⟩ := next?_of_accepts accepted
    obtain ⟨whole, positive⟩ := advance_of_next? taken
    obtain ⟨n, rfl, many, fits⟩ := ih
    have within := whole.length_le
    rw [remaining_advance, List.length_drop] at fits
    refine ⟨found.taken.length + n, (advance_add ..).symm, ?_, ?_⟩
    · rw [List.length_cons]
      omega
    · omega

end Grammar

/-- What is handed out where no matcher goes on. -/
def TextCursor.failure (c : TextCursor) : List (Except LexError Token) :=
  match c.current? with
  | none => []
  | some char => [.error (.unrecognizedCharacter char c.line c.column)]

theorem TextCursor.failure_of_current {char : Char} (here : c.current? = some char) :
    c.failure = [.error (.unrecognizedCharacter char c.line c.column)] := by
  rw [failure, here]

theorem TextCursor.failure_of_ended (ended : c.current? = none) : c.failure = [] := by
  rw [failure, ended]

namespace Lexer

/-- The lexer that has read up to the cursor. -/
def upTo (g : Grammar) (c : TextCursor) : Lexer :=
  ⟨g, c.remaining, c.position⟩

theorem items_of_reads (reads : g.Reads c tokens last) :
    (upTo g c).items = tokens.map .ok ++ (upTo g last).items := by
  induction reads with
  | done => rfl
  | @token c after last t later accepted _ _ ih =>
    obtain ⟨found, taken, rfl, rfl⟩ := Grammar.next?_of_accepts accepted
    have stepped : (upTo g c).next? =
        some (.ok (tokenAt c found), upTo g (c.advance found.taken.length)) := by
      obtain ⟨m, -, scanned⟩ := Grammar.next?_eq_some taken
      obtain ⟨char, here⟩ := Grammar.exists_current taken
      have rest : (c.advance found.taken.length).remaining = found.rest := by
        rw [remaining_advance, ← scan_append scanned, List.drop_left]
      have place : (c.advance found.taken.length).position = c.position.advance found.taken := by
        rw [advance_of_ahead ⟨_, scan_append scanned⟩]
        rfl
      rw [upTo, upTo, next?, rest, place]
      simp only [taken]
      rw [remaining_of_current here]
      rfl
    rw [items, drain_of_next?_eq_some stepped]
    exact congrArg _ ih

theorem items_of_stuck (stuck : g.Stuck c) : (upTo g c).items = c.failure := by
  cases here : c.current? with
  | none =>
    have done : (upTo g c).next? = none := by
      rw [next?, upTo, remaining_of_ended here]
    rw [items, drain_of_next?_eq_none done, failure_of_ended here]
  | some char =>
    have stepped : (upTo g c).next? =
        some (.error (.unrecognizedCharacter char c.line c.column), ⟨g, [], c.position⟩) := by
      rw [upTo, next?]
      simp only [Grammar.next?_of_stuck stuck]
      rw [remaining_of_current here]
      rfl
    rw [items, drain_of_next?_eq_some stepped, drain_of_next?_eq_none rfl, failure_of_current here]

end Lexer

namespace Scanner

theorem answer_of_finished {s : Scanner} (finished : (s.failed || s.cursor.atEnd) = true)
    (n : Nat) : s.answer n = none := by
  have still : s.next = (none, s) := if_pos finished
  induction n with
  | zero => rw [answer, still]
  | succ n ih => rwa [answer, still]

theorem next_of_accepts (accepted : g.Accepts c t after) :
    next ⟨g, c, false⟩ = (some (.ok t), ⟨g, after, false⟩) := by
  obtain ⟨found, taken, -, -⟩ := Grammar.next?_of_accepts accepted
  obtain ⟨char, here⟩ := Grammar.exists_current taken
  rw [next, atEnd_eq_isNone, here, Grammar.read_of_accepts accepted]
  rfl

theorem answer_of_stuck (stuck : g.Stuck c) (n : Nat) : answer ⟨g, c, false⟩ n = c.failure[n]? := by
  cases here : c.current? with
  | none =>
    rw [failure_of_ended here]
    apply answer_of_finished
    rw [atEnd_eq_isNone, here]
    rfl
  | some char =>
    have failed : next ⟨g, c, false⟩ =
        (some (.error (.unrecognizedCharacter char c.line c.column)), ⟨g, c, true⟩) := by
      simp [next, atEnd_eq_isNone, here, Grammar.read_of_stuck stuck]
    rw [failure_of_current here]
    cases n with
    | zero => rw [answer, failed]; rfl
    | succ n => rw [answer, failed]; exact answer_of_finished rfl n

theorem answer_of_reads (reads : g.Reads c tokens last) (stuck : g.Stuck last) (n : Nat) :
    answer ⟨g, c, false⟩ n = (tokens.map .ok ++ last.failure)[n]? := by
  induction reads generalizing n with
  | done c => exact answer_of_stuck stuck n
  | token accepted _ _ ih =>
    cases n with
    | zero => rw [answer, next_of_accepts accepted]; rfl
    | succ n => rw [answer, next_of_accepts accepted]; exact ih stuck n

end Scanner

namespace Grammar

/-- The calls of a lexer get these items one by one, and nothing behind them, however often they
are repeated. -/
def HandsOut (g : Grammar) (text : Text) (items : List (Except LexError Token)) : Prop :=
  (Lexer.start g text).items = items ∧ ∀ n, (Scanner.start g text).answer n = items[n]?

/-- A run over a text: the tokens up to a place, and if that is not the end one error, for the
character there. -/
structure Exhausts (g : Grammar) (text : Text) (tokens : List Token) (last : TextCursor) :
    Prop where
  reads : g.Reads (.start text) tokens last
  bounded : tokens.length ≤ text.length
  within : last.chars.index ≤ text.length
  located : last.position.LocatedIn text
  ended : last.chars.index = text.length → g.HandsOut text (tokens.map .ok)
  failed : ∀ char, text[last.chars.index]? = some char → g.Stuck last ∧
    g.HandsOut text
      (tokens.map .ok ++ [.error (.unrecognizedCharacter char last.line last.column)])

theorem handsOut_of_reads {text : Text} (reads : g.Reads (.start text) tokens last)
    (stuck : g.Stuck last) : g.HandsOut text (tokens.map .ok ++ last.failure) := by
  refine ⟨?_, Scanner.answer_of_reads reads stuck⟩
  rw [← Lexer.items_of_stuck stuck]
  exact Lexer.items_of_reads reads

theorem exists_exhausts (g : Grammar) (text : Text) :
    ∃ tokens last, g.Exhausts text tokens last := by
  obtain ⟨tokens, last, reads, stuck⟩ := g.exists_reads (.start text)
  obtain ⟨n, reached, many, fits⟩ := advance_of_reads reads
  have place : last = (TextCursor.start text).moveTo (Position.start.advance (text.take n)) := by
    rw [reached, advance_eq_moveTo]
    rfl
  have passed : (text.take n).length = n := List.length_take_of_le fits
  have index : last.chars.index = n := by
    rw [place, Position.advance_start]
    exact passed
  have items : last.chars.items = text := by
    rw [place]
    rfl
  have output := handsOut_of_reads reads stuck
  refine ⟨tokens, last, reads, Nat.le_trans many fits, index ▸ fits, ?_, ?_, ?_⟩
  · have position : last.position = Position.start.advance (text.take n) := by
      rw [place]
      rfl
    rw [position, Position.LocatedIn, Position.advance_start, passed]
    exact ⟨rfl, rfl⟩
  · intro whole
    have nothing : last.current? = none := by
      apply List.getElem?_eq_none
      rw [items, whole]
    rw [failure_of_ended nothing, List.append_nil] at output
    exact output
  · intro char here
    rw [← items] at here
    rw [failure_of_current here] at output
    exact ⟨stuck, output⟩

/-- Matching is transactional, with the delimiters of any list of symbols, and every run of a lexer
is finite, whatever its grammar and the text. -/
theorem reads_in_transactions (symbols : List Matcher) (only : ∀ s ∈ symbols, s.isSymbol = true)
    (m : Matcher) (c : TextCursor) (g : Grammar) (text : Text) :
    c.Transacted (m.read ⟨symbols⟩ c) ∧
      m.tryMatch (anyStarts symbols) c =
        (m.read ⟨symbols⟩ c).1.map (fun t => (t, (m.read ⟨symbols⟩ c).2)) ∧
      ∃ tokens last, g.Exhausts text tokens last := by
  refine ⟨transacted_read .., ?_, exists_exhausts g text⟩
  rw [read_eq, anyStarts_of_isSymbol only]
  cases m.tryMatch (stops ⟨symbols⟩) c <;> rfl

/-- A word that a comma ends, and a text where words alone do not go on behind the first. -/
theorem reads_in_transactions_word :
    (∀ s ∈ [symbolMatcher .comma], s.isSymbol = true) ∧
      Matcher.word.read ⟨[symbolMatcher .comma]⟩ (.start ['a', ',']) =
        (some ⟨.word, ['a'], .start⟩, (TextCursor.start ['a', ',']).advance 1) ∧
      ∃ tokens last, Exhausts ⟨[.word]⟩ ['a', ' '] tokens last := by
  have only : ∀ s ∈ [symbolMatcher .comma], s.isSymbol = true := by decide
  obtain ⟨-, tried, ran⟩ := reads_in_transactions [symbolMatcher .comma] only .word
    (.start ['a', ',']) ⟨[.word]⟩ ['a', ' ']
  have taken : Matcher.word.tryMatch (anyStarts [symbolMatcher .comma]) (.start ['a', ',']) =
      some (⟨.word, ['a'], .start⟩, (TextCursor.start ['a', ',']).advance 1) := by
    rw [anyStarts_of_isSymbol only]
    rfl
  obtain ⟨t, token, same⟩ := Option.map_eq_some_iff.mp (tried.symm.trans taken)
  obtain ⟨rfl, after⟩ := Prod.mk.inj same
  exact ⟨only, Prod.ext token after, ran⟩

end Grammar

end IndentMarkup
