import IndentMarkup.Line.Stream
import IndentMarkup.Proofs.Line.Lexed
import IndentMarkup.Proofs.Line.Seam

/-! Nothing is lost when tokens are cut into lines. The lines and the line feeds that ended them
are the tokens again, and the source is the text of the lines with a line feed behind each. Inside
of a line there are no line feeds but those of strings. -/
namespace IndentMarkup

def Line.endsInBlock (line : Line) : Bool :=
  line.getLast?.any (·.kind = .symbol .block)

/-- The tokens are those of the lines one after the other. Behind a line stands the line feed that
ended it, unless its own block marker did, or it is the last line and ends with the tokens. -/
inductive Line.Rejoin : List Line → List Token → Prop where
  | nil : Rejoin [] []
  | last {line : Line} (nonempty : line ≠ []) (unmarked : line.endsInBlock = false) :
      Rejoin [line] line
  | feed {line : Line} {t : Token} {lines : List Line} {tokens : List Token}
      (newLine : t.kind = .symbol .newLine) (unmarked : line.endsInBlock = false)
      (later : Rejoin lines tokens) : Rejoin (line :: lines) (line ++ t :: tokens)
  | block {line : Line} {lines : List Line} {tokens : List Token}
      (marked : line.endsInBlock = true) (later : Rejoin lines tokens) :
      Rejoin (line :: lines) (line ++ tokens)

namespace Line

/-- A block marker is the last token of its line. -/
theorem block_last_of_mem_split (tokens : List Token) :
    ∀ line ∈ split tokens, ∀ t ∈ line.dropLast, t.kind ≠ .symbol .block := by
  fun_induction split tokens with
  | case1 => exact List.forall_mem_nil _
  | case2 t rest _ ih => exact List.forall_mem_cons.mpr ⟨List.forall_mem_nil _, ih⟩
  | case3 t rest _ _ ih => exact List.forall_mem_cons.mpr ⟨List.forall_mem_nil _, ih⟩
  | case4 t rest => exact List.forall_mem_singleton.mpr (List.forall_mem_nil _)
  | case5 t rest _ inside line lines more ih =>
    rw [more, List.forall_mem_cons] at ih
    refine List.forall_mem_cons.mpr ⟨?_, ih.2⟩
    cases line with
    | nil => exact List.forall_mem_nil _
    | cons next line => exact List.forall_mem_cons.mpr ⟨inside, ih.1⟩

theorem eq_nil_of_block {tokens : List Token} {line rest : Line} {t : Token}
    (member : line ∈ split tokens) (within : t :: rest <:+ line) (block : t.kind = .symbol .block) :
    rest = [] := by
  obtain ⟨before, rfl⟩ := within
  cases rest with
  | nil => rfl
  | cons next rest =>
    refine absurd block (block_last_of_mem_split _ _ member t ?_)
    simp [List.dropLast_append_of_ne_nil]

theorem endsInBlock_cons {t : Token} (inside : t.kind ≠ .symbol .block) (line : Line) :
    endsInBlock (t :: line) = endsInBlock line := by
  cases line with
  | nil => simp [endsInBlock, inside]
  | cons next line => simp [endsInBlock, List.getLast?_cons]

theorem Rejoin.extend {t : Token} {line : Line} {lines : List Line} {tokens : List Token}
    (inside : t.kind ≠ .symbol .block) (rejoin : Rejoin (line :: lines) tokens) :
    Rejoin ((t :: line) :: lines) (t :: tokens) := by
  cases rejoin with
  | last nonempty unmarked =>
    exact .last (List.cons_ne_nil _ _) ((endsInBlock_cons inside line).trans unmarked)
  | feed newLine unmarked later =>
    exact .feed newLine ((endsInBlock_cons inside line).trans unmarked) later
  | block marked later => exact .block ((endsInBlock_cons inside line).trans marked) later

/-- The lines that tokens are cut into can be put together again. -/
theorem rejoin_split (tokens : List Token) : Rejoin (split tokens) tokens := by
  fun_induction split tokens with
  | case1 => exact .nil
  | case2 t rest newLine ih => exact .feed newLine rfl ih
  | case3 t rest _ block ih => exact .block (by simp [endsInBlock, block]) ih
  | case4 t rest _ inside none ih =>
    rw [none] at ih
    cases ih
    exact .last (List.cons_ne_nil _ _) (by simp [endsInBlock, inside])
  | case5 t rest _ inside line lines more ih =>
    rw [more] at ih
    exact ih.extend inside

end Line

/-- A text begins with the piece, which is its first line. A line feed in the piece is a part of a
string. -/
structure BeginsLine (p : Position) (piece tail : Text) (line : Line) : Prop where
  ended : LineEnd tail
  made : MakesLine p piece tail line
  spans : line.Spans p.index (p.index + piece.length)
  open_ : tail = [] → ∀ c ∈ piece.getLast?, c ≠ '\n'
  quoted : ∀ k, piece[k]? = some '\n' → ∃ t ∈ line, t.kind = .quoted ∧
    t.position.index < p.index + k ∧ p.index + k + 1 < t.stop

namespace BeginsLine

theorem nil {tail : Text} (ended : LineEnd tail) (p : Position) : BeginsLine p [] tail [] :=
  ⟨ended, ended.makesLine p, Line.spans_nil _, nofun, nofun⟩

theorem block (p : Position) (rest : Text) :
    BeginsLine p ['.'] ('\n' :: rest) [⟨.symbol .block, ['.', '\n'], p⟩] := by
  have first : FirstToken (['.'] ++ '\n' :: rest)
      ⟨.symbol .block, ['.', '\n'], ['.', '\n'], rest⟩ :=
    FirstToken.of_lone_symbol (s := .block) rest rfl
  have line : Line.cut (Token.listFrom p (['.'] ++ '\n' :: rest)) =
      ([⟨.symbol .block, ['.', '\n'], p⟩], Token.listFrom (p.advance ['.', '\n']) rest) := by
    rw [Token.listFrom_of_first p first, Line.cut, if_neg (by simp), if_pos rfl]
  refine ⟨rfl, ⟨congrArg Prod.fst line, congrArg Prod.snd line⟩, ?_, by simp, ?_⟩
  · exact ⟨by simp, by simp [Line.lastStop], by simp⟩
  · rintro (_ | k) <;> simp

end BeginsLine

/-- Only strings and the ends of lines hold line feeds, and a string does not begin or end with
one. -/
theorem FirstToken.feed_inside {text : Text} {found : Match} (first : FirstToken text found)
    (inside : found.kind.endsLine = false) {k : Nat} (feed : found.taken[k]? = some '\n') :
    found.kind = .quoted ∧ 0 < k ∧ k + 1 < found.taken.length := by
  have within := List.mem_of_getElem? feed
  cases first with
  | @quoted mark inner rest isMark =>
    have apart : mark ≠ '\n' := by rcases isMark with rfl | rfl <;> decide
    obtain ⟨bound, -⟩ := List.getElem?_eq_some_iff.mp feed
    have behind : k ≠ 0 := by rintro rfl; exact apart (Option.some.inj feed)
    have before : k ≠ inner.length + 1 := by
      rintro rfl
      simp [apart] at feed
    refine ⟨rfl, Nat.pos_of_ne_zero behind, ?_⟩
    simp only [List.length_append, List.length_cons, List.length_nil] at bound ⊢
    omega
  | @symbol s => exact absurd (s.endsLine_of_feed within) (Bool.eq_false_iff.mp inside)
  | @keyword k => exact absurd within k.feed_not_mem
  | @blanks c run rest _ _ blanks => exact absurd (blanks _ within) (by decide)
  | @word c run rest _ _ whole => exact absurd within whole.newline_not_mem

/-- A token in front belongs to the line. -/
theorem FirstToken.beginsLine {text piece tail : Text} {found : Match} {line : Line} {p : Position}
    (first : FirstToken text found) (inside : found.kind.endsLine = false)
    (split : found.rest = piece ++ tail)
    (later : BeginsLine (p.advance found.taken) piece tail line) :
    BeginsLine p (found.taken ++ piece) tail (⟨found.kind, found.text, p⟩ :: line) := by
  have whole := first.append
  have feeds {k : Nat} (feed : found.taken[k]? = some '\n') := first.feed_inside inside feed
  obtain ⟨kind, value, taken, rest⟩ := found
  dsimp only at inside split later whole feeds ⊢
  subst whole split
  have length : Token.sourceLength ⟨kind, value, p⟩ = taken.length := first.length_taken p
  refine ⟨later.ended, (first.startsLine inside p).makesLine later.made, ?_, ?_, ?_⟩
  · have spans := later.spans
    rw [Position.index_advance, Nat.add_assoc, ← length] at spans
    rw [List.length_append, ← length]
    exact spans.cons inside
  · rintro rfl c last rfl
    by_cases nonempty : piece = []
    · subst nonempty
      have closing : taken.getLast? = some '\n' := by simpa using last
      have ended : Text.EndsLine (taken ++ ([] ++ [])) := by simp [Text.EndsLine, closing]
      exact absurd (first.endsLine ended rfl) (Bool.eq_false_iff.mp inside)
    · rw [List.getLast?_append_of_ne_nil _ nonempty] at last
      exact later.open_ rfl _ last rfl
  · intro k feed
    by_cases own : k < taken.length
    · rw [List.getElem?_append_left own] at feed
      obtain ⟨quoted, behind, before⟩ := feeds feed
      refine ⟨_, List.mem_cons_self .., quoted, Nat.lt_add_of_pos_right behind, ?_⟩
      rw [Token.stop, length]
      dsimp only
      omega
    · rw [List.getElem?_append_right (Nat.le_of_not_lt own)] at feed
      obtain ⟨t, member, quoted, behind, before⟩ := later.quoted _ feed
      rw [Position.index_advance] at behind before
      exact ⟨t, .tail _ member, quoted, by omega, by omega⟩

/-- Every text begins with a line. -/
theorem exists_beginsLine (p : Position) (text : Text) :
    ∃ piece tail line, text = piece ++ tail ∧ BeginsLine p piece tail line := by
  by_cases nonempty : text = []
  · exact ⟨[], [], [], nonempty, .nil (show LineEnd [] from trivial) p⟩
  obtain ⟨found, first⟩ := Token.exists_first nonempty
  have whole := first.append
  have shorter := first.length_rest_lt
  cases inside : found.kind.endsLine with
  | false =>
    obtain ⟨piece, tail, line, split, later⟩ :=
      exists_beginsLine (p.advance found.taken) found.rest
    refine ⟨found.taken ++ piece, tail, _, ?_, first.beginsLine inside split later⟩
    rw [List.append_assoc, ← split, ← whole]
  | true =>
    cases first with
    | @symbol s rest =>
      have ends : s = .newLine ∨ s = .block := by simpa [Token.Kind.endsLine] using inside
      rcases ends with rfl | rfl
      · exact ⟨[], '\n' :: rest, [], rfl, .nil (show LineEnd ('\n' :: rest) from rfl) p⟩
      · exact ⟨['.'], '\n' :: rest, _, rfl, .block p rest⟩
    | _ => contradiction
termination_by text.length

namespace BeginsLine

variable {source piece tail : Text} {line : Line} {p : Position}

theorem sourceText (begins : BeginsLine p piece tail line)
    (placed : p.Before source (piece ++ tail)) : line.sourceText source = piece := by
  rw [Line.sourceText_of_spans begins.spans, Text.slice_of_drop placed]

/-- The line feeds in the text of the line are those inside of its strings. -/
theorem feeds_quoted (begins : BeginsLine p piece tail line)
    (placed : p.Before source (piece ++ tail)) (k : Nat)
    (feed : (line.sourceText source)[k]? = some '\n') : ∃ first ∈ line.head?, ∃ t ∈ line,
      t.kind = .quoted ∧ t.position.index < first.position.index + k ∧
        first.position.index + k + 1 < t.stop := by
  rw [begins.sourceText placed] at feed
  obtain ⟨t, member, quoted, behind, before⟩ := begins.quoted k feed
  obtain ⟨first, rest, rfl⟩ := List.exists_cons_of_ne_nil (List.ne_nil_of_mem member)
  have start := begins.spans.first first rfl
  exact ⟨first, rfl, t, member, quoted, by omega, by omega⟩

end BeginsLine

/-- The text is made of the lines from the position on, with a line feed behind each but maybe the
last. -/
inductive MadeOf : Position → Text → List Line → Prop where
  | nil (p : Position) : MadeOf p [] []
  | last {p : Position} {piece : Text} {line : Line} (nonempty : piece ≠ [])
      (begins : BeginsLine p piece [] line) : MadeOf p piece [line]
  | feed {p : Position} {piece rest : Text} {line : Line} {lines : List Line}
      (begins : BeginsLine p piece ('\n' :: rest) line)
      (later : MadeOf (p.advance (piece ++ ['\n'])) rest lines) :
      MadeOf p (piece ++ '\n' :: rest) (line :: lines)

theorem madeOf_split (p : Position) (text : Text) :
    MadeOf p text (Line.split (Token.listFrom p text)) := by
  by_cases nonempty : text = []
  · simpa [nonempty, Line.split] using MadeOf.nil p
  obtain ⟨piece, tail, line, whole, begins⟩ := exists_beginsLine p text
  have lines := split_makesLine begins.made (whole ▸ nonempty)
  rw [← whole] at lines
  cases tail with
  | nil =>
    obtain rfl : text = piece := by simpa using whole
    simpa [lines, Line.split] using MadeOf.last nonempty begins
  | cons c rest =>
    obtain rfl : c = '\n' := begins.ended
    have shorter : rest.length < text.length := by
      rw [whole, List.length_append, List.length_cons]
      omega
    have later := madeOf_split (p.advance (piece ++ ['\n'])) rest
    rw [lines, whole]
    exact .feed begins later
termination_by text.length

namespace MadeOf

variable {source text : Text} {p : Position} {lines : List Line}

theorem eq_nil_iff (made : MadeOf p text lines) : text = [] ↔ lines = [] := by
  cases made with
  | nil => simp
  | last nonempty => simpa using nonempty
  | feed => simp

/-- The source is the text of the lines, joined by line feeds. -/
theorem text_eq (made : MadeOf p text lines) (placed : p.Before source text) :
    text = ['\n'].intercalate (lines.map (Line.sourceText source)) ++
      if text.getLast? = some '\n' then ['\n'] else [] := by
  induction made with
  | nil => rfl
  | @last p piece line nonempty begins =>
    have own := begins.sourceText (placed.trans (List.append_nil piece).symm)
    have open_ : piece.getLast? ≠ some '\n' := fun last => begins.open_ rfl _ last rfl
    rw [if_neg open_, List.map_singleton, own, List.intercalate_singleton, List.append_nil]
  | @feed p piece rest line lines begins later ih =>
    have own := begins.sourceText placed
    rw [← List.singleton_append, ← List.append_assoc] at placed
    have split := ih (placed.advance (piece ++ ['\n']))
    rw [List.map_cons, own]
    by_cases nothing : rest = []
    · obtain rfl := later.eq_nil_iff.mp nothing
      simp [nothing]
    · have more : lines.map (Line.sourceText source) ≠ [] := by
        simpa using mt later.eq_nil_iff.mpr nothing
      have last : (piece ++ '\n' :: rest).getLast? = rest.getLast? := by
        simp [List.getLast?_cons, List.getLast?_eq_some_getLast nothing]
      rw [last, List.intercalate_cons_of_ne_nil more, List.append_assoc, List.append_assoc, ← split,
        List.singleton_append]

/-- Each of the lines begins the text that is left of the source. -/
theorem exists_beginsLine (made : MadeOf p text lines) (placed : p.Before source text) :
    ∀ line ∈ lines, ∃ (q : Position) (piece tail : Text), q.Before source (piece ++ tail) ∧
      BeginsLine q piece tail line := by
  induction made with
  | nil => nofun
  | @last p piece line nonempty begins =>
    exact List.forall_mem_singleton.mpr
      ⟨p, piece, [], placed.trans (List.append_nil piece).symm, begins⟩
  | @feed p piece rest line lines begins later ih =>
    refine List.forall_mem_cons.mpr ⟨⟨p, piece, '\n' :: rest, placed, begins⟩, ih ?_⟩
    rw [← List.singleton_append, ← List.append_assoc] at placed
    exact placed.advance (piece ++ ['\n'])

/-- The text of the first lines stands in front, and behind its line feed the text is made of the
others. -/
theorem first_lines {first second : List Line} (made : MadeOf p text (first ++ second))
    (nonempty : first ≠ []) (placed : p.Before source text) :
    ∃ piece tail, text = piece ++ tail ∧ LineEnd tail ∧
      piece = ['\n'].intercalate (first.map (Line.sourceText source)) ∧
      (tail = [] → ¬ piece.EndsLine) ∧
      (∀ last ∈ first.getLast?, ∀ t ∈ last.getLast?, Line.lastStop t = p.index + piece.length) ∧
      MadeOf (p.advance (piece ++ tail.take 1)) (tail.drop 1) second := by
  induction first generalizing p text with
  | nil => contradiction
  | cons line more ih =>
    rw [List.cons_append] at made
    generalize later : more ++ second = lines at made
    cases made with
    | last written begins =>
      obtain ⟨rfl, rfl⟩ := List.append_eq_nil_iff.mp later
      have own := begins.sourceText (placed.trans (List.append_nil text).symm)
      refine ⟨text, [], (List.append_nil text).symm, trivial, ?_, fun _ ended => ?_, ?_, .nil _⟩
      · rw [List.map_singleton, List.intercalate_singleton, own]
      · obtain ⟨line, rfl⟩ := ended.eq_append written
        exact begins.open_ rfl '\n' (by simp) rfl
      · rintro _ ⟨rfl⟩
        exact begins.spans.last
    | @feed _ piece rest _ _ begins made =>
      subst later
      have own := begins.sourceText placed
      by_cases alone : more = []
      · subst alone
        refine ⟨piece, '\n' :: rest, rfl, rfl, ?_, nofun, ?_, made⟩
        · rw [List.map_singleton, List.intercalate_singleton, own]
        · rintro _ ⟨rfl⟩
          exact begins.spans.last
      · rw [← List.singleton_append, ← List.append_assoc] at placed
        obtain ⟨piece', tail, rfl, ended, joined, open_, last, behind⟩ :=
          ih made alone (placed.advance _)
        refine ⟨piece ++ '\n' :: piece', tail, by simp, ended, ?_, fun none ends => ?_, ?_, ?_⟩
        · rw [List.map_cons, List.intercalate_cons_of_ne_nil (by simpa using alone), own, joined]
          simp
        · rw [List.append_cons] at ends
          exact open_ none ends.suffix
        · intro final same t closing
          rw [List.getLast?_cons_of_ne_nil alone] at same
          rw [last final same t closing, Position.index_advance]
          simp only [List.length_append, List.length_cons, List.length_nil]
          omega
        · rw [← Position.advance_append] at behind
          simpa using behind

theorem feeds_quoted (made : MadeOf p text lines) (placed : p.Before source text) :
    ∀ line ∈ lines, ∀ k, (line.sourceText source)[k]? = some '\n' → ∃ first ∈ line.head?,
      ∃ t ∈ line, t.kind = .quoted ∧ t.position.index < first.position.index + k ∧
        first.position.index + k + 1 < t.stop := by
  intro line member
  obtain ⟨q, piece, tail, placed, begins⟩ := made.exists_beginsLine placed line member
  exact begins.feeds_quoted placed

end MadeOf

theorem FirstToken.endsLine_iff {text : Text} {found : Match} (first : FirstToken text found)
    (last : found.rest = []) :
    found.kind.endsLine = true ↔ text.getLast? = some '\n' := by
  constructor
  · intro ends
    rw [first.append, last, List.append_nil]
    cases first with
    | @symbol s =>
      have closing : s = .newLine ∨ s = .block := by simpa [Token.Kind.endsLine] using ends
      rcases closing with rfl | rfl <;> rfl
    | _ => contradiction
  · intro feed
    exact first.endsLine (fun c same => Option.some.inj (same.symm.trans feed)) last

/-- The last token of a text reaches to its end. -/
theorem Token.exists_last {text : Text} (p : Position) (nonempty : text ≠ []) :
    ∃ before found, text = before ++ found.taken ∧ found.rest = [] ∧
      FirstToken found.taken found ∧
      (listFrom p text).getLast? = some ⟨found.kind, found.text, p.advance before⟩ := by
  obtain ⟨found, first⟩ := exists_first nonempty
  have whole := first.append
  rw [listFrom_of_first p first]
  by_cases last : found.rest = []
  · rw [last, List.append_nil] at whole
    exact ⟨[], found, whole, last, whole ▸ first, by simp [last]⟩
  · have shorter := first.length_rest_lt
    obtain ⟨before, final, split, nothing, own, closing⟩ :=
      exists_last (p.advance found.taken) last
    refine ⟨found.taken ++ before, final, ?_, nothing, own, ?_⟩
    · rw [whole, split, List.append_assoc]
    · rw [List.getLast?_cons, closing, Position.advance_append]
      rfl
termination_by text.length

theorem Token.last_endsLine_iff (p : Position) (text : Text) :
    (listFrom p text).getLast?.any (·.kind.endsLine) = true ↔ text.getLast? = some '\n' := by
  by_cases nonempty : text = []
  · simp [nonempty]
  obtain ⟨before, found, whole, last, first, closing⟩ := exists_last p nonempty
  rw [closing, whole, List.getLast?_append_of_ne_nil _ first.taken_ne_nil, ← first.endsLine_iff last]
  rfl

/-- Cutting tokens into lines loses nothing. No line has a line feed token, a block marker is the
last token of its line, and the tokens are the lines together with the line feed tokens between
them. The source is the text of its lines with a line feed behind each, but the last has none if
the last token does not end a line. Line feeds in the text of a line are inside of strings. -/
theorem TokenStream.lines_lossless :
    (∀ source tokens,
      (∀ line ∈ (start source tokens).lines.1, (∀ t ∈ line.tokens, t.kind ≠ .symbol .newLine) ∧
        ∀ t ∈ line.tokens.dropLast, t.kind ≠ .symbol .block) ∧
      Line.Rejoin ((start source tokens).lines.1.map TokenStream.tokens) tokens) ∧
    ∀ source : Text, ∃ tokens, Token.ofText source.normalize = .ok tokens ∧
      source.normalize =
        ['\n'].intercalate ((start source.normalize tokens).lines.1.map TokenStream.text) ++
          (if tokens.getLast?.any (·.kind.endsLine) then ['\n'] else []) ∧
      ∀ line ∈ (start source.normalize tokens).lines.1, ∀ k, line.text[k]? = some '\n' →
        ∃ first ∈ line.tokens.head?, ∃ t ∈ line.tokens, t.kind = .quoted ∧
          t.position.index < first.position.index + k ∧
          first.position.index + k + 1 < t.stop := by
  constructor
  · intro source tokens
    have lines : (start source tokens).lines.1 = (Line.split tokens).map (start source) := rfl
    have own : TokenStream.tokens ∘ start source = id := rfl
    rw [lines, List.map_map, own, List.map_id, List.forall_mem_map]
    refine ⟨fun line member => ⟨?_, ?_⟩, Line.rejoin_split tokens⟩
    · exact Line.feedless_of_mem_split tokens line member
    · exact Line.block_last_of_mem_split tokens line member
  · intro source
    have made := madeOf_split .start source.normalize
    have placed : Position.start.Before source.normalize source.normalize := rfl
    have ends := Token.last_endsLine_iff .start source.normalize
    refine ⟨_, Token.ofText_eq_listFrom _, ?_, ?_⟩
    · have texts (tokens : List Token) : (start source.normalize tokens).lines.1.map text =
          (Line.split tokens).map (Line.sourceText source.normalize) := List.map_map
      simp only [ends, texts]
      exact made.text_eq placed
    · exact List.forall_mem_map.mpr (made.feeds_quoted placed)

end IndentMarkup
