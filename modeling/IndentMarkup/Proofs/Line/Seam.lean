import IndentMarkup.Proofs.Line.Lexing
import Mathlib.Data.List.Forall2

/-! Texts joined at the end of a line. No token, no delimiter and no line reaches over such a
seam, unless a string is left open before it, so the tokens and the lines of the whole are
those of the parts. What a part is read as does not depend on where it stands. -/
namespace IndentMarkup

/-- The last line of the text is ended, if it has a line at all. -/
def Text.EndsLine (text : Text) : Prop :=
  ∀ c ∈ text.getLast?, c = '\n'

instance (text : Text) : Decidable text.EndsLine :=
  Option.decidableForallMem text.getLast?

/-- A word that starts with a quotation mark: a string that is nowhere closed. -/
def Token.isUnclosed (t : Token) : Bool :=
  t.kind = .word && t.text.head?.any (['"', '\''].contains ·)

theorem Text.EndsLine.eq_append {text : Text} (ended : text.EndsLine) (nonempty : text ≠ []) :
    ∃ line, text = line ++ ['\n'] := by
  have last := List.getLast?_eq_some_getLast nonempty
  rw [ended _ last] at last
  exact List.getLast?_eq_some_iff.mp last

theorem Text.endsLine_feed (text : Text) : EndsLine (text ++ ['\n']) := by
  simp [EndsLine]

/-- What follows a piece of the text ends its lines too. -/
theorem Text.EndsLine.suffix {piece rest : Text} (ended : EndsLine (piece ++ rest)) :
    EndsLine rest := by
  intro c last
  apply ended c
  rw [Option.mem_def] at last
  simp [List.getLast?_append, last]

theorem Text.EndsLine.append {piece rest : Text} (ended : EndsLine rest) (nonempty : rest ≠ []) :
    EndsLine (piece ++ rest) := by
  intro c last
  obtain ⟨line, rfl⟩ := ended.eq_append nonempty
  simpa [eq_comm] using last

/-- And there is something behind a piece without line feeds. -/
theorem Text.EndsLine.rest_ne_nil {piece rest : Text} (ended : EndsLine (piece ++ rest))
    (nonempty : piece ≠ []) (within : '\n' ∉ piece) : rest ≠ [] := by
  rintro rfl
  rw [List.append_nil] at ended
  obtain ⟨line, rfl⟩ := ended.eq_append nonempty
  simp at within

/-- A line feed is the last character of every symbol that holds one. -/
theorem Symbol.feed_last (s : Symbol) {before after : Text}
    (spelled : s.literal = before ++ '\n' :: after) : after = [] := by
  by_contra more
  have early : '\n' ∈ s.literal.dropLast := by
    rw [spelled, List.dropLast_append_of_ne_nil (List.cons_ne_nil _ _),
      List.dropLast_cons_of_ne_nil more]
    simp
  revert early
  cases s <;> decide

theorem Symbol.endsLine_of_feed (s : Symbol) :
    '\n' ∈ s.literal → Token.Kind.endsLine (.symbol s) = true := by
  cases s <;> decide

theorem Keyword.feed_not_mem (k : Keyword) : '\n' ∉ k.literal := by
  cases k <;> decide

variable {text rest : Text}

/-- Symbols end at the end of a line at the latest. -/
theorem Symbol.prefix_append_iff (s : Symbol) (ended : text.EndsLine) (nonempty : text ≠ [])
    (behind : Text) : s.literal <+: text ++ behind ↔ s.literal <+: text := by
  constructor
  · intro starts
    rcases List.prefix_or_prefix_of_prefix starts (List.prefix_append text behind) with
      inside | ⟨beyond, spelled⟩
    · exact inside
    · obtain ⟨line, rfl⟩ := ended.eq_append nonempty
      rw [List.append_assoc] at spelled
      obtain rfl := s.feed_last spelled.symm
      rw [← spelled]
      exact List.prefix_refl _
  · exact fun starts => starts.trans (List.prefix_append text behind)

theorem startsSymbol_append_iff (ended : text.EndsLine) (nonempty : text ≠ [])
    (behind : Text) : StartsSymbol (text ++ behind) ↔ StartsSymbol text :=
  exists_congr fun s => s.prefix_append_iff ended nonempty behind

theorem endsWord_append_iff (ended : text.EndsLine) (nonempty : text ≠ []) (behind : Text) :
    EndsWord (text ++ behind) ↔ EndsWord text := by
  have symbols := startsSymbol_append_iff ended nonempty behind
  cases text with
  | nil => contradiction
  | cons c rest => exact or_congr_right symbols

theorem startsKeyword_append_iff (ended : text.EndsLine) (nonempty : text ≠ [])
    (behind : Text) : StartsKeyword (text ++ behind) ↔ StartsKeyword text := by
  constructor
  · rintro ⟨k, rest, same, ends⟩
    have within := k.feed_not_mem
    rcases List.append_eq_append_iff.mp same.symm with ⟨left, rfl, rfl⟩ | ⟨beyond, spelled, rfl⟩
    · have ended_left := ended.suffix
      have some_left := ended.rest_ne_nil k.literal_ne_nil within
      exact ⟨k, left, rfl, (endsWord_append_iff ended_left some_left behind).mp ends⟩
    · obtain ⟨line, rfl⟩ := ended.eq_append nonempty
      exact absurd (spelled ▸ by simp) within
  · rintro ⟨k, rest, rfl, ends⟩
    have within := k.feed_not_mem
    refine ⟨k, rest ++ behind, List.append_assoc .., ?_⟩
    exact (endsWord_append_iff ended.suffix
      (ended.rest_ne_nil k.literal_ne_nil within) behind).mpr ends

theorem wordRun_append_iff {run : Text} (ended : rest.EndsLine) (nonempty : rest ≠ [])
    (behind : Text) : WordRun run (rest ++ behind) ↔ WordRun run rest := by
  induction run with
  | nil => exact endsWord_append_iff ended nonempty behind
  | cons c run ih =>
    refine and_congr (not_congr ?_) ih
    rw [← List.append_assoc]
    exact endsWord_append_iff (ended.append nonempty) (by simp) behind

theorem Bare.append_behind {c : Char} (own : Bare text) (ended : text.EndsLine)
    (first : text.head? = some c) (unmarked : c ≠ '"' ∧ c ≠ '\'') (behind : Text) :
    Bare (text ++ behind) := by
  obtain ⟨tail, rfl⟩ := List.head?_eq_some_iff.mp first
  refine ⟨?_, fun starts =>
    own.2 ((startsSymbol_append_iff ended (List.cons_ne_nil c tail) behind).mp starts)⟩
  rintro ⟨mark, left, spelled, isMark, -⟩
  obtain ⟨rfl, -⟩ := List.cons.inj spelled
  rcases isMark with rfl | rfl <;> simp at unmarked

/-- The first token of a text is the first token also in front of further lines, unless it is
an unclosed string. -/
theorem FirstToken.append_behind {found : Match} (ended : text.EndsLine)
    (first : FirstToken text found) (p : Position)
    (closed : Token.isUnclosed ⟨found.kind, found.text, p⟩ = false) (behind : Text) :
    FirstToken (text ++ behind) { found with rest := found.rest ++ behind } := by
  have unnamed (nonempty : text ≠ []) (own : ¬ StartsKeyword text) :
      ¬ StartsKeyword (text ++ behind) :=
    fun names => own ((startsKeyword_append_iff ended nonempty behind).mp names)
  cases first with
  | @quoted mark inner rest isMark nearest =>
    have again : (mark :: inner ++ mark :: rest) ++ behind =
        mark :: inner ++ mark :: (rest ++ behind) := by simp
    rw [again]
    exact .quoted isMark nearest
  | @symbol s rest unquoted longest =>
    rw [List.append_assoc]
    refine .symbol (symbol_unquoted s _) fun other starts => longest other ?_
    rw [← List.append_assoc] at starts
    refine (other.prefix_append_iff ended ?_ behind).mp starts
    simp [s.literal_ne_nil]
  | @keyword k rest own ends =>
    have within := k.feed_not_mem
    have some_rest := ended.rest_ne_nil k.literal_ne_nil within
    have kept : Bare ((k.literal ++ rest) ++ behind) := by
      cases spelled : k.literal with
      | nil => exact absurd spelled k.literal_ne_nil
      | cons c tail =>
        rw [spelled] at own ended
        refine own.append_behind ended rfl ?_ behind
        cases k <;> obtain ⟨rfl, -⟩ := List.cons.inj spelled <;> decide
    rw [List.append_assoc] at kept ⊢
    exact .keyword kept ((endsWord_append_iff ended.suffix some_rest behind).mpr ends)
  | @blanks c run rest own notNamed inside ends =>
    have within : '\n' ∉ c :: run := fun member => absurd (inside _ member) (by decide)
    have some_rest := ended.rest_ne_nil (List.cons_ne_nil c run) within
    have blank := inside c (by simp)
    have unmarked : c ≠ '"' ∧ c ≠ '\'' := by
      constructor <;> (rintro rfl; revert blank; decide)
    have kept := own.append_behind ended rfl unmarked behind
    have kept' := unnamed (by simp) notNamed
    rw [List.append_assoc] at kept kept' ⊢
    refine .blanks kept kept' inside ?_
    obtain ⟨d, left, rfl⟩ := List.exists_cons_of_ne_nil some_rest
    exact ends
  | @word c run rest own notNamed whole =>
    have some_rest := ended.rest_ne_nil (List.cons_ne_nil c run) whole.newline_not_mem
    have unmarked : c ≠ '"' ∧ c ≠ '\'' := by
      simpa [Token.isUnclosed] using closed
    have kept := own.append_behind ended rfl unmarked behind
    have kept' := unnamed (by simp) notNamed
    rw [List.append_assoc] at kept kept' ⊢
    exact .word kept kept' ((wordRun_append_iff ended.suffix some_rest behind).mpr whole)

/-- The token that ends a text of whole lines ends a line. -/
theorem FirstToken.endsLine {found : Match} (ended : text.EndsLine)
    (first : FirstToken text found) (last : found.rest = []) : found.kind.endsLine = true := by
  have whole := first.append
  rw [last, List.append_nil] at whole
  obtain ⟨line, feed⟩ := ended.eq_append (whole ▸ first.taken_ne_nil)
  have within : '\n' ∈ found.taken := by rw [← whole, feed]; simp
  cases first with
  | @quoted mark inner rest isMark =>
    obtain rfl : rest = [] := last
    have spelled : (mark :: inner) ++ [mark] = line ++ ['\n'] := feed
    obtain rfl : mark = '\n' := by simpa using List.append_inj_right' spelled rfl
    simp at isMark
  | @symbol s => exact s.endsLine_of_feed within
  | @keyword k => exact absurd within k.feed_not_mem
  | @blanks c run rest _ _ inside => exact absurd (inside _ within) (by decide)
  | @word c run rest _ _ run_whole => exact absurd within run_whole.newline_not_mem

namespace Token

theorem exists_first (nonempty : text ≠ []) : ∃ found, FirstToken text found := by
  obtain ⟨c, rest, rfl⟩ := List.exists_cons_of_ne_nil nonempty
  obtain ⟨found, taken⟩ := Grammar.standard_total c rest
  exact ⟨found, Grammar.first_of_standard taken⟩

/-- Without quotation marks there are no strings to be left open. -/
theorem closed_of_unquoted {text : Text} (unquoted : ∀ c ∈ text, c ≠ '"' ∧ c ≠ '\'')
    (p : Position) : ∀ t ∈ listFrom p text, t.isUnclosed = false := by
  intro t member
  obtain ⟨before, found, whole, first, rfl⟩ := mem_listFrom member
  generalize same : found.taken ++ found.rest = rest at first whole
  cases first with
  | @word c run rest =>
    have plain := unquoted c (by simp [whole])
    simp [isUnclosed, plain]
  | _ => rfl

/-- Texts joined at the end of a line are read one after the other. -/
theorem listFrom_append {text : Text} (p : Position) (ended : text.EndsLine)
    (closed : ∀ t ∈ listFrom p text, t.isUnclosed = false) (behind : Text) :
    listFrom p (text ++ behind) = listFrom p text ++ listFrom (p.advance text) behind := by
  by_cases nonempty : text = []
  · simp [nonempty]
  · obtain ⟨found, first⟩ := exists_first nonempty
    have split := first.append
    have shorter := first.length_rest_lt
    have tokens := listFrom_of_first p first
    rw [tokens] at closed ⊢
    have later := first.append_behind ended p (closed _ (by simp)) behind
    have ended_rest : found.rest.EndsLine := Text.EndsLine.suffix (split ▸ ended)
    have rest := listFrom_append (p.advance found.taken) ended_rest
      (fun t member => closed t (.tail _ member)) behind
    rw [listFrom_of_first p later, rest, ← Position.advance_append, ← split]
    rfl
termination_by text.length

theorem listFrom_endsLine {text : Text} (p : Position) (ended : text.EndsLine) :
    ∀ t ∈ (listFrom p text).getLast?, t.kind.endsLine = true := by
  by_cases nonempty : text = []
  · simp [nonempty]
  · obtain ⟨found, first⟩ := exists_first nonempty
    have split := first.append
    have shorter := first.length_rest_lt
    rw [listFrom_of_first p first]
    by_cases last : found.rest = []
    · rintro t ⟨rfl⟩
      simpa [last] using first.endsLine ended last
    · obtain ⟨next, second⟩ := exists_first last
      have later := listFrom_endsLine (p.advance found.taken)
        (Text.EndsLine.suffix (split ▸ ended))
      rw [listFrom_of_first _ second] at later ⊢
      simpa using later
termination_by text.length

end Token

namespace Line

/-- Tokens that end in the end of a line are cut into lines for themselves. -/
theorem split_append {tokens : List Token}
    (ended : ∀ t ∈ tokens.getLast?, t.kind.endsLine = true) (behind : List Token) :
    split (tokens ++ behind) = split tokens ++ split behind := by
  fun_induction split tokens with
  | case1 => rfl
  | case2 t rest newLine ih =>
    have later : ∀ u ∈ rest.getLast?, u.kind.endsLine = true :=
      fun u last => ended u (by simp_all [List.getLast?_cons])
    simp [split, newLine, ih later]
  | case3 t rest _ block ih =>
    have later : ∀ u ∈ rest.getLast?, u.kind.endsLine = true :=
      fun u last => ended u (by simp_all [List.getLast?_cons])
    simp [split, block, ih later]
  | case4 t rest newLine block none ih =>
    cases rest with
    | nil => simp [Token.Kind.endsLine, newLine, block] at ended
    | cons u rest => simp [split_eq_cut_cons] at none
  | case5 t rest newLine block line lines some ih =>
    have later : ∀ u ∈ rest.getLast?, u.kind.endsLine = true :=
      fun u last => ended u (by simp_all [List.getLast?_cons])
    simp [split, newLine, block, ih later, some]

end Line

/-- The lines of texts that are joined at the end of a line. -/
theorem split_listFrom_append {text : Text} (p : Position) (ended : text.EndsLine)
    (closed : ∀ t ∈ Token.listFrom p text, t.isUnclosed = false) (behind : Text) :
    Line.split (Token.listFrom p (text ++ behind)) =
      Line.split (Token.listFrom p text) ++
        Line.split (Token.listFrom (p.advance text) behind) := by
  rw [Token.listFrom_append p ended closed,
    Line.split_append (Token.listFrom_endsLine p ended)]

/-- The same token of a text of that size, which is read from two positions. -/
structure Token.Shifted (p q : Position) (size : Nat) (t t' : Token) : Prop where
  kind : t.kind = t'.kind
  text : t.text = t'.text
  offset : ∃ passed, t.position = p.advance passed ∧ t'.position = q.advance passed
  inside : Line.lastStop t ≤ p.index + size

theorem Token.Shifted.eq {p : Position} {size : Nat} {t t' : Token}
    (shifted : Shifted p p size t t') : t = t' := by
  obtain ⟨kind, text, position⟩ := t
  obtain ⟨kind', text', position'⟩ := t'
  obtain ⟨rfl, rfl, ⟨passed, rfl, rfl⟩, -⟩ := shifted
  rfl

theorem Token.listFrom_shifted_of_le {text : Text} (p q : Position) {before : Text} {size : Nat}
    (fits : before.length + text.length ≤ size) :
    List.Forall₂ (Shifted p q size) (listFrom (p.advance before) text)
      (listFrom (q.advance before) text) := by
  by_cases nonempty : text = []
  · simp [nonempty]
  · obtain ⟨found, first⟩ := exists_first nonempty
    have whole := first.append
    have positive := List.length_pos_iff.mpr first.taken_ne_nil
    have length : text.length = found.taken.length + found.rest.length := by
      rw [← List.length_append, ← whole]
    rw [listFrom_of_first _ first, listFrom_of_first _ first]
    refine .cons ⟨rfl, rfl, ⟨before, rfl, rfl⟩, ?_⟩ ?_
    · have stop : Token.stop ⟨found.kind, found.text, p.advance before⟩ =
          p.index + before.length + found.taken.length := by
        rw [Token.stop, first.length_taken, Position.index_advance]
      rw [Line.lastStop, stop, Position.index_advance]
      split <;> omega
    · rw [← Position.advance_append, ← Position.advance_append]
      apply listFrom_shifted_of_le
      rw [List.length_append]
      omega
termination_by text.length

/-- A text is read as the same tokens wherever it begins. -/
theorem Token.listFrom_shifted (p q : Position) (text : Text) :
    List.Forall₂ (Shifted p q text.length) (listFrom p text) (listFrom q text) :=
  @listFrom_shifted_of_le text p q [] text.length (Nat.le_of_eq (Nat.zero_add _))

theorem forall₂_getLast? {α β : Type} {R : α → β → Prop} {first : List α} {second : List β}
    (paired : List.Forall₂ R first second) :
    Option.Rel R first.getLast? second.getLast? := by
  have reversed := List.rel_reverse paired
  rw [← List.head?_reverse, ← List.head?_reverse]
  generalize first.reverse = first, second.reverse = second at reversed
  cases reversed with
  | nil => exact .none
  | cons here _ => exact .some here

theorem Position.Before.slice {source text after : Text} {p : Position} {m n : Nat}
    (placed : p.Before source (text ++ after)) (inside : n ≤ text.length) :
    source.slice (p.index + m) (p.index + n) = text.slice m n := by
  have width : p.index + n - (p.index + m) = n - m := Nat.add_sub_add_left ..
  have pieces : (source.drop (p.index + m)).take (n - m) = (text.drop m).take (n - m) := by
    rw [← List.drop_drop, placed]
    by_cases ordered : m ≤ n
    · rw [List.drop_append_of_le_length (ordered.trans inside), List.take_append_of_le_length]
      rw [List.length_drop]
      omega
    · simp [Nat.sub_eq_zero_of_le (Nat.le_of_not_le ordered)]
  rw [Text.slice, Text.slice, width, pieces]

/-- So what stands in the source from one of its tokens to another is the same. -/
theorem Line.sourceText_shifted {source source' text after after' : Text} {p q : Position}
    {line line' : Line} (placed : p.Before source (text ++ after))
    (placed' : q.Before source' (text ++ after'))
    (shifted : List.Forall₂ (Token.Shifted p q text.length) line line') :
    line.sourceText source = line'.sourceText source' := by
  cases shifted with
  | nil => rfl
  | @cons t t' rest rest' here later =>
    have last := forall₂_getLast? (.cons here later)
    rw [sourceText, sourceText, List.head?_cons, List.head?_cons]
    rw [List.getLast?_cons, List.getLast?_cons] at last ⊢
    cases last with
    | @some u u' same =>
      obtain ⟨passed, first, first'⟩ := here.offset
      obtain ⟨before, begins, begins'⟩ := same.offset
      have inside := same.inside
      obtain ⟨size, stop, stop'⟩ : ∃ size, lastStop (rest.getLast?.getD t) = p.index + size ∧
          lastStop (rest'.getLast?.getD t') = q.index + size := by
        simp only [lastStop, Token.stop, Token.sourceLength, ← same.kind, ← same.text, begins,
          begins', Position.index_advance, Nat.add_assoc]
        split <;> exact ⟨_, rfl, rfl⟩
      dsimp only
      rw [stop] at inside
      rw [first, first', stop, stop', Position.index_advance, Position.index_advance,
        placed.slice (by omega), placed'.slice (by omega)]

/-- Tokens that are related one by one, and are of the same kinds, make related lines. -/
theorem Line.split_related {R : Token → Token → Prop} {tokens tokens' : List Token}
    (kept : ∀ ⦃t t'⦄, R t t' → t.kind = t'.kind) (related : List.Forall₂ R tokens tokens') :
    List.Forall₂ (List.Forall₂ R) (split tokens) (split tokens') := by
  induction related with
  | nil => exact .nil
  | @cons t t' rest rest' same _ ih =>
    rw [split, split, ← kept same]
    split
    · exact .cons .nil ih
    · split
      · exact .cons (.cons same .nil) ih
      · generalize split rest = lines, split rest' = lines' at ih
        cases ih with
        | nil => exact .cons (.cons same .nil) .nil
        | cons line lines => exact .cons (.cons same line) lines

end IndentMarkup
