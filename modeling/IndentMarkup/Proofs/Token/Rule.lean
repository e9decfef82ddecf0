import IndentMarkup.Token.Grammar
import Mathlib.Data.List.TakeWhile

/-! The first token of a text, by a rule that names no order of matchers: a string, else
the longest symbol, else a keyword, else a run of blanks, else a word. The grammar of
templates takes exactly that token, and every text but the empty one has one. -/
namespace IndentMarkup

/-- The text starts with a quotation mark that comes again. -/
def OpensString (text : Text) : Prop :=
  ∃ mark rest, text = mark :: rest ∧ (mark = '"' ∨ mark = '\'') ∧ mark ∈ rest

def StartsSymbol (text : Text) : Prop :=
  ∃ s : Symbol, s.literal <+: text

/-- Neither a string nor a symbol starts the text. -/
def Bare (text : Text) : Prop :=
  ¬ OpensString text ∧ ¬ StartsSymbol text

/-- A word that stands in front of the text ends there. -/
def EndsWord : Text → Prop
  | [] => True
  | c :: rest => isBlank c = true ∨ StartsSymbol (c :: rest)

def StartsKeyword (text : Text) : Prop :=
  ∃ (k : Keyword) (rest : Text), text = k.literal ++ rest ∧ EndsWord rest

/-- The run goes on up to the first place where a word ends, and `rest` begins there. -/
def WordRun : Text → Text → Prop
  | [], rest => EndsWord rest
  | c :: run, rest => ¬ EndsWord (c :: run ++ rest) ∧ WordRun run rest

/-- The match that the rule allows at the front of a text. -/
inductive FirstToken : Text → Match → Prop where
  | quoted {mark : Char} {text rest : Text} (isMark : mark = '"' ∨ mark = '\'')
      (nearest : mark ∉ text) :
      FirstToken (mark :: text ++ mark :: rest)
        ⟨.quoted, text, mark :: text ++ [mark], rest⟩
  | symbol {s : Symbol} {rest : Text} (unquoted : ¬ OpensString (s.literal ++ rest))
      (longest : ∀ other : Symbol, other.literal <+: s.literal ++ rest →
        other.literal.length ≤ s.literal.length) :
      FirstToken (s.literal ++ rest) ⟨.symbol s, s.literal, s.literal, rest⟩
  | keyword {k : Keyword} {rest : Text} (bare : Bare (k.literal ++ rest))
      (ends : EndsWord rest) :
      FirstToken (k.literal ++ rest) ⟨.keyword k, k.literal, k.literal, rest⟩
  | blanks {c : Char} {run rest : Text} (bare : Bare (c :: run ++ rest))
      (unnamed : ¬ StartsKeyword (c :: run ++ rest))
      (inside : ∀ x ∈ c :: run, isInlineBlank x = true)
      (ends : ∀ x ∈ rest.head?, isInlineBlank x = false) :
      FirstToken (c :: run ++ rest) ⟨.space, c :: run, c :: run, rest⟩
  | word {c : Char} {run rest : Text} (bare : Bare (c :: run ++ rest))
      (unnamed : ¬ StartsKeyword (c :: run ++ rest)) (whole : WordRun (c :: run) rest) :
      FirstToken (c :: run ++ rest) ⟨.word, c :: run, c :: run, rest⟩

theorem FirstToken.append {text : Text} {found : Match} (first : FirstToken text found) :
    text = found.taken ++ found.rest := by
  cases first <;> simp

theorem FirstToken.taken_ne_nil {text : Text} {found : Match} (first : FirstToken text found) :
    found.taken ≠ [] := by
  cases first with
  | @symbol s => exact s.literal_ne_nil
  | @keyword k => exact k.literal_ne_nil
  | _ => exact List.cons_ne_nil _ _

theorem FirstToken.length_rest_lt {text : Text} {found : Match} (first : FirstToken text found) :
    found.rest.length < text.length := by
  have positive := List.length_pos_iff.mpr first.taken_ne_nil
  rw [first.append, List.length_append]
  omega

theorem WordRun.ends {run rest : Text} (whole : WordRun run rest) : EndsWord rest := by
  induction run with
  | nil => exact whole
  | cons c run ih => exact ih whole.2

/-- Only one run fits in front of a text. -/
theorem WordRun.unique {run other rest left : Text} (whole : WordRun run rest)
    (whole' : WordRun other left) (same : run ++ rest = other ++ left) :
    run = other ∧ rest = left := by
  induction run generalizing other with
  | nil =>
    cases other with
    | nil => exact ⟨rfl, same⟩
    | cons c other => exact absurd (same ▸ whole) whole'.1
  | cons c run ih =>
    cases other with
    | nil => exact absurd (same.symm ▸ whole') whole.1
    | cons d other =>
      obtain ⟨rfl, tails⟩ := List.cons.inj same
      obtain ⟨rfl, rfl⟩ := ih whole.2 whole'.2 tails
      exact ⟨rfl, rfl⟩

theorem WordRun.head_not_blank {c : Char} {run rest : Text} (whole : WordRun (c :: run) rest) :
    isBlank c = false :=
  Bool.eq_false_iff.mpr fun blank => whole.1 (.inl blank)

/-- A run of characters of one class ends where the class does, so it is unique. -/
theorem run_unique {p : Char → Bool} {run other rest left : Text}
    (inside : ∀ x ∈ run, p x = true) (ends : ∀ x ∈ rest.head?, p x = false)
    (inside' : ∀ x ∈ other, p x = true) (ends' : ∀ x ∈ left.head?, p x = false)
    (same : run ++ rest = other ++ left) : run = other ∧ rest = left := by
  induction run generalizing other with
  | nil =>
    cases other with
    | nil => exact ⟨rfl, same⟩
    | cons c other =>
      have starts : rest = c :: (other ++ left) := same
      have outside := ends c (by simp [starts])
      simp [inside' c (by simp)] at outside
  | cons c run ih =>
    cases other with
    | nil =>
      have starts : left = c :: (run ++ rest) := same.symm
      have outside := ends' c (by simp [starts])
      simp [inside c (by simp)] at outside
    | cons d other =>
      obtain ⟨rfl, tails⟩ := List.cons.inj same
      obtain ⟨rfl, rfl⟩ := ih (fun x member => inside x (.tail _ member))
        (fun x member => inside' x (.tail _ member)) tails
      exact ⟨rfl, rfl⟩

theorem opensString_mark {mark : Char} {text rest : Text} (isMark : mark = '"' ∨ mark = '\'') :
    OpensString (mark :: text ++ mark :: rest) :=
  ⟨mark, text ++ mark :: rest, rfl, isMark, by simp⟩

/-- The longest symbol that starts a text is one symbol: two of one length are spelled
alike. -/
theorem symbol_unique {s t : Symbol} {text : Text} (first : s.literal <+: text)
    (second : t.literal <+: text) (length : s.literal.length = t.literal.length) : s = t :=
  Symbol.literal_injective
    ((List.prefix_of_prefix_length_le first second (Nat.le_of_eq length)).eq_of_length length)

/-- No keyword starts another. -/
theorem keyword_unique {j k : Keyword} {text : Text} (first : j.literal <+: text)
    (second : k.literal <+: text) : j = k := by
  have apart : ∀ j k : Keyword, j.literal <+: k.literal → j = k := by
    intro j k; cases j <;> cases k <;> decide
  rcases Nat.le_total j.literal.length k.literal.length with shorter | shorter
  · exact apart _ _ (List.prefix_of_prefix_length_le first second shorter)
  · exact (apart _ _ (List.prefix_of_prefix_length_le second first shorter)).symm

/-- The rule leaves no choice. -/
theorem FirstToken.unique {text : Text} {found other : Match} (first : FirstToken text found)
    (second : FirstToken text other) : found = other := by
  cases first with
  | @quoted mark inner rest isMark nearest =>
    have opens : OpensString (mark :: inner ++ mark :: rest) := opensString_mark isMark
    generalize same : mark :: inner ++ mark :: rest = text at second opens
    cases second with
    | @quoted mark' inner' rest' isMark' nearest' =>
      obtain ⟨rfl, tails⟩ := List.cons.inj same
      have apart (run : Text) (absent : mark ∉ run) : ∀ x ∈ run, (x != mark) = true := by
        intro x member
        simpa using fun equal : x = mark => absent (equal ▸ member)
      obtain ⟨rfl, rests⟩ := run_unique (apart _ nearest) (by simp) (apart _ nearest') (by simp)
        tails
      rw [(List.cons.inj rests).2]
    | symbol unquoted => exact absurd opens unquoted
    | keyword bare => exact absurd opens bare.1
    | blanks bare => exact absurd opens bare.1
    | word bare => exact absurd opens bare.1
  | @symbol s rest unquoted longest =>
    have starts : StartsSymbol (s.literal ++ rest) := ⟨s, List.prefix_append ..⟩
    generalize same : s.literal ++ rest = text at second unquoted starts longest
    cases second with
    | quoted isMark => exact absurd (opensString_mark isMark) unquoted
    | @symbol t left _ longest' =>
      have before : s.literal <+: t.literal ++ left := ⟨rest, same⟩
      obtain rfl := symbol_unique before (List.prefix_append ..)
        (Nat.le_antisymm (longest' s before) (longest t (List.prefix_append ..)))
      rw [List.append_cancel_left same]
    | keyword bare => exact absurd starts bare.2
    | blanks bare => exact absurd starts bare.2
    | word bare => exact absurd starts bare.2
  | @keyword k rest bare ends =>
    have names : StartsKeyword (k.literal ++ rest) := ⟨k, rest, rfl, ends⟩
    generalize same : k.literal ++ rest = text at second bare names
    cases second with
    | quoted isMark => exact absurd (opensString_mark isMark) bare.1
    | @symbol t left => exact absurd ⟨t, List.prefix_append ..⟩ bare.2
    | @keyword j left =>
      have before : k.literal <+: j.literal ++ left := ⟨rest, same⟩
      obtain rfl := keyword_unique before (List.prefix_append ..)
      rw [List.append_cancel_left same]
    | blanks _ unnamed => exact absurd names unnamed
    | word _ unnamed => exact absurd names unnamed
  | @blanks c run rest bare unnamed inside ends =>
    generalize same : c :: run ++ rest = text at second bare unnamed
    cases second with
    | quoted isMark => exact absurd (opensString_mark isMark) bare.1
    | @symbol t left => exact absurd ⟨t, List.prefix_append ..⟩ bare.2
    | @keyword k left _ ends' => exact absurd ⟨k, left, rfl, ends'⟩ unnamed
    | blanks _ _ inside' ends' =>
      obtain ⟨runs, rests⟩ := run_unique inside ends inside' ends' same
      rw [runs, rests]
    | @word d run' left _ _ whole =>
      obtain ⟨rfl, -⟩ := List.cons.inj same
      have blank := inside c (by simp)
      simp [isInlineBlank, whole.head_not_blank] at blank
  | @word c run rest bare unnamed whole =>
    generalize same : c :: run ++ rest = text at second bare unnamed
    cases second with
    | quoted isMark => exact absurd (opensString_mark isMark) bare.1
    | @symbol t left => exact absurd ⟨t, List.prefix_append ..⟩ bare.2
    | @keyword k left _ ends' => exact absurd ⟨k, left, rfl, ends'⟩ unnamed
    | @blanks d run' left _ _ inside =>
      obtain ⟨rfl, -⟩ := List.cons.inj same
      have blank := inside c (by simp)
      simp [isInlineBlank, whole.head_not_blank] at blank
    | word _ _ whole' =>
      obtain ⟨runs, rests⟩ := whole.unique whole' same
      rw [runs, rests]

namespace Grammar

theorem standard_stops {text : Text} :
    standard.stops text = true ↔ StartsSymbol text := by
  have delimiters : standard.delimiters =
      Symbol.all.map fun s => ⟨s.literal, s.literal_ne_nil⟩ := rfl
  simp [stops, delimiters, StartsSymbol, Symbol.mem_all]

theorem standard_ended {text : Text} :
    Matcher.ended standard.stops text = true ↔ EndsWord text := by
  cases text <;> simp [Matcher.ended, EndsWord, standard_stops]

theorem standard_splitWord (text : Text) :
    WordRun (Matcher.splitWord standard.stops text).1
      (Matcher.splitWord standard.stops text).2 := by
  induction text with
  | nil => trivial
  | cons c rest ih =>
    rw [Matcher.splitWord]
    split
    next ended => exact standard_ended.mp ended
    next going =>
      refine ⟨fun ends => going (standard_ended.mpr ?_), ih⟩
      rwa [List.cons_append, Matcher.splitWord_append] at ends

theorem scan_quoted {stops : Text → Bool} {mark : Char} {text : Text} {found : Match}
    (scanned : (Matcher.quoted mark).scan stops text = some found) :
    ∃ inner rest, text = mark :: inner ++ mark :: rest ∧ mark ∉ inner ∧
      found = ⟨.quoted, inner, mark :: inner ++ [mark], rest⟩ := by
  cases text with
  | nil => contradiction
  | cons c tail =>
    rw [Matcher.scan] at scanned
    split at scanned
    next starts =>
      subst starts
      split at scanned
      · contradiction
      next closing rest left =>
        cases scanned
        have stopped := List.head?_dropWhile_not (· ≠ c) tail
        have whole := List.takeWhile_append_dropWhile (p := (· ≠ c)) (l := tail)
        rw [left] at stopped whole
        obtain rfl : closing = c := by simpa using stopped
        refine ⟨_, rest, congrArg _ whole.symm, fun member => ?_, rfl⟩
        simpa using List.mem_takeWhile_imp member
    · contradiction

theorem scan_quoted_none {stops : Text → Bool} {mark : Char} {text : Text}
    (scanned : (Matcher.quoted mark).scan stops (mark :: text) = none) : mark ∉ text := by
  intro member
  rw [Matcher.scan, if_pos rfl] at scanned
  split at scanned
  next left =>
    have absent := List.dropWhile_eq_nil_iff.mp left mark member
    simp at absent
  · contradiction

theorem scan_symbol {stops : Text → Bool} {s : Symbol} {text : Text} {found : Match} :
    (symbolMatcher s).scan stops text = some found ↔
      ∃ rest, text = s.literal ++ rest ∧ ⟨.symbol s, s.literal, s.literal, rest⟩ = found := by
  simp [symbolMatcher, Matcher.scan, Literal.strip?_eq_some]

theorem scan_symbol_none {stops : Text → Bool} {s : Symbol} {text : Text} :
    (symbolMatcher s).scan stops text = none ↔ ¬ s.literal <+: text := by
  constructor
  · rintro scanned ⟨rest, rfl⟩
    rw [scan_symbol.mpr ⟨rest, rfl, rfl⟩] at scanned
    contradiction
  · intro apart
    apply Option.eq_none_iff_forall_ne_some.mpr
    intro found scanned
    apply apart
    obtain ⟨rest, rfl, -⟩ := scan_symbol.mp scanned
    exact List.prefix_append ..

theorem scan_keyword {k : Keyword} {text : Text} {found : Match} :
    (keywordMatcher k).scan standard.stops text = some found ↔
      ∃ rest, text = k.literal ++ rest ∧ EndsWord rest ∧
        ⟨.keyword k, k.literal, k.literal, rest⟩ = found := by
  rw [keywordMatcher, Matcher.scan]
  constructor
  · intro scanned
    split at scanned
    next rest split =>
      split at scanned
      next ended =>
        exact ⟨rest, Literal.strip?_eq_some.mp split, standard_ended.mp ended,
          Option.some.inj scanned⟩
      · contradiction
    · contradiction
  · rintro ⟨rest, rfl, ends, rfl⟩
    rw [Literal.strip?_eq_some.mpr rfl]
    simp [standard_ended.mpr ends]

/-- A longer symbol is tried before each of its own beginnings, so the first symbol that
starts a text is the longest. -/
theorem first_symbol_longest {text : Text} {s : Symbol} {before after : List Symbol}
    (order : Symbol.all = before ++ s :: after) (starts : s.literal <+: text)
    (passed : ∀ t ∈ before, ¬ t.literal <+: text) (other : Symbol)
    (found : other.literal <+: text) : other.literal.length ≤ s.literal.length := by
  have sorted : Symbol.all.Pairwise fun s t => ¬ s.literal <+: t.literal := by decide
  have member := Symbol.mem_all other
  rw [order, List.mem_append, List.mem_cons] at member
  rcases member with earlier | rfl | later
  · exact absurd found (passed other earlier)
  · exact Nat.le_refl _
  · rw [order, List.pairwise_append, List.pairwise_cons] at sorted
    refine Nat.le_of_lt (Nat.lt_of_not_le fun longer => ?_)
    exact sorted.2.1.1 other later (List.prefix_of_prefix_length_le starts found longer)

variable {text : Text} {found : Match}

theorem first_of_quoted
    (scanned : [Matcher.quoted '"', .quoted '\''].findSome? (·.scan standard.stops text) =
      some found) : FirstToken text found := by
  obtain ⟨m, member, taken⟩ := List.exists_of_findSome?_eq_some scanned
  simp only [List.mem_cons, List.not_mem_nil, or_false] at member
  rcases member with rfl | rfl
  · obtain ⟨inner, rest, rfl, nearest, rfl⟩ := scan_quoted taken
    exact .quoted (.inl rfl) nearest
  · obtain ⟨inner, rest, rfl, nearest, rfl⟩ := scan_quoted taken
    exact .quoted (.inr rfl) nearest

theorem unquoted_of_none
    (scanned : [Matcher.quoted '"', .quoted '\''].findSome? (·.scan standard.stops text) =
      none) : ¬ OpensString text := by
  rw [List.findSome?_eq_none_iff] at scanned
  rintro ⟨mark, rest, rfl, rfl | rfl, again⟩
  · exact scan_quoted_none (scanned (.quoted '"') (by simp)) again
  · exact scan_quoted_none (scanned (.quoted '\'') (by simp)) again

theorem first_of_symbol (unquoted : ¬ OpensString text)
    (scanned : Symbol.all.findSome? (fun s => (symbolMatcher s).scan standard.stops text) =
      some found) : FirstToken text found := by
  obtain ⟨before, s, after, order, taken, passed⟩ := List.findSome?_eq_some_iff.mp scanned
  obtain ⟨rest, rfl, rfl⟩ := scan_symbol.mp taken
  exact .symbol unquoted (first_symbol_longest order (List.prefix_append ..)
    fun t member => scan_symbol_none.mp (passed t member))

theorem bare_of_none
    (scanned : Symbol.all.findSome? (fun s => (symbolMatcher s).scan standard.stops text) = none) :
    ¬ StartsSymbol text := by
  rw [List.findSome?_eq_none_iff] at scanned
  rintro ⟨s, starts⟩
  exact scan_symbol_none.mp (scanned s (Symbol.mem_all s)) starts

theorem unnamed_of_none
    (scanned : Keyword.all.findSome? (fun k => (keywordMatcher k).scan standard.stops text) =
      none) : ¬ StartsKeyword text := by
  rw [List.findSome?_eq_none_iff] at scanned
  rintro ⟨k, rest, rfl, ends⟩
  have taken := (scan_keyword (k := k)).mpr ⟨rest, rfl, ends, rfl⟩
  rw [scanned k (Keyword.mem_all k)] at taken
  contradiction

theorem first_of_keyword (bare : Bare text)
    (scanned : Keyword.all.findSome? (fun k => (keywordMatcher k).scan standard.stops text) =
      some found) : FirstToken text found := by
  obtain ⟨k, _, taken⟩ := List.exists_of_findSome?_eq_some scanned
  obtain ⟨rest, rfl, ends, rfl⟩ := scan_keyword.mp taken
  exact .keyword bare ends

theorem first_of_blanks (bare : Bare text) (unnamed : ¬ StartsKeyword text)
    (scanned : Matcher.blanks.scan standard.stops text = some found) :
    FirstToken text found := by
  rw [Matcher.scan] at scanned
  split at scanned
  · contradiction
  next run nonempty =>
    cases scanned
    have whole := List.takeWhile_append_dropWhile (p := isInlineBlank) (l := text)
    have inside : ∀ x ∈ text.takeWhile isInlineBlank, isInlineBlank x = true :=
      fun x member => List.mem_takeWhile_imp member
    have ends : ∀ x ∈ (text.dropWhile isInlineBlank).head?, isInlineBlank x = false := by
      have stopped := List.head?_dropWhile_not isInlineBlank text
      intro x starts
      rw [Option.mem_def.mp starts] at stopped
      exact stopped
    generalize text.takeWhile isInlineBlank = run at *
    generalize text.dropWhile isInlineBlank = rest at *
    cases run with
    | nil => contradiction
    | cons c run => subst whole; exact .blanks bare unnamed inside ends

theorem first_of_word (bare : Bare text) (unnamed : ¬ StartsKeyword text)
    (scanned : Matcher.word.scan standard.stops text = some found) :
    FirstToken text found := by
  have run := standard_splitWord text
  have whole := Matcher.splitWord_append standard.stops text
  rw [Matcher.scan] at scanned
  split at scanned
  · contradiction
  next word rest nonempty split =>
    cases scanned
    rw [split] at run whole
    cases word with
    | nil => contradiction
    | cons c word => subst whole; exact .word bare unnamed run

/-- What the grammar takes is what the rule says. -/
theorem first_of_standard (taken : standard.next? text = some found) :
    FirstToken text found := by
  simp only [next?, standard, List.findSome?_append, List.findSome?_map,
    Option.or_eq_some_iff, Option.or_eq_none_iff] at taken
  rcases taken with ((quoted | ⟨noString, symbol⟩) | ⟨⟨noString, noSymbol⟩, keyword⟩) |
    ⟨⟨⟨noString, noSymbol⟩, noKeyword⟩, run⟩
  · exact first_of_quoted quoted
  · exact first_of_symbol (unquoted_of_none noString) symbol
  · exact first_of_keyword ⟨unquoted_of_none noString, bare_of_none noSymbol⟩ keyword
  · have bare : Bare text := ⟨unquoted_of_none noString, bare_of_none noSymbol⟩
    have unnamed := unnamed_of_none noKeyword
    obtain ⟨m, member, taken⟩ := List.exists_of_findSome?_eq_some run
    simp only [List.mem_cons, List.not_mem_nil, or_false] at member
    rcases member with rfl | rfl
    · exact first_of_blanks bare unnamed taken
    · exact first_of_word bare unnamed taken

/-- Some matcher takes every text that is not empty: where no word can start there is a
blank or a symbol. -/
theorem standard_total (c : Char) (rest : Text) :
    ∃ found, standard.next? (c :: rest) = some found := by
  have some_of {m : Matcher} (member : m ∈ standard.matchers)
      (takes : (m.scan standard.stops (c :: rest)).isSome) :
      ∃ found, standard.next? (c :: rest) = some found :=
    Option.isSome_iff_exists.mp (List.findSome?_isSome_iff.mpr ⟨m, member, takes⟩)
  have symbols (s : Symbol) (starts : s.literal <+: c :: rest) :
      ∃ found, standard.next? (c :: rest) = some found := by
    apply some_of (m := symbolMatcher s) (by simp [standard, Symbol.mem_all])
    obtain ⟨left, split⟩ := starts
    rw [scan_symbol.mpr ⟨left, split.symm, rfl⟩]
    rfl
  by_cases ends : EndsWord (c :: rest)
  · rcases ends with blank | ⟨s, starts⟩
    · by_cases feed : c = '\n'
      · subst feed
        exact symbols .newLine ⟨rest, rfl⟩
      · apply some_of (m := .blanks) (by simp [standard])
        have inline : isInlineBlank c = true := by simp [isInlineBlank, feed, blank]
        simp [Matcher.scan, inline]
    · exact symbols s starts
  · apply some_of (m := .word) (by simp [standard])
    have goes : ¬ Matcher.ended standard.stops (c :: rest) = true :=
      fun ended => ends (standard_ended.mp ended)
    simp [Matcher.scan, Matcher.splitWord, goes]

/-- The ordered list of matchers and the rule are one and the same. -/
theorem standard_next?_iff : standard.next? text = some found ↔ FirstToken text found := by
  refine ⟨first_of_standard, fun first => ?_⟩
  cases text with
  | nil =>
    have empty := (List.append_eq_nil_iff.mp first.append.symm).1
    exact absurd empty first.taken_ne_nil
  | cons c rest =>
    obtain ⟨other, taken⟩ := standard_total c rest
    rw [taken, first.unique (first_of_standard taken)]

end Grammar

end IndentMarkup
