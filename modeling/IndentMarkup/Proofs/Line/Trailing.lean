import IndentMarkup.Proofs.Line.Splitting

/-! Blanks at the ends of lines. Without them the tokens of a text are the same but for the last ones of
a line: blanks are gone, an equals sign has lost the blank that belonged to it, and a dot that they
kept from the line feed is a block marker. -/
namespace IndentMarkup

namespace Text

/-- The text without the blanks at the ends of its lines. -/
def trimLines (text : Text) : Text :=
  ['\n'].intercalate ((text.splitOn '\n').map trimEnd)

/-- What stands up to the first line feed, and the rest. -/
theorem exists_line (text : Text) : ∃ line tail, text = line ++ tail ∧ '\n' ∉ line ∧ LineEnd tail := by
  induction text with
  | nil => exact ⟨[], [], rfl, List.not_mem_nil, trivial⟩
  | cons c rest ih =>
    by_cases feed : c = '\n'
    · exact ⟨[], c :: rest, rfl, List.not_mem_nil, feed⟩
    · obtain ⟨line, tail, rfl, within, ended⟩ := ih
      exact ⟨c :: line, tail, rfl, by simp [Ne.symm feed, within], ended⟩

theorem feed_not_mem_trimEnd {line : Text} (within : '\n' ∉ line) : '\n' ∉ line.trimEnd :=
  fun member => within (line.trimEnd_isPrefix.subset member)

theorem trimEnd_cons (c : Char) (rest : Text) :
    trimEnd (c :: rest) = if isBlank c = true ∧ trimEnd rest = [] then [] else c :: trimEnd rest := by
  have whole : trimEnd (c :: rest) = if trimEnd rest = [] then (if isBlank c then [] else [c])
      else c :: trimEnd rest := by
    simp only [trimEnd, List.reverse_cons, List.dropWhile_append, List.isEmpty_iff,
      List.reverse_eq_nil_iff]
    split
    · rw [List.dropWhile_cons]
      split <;> rfl
    · simp
  rw [whole]
  by_cases nothing : trimEnd rest = [] <;> by_cases blank : isBlank c = true <;> simp [nothing, blank]

/-- Blanks at the end do not matter where both ends are trimmed. -/
theorem trim_trimEnd (text : Text) : trim (trimEnd text) = trim text := by
  induction text with
  | nil => rfl
  | cons c rest ih =>
    rw [trim, trim] at ih ⊢
    have start (rest : Text) : trimStart (c :: rest) =
        if isBlank c then trimStart rest else c :: rest := List.dropWhile_cons
    by_cases blank : isBlank c = true
    · rw [start, if_pos blank, ← ih, trimEnd_cons]
      split
      next nothing => rw [nothing.2]
      next => rw [start, if_pos blank]
    · rw [start, if_neg blank, trimEnd_cons, if_neg fun both => blank both.1, start, if_neg blank,
        trimEnd_cons, trimEnd_trimEnd, if_neg fun both => blank both.1]

theorem trimLines_nil : trimLines [] = [] := by
  simp [trimLines, trimEnd]

theorem trimLines_feed (rest : Text) : trimLines ('\n' :: rest) = '\n' :: trimLines rest := by
  have front := splitOn_feed (List.not_mem_nil (a := '\n')) rest
  rw [List.nil_append] at front
  rw [trimLines, front, List.map_cons, List.intercalate_cons_of_ne_nil (by simp)]
  rfl

theorem trimLines_append {line tail : Text} (within : '\n' ∉ line) (ended : LineEnd tail) :
    trimLines (line ++ tail) = trimEnd line ++ trimLines tail := by
  cases tail with
  | nil =>
    have nothing : trimEnd [] = [] := rfl
    simp [trimLines, splitOn_last within, nothing]
  | cons c rest =>
    obtain rfl := ended
    rw [trimLines_feed, trimLines, splitOn_feed within, List.map_cons,
      List.intercalate_cons_of_ne_nil (by simp)]
    simp [trimLines]

end Text

theorem LineEnd.trimLines {tail : Text} (ended : LineEnd tail) : LineEnd tail.trimLines := by
  cases tail with
  | nil => exact Text.trimLines_nil ▸ ended
  | cons c rest =>
    obtain rfl := ended
    rw [Text.trimLines_feed]
    rfl

theorem LineEnd.head_ne {tail : Text} (ended : LineEnd tail) {c : Char} (inside : c ≠ '\n') :
    tail.head? ≠ some c := by
  cases tail with
  | nil => nofun
  | cons d rest =>
    obtain rfl := ended
    simpa using inside.symm

theorem lineEnd_append_iff {line tail : Text} (within : '\n' ∉ line) (ended : LineEnd tail) :
    LineEnd (line ++ tail) ↔ line = [] := by
  cases line with
  | nil => exact iff_of_true ended rfl
  | cons c line => exact iff_of_false (fun feed : c = '\n' => within (by simp [feed])) (by simp)

namespace Text

variable {c : Char} {run text rest : Text}

/-- A blank is gone if nothing is left behind it, and every other character stays. -/
theorem trimLines_cons (c : Char) (rest : Text) :
    (isInlineBlank c = true ∧ LineEnd rest.trimLines → trimLines (c :: rest) = trimLines rest) ∧
      (¬ (isInlineBlank c = true ∧ LineEnd rest.trimLines) →
        trimLines (c :: rest) = c :: trimLines rest) := by
  by_cases feed : c = '\n'
  · subst feed
    exact ⟨fun blank => absurd blank.1 (by decide), fun _ => trimLines_feed rest⟩
  · obtain ⟨line, tail, rfl, within, ended⟩ := exists_line rest
    have left := feed_not_mem_trimEnd within
    have blank_iff : isInlineBlank c = true ↔ isBlank c = true := by simp [isInlineBlank, feed]
    have whole : '\n' ∉ c :: line := by simp [Ne.symm feed, within]
    rw [← List.cons_append, trimLines_append within ended, trimLines_append whole ended, trimEnd_cons,
      lineEnd_append_iff left ended.trimLines, blank_iff]
    exact ⟨fun gone => by simp [gone], fun kept => by simp [kept]⟩

theorem trimLines_cons_of (kept : isInlineBlank c = true → ¬ LineEnd rest.trimLines) :
    trimLines (c :: rest) = c :: trimLines rest :=
  (trimLines_cons c rest).2 fun ⟨blank, ended⟩ => kept blank ended

/-- Blanks at the end of a line are gone. -/
theorem trimLines_blanks (blank : ∀ c ∈ run, isInlineBlank c = true)
    (ended : LineEnd rest.trimLines) : trimLines (run ++ rest) = trimLines rest := by
  induction run with
  | nil => rfl
  | cons c run ih =>
    have later := ih fun d member => blank d (.tail _ member)
    rw [← later] at ended
    rw [← later]
    exact (trimLines_cons c (run ++ rest)).1 ⟨blank c (.head _), ended⟩

/-- What does not stand at the end of a line stays, and so does what ends in no blank. -/
theorem trimLines_run (within : '\n' ∉ run)
    (kept : (∀ c ∈ run.getLast?, isInlineBlank c = true) → ¬ LineEnd rest.trimLines) :
    trimLines (run ++ rest) = run ++ trimLines rest := by
  induction run with
  | nil => rfl
  | cons c run ih =>
    have inside : '\n' ∉ run := fun member => within (.tail _ member)
    cases run with
    | nil => exact trimLines_cons_of fun blank => kept (by simpa using blank)
    | cons d run =>
      have later := ih inside (by simpa [List.getLast?_cons] using kept)
      rw [List.cons_append, trimLines_cons_of, later]
      · rfl
      · rw [later]
        rintro - rfl
        simp at inside

theorem trimLines_solid (solid : ∀ c ∈ run, isInlineBlank c = false) (rest : Text) :
    trimLines (run ++ rest) = run ++ trimLines rest := by
  induction run with
  | nil => rfl
  | cons c run ih =>
    have own := solid c (.head _)
    rw [List.cons_append, trimLines_cons_of (by simp [own]), ih fun d member => solid d (.tail _ member)]
    rfl

theorem trimLines_sublist (text : Text) : List.Sublist (trimLines text) text := by
  induction text with
  | nil => rw [trimLines_nil]
  | cons c rest ih =>
    by_cases gone : isInlineBlank c = true ∧ LineEnd (trimLines rest)
    · rw [(trimLines_cons c rest).1 gone]
      exact ih.cons c
    · rw [(trimLines_cons c rest).2 gone]
      exact ih.cons_cons c

/-- Nothing is gone in front of what is left of a line. -/
theorem exists_of_trimLines {left : Text} (within : '\n' ∉ run)
    (same : trimLines text = run ++ left) : ∃ rest, text = run ++ rest ∧ trimLines rest = left := by
  induction run generalizing text with
  | nil => exact ⟨text, rfl, same⟩
  | cons c run ih =>
    have apart : c ≠ '\n' := fun feed => within (by simp [feed])
    cases text with
    | nil => simp [trimLines_nil] at same
    | cons d rest =>
      by_cases gone : isInlineBlank d = true ∧ LineEnd (trimLines rest)
      · rw [(trimLines_cons d rest).1 gone] at same
        have ended := gone.2
        rw [same] at ended
        exact absurd ended apart
      · rw [(trimLines_cons d rest).2 gone] at same
        obtain ⟨rfl, tails⟩ := List.cons.inj same
        obtain ⟨more, rfl, left⟩ := ih (fun member => within (.tail _ member)) tails
        exact ⟨more, rfl, left⟩

theorem head_trimLines (head : rest.trimLines.head? = some c) (inside : c ≠ '\n') :
    rest.head? = some c := by
  obtain ⟨left, same⟩ := List.head?_eq_some_iff.mp head
  have within : '\n' ∉ [c] := by simpa using inside.symm
  obtain ⟨more, rfl, -⟩ := exists_of_trimLines within same
  rfl

end Text

section FirstToken

variable {c : Char} {text rest run : Text}

/-- A symbol is told by its first character, but for the two slashes. -/
theorem startsSymbol_cons_iff : StartsSymbol (c :: rest) ↔
    (∃ s : Symbol, s.literal = [c]) ∨ (c = '/' ∧ rest.head? = some '/') := by
  constructor
  · rintro ⟨s, tail, same⟩
    by_cases own : s.literal = [c]
    · exact .inl ⟨s, own⟩
    · cases s <;> obtain ⟨rfl, rfl⟩ := List.cons.inj same
      case inlineValue => exact .inl ⟨.equals, rfl⟩
      case block => exact .inl ⟨.dot, rfl⟩
      case silentComment => exact .inr ⟨rfl, rfl⟩
      case comment => exact .inr ⟨rfl, rfl⟩
      all_goals exact absurd rfl own
  · rintro (⟨s, same⟩ | ⟨rfl, second⟩)
    · exact ⟨s, rest, by rw [same]; rfl⟩
    · obtain ⟨tail, rfl⟩ := List.head?_eq_some_iff.mp second
      exact ⟨.comment, tail, rfl⟩

theorem startsSymbol_trimLines_iff : StartsSymbol (c :: rest.trimLines) ↔ StartsSymbol (c :: rest) := by
  rw [startsSymbol_cons_iff, startsSymbol_cons_iff]
  refine or_congr_right (and_congr_right fun _ => ⟨fun head => ?_, fun head => ?_⟩)
  · exact Text.head_trimLines head (by decide)
  · obtain ⟨tail, rfl⟩ := List.head?_eq_some_iff.mp head
    rw [Text.trimLines_cons_of fun blank => absurd blank (by decide)]
    rfl

theorem endsWord_trimLines_iff (text : Text) : EndsWord text.trimLines ↔ EndsWord text := by
  cases text with
  | nil => rw [Text.trimLines_nil]
  | cons c rest =>
    by_cases gone : isInlineBlank c = true ∧ LineEnd (Text.trimLines rest)
    · rw [(Text.trimLines_cons c rest).1 gone]
      have blank : isBlank c = true := (Bool.and_eq_true_iff.mp gone.1).2
      exact iff_of_true gone.2.endsWord (.inl blank)
    · rw [(Text.trimLines_cons c rest).2 gone]
      exact or_congr_right startsSymbol_trimLines_iff

theorem WordRun.solid (whole : WordRun run rest) : ∀ c ∈ run, isBlank c = false := by
  induction run with
  | nil => exact List.forall_mem_nil _
  | cons c run ih => exact List.forall_mem_cons.mpr ⟨whole.head_not_blank, ih whole.2⟩

/-- A word does not end in a blank. -/
theorem WordRun.trimLines_append (whole : WordRun run rest) (nonempty : run ≠ []) :
    Text.trimLines (run ++ rest) = run ++ rest.trimLines := by
  refine Text.trimLines_run whole.newline_not_mem fun blank => ?_
  have last := List.getLast?_eq_some_getLast nonempty
  have ends := blank _ last
  simp [isInlineBlank, whole.solid _ (List.mem_of_getLast? last)] at ends

theorem WordRun.trimLines (whole : WordRun run rest) : WordRun run rest.trimLines := by
  induction run with
  | nil => exact (endsWord_trimLines_iff rest).mpr whole
  | cons c run ih =>
    refine ⟨?_, ih whole.2⟩
    rw [← whole.trimLines_append (List.cons_ne_nil c run), endsWord_trimLines_iff]
    exact whole.1

theorem Bare.trimLines (bare : Bare text) (solid : ∀ c ∈ text.head?, isInlineBlank c = false) :
    Bare text.trimLines := by
  cases text with
  | nil => rwa [Text.trimLines_nil]
  | cons c rest =>
    have own := solid c rfl
    rw [Text.trimLines_cons_of (by simp [own])]
    refine ⟨?_, mt startsSymbol_trimLines_iff.mp bare.2⟩
    rintro ⟨mark, tail, same, isMark, again⟩
    obtain ⟨rfl, rfl⟩ := List.cons.inj same
    exact bare.1 ⟨c, rest, rfl, isMark, (Text.trimLines_sublist rest).subset again⟩

theorem startsKeyword_of_trimLines (names : StartsKeyword text.trimLines) : StartsKeyword text := by
  obtain ⟨k, left, same, ends⟩ := names
  obtain ⟨rest, rfl, rfl⟩ := Text.exists_of_trimLines k.feed_not_mem same
  exact ⟨k, rest, rfl, (endsWord_trimLines_iff rest).mp ends⟩

/-- What becomes of the first token of a text: it stays as it is, or it stands at the end of a line and
is gone, loses its blank, or meets the line feed. -/
inductive TrimmedFirst (text : Text) (found : Match) : Prop where
  | same (whole : text.trimLines = found.taken ++ found.rest.trimLines)
      (first : FirstToken (found.taken ++ found.rest.trimLines)
        { found with rest := found.rest.trimLines })
  | gone (space : found.kind = .space) (ended : LineEnd found.rest)
      (whole : text.trimLines = found.rest.trimLines)
  | value (value : found.kind = .symbol .inlineValue) (ended : LineEnd found.rest.trimLines)
      (whole : text.trimLines = '=' :: found.rest.trimLines)
  | block (dot : found.kind = .symbol .dot) (apart : ¬ LineEnd found.rest)
      (whole : text.trimLines = '.' :: found.rest.trimLines) {left : Text}
      (feed : found.rest.trimLines = '\n' :: left)

namespace FirstToken

theorem trimLines_symbol {s : Symbol} (unquoted : ¬ OpensString (s.literal ++ rest))
    (longest : ∀ other : Symbol, other.literal <+: s.literal ++ rest →
      other.literal.length ≤ s.literal.length) :
    TrimmedFirst (s.literal ++ rest) ⟨.symbol s, s.literal, s.literal, rest⟩ := by
  have apart (longer : Symbol) (c : Char) (spelled : longer.literal = s.literal ++ [c])
      (inside : c ≠ '\n') : rest.trimLines.head? ≠ some c := by
    intro head
    obtain ⟨tail, rfl⟩ := List.head?_eq_some_iff.mp (Text.head_trimLines head inside)
    have more := longest longer ⟨tail, by simp [spelled]⟩
    have length := congrArg List.length spelled
    rw [List.length_append] at length
    exact absurd more (by simp [length])
  by_cases value : s = .inlineValue
  · subst value
    by_cases ended : LineEnd rest.trimLines
    · refine .value rfl ended ?_
      change Text.trimLines ('=' :: ' ' :: rest) = _
      rw [Text.trimLines_cons_of fun blank => absurd blank (by decide),
        (Text.trimLines_cons ' ' rest).1 ⟨by decide, ended⟩]
    · exact .same (Text.trimLines_run (by decide) fun _ => ended) (of_lone_symbol (s := .inlineValue) _ rfl)
  have solid : ∀ c ∈ s.literal, isInlineBlank c = false := by
    have all : s.literal.all (!isInlineBlank ·) = true := by
      revert value
      cases s <;> decide
    simpa using all
  have whole := Text.trimLines_solid solid rest
  by_cases lone : s.isLone = true
  · exact .same whole (of_lone_symbol _ lone)
  · cases s <;> first | exact absurd rfl lone | skip
    case equals => exact .same whole (of_equals (apart .inlineValue ' ' rfl (by decide)))
    case comment => exact .same whole (of_comment (apart .silentComment '-' rfl (by decide)))
    case dot =>
      by_cases feed : rest.trimLines.head? = some '\n'
      · obtain ⟨left, same⟩ := List.head?_eq_some_iff.mp feed
        refine .block rfl (fun ended => ?_) whole same
        cases rest with
        | nil => simp [Text.trimLines_nil] at same
        | cons c rest =>
          obtain rfl := ended
          have more := longest .block ⟨rest, rfl⟩
          simp [Symbol.literal] at more
      · exact .same whole (of_dot feed)

/-- A string that is closed on its line is no other if blanks at the end of the line are gone. -/
theorem trimLines {found : Match} (first : FirstToken text found)
    (closed : found.kind = .quoted → '\n' ∉ found.text) : TrimmedFirst text found := by
  cases first with
  | @quoted mark inner rest isMark nearest =>
    have within : '\n' ∉ mark :: inner ++ [mark] := by
      have apart : '\n' ≠ mark := by rcases isMark with rfl | rfl <;> decide
      simpa [apart] using closed rfl
    have spelled (rest : Text) : mark :: inner ++ mark :: rest = (mark :: inner ++ [mark]) ++ rest := by
      simp
    have last : isInlineBlank mark = false := by rcases isMark with rfl | rfl <;> decide
    rw [spelled rest]
    refine .same (Text.trimLines_run within fun blank => ?_) ?_
    · rw [blank mark List.getLast?_concat] at last
      contradiction
    · have own : FirstToken (mark :: inner ++ mark :: rest.trimLines) _ := .quoted isMark nearest
      rwa [spelled] at own
  | symbol unquoted longest => exact trimLines_symbol unquoted longest
  | @keyword k rest bare ends =>
    have solid : ∀ d ∈ k.literal.head?, isInlineBlank d = false := by
      have first : k.literal.head?.all (!isInlineBlank ·) = true := by cases k <;> decide
      simpa [Option.all_eq_true] using first
    have last : ∀ d ∈ k.literal.getLast?, isInlineBlank d = false := by
      have final : k.literal.getLast?.all (!isInlineBlank ·) = true := by cases k <;> decide
      simpa [Option.all_eq_true] using final
    have whole : Text.trimLines (k.literal ++ rest) = k.literal ++ rest.trimLines := by
      refine Text.trimLines_run k.feed_not_mem fun blank => ?_
      have own := List.getLast?_eq_some_getLast k.literal_ne_nil
      simpa [blank _ own] using last _ own
    have kept := bare.trimLines (by rwa [List.head?_append_of_ne_nil _ k.literal_ne_nil])
    rw [whole] at kept
    exact .same whole (.keyword kept ((endsWord_trimLines_iff rest).mpr ends))
  | @blanks c run rest bare unnamed inside ends =>
    by_cases ended : LineEnd rest
    · exact .gone rfl ended (Text.trimLines_blanks inside ended.trimLines)
    · obtain ⟨d, tail, rfl⟩ := List.exists_cons_of_ne_nil fun none : rest = [] => ended (none ▸ trivial)
      have solid := ends d rfl
      have stays : Text.trimLines (d :: tail) = d :: Text.trimLines tail :=
        Text.trimLines_cons_of (by simp [solid])
      have within : '\n' ∉ c :: run := fun member => absurd (inside _ member) (by decide)
      have whole : Text.trimLines (c :: run ++ d :: tail) = c :: run ++ Text.trimLines (d :: tail) :=
        Text.trimLines_run within fun _ => stays ▸ ended
      exact .same whole (of_blanks (List.cons_ne_nil c run) inside (by simp [stays, solid]))
  | @word c run rest bare unnamed whole =>
    have trimmed := whole.trimLines_append (List.cons_ne_nil c run)
    have kept := bare.trimLines (by simp [isInlineBlank, whole.head_not_blank])
    have kept' := mt startsKeyword_of_trimLines unnamed
    rw [trimmed] at kept kept'
    exact .same trimmed (.word kept kept' whole.trimLines)

end FirstToken

end FirstToken

end IndentMarkup
