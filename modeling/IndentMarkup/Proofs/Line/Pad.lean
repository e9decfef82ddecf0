import IndentMarkup.Proofs.Line.Splitting

/-! Blanks put in front of the lines of a text. No token but a string holds a line feed that it goes
on behind, and a string holds blanks as it holds anything else, so the text is cut into the same
tokens and lines. Only the blanks that stand in front of a line grow. -/
namespace IndentMarkup

/-- The text with the margins put behind its line feeds, each in front of the line that begins at
its offset. The text itself begins at the offset given. -/
def Text.pad (margin : Nat → Text) : Nat → Text → Text
  | _, [] => []
  | o, c :: rest => c :: ((if c = '\n' then margin (o + 1) else []) ++ pad margin (o + 1) rest)

/-- The margins are blank, and none of them ends a line. -/
def Text.BlankMargins (margin : Nat → Text) : Prop :=
  ∀ o, ∀ c ∈ margin o, isInlineBlank c = true

variable {margin : Nat → Text} {o : Nat} {text rest : Text}

namespace Text

theorem pad_feed (rest : Text) :
    pad margin o ('\n' :: rest) = '\n' :: (margin (o + 1) ++ pad margin (o + 1) rest) := by
  rw [pad, if_pos rfl]

theorem pad_cons {c : Char} (inside : c ≠ '\n') (rest : Text) :
    pad margin o (c :: rest) = c :: pad margin (o + 1) rest := by
  rw [pad, if_neg inside, List.nil_append]

theorem pad_append (first second : Text) :
    pad margin o (first ++ second) =
      pad margin o first ++ pad margin (o + first.length) second := by
  induction first generalizing o with
  | nil => rfl
  | cons c first ih =>
    rw [List.cons_append, pad, pad, ih, List.length_cons, Nat.add_assoc o 1, Nat.add_comm 1,
      List.cons_append, List.append_assoc]

theorem pad_of_feedless (within : '\n' ∉ text) : pad margin o text = text := by
  induction text generalizing o with
  | nil => rfl
  | cons c text ih =>
    rw [List.mem_cons, not_or] at within
    rw [pad_cons (Ne.symm within.1), ih within.2]

theorem pad_append_of_feedless (within : '\n' ∉ text) (rest : Text) :
    pad margin o (text ++ rest) = text ++ pad margin (o + text.length) rest := by
  rw [pad_append, pad_of_feedless within]

@[simp] theorem head?_pad (margin : Nat → Text) (o : Nat) (text : Text) :
    (pad margin o text).head? = text.head? := by
  cases text <;> rfl

@[simp] theorem pad_eq_nil_iff : pad margin o text = [] ↔ text = [] := by
  cases text <;> simp [pad]

theorem takeWhile_pad :
    (pad margin o text).takeWhile isInlineBlank = text.takeWhile isInlineBlank := by
  induction text generalizing o with
  | nil => rfl
  | cons c text ih =>
    by_cases blank : isInlineBlank c = true
    · have inside : c ≠ '\n' := by
        rintro rfl
        contradiction
      rw [pad_cons inside, List.takeWhile_cons_of_pos blank, List.takeWhile_cons_of_pos blank, ih]
    · rw [pad, List.takeWhile_cons_of_neg blank, List.takeWhile_cons_of_neg blank]

theorem head?_dropWhile_pad :
    ((pad margin o text).dropWhile isInlineBlank).head? = (text.dropWhile isInlineBlank).head? := by
  induction text generalizing o with
  | nil => rfl
  | cons c text ih =>
    by_cases blank : isInlineBlank c = true
    · have inside : c ≠ '\n' := by
        rintro rfl
        contradiction
      rw [pad_cons inside, List.dropWhile_cons_of_pos blank, List.dropWhile_cons_of_pos blank, ih]
    · rw [pad, List.dropWhile_cons_of_neg blank, List.dropWhile_cons_of_neg blank]
      rfl

/-- Margins are made of blanks only. -/
theorem mem_pad_iff (blank : BlankMargins margin) {c : Char} (solid : isInlineBlank c = false) :
    c ∈ pad margin o text ↔ c ∈ text := by
  induction text generalizing o with
  | nil => rfl
  | cons d text ih =>
    have apart : c ∉ if d = '\n' then margin (o + 1) else [] := by
      split
      next => exact fun member => by simp [blank _ c member] at solid
      next => exact List.not_mem_nil
    rw [pad, List.mem_cons, List.mem_append, ih, List.mem_cons]
    simp [apart]

/-- What ends at a line feed at the latest stands in front of the text with the margins if it stood
in front of it without them. -/
theorem prefix_pad_iff {piece : Text} (within : '\n' ∉ piece.dropLast) :
    piece <+: pad margin o text ↔ piece <+: text := by
  induction piece generalizing o text with
  | nil => simp
  | cons c piece ih =>
    cases text with
    | nil => rfl
    | cons d text =>
      rw [pad, List.cons_prefix_cons, List.cons_prefix_cons]
      refine and_congr_right fun same => ?_
      cases piece with
      | nil => simp
      | cons e piece =>
        rw [List.dropLast_cons_cons, List.mem_cons, not_or] at within
        rw [if_neg (same ▸ Ne.symm within.1), List.nil_append]
        exact ih within.2

end Text

theorem Symbol.feed_not_mem_dropLast (s : Symbol) : '\n' ∉ s.literal.dropLast := by
  cases s <;> decide

theorem startsSymbol_pad_iff : StartsSymbol (text.pad margin o) ↔ StartsSymbol text :=
  exists_congr fun s => Text.prefix_pad_iff s.feed_not_mem_dropLast

theorem endsWord_pad_iff : EndsWord (text.pad margin o) ↔ EndsWord text := by
  have symbols : StartsSymbol (text.pad margin o) ↔ StartsSymbol text := startsSymbol_pad_iff
  cases text with
  | nil => rfl
  | cons c rest => exact or_congr_right symbols

theorem wordRun_pad_iff {run : Text} (within : '\n' ∉ run) :
    WordRun run (rest.pad margin (o + run.length)) ↔ WordRun run rest := by
  induction run generalizing o with
  | nil => exact endsWord_pad_iff
  | cons c run ih =>
    have whole : Text.pad margin o (c :: run ++ rest) =
        c :: run ++ rest.pad margin (o + (c :: run).length) :=
      Text.pad_append_of_feedless within rest
    rw [List.mem_cons, not_or] at within
    rw [List.length_cons, Nat.add_comm run.length, ← Nat.add_assoc] at whole ⊢
    refine and_congr (not_congr ?_) (ih within.2)
    rw [← whole]
    exact endsWord_pad_iff

theorem startsKeyword_pad_iff : StartsKeyword (text.pad margin o) ↔ StartsKeyword text := by
  constructor
  · rintro ⟨k, left, same, ends⟩
    have within : '\n' ∉ k.literal.dropLast := fun member =>
      k.feed_not_mem (List.dropLast_subset _ member)
    obtain ⟨rest, rfl⟩ := (Text.prefix_pad_iff within).mp ⟨left, same.symm⟩
    rw [Text.pad_append_of_feedless k.feed_not_mem] at same
    obtain rfl := List.append_cancel_left same
    exact ⟨k, rest, rfl, endsWord_pad_iff.mp ends⟩
  · rintro ⟨k, rest, rfl, ends⟩
    exact ⟨k, _, Text.pad_append_of_feedless k.feed_not_mem rest, endsWord_pad_iff.mpr ends⟩

theorem opensString_pad_iff (blank : Text.BlankMargins margin) :
    OpensString (text.pad margin o) ↔ OpensString text := by
  cases text with
  | nil => rfl
  | cons c rest =>
    have inside (isMark : c = '"' ∨ c = '\'') : c ≠ '\n' := by
      rcases isMark with rfl | rfl <;> decide
    have again (isMark : c = '"' ∨ c = '\'') : c ∈ Text.pad margin (o + 1) rest ↔ c ∈ rest := by
      have solid : isInlineBlank c = false := by rcases isMark with rfl | rfl <;> decide
      exact Text.mem_pad_iff blank solid
    constructor
    · rintro ⟨mark, left, same, isMark, member⟩
      obtain rfl : c = mark := (List.cons.inj same).1
      rw [Text.pad_cons (inside isMark)] at same
      obtain rfl := (List.cons.inj same).2
      exact ⟨c, rest, rfl, isMark, (again isMark).mp member⟩
    · rintro ⟨mark, left, same, isMark, member⟩
      obtain ⟨rfl, rfl⟩ := List.cons.inj same
      exact ⟨c, _, Text.pad_cons (inside isMark) rest, isMark, (again isMark).mpr member⟩

theorem bare_pad_iff (blank : Text.BlankMargins margin) : Bare (text.pad margin o) ↔ Bare text :=
  and_congr (not_congr (opensString_pad_iff blank)) (not_congr startsSymbol_pad_iff)

/-- A token that ends no line is one with the margins too. Only the text of a string holds some of
them. -/
theorem FirstToken.pad (blank : Text.BlankMargins margin) {found : Match}
    (first : FirstToken text found) (inside : found.kind.endsLine = false) (o : Nat) :
    ∃ value, FirstToken (text.pad margin o) ⟨found.kind, value, found.taken.pad margin o,
      found.rest.pad margin (o + found.taken.length)⟩ := by
  have whole := first.append
  have bare : Bare text → Bare (text.pad margin o) := (bare_pad_iff blank).mpr
  have unnamed : ¬ StartsKeyword text → ¬ StartsKeyword (text.pad margin o) :=
    mt startsKeyword_pad_iff.mp
  have kept (unquoted : found.kind ≠ .quoted) : '\n' ∉ found.taken := fun member => by
    obtain ⟨k, feed⟩ := List.mem_iff_getElem?.mp member
    exact unquoted (first.feed_inside inside feed).1
  cases first with
  | @quoted mark inner rest isMark nearest =>
    have apart : mark ≠ '\n' := by rcases isMark with rfl | rfl <;> decide
    have solid : isInlineBlank mark = false := by rcases isMark with rfl | rfl <;> decide
    have again : mark ∉ inner.pad margin (o + 1) := (Text.mem_pad_iff blank solid).not.mpr nearest
    have spelled (left : Text) : Text.pad margin o (mark :: inner ++ mark :: left) =
        mark :: inner.pad margin (o + 1) ++
          mark :: left.pad margin (o + (mark :: inner ++ [mark]).length) := by
      rw [List.cons_append, Text.pad_cons apart, Text.pad_append, Text.pad_cons apart,
        List.length_append, List.length_cons, List.length_singleton, List.cons_append,
        Nat.add_assoc o, Nat.add_comm 1, Nat.add_assoc o]
    refine ⟨inner.pad margin (o + 1), ?_⟩
    dsimp only
    rw [spelled, spelled]
    exact .quoted isMark again
  | @symbol s rest unquoted longest =>
    have within := kept (by simp)
    refine ⟨s.literal, ?_⟩
    dsimp only at within ⊢
    rw [Text.pad_append_of_feedless within, Text.pad_of_feedless within]
    refine .symbol (symbol_unquoted s _) fun other starts => longest other ?_
    rw [← Text.pad_append_of_feedless within] at starts
    exact (Text.prefix_pad_iff other.feed_not_mem_dropLast).mp starts
  | @keyword k rest own ends =>
    have own := bare own
    refine ⟨k.literal, ?_⟩
    rw [Text.pad_append_of_feedless k.feed_not_mem] at own ⊢
    rw [Text.pad_of_feedless k.feed_not_mem]
    exact .keyword own (endsWord_pad_iff.mpr ends)
  | @blanks c run rest own notNamed blanks ends =>
    have within : '\n' ∉ c :: run := kept (by simp)
    have own := bare own
    have notNamed := unnamed notNamed
    refine ⟨c :: run, ?_⟩
    rw [Text.pad_append_of_feedless within] at own notNamed ⊢
    rw [Text.pad_of_feedless within]
    exact .blanks own notNamed blanks (by simpa using ends)
  | @word c run rest own notNamed run_whole =>
    have within : '\n' ∉ c :: run := kept (by simp)
    have own := bare own
    have notNamed := unnamed notNamed
    refine ⟨c :: run, ?_⟩
    rw [Text.pad_append_of_feedless within] at own notNamed ⊢
    rw [Text.pad_of_feedless within]
    exact .word own notNamed ((wordRun_pad_iff within).mpr run_whole)

namespace BeginsLine

variable {run piece tail : Text} {line : Line} {p : Position}

/-- The blanks in front of a line belong to it. -/
theorem behind_blanks (blank : ∀ c ∈ run, isInlineBlank c = true)
    (solid : ∀ c ∈ (piece ++ tail).head?, isInlineBlank c = false)
    (begins : BeginsLine (p.advance run) piece tail line) :
    ∃ line', BeginsLine p (run ++ piece) tail line' := by
  by_cases nothing : run = []
  · subst nothing
    exact ⟨line, begins⟩
  · have first : FirstToken (run ++ (piece ++ tail)) ⟨.space, run, run, piece ++ tail⟩ :=
      .of_blanks nothing blank solid
    exact ⟨_, first.beginsLine rfl rfl begins⟩

end BeginsLine

/-- The first line of a text ends at the same place if margins are put behind the line feeds, and
whatever blanks are in front. -/
theorem exists_padded_line (blank : Text.BlankMargins margin) (o : Nat) (p : Position)
    (text : Text) : ∃ piece tail line, text = piece ++ tail ∧ BeginsLine p piece tail line ∧
      ∀ (front : Text) (q : Position), (∀ c ∈ front, isInlineBlank c = true) →
        ∃ line', BeginsLine q (front ++ piece.pad margin o) (tail.pad margin (o + piece.length))
          line' := by
  by_cases nonempty : text = []
  · refine ⟨[], [], [], nonempty, .nil (show LineEnd [] from trivial) p, fun front q inside => ?_⟩
    exact BeginsLine.behind_blanks inside nofun (.nil (show LineEnd [] from trivial) _)
  obtain ⟨found, first⟩ := Token.exists_first nonempty
  have whole := first.append
  have shorter := first.length_rest_lt
  cases inside : found.kind.endsLine with
  | false =>
    obtain ⟨piece, tail, line, split, later, padded⟩ :=
      exists_padded_line blank (o + found.taken.length) (p.advance found.taken) found.rest
    refine ⟨found.taken ++ piece, tail, _, ?_, first.beginsLine inside split later,
      fun front q blanks => ?_⟩
    · rw [List.append_assoc, ← split, ← whole]
    have rest : found.rest.pad margin (o + found.taken.length) =
        piece.pad margin (o + found.taken.length) ++
          tail.pad margin (o + found.taken.length + piece.length) := by
      rw [split, Text.pad_append]
    rw [Text.pad_append, List.length_append, ← Nat.add_assoc]
    by_cases space : found.kind = .space
    · obtain ⟨line', begins⟩ :=
        padded [] (q.advance (front ++ found.taken)) (List.forall_mem_nil _)
      have own : ∀ c ∈ found.taken, isInlineBlank c = true :=
        first.takeWhile_of_space space ▸ fun c member => List.mem_takeWhile_imp member
      have within : '\n' ∉ found.taken := fun member => absurd (own _ member) (by decide)
      rw [Text.pad_of_feedless within, ← List.append_assoc]
      refine BeginsLine.behind_blanks (List.forall_mem_append.mpr ⟨blanks, own⟩) ?_ begins
      rw [← rest, Text.head?_pad]
      exact first.rest_of_space space
    · obtain ⟨value, kept⟩ := first.pad blank inside o
      obtain ⟨line', begins⟩ :=
        padded [] ((q.advance front).advance (found.taken.pad margin o)) (List.forall_mem_nil _)
      have own := kept.beginsLine inside rest begins
      refine BeginsLine.behind_blanks blanks ?_ own
      rw [List.append_assoc, ← rest, ← Text.pad_append, ← whole, Text.head?_pad]
      exact first.head_of_solid space
  | true =>
    cases first with
    | @symbol s rest =>
      have ends : s = .newLine ∨ s = .block := by simpa [Token.Kind.endsLine] using inside
      rcases ends with rfl | rfl
      · have ended : LineEnd ('\n' :: rest) := rfl
        have ended' : LineEnd (Text.pad margin o ('\n' :: rest)) := rfl
        refine ⟨[], '\n' :: rest, [], rfl, .nil ended p, fun front q blanks => ?_⟩
        refine BeginsLine.behind_blanks blanks ?_ (.nil ended' _)
        rintro c ⟨rfl⟩
        decide
      · refine ⟨['.'], '\n' :: rest, _, rfl, .block p rest, fun front q blanks => ?_⟩
        rw [Text.pad_feed]
        refine BeginsLine.behind_blanks blanks ?_ (.block _ _)
        rintro c ⟨rfl⟩
        decide
    | _ => contradiction
termination_by text.length

end IndentMarkup
