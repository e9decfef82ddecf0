import IndentMarkup.Proofs.Line.Lexed

/-! A line feed behind the end of a text. It is a token of its own and ends the last line, unless the
text ends in a dot, which then becomes a block marker. -/
namespace IndentMarkup

variable {text rest : Text}

/-- A symbol that reaches to the line feed is a dot together with it. -/
theorem Symbol.prefix_feed {s : Symbol} (starts : s.literal <+: text ++ ['\n'])
    (nonempty : text ≠ []) : s.literal <+: text ∨ text = ['.'] := by
  obtain ⟨behind, spelled⟩ := starts
  rcases List.append_eq_append_iff.mp spelled with ⟨left, whole, -⟩ | ⟨past, whole, rest⟩
  · exact .inl ⟨left, whole.symm⟩
  · cases past with
    | nil => exact .inl (by simp [whole])
    | cons c past =>
      obtain ⟨rfl, -⟩ := List.cons.inj rest
      obtain rfl := s.feed_last whole
      have last : s.literal.getLast? = some '\n' := by simp [whole]
      have front : text = s.literal.dropLast := by simp [whole]
      cases s <;> simp [Symbol.literal] at last front
      · exact .inr front
      · exact absurd front nonempty

theorem startsSymbol_feed_iff (nonempty : text ≠ []) :
    StartsSymbol (text ++ ['\n']) ↔ StartsSymbol text := by
  constructor
  · rintro ⟨s, starts⟩
    rcases s.prefix_feed starts nonempty with inside | rfl
    · exact ⟨s, inside⟩
    · exact ⟨.dot, List.prefix_refl _⟩
  · exact fun ⟨s, starts⟩ => ⟨s, starts.trans (List.prefix_append ..)⟩

theorem opensString_feed_iff (nonempty : text ≠ []) :
    OpensString (text ++ ['\n']) ↔ OpensString text := by
  cases text with
  | nil => contradiction
  | cons c rest =>
    constructor
    · rintro ⟨mark, tail, spelled, isMark, again⟩
      obtain ⟨rfl, rfl⟩ := List.cons.inj spelled
      have apart : c ≠ '\n' := by rcases isMark with rfl | rfl <;> decide
      exact ⟨c, rest, rfl, isMark, by simpa [apart] using again⟩
    · rintro ⟨mark, tail, spelled, isMark, again⟩
      obtain ⟨rfl, rfl⟩ := List.cons.inj spelled
      exact ⟨c, rest ++ ['\n'], rfl, isMark, List.mem_append_left _ again⟩

theorem bare_feed_iff (nonempty : text ≠ []) : Bare (text ++ ['\n']) ↔ Bare text :=
  and_congr (not_congr (opensString_feed_iff nonempty)) (not_congr (startsSymbol_feed_iff nonempty))

theorem endsWord_feed_iff (text : Text) : EndsWord (text ++ ['\n']) ↔ EndsWord text := by
  cases text with
  | nil => exact iff_of_true (.inl (by decide)) trivial
  | cons c rest => exact or_congr_right (startsSymbol_feed_iff (List.cons_ne_nil c rest))

theorem startsKeyword_feed_iff (text : Text) :
    StartsKeyword (text ++ ['\n']) ↔ StartsKeyword text := by
  constructor
  · rintro ⟨k, rest, same, ends⟩
    rcases List.append_eq_append_iff.mp same.symm with ⟨left, rfl, rfl⟩ | ⟨beyond, spelled, feed⟩
    · exact ⟨k, left, rfl, (endsWord_feed_iff left).mp ends⟩
    · cases beyond with
      | nil => exact ⟨k, [], by simp [spelled], trivial⟩
      | cons c beyond =>
        obtain ⟨rfl, -⟩ := List.cons.inj feed
        exact absurd (spelled ▸ by simp) k.feed_not_mem
  · rintro ⟨k, rest, rfl, ends⟩
    exact ⟨k, rest ++ ['\n'], List.append_assoc .., (endsWord_feed_iff rest).mpr ends⟩

theorem wordRun_feed_iff {run : Text} : WordRun run (rest ++ ['\n']) ↔ WordRun run rest := by
  induction run with
  | nil => exact endsWord_feed_iff rest
  | cons c run ih =>
    refine and_congr (not_congr ?_) ih
    rw [← List.append_assoc]
    exact endsWord_feed_iff (c :: run ++ rest)

/-- In front of the line feed a token is what it is without it, but for a dot. -/
theorem FirstToken.feed {found : Match} (first : FirstToken text found) (apart : text ≠ ['.']) :
    FirstToken (text ++ ['\n']) { found with rest := found.rest ++ ['\n'] } := by
  have bare : Bare text → Bare (text ++ ['\n']) := (bare_feed_iff first.text_ne_nil).mpr
  have unnamed : ¬ StartsKeyword text → ¬ StartsKeyword (text ++ ['\n']) :=
    mt (startsKeyword_feed_iff text).mp
  cases first with
  | @quoted mark inner rest isMark nearest =>
    have again : (mark :: inner ++ mark :: rest) ++ ['\n'] =
        mark :: inner ++ mark :: (rest ++ ['\n']) := by simp
    rw [again]
    exact .quoted isMark nearest
  | @symbol s rest unquoted longest =>
    rw [List.append_assoc]
    refine .symbol (symbol_unquoted s _) fun other starts => ?_
    rw [← List.append_assoc] at starts
    refine longest other ((other.prefix_feed starts ?_).resolve_right apart)
    simp [s.literal_ne_nil]
  | @keyword k rest own ends =>
    have kept := bare own
    rw [List.append_assoc] at kept ⊢
    exact .keyword kept ((endsWord_feed_iff rest).mpr ends)
  | @blanks c run rest own notNamed inside ends =>
    have kept := bare own
    have kept' := unnamed notNamed
    rw [List.append_assoc] at kept kept' ⊢
    refine .blanks kept kept' inside ?_
    cases rest with
    | nil => exact fun x head => Option.some.inj head ▸ rfl
    | cons d rest => exact ends
  | @word c run rest own notNamed whole =>
    have kept := bare own
    have kept' := unnamed notNamed
    rw [List.append_assoc] at kept kept' ⊢
    exact .word kept kept' (wordRun_feed_iff.mpr whole)

theorem WordRun.dot_not_mem {run rest : Text} (whole : WordRun run rest) : '.' ∉ run := by
  induction run with
  | nil => exact List.not_mem_nil
  | cons c run ih =>
    intro member
    rcases List.mem_cons.mp member with rfl | later
    · exact whole.1 (.inr ⟨.dot, run ++ rest, rfl⟩)
    · exact ih whole.2 later

/-- No token but the dot ends in one. -/
theorem FirstToken.eq_dot {found : Match} (first : FirstToken text found)
    (last : found.taken.getLast? = some '.') : found.taken = ['.'] := by
  have member := List.mem_of_getLast? last
  cases first with
  | @quoted mark inner rest isMark =>
    have same : some mark = some '.' := List.getLast?_concat.symm.trans last
    rcases isMark with rfl | rfl <;> simp at same
  | @symbol s =>
    change s.literal.getLast? = _ at last
    change s.literal = _
    revert last
    cases s <;> decide
  | @keyword k =>
    change k.literal.getLast? = _ at last
    change k.literal = _
    revert last
    cases k <;> decide
  | @blanks c run rest _ _ inside => exact absurd (inside _ member) (by decide)
  | @word c run rest _ _ whole => exact absurd member whole.dot_not_mem

namespace Token

def dotAt (p : Position) : Token :=
  ⟨.symbol .dot, ['.'], p⟩

def blockAt (p : Position) : Token :=
  ⟨.symbol .block, ['.', '\n'], p⟩

def feedAt (p : Position) : Token :=
  ⟨.symbol .newLine, ['\n'], p⟩

@[simp] theorem kind_dotAt (p : Position) : (dotAt p).kind = .symbol .dot := rfl

@[simp] theorem kind_blockAt (p : Position) : (blockAt p).kind = .symbol .block := rfl

theorem listFrom_dot (p : Position) : listFrom p ['.'] = [dotAt p] := by
  have first : FirstToken ['.'] ⟨.symbol .dot, ['.'], ['.'], []⟩ :=
    FirstToken.of_dot (by simp)
  rw [listFrom_of_first p first, listFrom_nil]
  rfl

theorem listFrom_block (p : Position) : listFrom p ['.', '\n'] = [blockAt p] := by
  have first : FirstToken ['.', '\n'] ⟨.symbol .block, ['.', '\n'], ['.', '\n'], []⟩ :=
    FirstToken.of_lone_symbol (s := .block) [] rfl
  rw [listFrom_of_first p first, listFrom_nil]
  rfl

theorem listFrom_newLine (p : Position) : listFrom p ['\n'] = [feedAt p] := by
  have first : FirstToken ['\n'] ⟨.symbol .newLine, ['\n'], ['\n'], []⟩ :=
    FirstToken.of_lone_symbol (s := .newLine) [] rfl
  rw [listFrom_of_first p first, listFrom_nil]
  rfl

/-- The tokens of the text go on with a line feed, or the last of them is a dot that becomes a block
marker. -/
theorem listFrom_feed (p : Position) (text : Text) :
    (text.getLast? ≠ some '.' ∧
      listFrom p (text ++ ['\n']) = listFrom p text ++ [feedAt (p.advance text)]) ∨
    (text.getLast? = some '.' ∧ ∃ before q, listFrom p text = before ++ [dotAt q] ∧
      listFrom p (text ++ ['\n']) = before ++ [blockAt q]) := by
  by_cases nonempty : text = []
  · subst nonempty
    exact .inl ⟨nofun, by simpa using listFrom_newLine p⟩
  by_cases dot : text = ['.']
  · subst dot
    exact .inr ⟨rfl, [], p, listFrom_dot p, listFrom_block p⟩
  obtain ⟨found, first⟩ := exists_first nonempty
  have whole := first.append
  have shorter := first.length_rest_lt
  rw [listFrom_of_first p first, listFrom_of_first p (first.feed dot)]
  have later := listFrom_feed (p.advance found.taken) found.rest
  by_cases last : found.rest = []
  · have own : text = found.taken := by rw [whole, last, List.append_nil]
    left
    refine ⟨fun ends => dot (own.trans (first.eq_dot (own ▸ ends))), ?_⟩
    simp [last, own, listFrom_newLine]
  · have ends : text.getLast? = found.rest.getLast? := by
      rw [whole, List.getLast?_append_of_ne_nil _ last]
    rw [ends]
    refine later.imp (fun ⟨other, tokens⟩ => ⟨other, ?_⟩) fun ⟨dotted, before, q, tokens, feed⟩ =>
      ⟨dotted, ⟨found.kind, found.text, p⟩ :: before, q, ?_, ?_⟩
    · rw [tokens, ← Position.advance_append, ← whole]
      rfl
    · rw [tokens]
      rfl
    · rw [feed]
      rfl
termination_by text.length

end Token

namespace Line

/-- A line feed behind an ended line starts no other, and it makes an empty line behind the end of
one. -/
theorem split_feed {tokens : List Token} {feed : Token} (newLine : feed.kind = .symbol .newLine) :
    split (tokens ++ [feed]) = split tokens ∨ split (tokens ++ [feed]) = split tokens ++ [[]] := by
  fun_induction split tokens with
  | case1 => exact .inr (by simp [split, newLine])
  | case2 t rest ends ih => simpa [split, ends] using ih
  | case3 t rest inside block ih => simpa [split, inside, block] using ih
  | case4 t rest inside unmarked none ih =>
    cases rest with
    | nil => exact .inl (by simp [split, inside, unmarked, newLine])
    | cons u rest => simp [split_eq_cut_cons] at none
  | case5 t rest inside unmarked line lines more ih =>
    rw [more] at ih
    refine ih.imp (fun same => ?_) fun same => ?_
    · simp [split, inside, unmarked, same]
    · simp [split, inside, unmarked, same]

/-- The last token does not change how those in front of it are cut. -/
theorem exists_split_last (before : List Token) : ∃ lines front, ∀ t : Token,
    t.kind ≠ .symbol .newLine → split (before ++ [t]) = lines ++ [front ++ [t]] := by
  induction before with
  | nil =>
    refine ⟨[], [], fun t inside => ?_⟩
    simp [split, inside]
  | cons u before ih =>
    obtain ⟨lines, front, later⟩ := ih
    by_cases newLine : u.kind = .symbol .newLine
    · exact ⟨[] :: lines, front, fun t inside => by simp [split, newLine, later t inside]⟩
    · by_cases block : u.kind = .symbol .block
      · exact ⟨[u] :: lines, front, fun t inside => by simp [split, block, later t inside]⟩
      · cases lines with
        | nil =>
          exact ⟨[], u :: front, fun t inside => by simp [split, newLine, block, later t inside]⟩
        | cons line lines =>
          exact ⟨(u :: line) :: lines, front, fun t inside => by
            simp [split, newLine, block, later t inside]⟩

end Line

end IndentMarkup
