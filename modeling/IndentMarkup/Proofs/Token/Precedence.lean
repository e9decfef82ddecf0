import IndentMarkup.Proofs.Token.Partition

/-! Which token stands where. The tokens of a source are the choices of the rule, and a
keyword that looks like a word is read exactly where it is the whole word. -/
namespace IndentMarkup

/-- A character that belongs to words wherever it stands. -/
def isWordChar (c : Char) : Bool :=
  !isBlank c && Symbol.all.all fun s => s.literal.head? ≠ some c

theorem not_startsSymbol {c : Char} {rest : Text} (inWord : isWordChar c = true) :
    ¬ StartsSymbol (c :: rest) := by
  rintro ⟨s, starts⟩
  rw [isWordChar, Bool.and_eq_true, List.all_eq_true] at inWord
  have apart := inWord.2 s (Symbol.mem_all s)
  cases literal : s.literal with
  | nil => exact s.literal_ne_nil literal
  | cons d tail =>
    rw [literal] at starts apart
    simp [(List.cons_prefix_cons.mp starts).1] at apart

theorem wordRun_of_chars {run rest : Text} (inWord : ∀ c ∈ run, isWordChar c = true)
    (ends : EndsWord rest) : WordRun run rest := by
  induction run with
  | nil => exact ends
  | cons c run ih =>
    have here := inWord c (by simp)
    refine ⟨?_, ih fun d member => inWord d (.tail _ member)⟩
    rintro (blank | starts)
    · simp [isWordChar, blank] at here
    · exact not_startsSymbol here starts

/-- All keywords but the one that holds a blank are words to the eye. -/
theorem Keyword.isWordChar_of_mem {k : Keyword} (look : k ≠ .var) :
    ∀ c ∈ k.literal, isWordChar c = true := by
  apply List.all_eq_true.mp
  cases k <;> first | rfl | contradiction

/-- Where no string and no symbol starts, a keyword that looks like a word is read exactly
if the whole word there is its literal. -/
theorem FirstToken.keyword_iff {text : Text} {found : Match} (first : FirstToken text found)
    (bare : Bare text) {k : Keyword} (look : k ≠ .var) :
    found.kind = .keyword k ↔ ∃ rest, text = k.literal ++ rest ∧ WordRun k.literal rest := by
  constructor
  · intro kind
    cases first <;> first | contradiction | skip
    next ends =>
      obtain rfl := Token.Kind.keyword.inj kind
      exact ⟨_, rfl, wordRun_of_chars (Keyword.isWordChar_of_mem look) ends⟩
  · rintro ⟨rest, rfl, whole⟩
    rw [first.unique (.keyword bare whole.ends)]

theorem FirstToken.word_ne_keyword {text : Text} {found : Match} (first : FirstToken text found)
    (kind : found.kind = .word) (k : Keyword) : found.text ≠ k.literal := by
  cases first <;> first | contradiction | skip
  next run rest bare unnamed whole =>
    intro same
    exact unnamed ⟨k, rest, congrArg (· ++ rest) same, whole.ends⟩

/-- The source from the token on. -/
def Token.onward (source : Text) (t : Token) : Text :=
  source.drop t.position.index

/-- Every token that is read from a source is the one choice that the rule has at its
place. So a keyword that looks like a word is read exactly where it is the whole word, and
no word is spelled like a keyword. -/
theorem tokens_follow_rule (source : Text) :
    ∃ tokens, Token.ofText source.normalize = .ok tokens ∧
      ∀ t ∈ tokens,
        (∃ found, (∀ other, FirstToken (t.onward source.normalize) other ↔ other = found) ∧
          t.kind = found.kind ∧ t.text = found.text) ∧
        (Bare (t.onward source.normalize) → ∀ k ≠ Keyword.var,
          (t.kind = .keyword k ↔
            ∃ rest, t.onward source.normalize = k.literal ++ rest ∧ WordRun k.literal rest)) ∧
        (t.kind = .word → ∀ k : Keyword, t.text ≠ k.literal) := by
  refine ⟨_, Token.ofText_eq_listFrom _, fun t member => ?_⟩
  obtain ⟨before, found, split, first, rfl⟩ := Token.mem_listFrom member
  have place : Token.onward source.normalize
      ⟨found.kind, found.text, Position.start.advance before⟩ = found.taken ++ found.rest := by
    rw [Token.onward, split, Position.advance_start, List.drop_left]
  rw [place]
  refine ⟨⟨found, fun other => ⟨fun second => second.unique first, ?_⟩, rfl, rfl⟩, ?_, ?_⟩
  · rintro rfl
    exact first
  · exact fun bare k look => first.keyword_iff bare look
  · exact first.word_ne_keyword

/-- A token of each kind. In front of the parenthesis the keyword is the whole word, and behind it
the word goes on. -/
theorem tokens_follow_rule_each_kind :
    let source : Text := "if(ifx) 'a'".toList
    let tokens : List Token := [⟨.keyword .if, ['i', 'f'], ⟨0, 1, 1⟩⟩,
      ⟨.symbol .openParen, ['('], ⟨2, 1, 3⟩⟩, ⟨.word, ['i', 'f', 'x'], ⟨3, 1, 4⟩⟩,
      ⟨.symbol .closeParen, [')'], ⟨6, 1, 7⟩⟩, ⟨.space, [' '], ⟨7, 1, 8⟩⟩,
      ⟨.quoted, ['a'], ⟨8, 1, 9⟩⟩]
    Token.ofText source.normalize = .ok tokens ∧
      (∀ t ∈ tokens, ∃ found, FirstToken (t.onward source) found ∧
        t.kind = found.kind ∧ t.text = found.text) ∧
      (∃ rest, source = Keyword.if.literal ++ rest ∧ WordRun Keyword.if.literal rest) ∧
      (¬ ∃ rest, "ifx) 'a'".toList = Keyword.if.literal ++ rest ∧
        WordRun Keyword.if.literal rest) ∧
      ∀ k : Keyword, ['i', 'f', 'x'] ≠ k.literal := by
  intro source tokens
  have listed : Token.ofText source.normalize = .ok tokens := by decide +kernel
  obtain ⟨read, same, follow⟩ := tokens_follow_rule source
  obtain rfl := Except.ok.inj (same.symm.trans listed)
  have bare : ∀ rest, Bare ('i' :: rest) := by
    refine fun rest => ⟨?_, not_startsSymbol (by decide)⟩
    rintro ⟨mark, tail, here, isMark, -⟩
    obtain ⟨rfl, -⟩ := List.cons.inj here
    exact absurd isMark (by decide)
  obtain ⟨-, whole, -⟩ := follow ⟨.keyword .if, ['i', 'f'], ⟨0, 1, 1⟩⟩ (by decide)
  obtain ⟨-, longer, unnamed⟩ := follow ⟨.word, ['i', 'f', 'x'], ⟨3, 1, 4⟩⟩ (by decide)
  refine ⟨listed, fun t member => ?_, (whole (bare _) .if (by decide)).mp rfl, fun stands => ?_,
    unnamed rfl⟩
  · obtain ⟨⟨found, first, kind, text⟩, -⟩ := follow t member
    exact ⟨found, (first found).mpr rfl, kind, text⟩
  · exact absurd ((longer (bare _) .if (by decide)).mpr stands) (by decide)

end IndentMarkup
