import IndentMarkup.Proofs.Token.Precedence

/-! What is read first from a text of which the beginning is known: a symbol, a keyword, a
name, blanks. Each needs to know a little of what follows it, but never all. -/
namespace IndentMarkup

/-- The characters at which a string, a symbol or the keyword with a blank may start, or
a run of blanks. -/
def isNameStart (c : Char) : Bool :=
  isWordChar c && !(['"', '\'', '-'].contains c)

/-- A word that is no part of another token, wherever it stands. -/
def isName : Text → Bool
  | [] => false
  | c :: rest => isNameStart c && rest.all isWordChar

theorem isWordChar_of_ascii {c : Char} (plain : c.isAlphanum = true ∨ c = '-' ∨ c = '_') :
    isWordChar c = true := by
  have bounds : 45 ≤ c.toNat ∧ c.toNat ≤ 122 := by
    rcases plain with plain | rfl | rfl
    · delta Char.isAlphanum Char.isAlpha Char.isUpper Char.isLower Char.isDigit at plain
      simp only [Bool.or_eq_true, Bool.and_eq_true, decide_eq_true_eq, ge_iff_le,
        UInt32.le_iff_toNat_le] at plain
      simp only [Char.reduceVal, UInt32.reduceToNat] at plain
      rw [Char.toNat]
      omega
    · decide
    · decide
  have solid : isBlank c = false := by
    simp only [isBlank, Bool.or_eq_false_iff, Bool.and_eq_false_iff, decide_eq_false_iff_not,
      beq_eq_false_iff_ne]
    omega
  rw [isWordChar, solid, Bool.not_false, Bool.true_and, List.all_eq_true]
  intro s _
  rw [decide_eq_true_eq]
  intro starts
  cases s <;> simp only [Symbol.literal, List.head?_cons, Option.some.injEq] at starts <;>
    subst starts <;> revert plain <;> decide

/-- Names of ASCII letters, digits, hyphens and underscores that start with a letter. -/
theorem isName_of_ascii {c : Char} {rest : Text} (letter : c.isAlpha = true)
    (others : ∀ x ∈ rest, x.isAlphanum = true ∨ x = '-' ∨ x = '_') :
    isName (c :: rest) = true := by
  have starts : isNameStart c = true := by
    rw [isNameStart, isWordChar_of_ascii (.inl (by simp [Char.isAlphanum, letter]))]
    simp only [List.contains_cons, Bool.true_and, Bool.not_eq_true', Bool.or_eq_false_iff,
      beq_eq_false_iff_ne]
    refine ⟨?_, ?_, ?_, rfl⟩ <;> (rintro rfl; revert letter; decide)
  rw [isName, starts, Bool.true_and, List.all_eq_true]
  exact fun x member => isWordChar_of_ascii (others x member)

theorem isWordChar_of_isName {name : Text} (named : isName name = true) :
    ∀ c ∈ name, isWordChar c = true := by
  cases name with
  | nil => contradiction
  | cons c rest =>
    simp only [isName, isNameStart, Bool.and_eq_true, List.all_eq_true] at named
    intro x member
    rcases List.mem_cons.mp member with rfl | later
    · exact named.1.1
    · exact named.2 x later

/-- No other symbol goes on from it. -/
def Symbol.isLone (s : Symbol) : Bool :=
  Symbol.all.all fun other => other = s || !(s.literal.isPrefixOf other.literal)

theorem Symbol.eq_of_isLone {s other : Symbol} (lone : s.isLone = true)
    (begins : s.literal <+: other.literal) : other = s := by
  have apart := List.all_eq_true.mp lone other (mem_all other)
  simpa [List.isPrefixOf_iff_prefix.mpr begins] using apart

namespace FirstToken

theorem symbol_unquoted (s : Symbol) (rest : Text) : ¬ OpensString (s.literal ++ rest) := by
  rintro ⟨mark, tail, same, isMark, -⟩
  cases s <;> simp only [Symbol.literal, List.cons_append, List.cons.injEq] at same <;>
    obtain ⟨rfl, -⟩ := same <;> simp at isMark

/-- A symbol is read unless what follows goes on with a longer one. -/
theorem of_symbol {s : Symbol} {rest : Text}
    (alone : ∀ other : Symbol, s.literal <+: other.literal →
      other.literal <+: s.literal ++ rest → other = s) :
    FirstToken (s.literal ++ rest) ⟨.symbol s, s.literal, s.literal, rest⟩ := by
  apply FirstToken.symbol (symbol_unquoted s rest)
  intro other starts
  apply Nat.le_of_not_lt
  intro longer
  have extends_ := List.prefix_of_prefix_length_le (List.prefix_append ..) starts
    (Nat.le_of_lt longer)
  rw [alone other extends_ starts] at longer
  exact Nat.lt_irrefl _ longer

/-- A symbol of which no longer one is made. -/
theorem of_lone_symbol {s : Symbol} (rest : Text) (lone : s.isLone = true) :
    FirstToken (s.literal ++ rest) ⟨.symbol s, s.literal, s.literal, rest⟩ :=
  of_symbol fun _ begins _ => Symbol.eq_of_isLone lone begins

/-- A symbol that one further character would make another one. -/
theorem of_short_symbol {s longer : Symbol} {next : Char} {rest : Text}
    (only : ∀ other : Symbol, s.literal <+: other.literal → other = s ∨ other = longer)
    (spelled : longer.literal = s.literal ++ [next]) (apart : rest.head? ≠ some next) :
    FirstToken (s.literal ++ rest) ⟨.symbol s, s.literal, s.literal, rest⟩ := by
  apply of_symbol
  intro other begins starts
  rcases only other begins with same | rfl
  · exact same
  · rw [spelled, List.prefix_append_right_inj] at starts
    obtain ⟨tail, rfl⟩ := starts
    simp at apart

theorem of_dot {rest : Text} (apart : rest.head? ≠ some '\n') :
    FirstToken ('.' :: rest) ⟨.symbol .dot, ['.'], ['.'], rest⟩ := by
  have spelled : Symbol.block.literal = Symbol.dot.literal ++ ['\n'] := rfl
  exact of_short_symbol (by intro other; cases other <;> decide) spelled apart

theorem of_equals {rest : Text} (apart : rest.head? ≠ some ' ') :
    FirstToken ('=' :: rest) ⟨.symbol .equals, ['='], ['='], rest⟩ := by
  have spelled : Symbol.inlineValue.literal = Symbol.equals.literal ++ [' '] := rfl
  exact of_short_symbol (by intro other; cases other <;> decide) spelled apart

theorem of_comment {rest : Text} (apart : rest.head? ≠ some '-') :
    FirstToken ('/' :: '/' :: rest) ⟨.symbol .comment, ['/', '/'], ['/', '/'], rest⟩ := by
  have spelled : Symbol.silentComment.literal = Symbol.comment.literal ++ ['-'] := rfl
  exact of_short_symbol (by intro other; cases other <;> decide) spelled apart

theorem bare_of_inlineBlank {c : Char} (blank : isInlineBlank c = true) (rest : Text) :
    Bare (c :: rest) := by
  constructor
  · rintro ⟨mark, tail, same, rfl | rfl, -⟩ <;> obtain ⟨rfl, -⟩ := List.cons.inj same <;>
      revert blank <;> decide
  · rintro ⟨s, tail, same⟩
    cases s <;> obtain ⟨rfl, -⟩ := List.cons.inj same <;> revert blank <;> decide

theorem unnamed_of_inlineBlank {c : Char} (blank : isInlineBlank c = true) (rest : Text) :
    ¬ StartsKeyword (c :: rest) := by
  rintro ⟨k, tail, same, -⟩
  cases k <;> obtain ⟨rfl, -⟩ := List.cons.inj same <;> revert blank <;> decide

theorem of_blanks {run rest : Text} (nonempty : run ≠ [])
    (inside : ∀ x ∈ run, isInlineBlank x = true)
    (ends : ∀ x ∈ rest.head?, isInlineBlank x = false) :
    FirstToken (run ++ rest) ⟨.space, run, run, rest⟩ := by
  cases run with
  | nil => contradiction
  | cons c run =>
    have blank := inside c (by simp)
    exact .blanks (bare_of_inlineBlank blank _) (unnamed_of_inlineBlank blank _) inside ends

theorem bare_of_name {name : Text} (named : isName name = true) (rest : Text) :
    Bare (name ++ rest) := by
  cases name with
  | nil => contradiction
  | cons c tail =>
    have start : isNameStart c = true := (Bool.and_eq_true_iff.mp named).1
    refine ⟨?_, not_startsSymbol (isWordChar_of_isName named c (by simp))⟩
    rintro ⟨mark, left, same, rfl | rfl, -⟩ <;> obtain ⟨rfl, -⟩ := List.cons.inj same <;>
      revert start <;> decide

/-- A name in front of a place where words end is read as a keyword if it is one. -/
theorem of_keyword_name {k : Keyword} {rest : Text} (look : k ≠ .var) (ends : EndsWord rest) :
    FirstToken (k.literal ++ rest) ⟨.keyword k, k.literal, k.literal, rest⟩ := by
  have named : isName k.literal = true := by
    cases k <;> first | decide | contradiction
  exact .keyword (bare_of_name named rest) ends

/-- And as a word if it is none. -/
theorem of_word_name {name rest : Text} (named : isName name = true) (ends : EndsWord rest)
    (plain : ∀ k : Keyword, name ≠ k.literal) :
    FirstToken (name ++ rest) ⟨.word, name, name, rest⟩ := by
  have whole := wordRun_of_chars (isWordChar_of_isName named) ends
  have unnamed : ¬ StartsKeyword (name ++ rest) := by
    rintro ⟨k, left, same, ends'⟩
    by_cases look : k = .var
    · subst look
      cases name with
      | nil => contradiction
      | cons c tail =>
        obtain ⟨rfl, -⟩ := List.cons.inj same
        rw [isName, Bool.and_eq_true] at named
        exact absurd named.1 (by decide)
    · have whole' := wordRun_of_chars (Keyword.isWordChar_of_mem look) ends'
      exact plain k (whole.unique whole' same).1
  have bare := bare_of_name named rest
  cases name with
  | nil => contradiction
  | cons c tail => exact .word bare unnamed whole

theorem of_name {name rest : Text} (named : isName name = true) (ends : EndsWord rest) :
    ∃ kind : Token.Kind, kind.isName = true ∧
      FirstToken (name ++ rest) ⟨kind, name, name, rest⟩ := by
  by_cases keyword : ∃ k : Keyword, name = k.literal
  · obtain ⟨k, rfl⟩ := keyword
    have look : k ≠ .var := by
      rintro rfl
      exact absurd named (by decide)
    exact ⟨.keyword k, by simpa [Token.Kind.isName] using look, of_keyword_name look ends⟩
  · exact ⟨.word, rfl, of_word_name named ends fun k same => keyword ⟨k, same⟩⟩

end FirstToken

end IndentMarkup
