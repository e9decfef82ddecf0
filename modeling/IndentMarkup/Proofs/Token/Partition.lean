import IndentMarkup.Proofs.Token.Rule
import IndentMarkup.Token.Lexer
import Mathlib.Data.List.Induction

/-! The tokens of a text, read by the grammar of templates. Reading never fails, the
tokens lie side by side over the whole text, and what stands before a token alone
determines its line and column. Each token is the one that the rule allows at its place. -/
namespace IndentMarkup

/-- The tokens of a text that begins at the position. -/
def Token.listFrom (position : Position) (text : Text) : List Token :=
  match _taken : Grammar.standard.next? text with
  | none => []
  | some found =>
    ⟨found.kind, found.text, position⟩ ::
      listFrom (position.advance found.taken) found.rest
termination_by text.length
decreasing_by exact Grammar.length_rest_lt _taken

namespace Token

@[simp] theorem listFrom_nil (p : Position) : listFrom p [] = [] := by
  rw [listFrom]
  split
  · rfl
  next taken => exact absurd (Grammar.length_rest_lt taken) (Nat.not_lt_zero _)

/-- Reading goes on behind the first token as if the text began there. -/
theorem listFrom_of_first {text : Text} {found : Match} (p : Position)
    (first : FirstToken text found) :
    listFrom p text =
      ⟨found.kind, found.text, p⟩ :: listFrom (p.advance found.taken) found.rest := by
  rw [listFrom]
  split
  next stuck => simp [Grammar.standard_next?_iff.mpr first] at stuck
  next other taken =>
    obtain rfl := Option.some.inj (taken.symm.trans (Grammar.standard_next?_iff.mpr first))
    rfl

end Token

theorem Lexer.items_standard (p : Position) (text : Text) :
    Lexer.items ⟨.standard, text, p⟩ = (Token.listFrom p text).map .ok := by
  fun_induction Token.listFrom p text with
  | case1 p text stuck =>
    cases text with
    | nil => rw [items, drain_of_next?_eq_none rfl]; rfl
    | cons c rest =>
      obtain ⟨found, taken⟩ := Grammar.standard_total c rest
      rw [stuck] at taken
      contradiction
  | case2 p text found taken ih =>
    cases text with
    | nil => exact absurd (Grammar.length_rest_lt taken) (Nat.not_lt_zero _)
    | cons c rest =>
      have stepped : Lexer.next? ⟨.standard, c :: rest, p⟩ =
          some (.ok ⟨found.kind, found.text, p⟩,
            ⟨.standard, found.rest, p.advance found.taken⟩) := by
        simp [next?, taken]
      rw [items, drain_of_next?_eq_some stepped]
      exact congrArg _ ih

theorem Token.ofText_eq_listFrom (text : Text) :
    Token.ofText text = .ok (listFrom .start text) := by
  have collect (tokens : List Token) :
      (tokens.map fun t => (.ok t : Except LexError Token)).mapM id = .ok tokens := by
    induction tokens with
    | nil => rfl
    | cons t rest ih => simp [List.mapM_cons, ih, bind, Except.bind, pure, Except.pure]
  rw [ofText, Lexer.start, Lexer.items_standard, collect]

/-- Every token stands behind a part of the text that sets its position, and is what the
rule allows there. -/
theorem Token.mem_listFrom {p : Position} {text : Text} {t : Token}
    (member : t ∈ listFrom p text) :
    ∃ before found, text = before ++ (found.taken ++ found.rest) ∧
      FirstToken (found.taken ++ found.rest) found ∧
      t = ⟨found.kind, found.text, p.advance before⟩ := by
  fun_induction listFrom p text with
  | case1 => contradiction
  | case2 p text found taken ih =>
    have first := Grammar.first_of_standard taken
    rcases List.mem_cons.mp member with rfl | later
    · exact ⟨[], found, first.append, first.append ▸ first, rfl⟩
    · obtain ⟨before, other, split, first', rfl⟩ := ih later
      refine ⟨found.taken ++ before, other, ?_, first', by simp⟩
      rw [List.append_assoc, ← split, ← first.append]

/-- The tokens lie side by side between the offsets, and none of them is empty. -/
def Adjacent : Nat → List Token → Nat → Prop
  | start, [], stop => start = stop
  | start, t :: rest, stop => t.position.index = start ∧ start < t.stop ∧ Adjacent t.stop rest stop

/-- What a token with that kind and text looks like in a source. -/
def Token.WrittenAs (t : Token) (written : Text) : Prop :=
  if t.kind = .quoted then
    ∃ mark, (mark = '"' ∨ mark = '\'') ∧ written = mark :: t.text ++ [mark]
  else written = t.text

/-- The position is the place that its offset has in the text: the line counts line feeds,
the column the characters since the last of them. -/
def Position.LocatedIn (text : Text) (p : Position) : Prop :=
  p.line = 1 + (text.take p.index).count '\n' ∧
    p.column = 1 + ((text.take p.index).reverse.takeWhile (· ≠ '\n')).length

theorem FirstToken.writtenAs {text : Text} {found : Match} (first : FirstToken text found)
    (p : Position) : Token.WrittenAs ⟨found.kind, found.text, p⟩ found.taken := by
  cases first with
  | @quoted mark _ _ isMark => exact ⟨mark, isMark, rfl⟩
  | _ => rfl

theorem FirstToken.length_taken {text : Text} {found : Match} (first : FirstToken text found)
    (p : Position) : Token.sourceLength ⟨found.kind, found.text, p⟩ = found.taken.length := by
  cases first with
  | quoted => simp [Token.sourceLength]
  | _ => rfl

theorem Position.advance_start (before : Text) :
    Position.start.advance before = ⟨before.length, 1 + before.count '\n',
      1 + (before.reverse.takeWhile (· ≠ '\n')).length⟩ := by
  induction before using List.reverseRecOn with
  | nil => rfl
  | append_singleton before c ih =>
    by_cases feed : c = '\n'
    · simp [ih, step, feed, Nat.add_assoc]
    · simp [ih, step, feed, Nat.add_comm]

theorem Token.listFrom_adjacent (p : Position) (text : Text) :
    Adjacent p.index (listFrom p text) (p.index + text.length) := by
  fun_induction listFrom p text with
  | case1 p text stuck =>
    cases text with
    | nil => rfl
    | cons c rest =>
      obtain ⟨found, taken⟩ := Grammar.standard_total c rest
      rw [stuck] at taken
      contradiction
  | case2 p text found taken ih =>
    have first := Grammar.first_of_standard taken
    have stop : Token.stop ⟨found.kind, found.text, p⟩ = p.index + found.taken.length := by
      rw [Token.stop, first.length_taken]
    have positive := List.length_pos_iff.mpr first.taken_ne_nil
    have whole : text.length = found.taken.length + found.rest.length := by
      rw [← List.length_append, ← first.append]
    rw [Position.index_advance] at ih
    refine ⟨rfl, by omega, ?_⟩
    rw [stop, whole, ← Nat.add_assoc]
    exact ih

/-- Reading a source succeeds, and the tokens are a partition of its characters. -/
theorem tokens_partition_source (source : Text) :
    ∃ tokens, Token.ofText source.normalize = .ok tokens ∧
      Adjacent 0 tokens source.normalize.length ∧
      ∀ t ∈ tokens,
        t.WrittenAs (source.normalize.slice t.position.index t.stop) ∧
        t.position.LocatedIn source.normalize := by
  refine ⟨_, Token.ofText_eq_listFrom _, ?_, fun t member => ?_⟩
  · simpa [Position.start] using Token.listFrom_adjacent .start source.normalize
  · obtain ⟨before, found, split, first, rfl⟩ := Token.mem_listFrom member
    rw [split, Position.advance_start]
    constructor
    · rw [Token.stop, first.length_taken, Text.slice_of_drop List.drop_left]
      exact first.writtenAs _
    · simp [Position.LocatedIn]

end IndentMarkup
