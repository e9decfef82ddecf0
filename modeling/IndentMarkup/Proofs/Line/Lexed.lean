import IndentMarkup.Proofs.Line.Margin
import IndentMarkup.Proofs.Token.Precedence
import Mathlib.Data.List.Chain
import Mathlib.Data.List.DropRight

/-! Lines of tokens that were read from a source. Each token is what the rule allows at its place,
and blanks go on as far as they can, so that nothing blank is behind a token of blanks. -/
namespace IndentMarkup

namespace Text

theorem trimStart_of_isPrefix {text piece : Text} (leading : text.trimStart = text)
    (begins : piece <+: text) : piece.trimStart = piece := by
  cases piece with
  | nil => rfl
  | cons c piece =>
    obtain ⟨rest, rfl⟩ := begins
    have solid : isBlank c = false := by
      simpa [trimStart, List.dropWhile_eq_self_iff] using leading
    simp [trimStart, solid]

theorem trimStart_trimStart (text : Text) : text.trimStart.trimStart = text.trimStart :=
  List.dropWhile_idempotent isBlank text

theorem trimEnd_isPrefix (text : Text) : text.trimEnd <+: text :=
  List.rdropWhile_prefix isBlank text

theorem trimEnd_trimEnd (text : Text) : text.trimEnd.trimEnd = text.trimEnd :=
  List.rdropWhile_idempotent isBlank text

theorem slice_isPrefix (text : Text) (start stop : Nat) :
    text.slice start stop <+: text.drop start := by
  dsimp only [slice]
  split
  · exact List.take_prefix ..
  · exact List.nil_prefix

end Text

namespace FirstToken

variable {text : Text} {found : Match}

/-- No text is read as the mark for the end of input. -/
theorem kind_ne_eof (first : FirstToken text found) : found.kind ≠ .eof := by
  cases first <;> nofun

theorem head_of_space (first : FirstToken text found) (space : found.kind = .space) :
    ∀ c ∈ text.head?, isInlineBlank c = true := by
  cases first <;> first | contradiction | skip
  next inside _ =>
    rintro _ ⟨rfl⟩
    exact inside _ (List.mem_cons_self ..)

theorem head_of_solid (first : FirstToken text found) (solid : found.kind ≠ .space) :
    ∀ c ∈ text.head?, isInlineBlank c = false := by
  cases text with
  | nil => nofun
  | cons c rest =>
    rintro _ ⟨rfl⟩
    by_contra blank
    simp only [isInlineBlank, Bool.not_eq_false, Bool.and_eq_true, bne_iff_ne] at blank
    have newLine := (first.blank_iff.mpr blank.2).resolve_left solid
    generalize same : c :: rest = text at first
    cases first with
    | symbol =>
      obtain rfl := Token.Kind.symbol.inj newLine
      exact blank.1 (List.cons.inj same).1
    | _ => contradiction

theorem rest_of_space (first : FirstToken text found) (space : found.kind = .space) :
    ∀ c ∈ found.rest.head?, isInlineBlank c = false := by
  cases first <;> first | contradiction | assumption

/-- It holds the blanks in front of the text, all of them. -/
theorem takeWhile_of_space (first : FirstToken text found) (space : found.kind = .space) :
    text.takeWhile isInlineBlank = found.taken := by
  cases first <;> first | contradiction | skip
  next c run rest _ _ inside ends =>
    rw [List.takeWhile_append_of_pos inside]
    cases rest with
    | nil => exact List.append_nil _
    | cons d rest =>
      have stop := ends d rfl
      rw [List.takeWhile_cons_of_neg (by simp [stop]), List.append_nil]

theorem text_ne_nil (first : FirstToken text found) : text ≠ [] := by
  rw [first.append]
  exact List.append_ne_nil_of_left_ne_nil first.taken_ne_nil _

theorem text_subset (first : FirstToken text found) : found.text ⊆ text := by
  cases first <;> simp

end FirstToken

namespace Token

theorem kind_ne_eof {p : Position} {text : Text} {t : Token} (member : t ∈ listFrom p text) :
    t.kind ≠ .eof := by
  obtain ⟨_, found, -, first, rfl⟩ := mem_listFrom member
  exact first.kind_ne_eof

/-- Blanks do not follow blanks. -/
def Apart (t u : Token) : Prop :=
  t.kind = .space → u.kind ≠ .space

theorem listFrom_apart (p : Position) (text : Text) : (listFrom p text).IsChain Apart := by
  fun_induction listFrom p text with
  | case1 => exact .nil
  | case2 p text found taken ih =>
    have first := Grammar.first_of_standard taken
    refine List.isChain_cons.mpr ⟨fun u next space again => ?_, ih⟩
    by_cases nothing : found.rest = []
    · simp [nothing] at next
    · obtain ⟨other, second⟩ := exists_first nothing
      rw [listFrom_of_first _ second] at next
      obtain rfl := Option.some.inj next
      obtain ⟨c, rest, more⟩ := List.exists_cons_of_ne_nil nothing
      have blank := second.head_of_space again c (by simp [more])
      simp [first.rest_of_space space c (by simp [more])] at blank

end Token

namespace Line

/-- Lines are parts of the tokens, and the first line is their beginning. -/
theorem split_isInfix (tokens : List Token) :
    (∀ first ∈ (split tokens).head?, first <+: tokens) ∧
      ∀ line ∈ split tokens, line <:+: tokens := by
  fun_induction split tokens with
  | case1 => simp
  | case2 t rest _ ih =>
    have behind : ∀ line ∈ split rest, line <:+: t :: rest :=
      fun line member => List.infix_cons (ih.2 line member)
    exact ⟨by simp, List.forall_mem_cons.mpr ⟨List.nil_infix, behind⟩⟩
  | case3 t rest _ _ ih =>
    have front : [t] <+: t :: rest := List.prefix_append [t] rest
    have behind : ∀ line ∈ split rest, line <:+: t :: rest :=
      fun line member => List.infix_cons (ih.2 line member)
    exact ⟨by simp, List.forall_mem_cons.mpr ⟨front.isInfix, behind⟩⟩
  | case4 t rest =>
    have front : [t] <+: t :: rest := List.prefix_append [t] rest
    exact ⟨by simp, by simpa using front.isInfix⟩
  | case5 t rest _ _ line lines more ih =>
    rw [more] at ih
    have front : t :: line <+: t :: rest := List.cons_prefix_cons.mpr ⟨rfl, ih.1 line rfl⟩
    have behind : ∀ other ∈ lines, other <:+: t :: rest :=
      fun other member => List.infix_cons (ih.2 other (.tail _ member))
    exact ⟨by simpa using front, List.forall_mem_cons.mpr ⟨front.isInfix, behind⟩⟩

theorem feedless_of_mem_split (tokens : List Token) :
    ∀ line ∈ split tokens, ∀ t ∈ line, t.kind ≠ .symbol .newLine := by
  fun_induction split tokens with
  | case1 => exact List.forall_mem_nil _
  | case2 t rest _ ih => exact List.forall_mem_cons.mpr ⟨List.forall_mem_nil _, ih⟩
  | case3 t rest inside _ ih => exact List.forall_mem_cons.mpr ⟨by simpa using inside, ih⟩
  | case4 t rest inside => simpa using inside
  | case5 t rest inside _ line lines more ih =>
    rw [more, List.forall_mem_cons] at ih
    exact List.forall_mem_cons.mpr ⟨List.forall_mem_cons.mpr ⟨inside, ih.1⟩, ih.2⟩

theorem sourceText_isPrefix (source : Text) (t : Token) (rest : Line) :
    sourceText source (t :: rest) <+: t.onward source := by
  rw [sourceText, List.getLast?_eq_some_getLast (List.cons_ne_nil t rest)]
  exact Text.slice_isPrefix ..

theorem sourceText_subset (source : Text) (line : Line) : line.sourceText source ⊆ source := by
  cases line with
  | nil => nofun
  | cons t rest =>
    have onward : t.onward source ⊆ source := (List.drop_sublist ..).subset
    exact fun c member => onward ((sourceText_isPrefix source t rest).subset member)

/-- The tokens of the line are those that the rule allows in the source, where they stand. -/
structure Lexed (source : Text) (line : Line) : Prop where
  read : ∀ t ∈ line, ∃ found, FirstToken (t.onward source) found ∧ found.kind = t.kind ∧
    found.text = t.text
  feedless : ∀ t ∈ line, t.kind ≠ .symbol .newLine
  apart : line.IsChain Token.Apart

theorem lexed_of_mem_split {source : Text} {line : Line}
    (member : line ∈ split (Token.listFrom .start source)) : line.Lexed source := by
  have part := (split_isInfix _).2 line member
  refine ⟨fun t inside => ?_, feedless_of_mem_split _ line member,
    List.IsChain.infix (Token.listFrom_apart .start source) part⟩
  obtain ⟨before, found, whole, first, rfl⟩ := Token.mem_listFrom (part.subset inside)
  refine ⟨found, ?_, rfl, rfl⟩
  rwa [Token.onward, Position.advance_start, whole, List.drop_left]

namespace Lexed

variable {source : Text} {line rest : Line}

theorem suffix (lexed : line.Lexed source) (within : rest <:+ line) : rest.Lexed source :=
  ⟨fun t member => lexed.read t (within.subset member),
    fun t member => lexed.feedless t (within.subset member), List.IsChain.suffix lexed.apart within⟩

theorem text_subset (lexed : line.Lexed source) {t : Token} (member : t ∈ line) :
    t.text ⊆ source := by
  obtain ⟨found, first, -, same⟩ := lexed.read t member
  rw [← same]
  exact fun c inside => List.mem_of_mem_drop (first.text_subset inside)

/-- A line without blanks in front has none in front of its source. -/
theorem leading (lexed : line.Lexed source) (solid : line.startsWith .space = false) :
    (line.sourceText source).trimStart = line.sourceText source := by
  cases line with
  | nil => rfl
  | cons t rest =>
    obtain ⟨found, first, kind, -⟩ := lexed.read t (List.mem_cons_self ..)
    have feedless := lexed.feedless t (List.mem_cons_self ..)
    have unspaced : t.kind ≠ .space := by simpa [startsWith] using solid
    refine Text.trimStart_of_isPrefix ?_ (sourceText_isPrefix source t rest)
    obtain ⟨c, more, onward⟩ := List.exists_cons_of_ne_nil first.text_ne_nil
    rw [onward] at first ⊢
    refine List.dropWhile_cons_of_neg ?_
    rw [← first.blank_iff, kind]
    exact not_or.mpr ⟨unspaced, feedless⟩

end Lexed

end Line

end IndentMarkup
