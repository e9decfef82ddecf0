import IndentMarkup.Proofs.Line.Nesting
import IndentMarkup.Proofs.Line.Seam

/-! Blanks in front of lines. Blank text makes blank lines, the blanks in front of anything else
are one token, and a line that starts with another character stands at the margin. -/
namespace IndentMarkup

/-- A text line by line: the last line has no line feed behind it. -/
theorem Text.line_induction {motive : Text → Prop}
    (last : ∀ line, '\n' ∉ line → motive line)
    (cons : ∀ line rest, '\n' ∉ line → motive rest → motive (line ++ '\n' :: rest))
    (text : Text) : motive text := by
  by_cases feed : '\n' ∈ text
  · obtain ⟨line, rest, rfl, within⟩ := List.eq_append_cons_of_mem feed
    exact cons line rest within (line_induction last cons rest)
  · exact last text feed
termination_by text.length

theorem Text.splitOn_last {line : Text} (within : '\n' ∉ line) : line.splitOn '\n' = [line] := by
  refine List.splitOn_eq_singleton_of_beq_eq_false fun c member => ?_
  exact beq_false_of_ne fun same => within (same ▸ member)

theorem Text.splitOn_feed {line : Text} (within : '\n' ∉ line) (rest : Text) :
    List.splitOn '\n' (line ++ '\n' :: rest) = line :: rest.splitOn '\n' := by
  rw [List.splitOn_append_cons_of_beq line rest (beq_self_eq_true _), splitOn_last within]
  rfl

theorem isInlineBlank_of_isBlank {c : Char} (blank : isBlank c = true) (inside : c ≠ '\n') :
    isInlineBlank c = true := by
  simp [isInlineBlank, blank, inside]

/-- The first character tells whether the first token is blank. -/
theorem FirstToken.blank_iff {c : Char} {rest : Text} {found : Match}
    (first : FirstToken (c :: rest) found) :
    (found.kind = .space ∨ found.kind = .symbol .newLine) ↔ isBlank c = true := by
  generalize same : c :: rest = text at first
  cases first with
  | @quoted mark inner rest isMark =>
    obtain ⟨rfl, -⟩ := List.cons.inj same
    rcases isMark with rfl | rfl <;> exact iff_of_false (by simp) (by decide)
  | @symbol s rest =>
    cases s <;> obtain ⟨rfl, -⟩ := List.cons.inj same
    case newLine => exact iff_of_true (.inr rfl) (by decide)
    all_goals exact iff_of_false (by simp) (by decide)
  | @keyword k rest =>
    cases k <;> obtain ⟨rfl, -⟩ := List.cons.inj same <;>
      exact iff_of_false (by simp) (by decide)
  | @blanks d run rest _ _ inside =>
    obtain ⟨rfl, -⟩ := List.cons.inj same
    have blank := inside c (by simp)
    rw [isInlineBlank, Bool.and_eq_true] at blank
    exact iff_of_true (.inl rfl) blank.2
  | @word d run rest _ _ whole =>
    obtain ⟨rfl, -⟩ := List.cons.inj same
    exact iff_of_false (by simp) (by simp [whole.head_not_blank])

/-- Blank text is read as blanks and line feeds. -/
theorem Token.listFrom_blank {text : Text} (p : Position)
    (blank : ∀ c ∈ text, isBlank c = true) :
    ∀ t ∈ listFrom p text, t.kind = .space ∨ t.kind = .symbol .newLine := by
  intro t member
  obtain ⟨before, found, whole, first, rfl⟩ := mem_listFrom member
  obtain ⟨c, rest, begins⟩ := List.exists_cons_of_ne_nil first.taken_ne_nil
  rw [begins, List.cons_append] at first whole
  exact first.blank_iff.mpr (blank c (by simp [whole]))

/-- Such tokens make blank lines. -/
theorem Line.isBlank_of_mem_split {tokens : List Token}
    (blank : ∀ t ∈ tokens, t.kind = .space ∨ t.kind = .symbol .newLine) :
    ∀ line ∈ split tokens, line.isBlank = true := by
  fun_induction split tokens with
  | case1 => simp
  | case2 t rest newLine ih =>
    rw [List.forall_mem_cons]
    exact ⟨rfl, ih fun u member => blank u (.tail _ member)⟩
  | case3 t rest _ block ih =>
    have own := blank t (.head _)
    simp [block] at own
  | case4 t rest newLine block none ih =>
    have space := (blank t (.head _)).resolve_right newLine
    simp [isBlank, space]
  | case5 t rest newLine block line lines some ih =>
    have space := (blank t (.head _)).resolve_right newLine
    have later := ih fun u member => blank u (.tail _ member)
    rw [some, List.forall_mem_cons] at later
    rw [List.forall_mem_cons]
    exact ⟨by simpa [isBlank, space] using later.1, later.2⟩

/-- Text that starts with anything but a blank starts a line at the margin. -/
theorem exists_solid_line {c : Char} (p : Position) (solid : isBlank c = false) (rest : Text) :
    ∃ t line lines, Line.split (Token.listFrom p (c :: rest)) = (t :: line) :: lines ∧
      t.kind ≠ .space := by
  obtain ⟨found, first⟩ := Token.exists_first (List.cons_ne_nil c rest)
  have kind : ¬ (found.kind = .space ∨ found.kind = .symbol .newLine) := by
    rw [first.blank_iff, solid]
    exact Bool.false_ne_true
  obtain ⟨unspaced, inside⟩ := not_or.mp kind
  rw [Token.listFrom_of_first p first, Line.split_eq_cut_cons, Line.cut, if_neg inside]
  split
  · exact ⟨_, _, _, rfl, unspaced⟩
  · exact ⟨_, _, _, rfl, unspaced⟩

/-- So that line is not blank and has no indent. -/
theorem find_solid_line {c : Char} (p : Position) (solid : isBlank c = false) (rest : Text) :
    ∀ line ∈ (Line.split (Token.listFrom p (c :: rest))).find? (!·.isBlank), line.indent = 0 := by
  obtain ⟨t, line, lines, split, unspaced⟩ := exists_solid_line p solid rest
  simp [split, Line.isBlank, Line.indent, unspaced]

/-- The first line that is not blank, if there is one, has no blanks in front of it. -/
def Text.StartsFlush (text : Text) : Prop :=
  ∀ line ∈ (text.splitOn '\n').find? (·.any (!isBlank ·)), Text.trimStart line = line

instance (text : Text) : Decidable text.StartsFlush :=
  Option.decidableForallMem _

theorem Text.head_solid {line : Text} (solid : line.any (!isBlank ·) = true)
    (flush : Text.trimStart line = line) : ∃ c rest, line = c :: rest ∧ isBlank c = false := by
  cases line with
  | nil => contradiction
  | cons c rest =>
    refine ⟨c, rest, rfl, ?_⟩
    by_contra blank
    have shorter : (trimStart rest).length ≤ rest.length := (List.dropWhile_sublist _).length_le
    rw [trimStart, List.dropWhile_cons_of_pos (by simpa using blank)] at flush
    rw [trimStart, flush, List.length_cons] at shorter
    omega

/-- Read as lines of tokens, the first line that is not blank stands at the margin. -/
theorem Text.StartsFlush.indent {text : Text} (flush : text.StartsFlush) (p : Position) :
    ∀ line ∈ (Line.split (Token.listFrom p text)).find? (!·.isBlank), line.indent = 0 := by
  induction text using Text.line_induction generalizing p with
  | last line within =>
    rw [StartsFlush, splitOn_last within] at flush
    by_cases solid : line.any (!isBlank ·) = true
    · obtain ⟨c, rest, rfl, unblank⟩ := head_solid solid (flush line (by simp [solid]))
      exact find_solid_line p unblank rest
    · have blank : ∀ c ∈ line, isBlank c = true := by simpa using solid
      have lines := Line.isBlank_of_mem_split (Token.listFrom_blank p blank)
      rw [List.find?_eq_none.mpr (by simpa using lines)]
      nofun
  | cons line rest within ih =>
    rw [StartsFlush, splitOn_feed within] at flush
    by_cases solid : line.any (!isBlank ·) = true
    · obtain ⟨c, more, rfl, unblank⟩ := head_solid solid (flush line (by simp [solid]))
      exact find_solid_line p unblank _
    · have blank : ∀ c ∈ line ++ ['\n'], isBlank c = true := by
        have inside : ∀ c ∈ line, isBlank c = true := by simpa using solid
        simpa [or_imp, forall_and] using And.intro inside (by decide : isBlank '\n' = true)
      have tokens := Token.listFrom_blank p blank
      have lines := Line.isBlank_of_mem_split tokens
      have closed : ∀ t ∈ Token.listFrom p (line ++ ['\n']), t.isUnclosed = false := by
        intro t member
        rcases tokens t member with kind | kind <;> simp [Token.isUnclosed, kind]
      rw [List.append_cons, split_listFrom_append p (Text.endsLine_feed line) closed,
        List.find?_append, List.find?_eq_none.mpr (by simpa using lines), Option.none_or]
      exact ih (by simpa [StartsFlush, solid] using flush) _

namespace LineTree

/-- The first tree is indented like the first line that is not blank. -/
theorem ofLines_head_indent (lines : List Line) :
    ∀ tree ∈ (ofLines lines).head?,
      tree.indent = ((lines.find? (!·.isBlank)).map Line.indent).getD 0 := by
  induction lines with
  | nil => simp [ofLines]
  | cons line lines ih =>
    rw [ofLines_cons]
    by_cases blank : line.isBlank = true
    · rw [graft_blank blank]
      rintro _ ⟨rfl⟩
      cases first : (ofLines lines).head? with
      | none =>
        have nothing : lines = [] := by
          cases lines with
          | nil => rfl
          | cons => simp [ofLines_cons, graft] at first
        simp [nothing, blank]
      | some tree => simpa [blank] using ih tree first
    · rintro _ ⟨rfl⟩
      simp [blank, indentBefore]

end LineTree

end IndentMarkup
