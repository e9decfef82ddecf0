import IndentMarkup.Proofs.Statement.Acceptance

/-! A tag that is complete is read to its end, whatever stands behind it, as long as that does not
go on with the tag. So what is read, or why it cannot be read, is settled by its own tokens. -/
namespace IndentMarkup

open scoped Computability

namespace TagLine

open Shape

variable {own first second rest : Line} {head : TagHead} {t : Token}

namespace Shape

/-- A tag that is complete, however many ids it is given. -/
def complete : Language Token.Kind :=
  (1 + just .word) * selector∗ * (1 + attributes * selector∗)

theorem complete_eq : complete = (1 + just .word) * body false :=
  mul_assoc ..

/-- The first token of a line does not go on with a tag in front of it. -/
def Free (rest : Line) : Prop :=
  ∀ t ∈ rest.head?, t.kind ≠ .word ∧ t.kind ≠ .symbol .dot ∧ t.kind ≠ .symbol .hash ∧
    t.kind ≠ .symbol .openParen

theorem mem_if {p : Prop} [Decidable p] {L : Language Token.Kind} {word : List Token.Kind} :
    word ∈ (if p then L else 0) ↔ p ∧ word ∈ L := by
  split
  next holds => simp [holds]
  next fails => simp [fails]

theorem kinds_selector_inv (kinds : Line.kinds (t :: own) ∈ selector∗) :
    (t.kind = .symbol .dot ∨ t.kind = .symbol .hash) ∧
      ∃ name left, own = name :: left ∧ name.kind.isName = true ∧ Line.kinds left ∈ selector∗ := by
  have within : own.kinds ∈ behind t.kind selector∗ := kinds
  rw [behind_star nil_notMem_selector, behind_selector, ite_mul, zero_mul, mem_if] at within
  obtain ⟨mark, within⟩ := within
  obtain ⟨kind, named, left, selectors, same⟩ := mem_oneOf_mul.mp within
  obtain ⟨name, left, rfl, rfl, rfl⟩ := List.map_eq_cons_iff.mp same
  exact ⟨mark, name, left, rfl, named, selectors⟩

end Shape

/-- What a reader makes of its own tokens is settled by them: a result, in front of whatever is
apart from them, or an error. -/
def Settles (reader : Line → Except ParseError (TagHead × Line)) (apart : Line → Prop)
    (own : Line) : Prop :=
  ∃ result : Except ParseError TagHead, ∀ rest, apart rest →
    reader (own ++ rest) = result.map fun head => (head, rest)

theorem settles_selectors (kinds : own.kinds ∈ selector∗) (head : TagHead) :
    Settles (readSelectors head) Stage.Apart own := by
  fun_induction readSelectors head own with
  | case1 head =>
    refine ⟨.ok head, fun rest apart => ?_⟩
    cases rest with
    | nil => rfl
    | cons t rest =>
      obtain ⟨dot, hash⟩ := apart t rfl
      rw [List.nil_append, readSelectors.eq_def]
      simp [dot, hash, Except.map]
  | case3 head t dot name left named ih =>
    obtain ⟨-, _, _, ⟨⟩, -, selectors⟩ := kinds_selector_inv kinds
    obtain ⟨result, reads⟩ := ih selectors
    refine ⟨result, fun rest apart => ?_⟩
    simpa [readSelectors, dot, named] using reads rest apart
  | case5 head t left dot hash taken =>
    refine ⟨.error (.ofToken t), fun rest _ => ?_⟩
    rw [List.cons_append, readSelectors.eq_def]
    simp [hash, taken, Except.map]
  | case7 head t dot hash fresh name left named ih =>
    obtain ⟨-, _, _, ⟨⟩, -, selectors⟩ := kinds_selector_inv kinds
    obtain ⟨result, reads⟩ := ih selectors
    refine ⟨result, fun rest apart => ?_⟩
    simpa [readSelectors, hash, fresh, named] using reads rest apart
  | case2 | case6 =>
    obtain ⟨-, _, _, nothing, -⟩ := kinds_selector_inv kinds
    contradiction
  | case4 | case8 =>
    obtain ⟨-, _, _, ⟨⟩, named, -⟩ := kinds_selector_inv kinds
    contradiction
  | case9 head t left dot hash =>
    obtain ⟨mark, -⟩ := kinds_selector_inv kinds
    exact absurd mark (not_or.mpr ⟨dot, hash⟩)

namespace Shape

variable {M : Language Token.Kind}

theorem kinds_between_inv
    (kinds : Line.kinds (t :: own) ∈ assignmentsThen (just (.symbol .closeParen))) :
    ((t.kind = .space ∨ t.kind = .symbol .comma) ∧
        own.kinds ∈ assignmentsThen (just (.symbol .closeParen))) ∨
      (t.kind.isName = true ∧ own.kinds ∈ signThen (just (.symbol .closeParen))) ∨
        (t.kind = .symbol .closeParen ∧ own = []) := by
  have within : own.kinds ∈ behind t.kind (assignmentsThen (just (.symbol .closeParen))) := kinds
  rw [behind_assignmentsThen, behind_just, Language.mem_add, Language.mem_add, mem_if, mem_if,
    mem_if] at within
  rcases within with separates | named | ⟨closes, nothing⟩
  · exact .inl separates
  · exact .inr (.inl named)
  · exact .inr (.inr ⟨closes, List.map_eq_nil_iff.mp nothing⟩)

theorem kinds_named_inv (kinds : Line.kinds (t :: own) ∈ signThen M) :
    (t.kind = .space ∧ own.kinds ∈ signThen M) ∨
      ((t.kind = .symbol .equals ∨ t.kind = .symbol .inlineValue) ∧ own.kinds ∈ valueThen M) := by
  have within : own.kinds ∈ behind t.kind (signThen M) := kinds
  rw [behind_signThen, Language.mem_add, mem_if, mem_if] at within
  exact within

theorem kinds_assigned_inv (kinds : Line.kinds (t :: own) ∈ valueThen M) :
    (t.kind = .space ∧ own.kinds ∈ valueThen M) ∨
      (t.kind = .quoted ∧ own.kinds ∈ assignmentsThen M) := by
  have within : own.kinds ∈ behind t.kind (valueThen M) := kinds
  rw [behind_valueThen, Language.mem_add, mem_if, mem_if] at within
  exact within

end Shape

/-- Attributes that are complete are always read. -/
theorem readAttributes_settled (stage : AttributeStage) (kinds : own.kinds ∈ stage.left)
    (head : TagHead) :
    ∃ head', ∀ rest, readAttributes stage head (own ++ rest) = .ok (head', rest) := by
  induction own generalizing stage head with
  | nil =>
    cases stage with
    | between => exact absurd (nil_mem_mul.mp (nil_mem_mul.mp kinds).2).2 nil_notMem_just
    | named => exact absurd (nil_mem_mul.mp (nil_mem_mul.mp kinds).2).1 (nil_notMem_oneOf _)
    | assigned => exact absurd (nil_mem_mul.mp (nil_mem_mul.mp kinds).2).1 nil_notMem_just
  | cons t own ih =>
    cases stage with
    | between =>
      rcases kinds_between_inv kinds with ⟨separates, later⟩ | ⟨named, later⟩ | ⟨closes, rfl⟩
      · obtain ⟨head', reads⟩ := ih .between later head
        refine ⟨head', fun rest => ?_⟩
        simpa [readAttributes, separates] using reads rest
      · obtain ⟨head', reads⟩ := ih (.named t.text) later head
        have other : ¬ (t.kind = .space ∨ t.kind = .symbol .comma) ∧
            t.kind ≠ .symbol .closeParen := by
          generalize t.kind = kind at named
          refine ⟨?_, ?_⟩
          · rintro (rfl | rfl) <;> contradiction
          · rintro rfl
            contradiction
        refine ⟨head', fun rest => ?_⟩
        simpa [readAttributes, other, named] using reads rest
      · exact ⟨head, fun rest => by simp [readAttributes, closes]⟩
    | named name =>
      rcases kinds_named_inv kinds with ⟨space, later⟩ | ⟨sign, later⟩
      · obtain ⟨head', reads⟩ := ih (.named name) later head
        refine ⟨head', fun rest => ?_⟩
        simpa [readAttributes, space] using reads rest
      · obtain ⟨head', reads⟩ := ih (.assigned name) later head
        refine ⟨head', fun rest => ?_⟩
        rcases sign with equals | inlineValue
        · simpa [readAttributes, equals] using reads rest
        · simpa [readAttributes, inlineValue] using reads rest
    | assigned name =>
      rcases kinds_assigned_inv kinds with ⟨space, later⟩ | ⟨quoted, later⟩
      · obtain ⟨head', reads⟩ := ih (.assigned name) later head
        refine ⟨head', fun rest => ?_⟩
        simpa [readAttributes, space] using reads rest
      · obtain ⟨head', reads⟩ := ih .between later (head.addAttribute name t.text)
        refine ⟨head', fun rest => ?_⟩
        simpa [readAttributes, quoted] using reads rest

theorem readParentheses_settled (kinds : own.kinds ∈ attributes) (head : TagHead) :
    ∃ head', ∀ rest, readParentheses head (own ++ rest) = .ok (head', rest) := by
  rw [attributes_eq] at kinds
  obtain ⟨word, within, same⟩ := mem_just_mul.mp kinds
  obtain ⟨t, left, rfl, opened, rfl⟩ := List.map_eq_cons_iff.mp same
  obtain ⟨head', reads⟩ := readAttributes_settled .between within head
  exact ⟨head', fun rest => by simpa [readParentheses, opened] using reads rest⟩

/-- Reads the attributes of a tag and the selectors behind them. -/
def readListing (head : TagHead) (line : Line) : Except ParseError (TagHead × Line) :=
  readParentheses head line >>= fun (head, rest) => readSelectors head rest

/-- Reads a tag behind its name. -/
def readBody (head : TagHead) (line : Line) : Except ParseError (TagHead × Line) :=
  readSelectors head line >>= fun (head, rest) => readListing head rest

theorem Shape.Free.apart (free : Free rest) : Stage.Apart rest := fun t starts =>
  ⟨(free t starts).2.1, (free t starts).2.2.1⟩

theorem opens_listing (kinds : Line.kinds (t :: own) ∈ listing false) :
    t.kind = .symbol .openParen := by
  have within : own.kinds ∈ behind t.kind (listing false) := kinds
  rw [behind_listing, mem_if] at within
  exact within.1.1

theorem opens_body (kinds : Line.kinds (t :: own) ∈ body false) :
    t.kind = .symbol .dot ∨ t.kind = .symbol .hash ∨ t.kind = .symbol .openParen := by
  have within : own.kinds ∈ behind t.kind (body false) := kinds
  rw [behind_body, Language.mem_add, mem_if] at within
  rcases within with ⟨mark, -⟩ | listed
  · exact mark.imp_right .inl
  · exact .inr (.inr (opens_listing listed))

theorem apart_listing (kinds : own.kinds ∈ listing false) (free : Free rest) :
    Stage.Apart (own ++ rest) := by
  cases own with
  | nil => exact free.apart
  | cons t own =>
    rintro _ ⟨rfl⟩
    simp [opens_listing kinds]

theorem settles_listing (kinds : own.kinds ∈ listing false) (head : TagHead) :
    Settles (readListing head) Free own := by
  rcases kinds with nothing | ⟨listed, enclosed, further, selectors, same⟩
  · obtain rfl := List.map_eq_nil_iff.mp nothing
    have none : Line.kinds [] ∈ selector∗ := Language.nil_mem_kstar _
    obtain ⟨result, reads⟩ := settles_selectors none head
    refine ⟨result, fun rest free => ?_⟩
    have unlisted : readParentheses head rest = .ok (head, rest) := by
      cases rest with
      | nil => rfl
      | cons t rest => rw [readParentheses, if_neg (free t rfl).2.2.2]
    rw [List.nil_append, readListing, unlisted]
    exact reads rest free.apart
  · obtain ⟨listed, further, rfl, rfl, rfl⟩ := List.map_eq_append_iff.mp same.symm
    obtain ⟨head', lists⟩ := readParentheses_settled enclosed head
    obtain ⟨result, reads⟩ := settles_selectors selectors head'
    refine ⟨result, fun rest free => ?_⟩
    rw [List.append_assoc, readListing, lists]
    exact reads rest free.apart

theorem settles_body (kinds : own.kinds ∈ body false) (head : TagHead) :
    Settles (readBody head) Free own := by
  obtain ⟨before, selectors, listed, listing, same⟩ := kinds
  obtain ⟨before, listed, rfl, rfl, rfl⟩ := List.map_eq_append_iff.mp same.symm
  obtain ⟨result, reads⟩ := settles_selectors selectors head
  cases result with
  | error error =>
    refine ⟨.error error, fun rest free => ?_⟩
    rw [List.append_assoc, readBody, reads _ (apart_listing listing free)]
    rfl
  | ok head =>
    obtain ⟨result, lists⟩ := settles_listing listing head
    refine ⟨result, fun rest free => ?_⟩
    rw [List.append_assoc, readBody, reads _ (apart_listing listing free)]
    exact lists rest free

theorem opens_complete (kinds : Line.kinds (t :: own) ∈ complete) :
    (t.kind = .word ∧ own.kinds ∈ body false) ∨
      t.kind = .symbol .dot ∨ t.kind = .symbol .hash ∨ t.kind = .symbol .openParen := by
  rw [complete_eq] at kinds
  rcases cons_mem_mul.mp kinds with named | ⟨-, unnamed⟩
  · rw [behind_add, behind_empty, zero_add, behind_just, ite_mul, one_mul, zero_mul,
      mem_if] at named
    exact .inl named
  · exact .inr (opens_body unnamed)

theorem readName_of_ne {line : Line} (other : ∀ t ∈ line.head?, t.kind ≠ .word) :
    readName line = (TagHead.defaultName, line) := by
  cases line with
  | nil => rfl
  | cons t rest => rw [readName, if_neg (other t rfl)]

/-- A tag is read to its end whatever follows it, or it fails whatever follows it. -/
theorem settles_head (kinds : own.kinds ∈ complete) : Settles readHead Free own := by
  rw [complete_eq] at kinds
  obtain ⟨word, named, tail, behind, same⟩ := kinds
  obtain ⟨word, tail, rfl, rfl, rfl⟩ := List.map_eq_append_iff.mp same.symm
  rcases named with unnamed | named
  · obtain rfl := List.map_eq_nil_iff.mp unnamed
    obtain ⟨result, reads⟩ := settles_body behind { name := TagHead.defaultName }
    refine ⟨result, fun rest free => ?_⟩
    have name : readName (tail ++ rest) = (TagHead.defaultName, tail ++ rest) := by
      apply readName_of_ne
      cases tail with
      | nil => exact fun t starts => (free t starts).1
      | cons t tail =>
        rintro _ ⟨rfl⟩
        obtain dot | hash | opened := opens_body behind <;> simp [*]
    rw [List.nil_append, ← reads rest free, readHead, name]
    rfl
  · obtain ⟨t, rfl, word⟩ := List.map_eq_singleton_iff.mp (mem_just.mp named)
    obtain ⟨result, reads⟩ := settles_body behind { name := t.text }
    refine ⟨result, fun rest free => ?_⟩
    rw [← reads rest free, List.append_assoc, readHead, List.singleton_append, readName,
      if_pos word]
    rfl

end TagLine

/-- The line starts with a tag, and not with a marker that looks like one. -/
structure Line.OpensTag (line : Line) : Prop where
  starts : line.startsWithAny TagLine.startKinds = true
  other : ∀ t rest, line = t :: rest → t.kind = .word → Statement.isForMarker t rest = false

open TagLine.Shape

/-- A tag in front of what does not go on with it. -/
theorem Line.OpensTag.of_complete {own rest : Line} (kinds : own.kinds ∈ complete)
    (starts : own.startsWithAny TagLine.startKinds = true)
    (solid : rest.startsWith .space = false) : Line.OpensTag (own ++ rest) := by
  cases own with
  | nil => contradiction
  | cons t own =>
    refine ⟨starts, ?_⟩
    rintro _ _ ⟨rfl⟩ word
    have unspaced : Line.startsWith (own ++ rest) .space = false := by
      rcases TagLine.opens_complete kinds with ⟨-, behind⟩ | other
      · cases own with
        | nil => exact solid
        | cons u own =>
          simp only [List.cons_append, Line.startsWith, List.head?_cons, Option.any_some]
          obtain dot | hash | opened := TagLine.opens_body behind <;> simp [*]
      · rw [word] at other
        simp at other
    simp [Statement.isForMarker, unspaced]

theorem Statement.read_of_opensTag {source : Text} {line : Line} (opens : line.OpensTag) :
    Statement.read source line =
      (TagLine.read source line).map fun (tagLine, left) => (.tag tagLine, left) := by
  obtain ⟨starts, other⟩ := opens
  cases line with
  | nil => contradiction
  | cons t rest =>
    rcases TagLine.startsWithAny_cons.mp starts with word | dot | hash
    · simp only [Statement.read, word, other t rest rfl word]
      rfl
    · simp only [Statement.read, dot]
    · simp only [Statement.read, hash]

end IndentMarkup
