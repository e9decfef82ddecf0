import IndentMarkup.Proofs.Markup.Pieces
import IndentMarkup.Proofs.Template.WellFormed

/-! When rendering fails. The chosen branches of a template are walked in the order of the document,
and the first step that may not follow those before it is what the error is about. -/
namespace IndentMarkup

/-- What rendering does at one place of a document. -/
inductive Step where
  | startTag
  /-- An attribute that is an element of its own. -/
  | addAttribute (name : Text)
  /-- A text or a comment. -/
  | write
  | endTag
  | unsupported (kind : Marker)
  deriving DecidableEq, Repr

mutual

/-- The steps of an element. Hidden comments and branches that are not chosen take none. -/
def Element.walk (choice : BranchChoice) : Element → List Step
  | .tag _ content children =>
    .startTag :: (content.map fun _ => .write).toList ++ Element.allWalk choice children ++
      [.endTag]
  | .loneAttribute name _ => [.addAttribute name]
  | .text _ | .expression _ => [.write]
  | .conditional predicate thenBranch elseBranch =>
    if choice.takesThen predicate then Element.allWalk choice thenBranch
    else Element.allWalk choice elseBranch
  | .comment _ buffered => if buffered then [.write] else []
  | .marker kind _ _ => [.unsupported kind]

def Element.allWalk (choice : BranchChoice) : List Element → List Step
  | [] => []
  | element :: later => element.walk choice ++ Element.allWalk choice later

end

mutual

/-- The element without what stands in branches that are not chosen. -/
def Element.chosen (choice : BranchChoice) : Element → Element
  | .tag head content children => .tag head content (Element.allChosen choice children)
  | .conditional predicate thenBranch elseBranch =>
    if choice.takesThen predicate then
      .conditional predicate (Element.allChosen choice thenBranch) []
    else .conditional predicate [] (Element.allChosen choice elseBranch)
  | .marker kind argument children =>
    .marker kind argument (Element.allChosen choice children)
  | element => element

def Element.allChosen (choice : BranchChoice) : List Element → List Element
  | [] => []
  | element :: later => element.chosen choice :: Element.allChosen choice later

end

namespace Step

def isAttribute : Step → Bool
  | addAttribute _ => true
  | _ => false

/-- The steps since the innermost start tag that is not closed, if there is one. The latest of the
steps comes first, and behind them so many elements are closed. -/
def sinceStart : Nat → List Step → Option (List Step)
  | _, [] => none
  | 0, startTag :: _ => some []
  | closed + 1, startTag :: before => (sinceStart closed before).map (startTag :: ·)
  | closed, endTag :: before => (sinceStart (closed + 1) before).map (endTag :: ·)
  | closed, step :: before => (sinceStart closed before).map (step :: ·)

/-- A start tag is not closed, and nothing but attributes was written since the innermost. -/
def takesAttribute (before : List Step) : Bool :=
  (sinceStart 0 before).any (·.all isAttribute)

/-- Why the step may not follow those before it. -/
def offence (before : List Step) : Step → Option RenderError
  | addAttribute name =>
    if takesAttribute before then none else some (.attributeOutsideStartTag name)
  | unsupported kind => some (.unsupported kind.name)
  | _ => none

/-- Why the first step that may not follow those before it may not do so. -/
def firstOffence : List Step → List Step → Option RenderError
  | _, [] => none
  | before, step :: later => (step.offence before).or (firstOffence (step :: before) later)

theorem firstOffence_append (before first second : List Step) :
    firstOffence before (first ++ second) =
      (firstOffence before first).or (firstOffence (first.reverse ++ before) second) := by
  induction first generalizing before with
  | nil => rfl
  | cons step first ih => simp [firstOffence, ih, Option.or_assoc]

/-- Only attributes and nodes without markup offend. -/
theorem offence_cases {before : List Step} {step : Step} {error : RenderError}
    (offends : step.offence before = some error) :
    (∃ name, step = addAttribute name ∧ error = .attributeOutsideStartTag name) ∨
      ∃ kind : Marker, step = unsupported kind ∧ error = .unsupported kind.name := by
  cases step with
  | addAttribute name =>
    rw [offence] at offends
    split at offends
    · contradiction
    · exact .inl ⟨name, rfl, (Option.some.inj offends).symm⟩
  | unsupported kind => exact .inr ⟨kind, rfl, (Option.some.inj offends).symm⟩
  | _ => contradiction

/-- All steps in front of the first that offends are allowed. -/
theorem firstOffence_eq_some_iff {before steps : List Step} {error : RenderError} :
    firstOffence before steps = some error ↔
      ∃ passed step later, steps = passed ++ step :: later ∧ firstOffence before passed = none ∧
        step.offence (passed.reverse ++ before) = some error := by
  constructor
  · intro found
    induction steps generalizing before with
    | nil => contradiction
    | cons step later ih =>
      rw [firstOffence, Option.or_eq_some_iff] at found
      rcases found with own | ⟨allowed, behind⟩
      · exact ⟨[], step, later, rfl, rfl, own⟩
      · obtain ⟨passed, other, rest, rfl, none, offends⟩ := ih behind
        refine ⟨step :: passed, other, rest, rfl, by simp [firstOffence, allowed, none], ?_⟩
        simpa using offends
  · rintro ⟨passed, step, later, rfl, none, offends⟩
    rw [firstOffence_append, none, Option.none_or, firstOffence, offends, Option.some_or]

theorem takesAttribute_addAttribute (name : Text) (before : List Step) :
    takesAttribute (addAttribute name :: before) = takesAttribute before := by
  have first : sinceStart 0 (addAttribute name :: before) =
      (sinceStart 0 before).map (addAttribute name :: ·) := by simp [sinceStart]
  rw [takesAttribute, first, Option.any_map]
  rfl

/-- Behind what is written or ended there is no place for an attribute. -/
theorem takesAttribute_of_written {step : Step} (written : step = .write ∨ step = .endTag)
    (before : List Step) : takesAttribute (step :: before) = false := by
  rcases written with rfl | rfl <;> simp [takesAttribute, sinceStart, Option.any_map, isAttribute]

/-- The pieces are drawn by the steps, which go on behind others, or both end with one error. -/
def Draw (before steps : List Step) (run : Except RenderError (List Piece)) : Prop :=
  Meets (fun error => firstOffence before steps = some error)
    (fun pieces => firstOffence before steps = none ∧
      takesAttribute (steps.reverse ++ before) = Piece.isUnfinished pieces) run

theorem Draw.bind {before steps more : List Step} {run : Except RenderError (List Piece)}
    {next : List Piece → Except RenderError (List Piece)} (begun : Draw before steps run)
    (done : ∀ pieces, takesAttribute (steps.reverse ++ before) = Piece.isUnfinished pieces →
      Draw (steps.reverse ++ before) more (next pieces)) :
    Draw before (steps ++ more) (run >>= next) := by
  cases begun with
  | error found => exact .error (by rw [firstOffence_append, found]; rfl)
  | ok holds =>
    refine (done _ holds.2).imp ?_ ?_
    · intro error found
      rw [firstOffence_append, holds.1, Option.none_or, found]
    · rintro pieces ⟨none, unfinished⟩
      rw [firstOffence_append, holds.1, Option.none_or, List.reverse_append, List.append_assoc]
      exact ⟨none, unfinished⟩

/-- A step that is allowed wherever it is taken. -/
theorem Draw.of_step {before : List Step} {step : Step} {pieces : List Piece}
    (allowed : step.offence before = none)
    (unfinished : takesAttribute (step :: before) = Piece.isUnfinished pieces) :
    Draw before [step] (.ok pieces) :=
  .ok ⟨by simp [firstOffence, allowed], unfinished⟩

theorem Draw.of_written {before : List Step} {step : Step} {pieces : List Piece}
    (written : step = .write ∨ step = .endTag) (finished : Piece.isUnfinished pieces = false) :
    Draw before [step] (.ok pieces) := by
  refine .of_step ?_ ((takesAttribute_of_written written before).trans finished.symm)
  rcases written with rfl | rfl <;> rfl

end Step

namespace Element

/-- Wherever the elements are drawn they are drawn by their steps. -/
def Walks (options : RenderOptions) (elements : List Element) : Prop :=
  ∀ before pieces, Step.takesAttribute before = Piece.isUnfinished pieces →
    Step.Draw before (allWalk options.branches elements) (drawAll options elements pieces)

variable {options : RenderOptions} {before : List Step} {pieces : List Piece}

theorem walks_cons {element : Element} {later : List Element}
    (first : ∀ before pieces, Step.takesAttribute before = Piece.isUnfinished pieces →
      Step.Draw before (element.walk options.branches) (element.draw options pieces))
    (rest : Walks options later) : Walks options (element :: later) := by
  intro before pieces unfinished
  rw [allWalk, drawAll]
  exact (first before pieces unfinished).bind fun pieces => rest _ pieces

theorem content_draws (options : RenderOptions) (content : Option Content)
    (unfinished : Step.takesAttribute before = Piece.isUnfinished pieces) :
    Step.Draw before (content.map fun _ => Step.write).toList
      (.ok (Piece.addContent options pieces content)) := by
  cases content with
  | none => exact .ok ⟨rfl, unfinished⟩
  | some content =>
    refine .of_written (.inl rfl) ?_
    cases content <;> rfl

theorem tag_draws {children : List Element} (inside : Walks options children) (head : TagHead)
    (content : Option Content) (before : List Step) (pieces : List Piece) :
    Step.Draw before (walk options.branches (.tag head content children))
      (draw options (.tag head content children) pieces) := by
  let started : Piece := .startTag head.name
    (head.allAttributes.map fun a => ⟨a.name, options.encoded a.value⟩) false
  have begun : Step.Draw before [.startTag] (.ok (started :: Piece.finish pieces)) :=
    .of_step rfl rfl
  have steps : walk options.branches (.tag head content children) = [.startTag] ++
      ((content.map fun _ => Step.write).toList ++
        (allWalk options.branches children ++ [.endTag])) := by simp [walk]
  have drawn : draw options (.tag head content children) pieces =
      .ok (started :: Piece.finish pieces) >>= fun begun =>
        .ok (Piece.addContent options begun content) >>= fun filled =>
          drawAll options children filled >>= fun filled =>
            .ok ((if Piece.isUnfinished filled then .selfClose else .endTag head.name) :: filled) :=
    rfl
  rw [steps, drawn]
  refine begun.bind fun begun here => ?_
  refine (content_draws options content here).bind fun filled there => ?_
  refine (inside _ filled there).bind fun filled _ => ?_
  refine .of_written (.inr rfl) ?_
  cases Piece.isUnfinished filled <;> rfl

/-- Every forest is drawn by its steps. -/
theorem walks (options : RenderOptions) (elements : List Element) : Walks options elements := by
  induction elements using forest_induction with
  | nil => exact fun before pieces unfinished => .ok ⟨rfl, unfinished⟩
  | tag head content children later inside rest =>
    exact walks_cons (fun before pieces _ => tag_draws inside head content before pieces) rest
  | loneAttribute name value later rest =>
    refine walks_cons (fun before pieces unfinished => ?_) rest
    rw [walk, draw]
    cases takes : Piece.isUnfinished pieces with
    | true =>
      obtain ⟨tag, attributes, outer, rfl⟩ := Piece.exists_of_unfinished takes
      refine .of_step (by simp [Step.offence, unfinished, takes]) ?_
      rw [Step.takesAttribute_addAttribute, unfinished]
      rfl
    | false =>
      unfold Piece.addAttribute
      split
      · contradiction
      · exact .error (by simp [Step.firstOffence, Step.offence, unfinished, takes])
  | text value later rest =>
    exact walks_cons (fun _ _ _ => .of_written (.inl rfl) rfl) rest
  | expression value later rest =>
    exact walks_cons (fun _ _ _ => .of_written (.inl rfl) rfl) rest
  | conditional predicate thenBranch elseBranch later first second rest =>
    refine walks_cons (fun before pieces unfinished => ?_) rest
    rw [walk, draw]
    split
    · exact first before pieces unfinished
    · exact second before pieces unfinished
  | comment body buffered later rest =>
    refine walks_cons (fun before pieces unfinished => ?_) rest
    cases buffered with
    | false => exact .ok ⟨rfl, unfinished⟩
    | true => exact .of_written (.inl rfl) rfl
  | marker kind argument children later inside rest =>
    exact walks_cons (fun before pieces _ => .error rfl) rest

/-- Nothing is walked in branches that are not chosen. -/
theorem allWalk_allChosen (choice : BranchChoice) (elements : List Element) :
    allWalk choice (allChosen choice elements) = allWalk choice elements := by
  induction elements using forest_induction with
  | nil => rfl
  | conditional predicate thenBranch elseBranch later first second rest =>
    rw [allChosen, allWalk, allWalk, rest, chosen]
    cases taken : choice.takesThen predicate with
    | true => simp [walk, taken, first]
    | false => simp [walk, taken, second]
  | tag head content children later inside rest =>
    simp [allChosen, chosen, allWalk, walk, inside, rest]
  | _ => simp_all [allChosen, chosen, allWalk, walk]

theorem mem_allWalk {choice : BranchChoice} {step : Step} {elements : List Element} :
    step ∈ allWalk choice elements ↔ ∃ e ∈ elements, step ∈ e.walk choice := by
  induction elements with
  | nil => simp [allWalk]
  | cons e later ih => simp [allWalk, ih]

/-- What is read from a text has no attributes of its own. -/
theorem WellFormed.not_mem_walk {element : Element} (formed : element.WellFormed)
    (choice : BranchChoice) (name : Text) : .addAttribute name ∉ element.walk choice := by
  induction formed with
  | @tag _ content children _ _ _ inside =>
    have below : .addAttribute name ∉ allWalk choice children :=
      fun step => (mem_allWalk.mp step).elim fun e own => inside e own.1 own.2
    cases content <;> simp [walk, below]
  | text => simp [walk]
  | conditional _ _ _ _ first second =>
    rw [walk]
    split
    · exact fun step => (mem_allWalk.mp step).elim fun e own => first e own.1 own.2
    · exact fun step => (mem_allWalk.mp step).elim fun e own => second e own.1 own.2
  | @comment _ buffered => cases buffered <;> simp [walk]
  | marker => simp [walk]

end Element

namespace Template

/-- The pieces can be drawn if no step offends, and else the first that does is the error. -/
theorem pieces_walk (template : Template) (options : RenderOptions) :
    Meets
      (fun error =>
        Step.firstOffence [] (Element.allWalk options.branches template.elements) = some error)
      (fun _ => Step.firstOffence [] (Element.allWalk options.branches template.elements) = none)
      (template.pieces options) := by
  have start : Step.takesAttribute [] = Piece.isUnfinished
      (template.doctype.map fun keyword => .declaration (Doctype.declaration keyword)).toList := by
    cases template.doctype <;> rfl
  exact Meets.bind (Element.walks options template.elements [] _ start) fun _ holds => .ok holds.1

theorem render_eq_error_iff (template : Template) (options : RenderOptions) (error : RenderError) :
    template.render options = .error error ↔
      Step.firstOffence [] (Element.allWalk options.branches template.elements) = some error := by
  have laid : template.render options = (template.pieces options).map _ :=
    template.render_eq_map options options.indentUnit options.newlineMarker
  have walked := template.pieces_walk options
  rw [laid]
  generalize template.pieces options = drawn at walked
  cases walked with
  | ok none => simp [none, Except.map]
  | error found => simp [found, Except.map]

/-- When rendering fails, and how. It fails exactly if a step of the walk through the chosen
branches may not follow the steps before it, and the first such step says what the error is. An end
tag always has a start tag. Neither layout nor encoding nor a branch that is not chosen has a part
in that, and what was read from a text fails only at a node that has no markup. -/
theorem render_fails (template : Template) (options : RenderOptions) :
    (∀ error, template.render options = .error error ↔
      Step.firstOffence [] (Element.allWalk options.branches template.elements) = some error) ∧
    template.render options ≠ .error .unbalancedEndTag ∧
    (∀ (other : Template) (options' : RenderOptions), options'.branches = options.branches →
      Element.allChosen options.branches other.elements =
        Element.allChosen options.branches template.elements →
      ∀ error, other.render options' = .error error ↔ template.render options = .error error) ∧
    ∀ text error, parse text = .ok template → template.render options = .error error →
      ∃ kind : Marker, error = .unsupported kind.name := by
  refine ⟨template.render_eq_error_iff options, fun failed => ?_, ?_, ?_⟩
  · rw [render_eq_error_iff] at failed
    obtain ⟨_, _, _, -, -, offends⟩ := Step.firstOffence_eq_some_iff.mp failed
    obtain ⟨_, _, differs⟩ | ⟨_, _, differs⟩ := Step.offence_cases offends <;> contradiction
  · intro other options' branches same error
    rw [render_eq_error_iff, render_eq_error_iff, branches, ← Element.allWalk_allChosen, same,
      Element.allWalk_allChosen]
  · intro text error read failed
    rw [render_eq_error_iff] at failed
    obtain ⟨passed, step, later, split, -, offends⟩ := Step.firstOffence_eq_some_iff.mp failed
    obtain ⟨name, rfl, -⟩ | ⟨kind, -, same⟩ := Step.offence_cases offends
    · have member : .addAttribute name ∈ Element.allWalk options.branches template.elements :=
        split ▸ List.mem_append_cons_self ..
      obtain ⟨e, inside, walked⟩ := Element.mem_allWalk.mp member
      exact absurd walked
        (((wellFormed_of_parse read).elements e inside).not_mem_walk options.branches name)
    · exact ⟨kind, same⟩

/-- Behind a hidden comment and an empty branch there is place for an attribute, and behind an empty
text there is none. The loop that is not chosen could not be written either, as one that is read. -/
theorem render_fails_behind_text :
    let template : Template := ⟨none, [.tag { name := ['p'] } none [.comment ['c'] false,
      .conditional ['q'] [.marker .each ['x'] []] [], .loneAttribute ['a'] [], .text [],
      .loneAttribute ['b'] []]]⟩
    let other : Template := ⟨some ['5'], [.tag { name := ['p'] } none [.comment ['c'] false,
      .conditional ['q'] [] [], .loneAttribute ['a'] [], .text [], .loneAttribute ['b'] []]]⟩
    let loop : Template := ⟨none, [.marker .each ['x'] []]⟩
    template.render {} = .error (.attributeOutsideStartTag ['b']) ∧
      other.render { RenderOptions.pretty with autoEncode := true } =
        .error (.attributeOutsideStartTag ['b']) ∧
      parse "each x".toList = .ok loop ∧ loop.render {} = .error (.unsupported "each") ∧
      ∃ kind : Marker, RenderError.unsupported "each" = .unsupported kind.name := by
  intro template other loop
  have offends : Step.firstOffence [] (Element.allWalk .elseBranch template.elements) =
      some (.attributeOutsideStartTag ['b']) := by rfl
  have failed := ((template.render_fails {}).1 _).mpr offends
  have same := ((template.render_fails {}).2.2.1 other
    { RenderOptions.pretty with autoEncode := true } rfl rfl _).mpr failed
  have read : parse "each x".toList = .ok loop := by cbv
  have unwritten : loop.render {} = .error (.unsupported "each") := by rfl
  exact ⟨failed, same, read, unwritten, (loop.render_fails {}).2.2.2 _ _ read unwritten⟩

end Template

end IndentMarkup
