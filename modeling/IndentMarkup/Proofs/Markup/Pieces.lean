import IndentMarkup.Proofs.Markup.Compact
import Mathlib.Data.List.Chain

/-! Markup as a list of pieces, and the line breaks between them. The pieces of a template do not
depend on how it is laid out, and layout only adds separators: each stands in front of a tag or a
comment, behind another one. -/
namespace IndentMarkup

inductive Piece where
  | declaration (markup : Text)
  /-- A start tag, which is only finished if something else than its end follows. -/
  | startTag (name : Text) (attributes : List Attribute) (finished : Bool)
  | text (markup : Text)
  | comment (body : Text)
  /-- The end of an element that holds nothing. -/
  | selfClose
  | endTag (name : Text)
  deriving DecidableEq, Repr

namespace Piece

def attributeMarkup (a : Attribute) : Text :=
  ' ' :: a.name ++ ['=', '"'] ++ a.value ++ ['"']

def markup : Piece → Text
  | declaration markup => markup
  | startTag name attributes finished =>
    '<' :: name ++ attributes.flatMap attributeMarkup ++ if finished then ['>'] else []
  | text markup => markup
  | comment body => ['<', '!', '-', '-'] ++ body ++ ['-', '-', '>']
  | selfClose => ['/', '>']
  | endTag name => ['<', '/'] ++ name ++ ['>']

/-- Start tags, comments and end tags may stand on a line of their own. -/
def breaksBefore : Piece → Bool
  | startTag .. | comment _ | endTag _ => true
  | _ => false

/-- Nothing stands on a line of its own behind a text or the document type. -/
def breaksBehind : Piece → Bool
  | declaration _ | text _ => false
  | _ => true

def isText : Piece → Bool
  | text _ => true
  | _ => false

/-- The number of elements that are open behind the pieces, the latest of which comes first. -/
def opened : List Piece → Nat
  | [] => 0
  | startTag .. :: before => opened before + 1
  | selfClose :: before | endTag _ :: before => opened before - 1
  | _ :: before => opened before

/-- The number of elements around a separator in front of the piece: an end tag stands beside
its element. -/
def depth (before : List Piece) : Piece → Nat
  | endTag name => opened (endTag name :: before)
  | _ => opened before

end Piece

/-- A part of the markup with layout. -/
inductive Segment where
  | separator (depth : Nat)
  | written (piece : Piece)
  deriving DecidableEq, Repr

namespace Segment

def markup (indentUnit newlineMarker : Text) : Segment → Text
  | separator depth => newlineMarker ++ (List.replicate depth indentUnit).flatten
  | written piece => piece.markup

/-- The separator between a piece and others, the latest of which comes first. -/
def between (before : List Piece) (piece : Piece) : List Segment :=
  if piece.breaksBefore && before.head?.any Piece.breaksBehind then
    [separator (piece.depth before)]
  else []

/-- All pieces, with the separators between them and those before. -/
def arrange : List Piece → List Piece → List Segment
  | _, [] => []
  | before, piece :: later =>
    between before piece ++ written piece :: arrange (piece :: before) later

/-- Separators stand one by one between pieces that are no texts, and none in front of an end
inside of a start tag. -/
def Apart : Segment → Segment → Prop
  | written _, written _ => True
  | written last, separator _ => last.isText = false
  | separator _, written next => next.isText = false ∧ next ≠ .selfClose
  | separator _, separator _ => False

end Segment

/-- The markup of the pieces with their separators. -/
def Piece.layOut (indentUnit newlineMarker : Text) (pieces : List Piece) : Text :=
  (Segment.arrange [] pieces).flatMap (Segment.markup indentUnit newlineMarker)

namespace Piece

/-- Ends the start tag that comes last, if it is unfinished. -/
def finish : List Piece → List Piece
  | startTag name attributes false :: before => startTag name attributes true :: before
  | pieces => pieces

def isUnfinished : List Piece → Bool
  | startTag _ _ false :: _ => true
  | _ => false

/-- Adds an attribute to the start tag that comes last. -/
def addAttribute (name value : Text) : List Piece → Except RenderError (List Piece)
  | startTag tag attributes false :: before =>
    .ok (startTag tag (attributes ++ [⟨name, value⟩]) false :: before)
  | _ => .error (.attributeOutsideStartTag name)

def addText (value : Text) (pieces : List Piece) : List Piece :=
  text value :: finish pieces

def addContent (options : RenderOptions) (pieces : List Piece) : Option Content → List Piece
  | none => pieces
  | some (.text value) => addText (options.encoded value) pieces
  | some (.expression value) => addText (options.encoded value) pieces

end Piece

mutual

/-- Draws the element behind the pieces, the latest of which comes first. -/
def Element.draw (options : RenderOptions) :
    Element → List Piece → Except RenderError (List Piece)
  | .tag head content children, pieces => do
    let attributes := head.allAttributes.map fun a => ⟨a.name, options.encoded a.value⟩
    let begun := .startTag head.name attributes false :: Piece.finish pieces
    let filled ← drawAll options children (Piece.addContent options begun content)
    return (if Piece.isUnfinished filled then .selfClose else .endTag head.name) :: filled
  | .loneAttribute name value, pieces => Piece.addAttribute name (options.encoded value) pieces
  | .text value, pieces => .ok (Piece.addText (options.encoded value) pieces)
  | .expression value, pieces => .ok (Piece.addText (options.encoded value) pieces)
  | .conditional predicate thenBranch elseBranch, pieces =>
    if options.branches.takesThen predicate then drawAll options thenBranch pieces
    else drawAll options elseBranch pieces
  | .comment body buffered, pieces =>
    .ok (if buffered then .comment body :: Piece.finish pieces else pieces)
  | .marker kind _ _, _ => .error (.unsupported kind.name)

def Element.drawAll (options : RenderOptions) :
    List Element → List Piece → Except RenderError (List Piece)
  | [], pieces => .ok pieces
  | element :: elements, pieces => do drawAll options elements (← element.draw options pieces)

end

/-- The pieces of the markup in the order of the document, whatever its layout is. -/
def Template.pieces (template : Template) (options : RenderOptions) :
    Except RenderError (List Piece) := do
  let declaration := template.doctype.map fun keyword =>
    Piece.declaration (Doctype.declaration keyword)
  return (← Element.drawAll options template.elements declaration.toList).reverse

namespace Segment

theorem arrange_append (before first second : List Piece) :
    arrange before (first ++ second) =
      arrange before first ++ arrange (first.reverse ++ before) second := by
  induction first generalizing before with
  | nil => rfl
  | cons piece first ih => simp [arrange, ih]

/-- So separators stand only between tags and comments. -/
theorem arrange_apart (before pieces : List Piece) :
    (arrange before pieces).IsChain Apart ∧ ∀ last ∈ before.head?,
      ∀ first ∈ (arrange before pieces).head?, Apart (written last) first := by
  induction pieces generalizing before with
  | nil => exact ⟨.nil, by simp [arrange]⟩
  | cons piece later ih =>
    have rest : (written piece :: arrange (piece :: before) later).IsChain Apart :=
      List.isChain_cons.mpr ⟨(ih (piece :: before)).2 piece rfl, (ih (piece :: before)).1⟩
    rw [arrange, between]
    split
    next apart =>
      rw [Bool.and_eq_true, Option.any_eq_true] at apart
      obtain ⟨breaks, previous, head, behind⟩ := apart
      refine ⟨.cons_cons ?_ rest, ?_⟩
      · cases piece <;> first | contradiction | exact ⟨rfl, nofun⟩
      · rintro last isLast _ ⟨rfl⟩
        obtain rfl := Option.some.inj (head.symm.trans isLast)
        cases previous <;> first | contradiction | rfl
    next =>
      refine ⟨rest, ?_⟩
      rintro last - _ ⟨rfl⟩
      trivial

end Segment

namespace Piece

variable {indentUnit newlineMarker : Text}

/-- Layout goes on with a separator, if there is one, and the piece. -/
theorem layOut_concat (before : List Piece) (piece : Piece) :
    layOut indentUnit newlineMarker (piece :: before).reverse =
      layOut indentUnit newlineMarker before.reverse ++
        ((Segment.between before piece).flatMap (Segment.markup indentUnit newlineMarker) ++
          piece.markup) := by
  rw [List.reverse_cons, layOut, layOut, Segment.arrange_append]
  simp [Segment.arrange, Segment.markup]

/-- What is added to a start tag is added to the markup. -/
theorem layOut_startTag (before : List Piece) (name : Text) (attributes : List Attribute)
    (finished : Bool) :
    layOut indentUnit newlineMarker (startTag name attributes finished :: before).reverse =
      layOut indentUnit newlineMarker (startTag name [] false :: before).reverse ++
        (attributes.flatMap attributeMarkup ++ if finished then ['>'] else []) := by
  have same : Segment.between before (startTag name attributes finished) =
      Segment.between before (startTag name [] false) := rfl
  rw [layOut_concat, layOut_concat, same]
  simp [markup]

theorem exists_of_unfinished {pieces : List Piece} (unfinished : isUnfinished pieces = true) :
    ∃ name attributes before, pieces = startTag name attributes false :: before := by
  unfold isUnfinished at unfinished
  split at unfinished
  · exact ⟨_, _, _, rfl⟩
  · contradiction

theorem finish_of_finished {pieces : List Piece} (finished : isUnfinished pieces = false) :
    finish pieces = pieces := by
  unfold finish
  split
  · contradiction
  · rfl

end Piece

namespace Writer

/-- The writer has written the pieces, the latest of which comes first, in its own layout. -/
structure Drawn (w : Writer) (pieces : List Piece) : Prop where
  output : w.output =
    Piece.layOut w.options.indentUnit w.options.newlineMarker pieces.reverse
  depth : w.depth = Piece.opened pieces
  startTagOpen : w.startTagOpen = Piece.isUnfinished pieces
  -- Behind a start tag a break is due only once the tag is finished.
  breakDue : w.startTagOpen = false → w.breakDue = pieces.head?.any Piece.breaksBehind

theorem output_lineBreak (w : Writer) :
    w.dueBreak.output = w.output ++ if w.breakDue then
      w.options.newlineMarker ++ (List.replicate w.depth w.options.indentUnit).flatten else [] := by
  rw [dueBreak]
  split
  · exact output_put w _
  · simp

/-- A piece that may stand on a line of its own. -/
theorem output_broken {w : Writer} {pieces : List Piece} {piece : Piece}
    (output : w.output = Piece.layOut w.options.indentUnit w.options.newlineMarker pieces.reverse)
    (due : w.breakDue = pieces.head?.any Piece.breaksBehind)
    (depth : w.depth = piece.depth pieces) (breaks : piece.breaksBefore = true) :
    (w.dueBreak.put piece.markup).output =
      Piece.layOut w.options.indentUnit w.options.newlineMarker (piece :: pieces).reverse := by
  rw [output_put, output_lineBreak, Piece.layOut_concat, output, due, depth, List.append_assoc]
  congr 2
  rw [Segment.between, breaks, Bool.true_and]
  split
  · simp [Segment.markup]
  · rfl

theorem Drawn.finish {w : Writer} {pieces : List Piece} (drawn : w.Drawn pieces) :
    w.finishStartTag.Drawn (Piece.finish pieces) := by
  rw [finishStartTag]
  by_cases unfinished : w.startTagOpen = true
  · obtain ⟨name, attributes, before, rfl⟩ :=
      Piece.exists_of_unfinished (drawn.startTagOpen.symm.trans unfinished)
    rw [if_pos unfinished]
    refine ⟨?_, drawn.depth, rfl, fun _ => rfl⟩
    have output := drawn.output
    rw [Piece.layOut_startTag] at output
    rw [Piece.finish, Piece.layOut_startTag]
    refine (output_put w ['>']).trans ?_
    rw [output, List.append_assoc, if_neg Bool.false_ne_true, List.append_nil]
    rfl
  · have finished : Piece.isUnfinished pieces = false := by
      simpa [drawn.startTagOpen] using unfinished
    rw [if_neg unfinished, Piece.finish_of_finished finished]
    exact drawn

/-- Behind a finished start tag it is settled whether a break is due. -/
theorem Drawn.breakDue_finish {w : Writer} {pieces : List Piece} (drawn : w.Drawn pieces) :
    w.finishStartTag.breakDue = (Piece.finish pieces).head?.any Piece.breaksBehind :=
  drawn.finish.breakDue (startTagOpen_finishStartTag w)

theorem Drawn.raw {w : Writer} {pieces : List Piece} (drawn : w.Drawn pieces) {piece : Piece}
    {markup : Text} (inline : piece = .text markup ∨ piece = .declaration markup) :
    (w.raw markup).Drawn (piece :: Piece.finish pieces) := by
  have finished := drawn.finish
  refine ⟨?_, ?_, ?_, ?_⟩
  · have written : (w.raw markup).output = (w.finishStartTag.put markup).output := rfl
    rw [Piece.layOut_concat, written, output_put, finished.output]
    rcases inline with rfl | rfl <;> rfl
  · have depth := finished.depth
    rcases inline with rfl | rfl <;> exact depth
  · have closed := startTagOpen_finishStartTag w
    rcases inline with rfl | rfl <;> exact closed
  · rcases inline with rfl | rfl <;> exact fun _ => rfl

@[simp] theorem depth_dueBreak (w : Writer) : w.dueBreak.depth = w.depth := by
  unfold dueBreak; split <;> rfl

theorem Drawn.comment {w : Writer} {pieces : List Piece} (drawn : w.Drawn pieces) (body : Text) :
    (w.comment body).Drawn (.comment body :: Piece.finish pieces) := by
  have finished := drawn.finish
  have options : (w.comment body).options = w.finishStartTag.options := by
    simp [Writer.comment, put]
  refine ⟨?_, ?_, by simp [Writer.comment, put, Piece.isUnfinished], fun _ => rfl⟩
  · rw [options]
    exact @output_broken _ _ (.comment body) finished.output drawn.breakDue_finish
      finished.depth rfl
  · simpa [Writer.comment, put, Piece.opened] using finished.depth

theorem Drawn.startTag {w : Writer} {pieces : List Piece} (drawn : w.Drawn pieces) (name : Text) :
    (w.startTag name).Drawn (.startTag name [] false :: Piece.finish pieces) := by
  have finished := drawn.finish
  have options : (w.startTag name).options = w.finishStartTag.options := by simp
  refine ⟨?_, ?_, rfl, nofun⟩
  · rw [options]
    have markup : (Piece.startTag name [] false).markup = '<' :: name := by simp [Piece.markup]
    have output := @output_broken _ _ (.startTag name [] false) finished.output
      drawn.breakDue_finish finished.depth rfl
    rw [markup] at output
    exact output
  · simpa [Writer.startTag, put, Piece.opened] using finished.depth

/-- A start tag that is unfinished takes further attributes. -/
theorem Drawn.extends {w after : Writer} {name : Text} {first second : List Attribute}
    {before : List Piece} (drawn : w.Drawn (.startTag name first false :: before))
    (more : w.Extends after (second.flatMap Piece.attributeMarkup)) :
    after.Drawn (.startTag name (first ++ second) false :: before) := by
  have unfinished : after.startTagOpen = true := more.startTagOpen.trans drawn.startTagOpen
  have depth : after.depth = w.depth := by rw [more.same]
  refine ⟨?_, depth.trans drawn.depth, unfinished, fun closed => ?_⟩
  · rw [more.output, more.options, drawn.output, Piece.layOut_startTag,
      Piece.layOut_startTag before name (first ++ second)]
    simp
  · rw [unfinished] at closed
    contradiction

/-- The end of an element. -/
theorem Drawn.endTag {w : Writer} {pieces : List Piece} (drawn : w.Drawn pieces) {name : Text}
    {outer : List Text} (inside : w.openTags = name :: outer) :
    ∃ after, w.endTag = .ok after ∧ after.options = w.options ∧ after.openTags = outer ∧
      after.Drawn ((if Piece.isUnfinished pieces then .selfClose else .endTag name) :: pieces) := by
  obtain ⟨options, written, depth, openTags, startTagOpen, breakDue⟩ := w
  obtain rfl : openTags = name :: outer := inside
  obtain rfl : startTagOpen = Piece.isUnfinished pieces := drawn.startTagOpen
  have closing : depth - 1 = Piece.opened pieces - 1 := congrArg (· - 1) drawn.depth
  cases unfinished : Piece.isUnfinished pieces with
  | true =>
    -- The element closes in its own start tag, where no break can be due.
    rw [unfinished] at drawn
    refine ⟨_, rfl, rfl, rfl, ?_, closing, rfl, fun _ => rfl⟩
    rw [if_pos rfl, Piece.layOut_concat]
    exact (output_put _ _).trans (congrArg (· ++ _) drawn.output)
  | false =>
    rw [unfinished] at drawn
    let inner : Writer := ⟨options, written, depth - 1, outer, false, breakDue⟩
    have broken := @output_broken inner pieces (.endTag name) drawn.output (drawn.breakDue rfl)
      closing rfl
    refine ⟨_, rfl, options_dueBreak inner, openTags_dueBreak inner, ?_, ?_, ?_, fun _ => rfl⟩
    · change _ = Piece.layOut inner.dueBreak.options.indentUnit
        inner.dueBreak.options.newlineMarker _
      rw [options_dueBreak]
      exact broken
    · exact (depth_dueBreak inner).trans closing
    · exact startTagOpen_dueBreak inner

/-- The pieces are drawn behind others, and no further element is left open. -/
structure Draws (w after : Writer) (pieces : List Piece) : Prop where
  options : after.options = w.options
  openTags : after.openTags = w.openTags
  drawn : after.Drawn pieces

theorem Draws.trans {w middle after : Writer} {first second : List Piece}
    (begun : w.Draws middle first) (done : middle.Draws after second) : w.Draws after second :=
  ⟨done.options.trans begun.options, done.openTags.trans begun.openTags, done.drawn⟩

theorem Drawn.text {w : Writer} {pieces : List Piece} (drawn : w.Drawn pieces) (value : Text) :
    w.Draws (w.text value) (Piece.addText (w.options.encoded value) pieces) :=
  ⟨options_finishStartTag w, openTags_finishStartTag w, drawn.raw (.inl rfl)⟩

theorem Drawn.content {w : Writer} {pieces : List Piece} (drawn : w.Drawn pieces)
    (content : Option Content) :
    w.Draws (Content.write w content) (Piece.addContent w.options pieces content) := by
  cases content with
  | none => exact ⟨rfl, rfl, drawn⟩
  | some content => cases content <;> exact drawn.text _

theorem Drawn.addAttribute {w : Writer} {pieces : List Piece} (drawn : w.Drawn pieces)
    (name value : Text) :
    Agree Eq w.Draws (w.addAttribute name value)
      (Piece.addAttribute name (w.options.encoded value) pieces) := by
  rw [Writer.addAttribute]
  by_cases unfinished : w.startTagOpen = true
  · obtain ⟨tag, attributes, before, rfl⟩ :=
      Piece.exists_of_unfinished (drawn.startTagOpen.symm.trans unfinished)
    rw [if_pos unfinished]
    refine .ok ⟨rfl, rfl, drawn.extends ?_⟩
    rw [List.flatMap_singleton]
    exact extends_put w _
  · rw [if_neg unfinished]
    have finished := drawn.startTagOpen.symm.trans (Bool.eq_false_iff.mpr unfinished)
    unfold Piece.addAttribute
    split
    · contradiction
    · exact .error rfl

/-- A start tag with its attributes. -/
theorem Drawn.head {w : Writer} {pieces : List Piece} (drawn : w.Drawn pieces) (head : TagHead) :
    ∃ begun, head.write w = .ok begun ∧ begun.options = w.options ∧
      begun.openTags = head.name :: w.openTags ∧
      begun.Drawn (.startTag head.name
        (head.allAttributes.map fun a => ⟨a.name, w.options.encoded a.value⟩) false ::
          Piece.finish pieces) := by
  obtain ⟨begun, written, more⟩ := head.write_extends w
  refine ⟨begun, written, by simp [more.options], by simp [more.openTags], ?_⟩
  refine (drawn.startTag head.name).extends ?_
  rw [List.flatMap_map]
  exact more

end Writer

/-- Wherever the elements are drawn they are written, with any layout, and they fail alike. -/
def Element.DrawsAll (options : RenderOptions) (elements : List Element) : Prop :=
  ∀ (indentUnit newlineMarker : Text) (w : Writer) (pieces : List Piece),
    w.options = { options with indentUnit, newlineMarker } → w.Drawn pieces →
      Agree Eq w.Draws (writeAll w.options elements w) (drawAll options elements pieces)

theorem Element.cons_drawn {options : RenderOptions} {element : Element} {later : List Element}
    (first : ∀ (indentUnit newlineMarker : Text) (w : Writer) (pieces : List Piece),
      w.options = { options with indentUnit, newlineMarker } → w.Drawn pieces →
        Agree Eq w.Draws (element.write w.options w) (element.draw options pieces))
    (rest : DrawsAll options later) : DrawsAll options (element :: later) := by
  intro indentUnit newlineMarker w pieces same drawn
  rw [writeAll, drawAll]
  refine (first _ _ w pieces same drawn).bind fun middle begun here => ?_
  rw [← here.options]
  refine (rest _ _ middle begun (here.options.trans same) here.drawn).imp ?_
  exact fun after done there => here.trans there

/-- A tag is drawn as its start tag, what stands inside it, and its end. -/
theorem Element.tag_drawn {options : RenderOptions} {indentUnit newlineMarker : Text} {w : Writer}
    {pieces : List Piece} {children : List Element} (inside : DrawsAll options children)
    (same : w.options = { options with indentUnit, newlineMarker }) (drawn : w.Drawn pieces)
    (head : TagHead) (content : Option Content) :
    Agree Eq w.Draws (write w.options (.tag head content children) w)
      (draw options (.tag head content children) pieces) := by
  obtain ⟨begun, start, begunOptions, openTags, startTag⟩ := drawn.head head
  have inline := startTag.content content
  have laid : (Content.write begun content).options = w.options :=
    inline.options.trans begunOptions
  -- Values are drawn as the writer encodes them: layout has no part in that.
  have encoded : w.options.encoded = options.encoded := by rw [same]; rfl
  have added : Piece.addContent begun.options = Piece.addContent options := by
    rw [begunOptions, same]
    funext before content
    rcases content with _ | _ | _ <;> rfl
  rw [encoded, added] at inline
  have children := inside _ _ _ _ (laid.trans same) inline.drawn
  rw [laid] at children
  rw [write_tag, draw, start]
  refine children.bind fun filled pieces body => ?_
  obtain ⟨after, ended, afterOptions, outer, closed⟩ :=
    body.drawn.endTag (body.openTags.trans (inline.openTags.trans openTags))
  rw [ended]
  exact .ok ⟨afterOptions.trans (body.options.trans laid), outer, closed⟩

/-- Every forest is written as it is drawn. -/
theorem Element.drawsAll (options : RenderOptions) (elements : List Element) :
    DrawsAll options elements := by
  induction elements using forest_induction with
  | nil => exact fun _ _ w pieces _ drawn => .ok ⟨rfl, rfl, drawn⟩
  | tag head content children later inside rest =>
    exact cons_drawn (fun _ _ w pieces same drawn => tag_drawn inside same drawn head content) rest
  | loneAttribute name value later rest =>
    refine cons_drawn (fun _ _ w pieces same drawn => ?_) rest
    have added := drawn.addAttribute name value
    rw [same] at added
    exact added
  | text value later rest =>
    refine cons_drawn (fun _ _ w pieces same drawn => ?_) rest
    have written := drawn.text value
    rw [same] at written
    exact .ok written
  | expression value later rest =>
    refine cons_drawn (fun _ _ w pieces same drawn => ?_) rest
    have written := drawn.text value
    rw [same] at written
    exact .ok written
  | conditional predicate thenBranch elseBranch later first second rest =>
    refine cons_drawn (fun _ _ w pieces same drawn => ?_) rest
    have branches : w.options.branches = options.branches := by rw [same]
    rw [write, draw, branches]
    split
    · exact first _ _ w pieces same drawn
    · exact second _ _ w pieces same drawn
  | comment body buffered later rest =>
    refine cons_drawn (fun _ _ w pieces same drawn => ?_) rest
    cases buffered with
    | false => exact .ok ⟨rfl, rfl, drawn⟩
    | true => exact .ok ⟨by simp [Writer.comment, Writer.put], by simp [Writer.comment, Writer.put],
        drawn.comment body⟩
  | marker kind argument children later inside rest =>
    exact cons_drawn (fun _ _ w pieces same drawn => .error rfl) rest

theorem Piece.layOut_compact (pieces : List Piece) :
    layOut [] [] pieces = pieces.flatMap markup := by
  suffices arranged : ∀ before, (Segment.arrange before pieces).flatMap (Segment.markup [] []) =
      pieces.flatMap markup from arranged []
  induction pieces with
  | nil => exact fun before => rfl
  | cons piece later ih =>
    intro before
    have blank : (Segment.between before piece).flatMap (Segment.markup [] []) = [] := by
      rw [Segment.between]
      split <;> simp [Segment.markup]
    rw [Segment.arrange, List.flatMap_append, blank, List.flatMap_cons, ih]
    rfl

theorem Writer.drawn_start (options : RenderOptions) : (start options).Drawn [] :=
  ⟨rfl, rfl, rfl, fun _ => rfl⟩

theorem Template.render_drawn (template : Template) (options : RenderOptions)
    (indentUnit newlineMarker : Text) :
    Agree Eq (fun output pieces => output = Piece.layOut indentUnit newlineMarker pieces)
      (template.render { options with indentUnit, newlineMarker }) (template.pieces options) := by
  obtain ⟨doctype, elements⟩ := template
  rw [render, pieces]
  have fresh := Writer.drawn_start { options with indentUnit, newlineMarker }
  have drawn : ∀ w pieces, w.options = { options with indentUnit, newlineMarker } →
      w.Drawn pieces → Agree Eq (fun output pieces =>
        output = Piece.layOut indentUnit newlineMarker pieces)
        (return (← Element.writeAll { options with indentUnit, newlineMarker } elements w).output)
        (return (← Element.drawAll options elements pieces).reverse) := by
    intro w pieces same begun
    have agree := Element.drawsAll options elements _ _ w pieces same begun
    rw [same] at agree
    refine agree.bind fun after pieces done => .ok ?_
    rw [done.drawn.output, done.options, same]
  cases doctype with
  | none => exact drawn _ _ rfl fresh
  | some keyword => exact drawn _ _ rfl (fresh.raw (.inr rfl))

/-- Rendering lays out the pieces of the template, or fails as they do. -/
theorem Template.render_eq_map (template : Template) (options : RenderOptions)
    (indentUnit newlineMarker : Text) :
    template.render { options with indentUnit, newlineMarker } =
      (template.pieces options).map (Piece.layOut indentUnit newlineMarker) := by
  have agree := template.render_drawn options indentUnit newlineMarker
  have same := (agree.map (f := id) fun output pieces same => same).eq
  rwa [Except.map_id] at same

/-- Layout alters the markup by separators only. Whether a template can be rendered, and which
pieces its markup has, does not depend on what indents it and what breaks its lines; between the
pieces a break stands in front of every tag and comment behind another one, and no separator is
next to a text or in front of an end inside of a start tag. -/
theorem Template.render_layOut (template : Template) (options : RenderOptions) :
    (∃ error, ∀ indentUnit newlineMarker,
      template.render { options with indentUnit, newlineMarker } = .error error) ∨
    ∃ pieces, template.pieces options = .ok pieces ∧
      template.render { options with indentUnit := [], newlineMarker := [] } =
        .ok (pieces.flatMap Piece.markup) ∧
      (∀ indentUnit newlineMarker,
        template.render { options with indentUnit, newlineMarker } =
          .ok (Piece.layOut indentUnit newlineMarker pieces)) ∧
      (Segment.arrange [] pieces).IsChain Segment.Apart := by
  cases drawn : template.pieces options with
  | error error =>
    refine .inl ⟨error, fun indentUnit newlineMarker => ?_⟩
    rw [render_eq_map, drawn]
    rfl
  | ok pieces =>
    have rendered : ∀ indentUnit newlineMarker,
        template.render { options with indentUnit, newlineMarker } =
          .ok (Piece.layOut indentUnit newlineMarker pieces) := by
      intro indentUnit newlineMarker
      rw [render_eq_map, drawn]
      rfl
    refine .inr ⟨pieces, rfl, ?_, rendered, (Segment.arrange_apart [] pieces).1⟩
    rw [rendered, Piece.layOut_compact]

/-- A text keeps its neighbours on its own line, and the other tags have lines of their own. -/
theorem Template.render_layOut_around_text :
    let template : Template := ⟨none, [.tag { name := ['p'] } none [.tag { name := ['a'] } none [],
      .tag { name := ['i'] } none [], .text ['t'], .tag { name := ['b'] } none []]]⟩
    let pieces : List Piece := [.startTag ['p'] [] true, .startTag ['a'] [] false, .selfClose,
      .startTag ['i'] [] false, .selfClose, .text ['t'], .startTag ['b'] [] false, .selfClose,
      .endTag ['p']]
    template.pieces {} = .ok pieces ∧
      template.render {} = .ok "<p><a/><i/>t<b/></p>".toList ∧
      template.render .pretty = .ok "<p>\n  <a/>\n  <i/>t<b/>\n</p>".toList ∧
      Piece.layOut [' ', ' '] ['\n'] pieces = "<p>\n  <a/>\n  <i/>t<b/>\n</p>".toList ∧
      (Segment.arrange [] pieces).IsChain Segment.Apart := by
  intro template pieces
  have drawn : template.pieces {} = .ok pieces := by rfl
  have compact : template.render {} = .ok "<p><a/><i/>t<b/></p>".toList := by rfl
  have pretty : template.render .pretty = .ok "<p>\n  <a/>\n  <i/>t<b/>\n</p>".toList := by rfl
  rcases template.render_layOut {} with ⟨error, failed⟩ | ⟨found, same, -, laidOut, apart⟩
  · cases compact.symm.trans (failed [] [])
  · obtain rfl := Except.ok.inj (same.symm.trans drawn)
    exact ⟨drawn, compact, pretty,
      Except.ok.inj ((laidOut [' ', ' '] ['\n']).symm.trans pretty), apart⟩

end IndentMarkup
