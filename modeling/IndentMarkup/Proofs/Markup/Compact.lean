import IndentMarkup.Markup.Render
import IndentMarkup.Proofs.Result
import IndentMarkup.Proofs.Template.Forest

/-! Markup without line breaks, as a plain recursion over the template. The writer walks
the same template with a stack of open elements and an unfinished start tag; without
layout its output is that of the recursion. -/
namespace IndentMarkup

namespace RenderOptions

def encoded (options : RenderOptions) (value : Text) : Text :=
  if options.autoEncode then value.encode else value

def attributeMarkup (options : RenderOptions) (name value : Text) : Text :=
  ' ' :: name ++ ['=', '"'] ++ options.encoded value ++ ['"']

def contentMarkup (options : RenderOptions) : Option Content → Text
  | none => []
  | some (.text value) => options.encoded value
  | some (.expression value) => options.encoded value

/-- Neither line breaks nor indents are written. -/
structure Compact (options : RenderOptions) : Prop where
  indentUnit : options.indentUnit = []
  newlineMarker : options.newlineMarker = []

end RenderOptions

/-- What a start tag carries: the id, all classes as one attribute, and the others. -/
def TagHead.allAttributes (head : TagHead) : List Attribute :=
  (head.id.map (⟨['i', 'd'], ·⟩)).toList ++
  (if head.classes.isEmpty then []
    else [⟨['c', 'l', 'a', 's', 's'], [' '].intercalate head.classes⟩]) ++
  head.attributes

def TagHead.attributeMarkup (options : RenderOptions) (head : TagHead) : Text :=
  head.allAttributes.flatMap fun a => options.attributeMarkup a.name a.value

mutual

/-- Whether the element has markup: a tag, a text or a buffered comment is reached. -/
def Element.hasMarkup (options : RenderOptions) : Element → Bool
  | .tag .. => true
  | .loneAttribute .. => false
  | .text _ => true
  | .expression _ => true
  | .conditional predicate thenBranch elseBranch =>
    if options.branches.takesThen predicate then anyMarkup options thenBranch
    else anyMarkup options elseBranch
  | .comment _ buffered => buffered
  | .marker .. => false

def Element.anyMarkup (options : RenderOptions) : List Element → Bool
  | [] => false
  | element :: elements => element.hasMarkup options || anyMarkup options elements

end

mutual

/-- The markup of an element without line breaks. A tag that holds nothing closes itself. -/
def Element.markup (options : RenderOptions) : Element → Text
  | .tag head content children =>
    '<' :: head.name ++ head.attributeMarkup options ++
      if content.isSome || anyMarkup options children then
        ['>'] ++ options.contentMarkup content ++ allMarkup options children ++
          (['<', '/'] ++ head.name ++ ['>'])
      else ['/', '>']
  | .loneAttribute .. => []
  | .text value => options.encoded value
  | .expression value => options.encoded value
  | .conditional predicate thenBranch elseBranch =>
    if options.branches.takesThen predicate then allMarkup options thenBranch
    else allMarkup options elseBranch
  | .comment body buffered =>
    if buffered then ['<', '!', '-', '-'] ++ body ++ ['-', '-', '>'] else []
  | .marker .. => []

def Element.allMarkup (options : RenderOptions) : List Element → Text
  | [] => []
  | element :: elements => element.markup options ++ allMarkup options elements

end

/-- The declaration of the document type, if there is one, and all elements. -/
def Template.markup (template : Template) (options : RenderOptions) : Text :=
  (template.doctype.map Doctype.declaration).getD [] ++
    Element.allMarkup options template.elements

mutual

/-- Whether the element is, or holds in any branch, an attribute outside of a tag's own. -/
def Element.hasLoneAttribute : Element → Bool
  | .tag _ _ children => anyLoneAttribute children
  | .loneAttribute .. => true
  | .text _ => false
  | .expression _ => false
  | .conditional _ thenBranch elseBranch =>
    anyLoneAttribute thenBranch || anyLoneAttribute elseBranch
  | .comment .. => false
  | .marker _ _ children => anyLoneAttribute children

def Element.anyLoneAttribute : List Element → Bool
  | [] => false
  | element :: elements => element.hasLoneAttribute || anyLoneAttribute elements

end

namespace Writer

/-- Only the output has grown, by the markup. -/
structure Extends (before after : Writer) (markup : Text) : Prop where
  same : after = { before with pieces := after.pieces }
  output : after.output = before.output ++ markup

theorem Extends.refl (w : Writer) : Extends w w [] :=
  ⟨rfl, by simp⟩

theorem Extends.trans {w middle after : Writer} {first second : Text}
    (begun : Extends w middle first) (done : Extends middle after second) :
    Extends w after (first ++ second) := by
  refine ⟨?_, by rw [done.output, begun.output, List.append_assoc]⟩
  have same := done.same
  rw [begun.same] at same
  exact same

theorem Extends.options {w after : Writer} {markup : Text} (more : Extends w after markup) :
    after.options = w.options := by
  rw [more.same]

theorem Extends.openTags {w after : Writer} {markup : Text} (more : Extends w after markup) :
    after.openTags = w.openTags := by
  rw [more.same]

theorem Extends.startTagOpen {w after : Writer} {markup : Text}
    (more : Extends w after markup) : after.startTagOpen = w.startTagOpen := by
  rw [more.same]

theorem extends_put (w : Writer) (piece : Text) : Extends w (w.put piece) piece :=
  ⟨rfl, output_put w piece⟩

/-- An attribute in an unfinished start tag. -/
theorem addAttribute_extends {w : Writer} (unfinished : w.startTagOpen = true)
    (name value : Text) :
    ∃ after, w.addAttribute name value = .ok after ∧
      Extends w after (w.options.attributeMarkup name value) := by
  rw [addAttribute, if_pos unfinished]
  exact ⟨_, rfl, extends_put w _⟩

theorem foldlM_addAttribute {w : Writer} (unfinished : w.startTagOpen = true)
    (attributes : List Attribute) :
    ∃ after, attributes.foldlM (fun w a => w.addAttribute a.name a.value) w = .ok after ∧
      Extends w after (attributes.flatMap fun a => w.options.attributeMarkup a.name a.value) := by
  induction attributes generalizing w with
  | nil => exact ⟨w, rfl, .refl w⟩
  | cons a rest ih =>
    obtain ⟨middle, added, begun⟩ := addAttribute_extends unfinished a.name a.value
    obtain ⟨after, rest, done⟩ := ih (w := middle) (begun.startTagOpen.trans unfinished)
    rw [begun.options] at done
    exact ⟨after, by simp [added, rest, bind, Except.bind], begun.trans done⟩

@[simp] theorem options_finishStartTag (w : Writer) :
    w.finishStartTag.options = w.options := by
  unfold finishStartTag; split <;> rfl

@[simp] theorem openTags_finishStartTag (w : Writer) :
    w.finishStartTag.openTags = w.openTags := by
  unfold finishStartTag; split <;> rfl

@[simp] theorem startTagOpen_finishStartTag (w : Writer) :
    w.finishStartTag.startTagOpen = false := by
  unfold finishStartTag
  split
  · rfl
  · simpa using ‹¬ w.startTagOpen = true›

theorem output_finishStartTag (w : Writer) :
    w.finishStartTag.output = w.output ++ if w.startTagOpen then ['>'] else [] := by
  unfold finishStartTag
  split
  · exact output_put w ['>']
  · simp

@[simp] theorem options_dueBreak (w : Writer) : w.dueBreak.options = w.options := by
  unfold dueBreak; split <;> rfl

@[simp] theorem openTags_dueBreak (w : Writer) : w.dueBreak.openTags = w.openTags := by
  unfold dueBreak; split <;> rfl

@[simp] theorem startTagOpen_dueBreak (w : Writer) :
    w.dueBreak.startTagOpen = w.startTagOpen := by
  unfold dueBreak; split <;> rfl

@[simp] theorem options_startTag (w : Writer) (name : Text) :
    (w.startTag name).options = w.options := by
  simp [startTag, put]

@[simp] theorem openTags_startTag (w : Writer) (name : Text) :
    (w.startTag name).openTags = name :: w.openTags := by
  simp [startTag, put]

end Writer

theorem TagHead.write_eq_foldlM (head : TagHead) (w : Writer) :
    head.write w =
      head.allAttributes.foldlM (fun w a => w.addAttribute a.name a.value)
        (w.startTag head.name) := by
  cases named : head.id with
  | none =>
    by_cases classed : head.classes = [] <;>
      simp [write, allAttributes, named, classed, bind, Except.bind]
  | some id =>
    by_cases classed : head.classes = [] <;>
      simp [write, allAttributes, named, classed, bind, Except.bind]

/-- A start tag with its attributes is always written, and stays unfinished. -/
theorem TagHead.write_extends (head : TagHead) (w : Writer) :
    ∃ after, head.write w = .ok after ∧
      (w.startTag head.name).Extends after (head.attributeMarkup w.options) := by
  rw [write_eq_foldlM, attributeMarkup, ← Writer.options_startTag w head.name]
  exact Writer.foldlM_addAttribute rfl head.allAttributes

namespace Writer

/-- Something was written inside of what is open: the markup, behind the end of the start
tag if that was unfinished. -/
structure Wrote (before after : Writer) (any : Bool) (markup : Text) : Prop where
  options : after.options = before.options
  openTags : after.openTags = before.openTags
  startTagOpen : after.startTagOpen = (before.startTagOpen && !any)
  output : after.output =
    before.output ++ ((if before.startTagOpen && any then ['>'] else []) ++ markup)
  none : any = false → markup = []

theorem Wrote.refl (w : Writer) : Wrote w w false [] :=
  ⟨rfl, rfl, by simp, by simp, fun _ => rfl⟩

/-- Of two parts the first that has markup ends the start tag. -/
theorem Wrote.trans {w middle after : Writer} {any more : Bool} {first second : Text}
    (begun : Wrote w middle any first) (done : Wrote middle after more second) :
    Wrote w after (any || more) (first ++ second) where
  options := done.options.trans begun.options
  openTags := done.openTags.trans begun.openTags
  startTagOpen := by rw [done.startTagOpen, begun.startTagOpen]; cases any <;> simp
  output := by
    rw [done.output, begun.output, begun.startTagOpen]
    cases any with
    | false => simp [begun.none rfl]
    | true => simp
  none := by
    intro neither
    obtain ⟨rfl, rfl⟩ := Bool.or_eq_false_iff.mp neither
    rw [begun.none rfl, done.none rfl, List.append_nil]

theorem output_dueBreak {w : Writer} (compact : w.options.Compact) :
    w.dueBreak.output = w.output := by
  rw [dueBreak]
  split
  · have blank : w.options.newlineMarker ++
        (List.replicate w.depth w.options.indentUnit).flatten = [] := by
      rw [compact.newlineMarker, compact.indentUnit]
      simp
    simp only [lineBreak, blank]
    simp [output, put]
  · rfl

theorem raw_wrote (w : Writer) (markup : Text) : Wrote w (w.raw markup) true markup where
  options := options_finishStartTag w
  openTags := openTags_finishStartTag w
  startTagOpen := by simp [raw, put]
  output := by
    have written : (w.raw markup).output = (w.finishStartTag.put markup).output := rfl
    rw [written, output_put, output_finishStartTag]
    simp
  none := nofun

theorem text_wrote (w : Writer) (value : Text) :
    Wrote w (w.text value) true (w.options.encoded value) :=
  raw_wrote w _

theorem comment_wrote {w : Writer} (compact : w.options.Compact) (body : Text) :
    Wrote w (w.comment body) true (['<', '!', '-', '-'] ++ body ++ ['-', '-', '>']) where
  options := by simp [comment, put]
  openTags := by simp [comment, put]
  startTagOpen := by simp [comment, put]
  output := by
    have written : (w.comment body).output = (w.finishStartTag.dueBreak.put
      (['<', '!', '-', '-'] ++ body ++ ['-', '-', '>'])).output := rfl
    rw [written, output_put, output_dueBreak (by simpa using compact), output_finishStartTag]
    simp
  none := nofun

theorem output_startTag {w : Writer} (compact : w.options.Compact) (name : Text) :
    (w.startTag name).output =
      w.output ++ ((if w.startTagOpen then ['>'] else []) ++ '<' :: name) := by
  have written : (w.startTag name).output = (w.finishStartTag.dueBreak.put ('<' :: name)).output :=
    rfl
  rw [written, output_put, output_dueBreak (by simpa using compact), output_finishStartTag,
    List.append_assoc]

/-- The end of an element: its start tag closes itself if nothing was written in it. -/
theorem endTag_closes {w after : Writer} {name : Text} {outer : List Text}
    (compact : w.options.Compact) (inside : w.openTags = name :: outer)
    (ended : w.endTag = .ok after) :
    after.options = w.options ∧ after.openTags = outer ∧ after.startTagOpen = false ∧
      after.output = w.output ++
        if w.startTagOpen then ['/', '>'] else ['<', '/'] ++ name ++ ['>'] := by
  obtain ⟨options, pieces, depth, openTags, startTagOpen, breakDue⟩ := w
  obtain rfl : openTags = name :: outer := inside
  obtain rfl := Except.ok.inj ended
  cases startTagOpen with
  | true => simp [put, output]
  | false =>
    have undisturbed :=
      output_dueBreak (w := ⟨options, pieces, depth - 1, outer, false, breakDue⟩) compact
    refine ⟨by simp [put], by simp [put], by simp [put], ?_⟩
    exact (output_put _ _).trans (congrArg (· ++ _) undisturbed)

theorem content_wrote (w : Writer) (content : Option Content) :
    Wrote w (Content.write w content) content.isSome (w.options.contentMarkup content) := by
  cases content with
  | none => exact .refl w
  | some content => cases content <;> exact text_wrote w _

end Writer

/-- Writing the elements, wherever that succeeds, appends the markup of the recursion. -/
def Element.WritesMarkup (options : RenderOptions) (elements : List Element) : Prop :=
  ∀ w after : Writer, w.options = options → writeAll options elements w = .ok after →
    w.Wrote after (anyMarkup options elements) (allMarkup options elements)

/-- A tag is written as its start tag, what stands inside it, and its end. -/
theorem Element.tag_wrote {options : RenderOptions} {w after : Writer}
    (compact : options.Compact) {head : TagHead} {content : Option Content}
    {children : List Element} (inside : WritesMarkup options children)
    (same : w.options = options)
    (written : write options (.tag head content children) w = .ok after) :
    w.Wrote after true (markup options (.tag head content children)) := by
  subst same
  rw [write_tag] at written
  obtain ⟨begun, start, written⟩ := bind_ok written
  obtain ⟨filled, fill, ended⟩ := bind_ok written
  obtain ⟨other, start', more⟩ := head.write_extends w
  obtain rfl := Except.ok.inj (start.symm.trans start')
  have options : begun.options = w.options := by simp [more.options]
  have unfinished : begun.startTagOpen = true := by rw [more.startTagOpen]; rfl
  have inline := begun.content_wrote content
  have body := inline.trans (inside _ _ (inline.options.trans options) fill)
  have opened : filled.openTags = head.name :: w.openTags := by
    simp [body.openTags, more.openTags]
  obtain ⟨same, closed, finished, output⟩ :=
    Writer.endTag_closes (by rwa [body.options, options]) opened ended
  refine ⟨by rw [same, body.options, options], closed, by simp [finished], ?_, nofun⟩
  rw [output, body.output, body.startTagOpen, unfinished, more.output,
    Writer.output_startTag compact, markup, ← options]
  cases any : content.isSome || anyMarkup begun.options children with
  | false =>
    rw [← options] at body
    simp [body.none any]
  | true => simp

theorem Element.cons_wrote {options : RenderOptions} {element : Element} {later : List Element}
    (first : ∀ w after : Writer, w.options = options → element.write options w = .ok after →
      w.Wrote after (element.hasMarkup options) (element.markup options))
    (rest : WritesMarkup options later) : WritesMarkup options (element :: later) := by
  intro w after same written
  rw [writeAll] at written
  obtain ⟨middle, here, written⟩ := bind_ok written
  have begun := first w middle same here
  exact begun.trans (rest middle after (begun.options.trans same) written)

/-- Without layout every forest is written as the recursion says. -/
theorem Element.writesMarkup {options : RenderOptions} (compact : options.Compact)
    (elements : List Element) (plain : anyLoneAttribute elements = false) :
    WritesMarkup options elements := by
  induction elements using forest_induction with
  | nil =>
    intro w after _ written
    obtain rfl := Except.ok.inj written
    exact .refl w
  | tag head content children later inside rest =>
    simp only [anyLoneAttribute, hasLoneAttribute, Bool.or_eq_false_iff] at plain
    exact cons_wrote (fun w after same written => tag_wrote compact (inside plain.1) same written)
      (rest plain.2)
  | loneAttribute name value later rest => simp [anyLoneAttribute, hasLoneAttribute] at plain
  | text value later rest =>
    simp only [anyLoneAttribute, hasLoneAttribute, Bool.false_or] at plain
    refine cons_wrote (fun w after same written => ?_) (rest plain)
    obtain rfl := Except.ok.inj written
    exact same ▸ w.text_wrote value
  | expression value later rest =>
    simp only [anyLoneAttribute, hasLoneAttribute, Bool.false_or] at plain
    refine cons_wrote (fun w after same written => ?_) (rest plain)
    obtain rfl := Except.ok.inj written
    exact same ▸ w.text_wrote value
  | conditional predicate thenBranch elseBranch later first second rest =>
    simp only [anyLoneAttribute, hasLoneAttribute, Bool.or_eq_false_iff] at plain
    refine cons_wrote (fun w after same written => ?_) (rest plain.2)
    rw [write] at written
    rw [hasMarkup, markup]
    split at written
    next taken => simpa [taken] using first plain.1.1 w after same written
    next taken => simpa [taken] using second plain.1.2 w after same written
  | comment body buffered later rest =>
    simp only [anyLoneAttribute, hasLoneAttribute, Bool.false_or] at plain
    refine cons_wrote (fun w after same written => ?_) (rest plain)
    obtain rfl := Except.ok.inj written
    cases buffered with
    | false => exact .refl w
    | true => exact Writer.comment_wrote (same ▸ compact) body
  | marker kind argument children later inside rest =>
    refine cons_wrote (fun w after same written => ?_) (rest ?_)
    · contradiction
    · simp only [anyLoneAttribute, Bool.or_eq_false_iff] at plain
      exact plain.2

/-- Rendering without line breaks and indents is the plain recursion over the template:
the declaration of its document type, then the markup of its elements. -/
theorem render_compact {template : Template} {options : RenderOptions} {output : Text}
    (plain : Element.anyLoneAttribute template.elements = false)
    (indentUnit : options.indentUnit = []) (newlineMarker : options.newlineMarker = [])
    (rendered : template.render options = .ok output) : output = template.markup options := by
  rw [Template.render] at rendered
  obtain ⟨after, written, finish⟩ := bind_ok rendered
  obtain rfl := Except.ok.inj finish
  have wrote := Element.writesMarkup ⟨indentUnit, newlineMarker⟩ _ plain _ _ ?_ written
  · rw [wrote.output, Template.markup]
    cases template.doctype with
    | none => rfl
    | some keyword =>
      have begun := (Writer.start options).raw_wrote (Doctype.declaration keyword)
      have fresh : (Writer.start options).startTagOpen = false := rfl
      simp [begun.startTagOpen, begun.output, fresh]
  · cases template.doctype <;> rfl

/-- A tag closes itself if all it holds is a hidden comment and an empty branch. -/
theorem render_compact_hidden :
    let template : Template := ⟨some ['b'], [.tag { name := ['p'], classes := [['x'], ['y']] } none
      [.comment ['c'] false, .conditional ['q'] [.text ['t']] []],
      .tag { name := ['a'], id := some ['<'] } none [.conditional ['q'] [] [.text ['&']]]]⟩
    let options : RenderOptions := { autoEncode := true }
    Element.anyLoneAttribute template.elements = false ∧
      options.indentUnit = [] ∧ options.newlineMarker = [] ∧
      template.render options = .ok (template.markup options) ∧
      template.markup options =
        "<!DOCTYPE b><p class=\"x y\"/><a id=\"&lt;\">&amp;</a>".toList := by
  intro template options
  have rendered : template.render options =
      .ok "<!DOCTYPE b><p class=\"x y\"/><a id=\"&lt;\">&amp;</a>".toList := by rfl
  have same := render_compact (by decide) rfl rfl rendered
  exact ⟨by decide, rfl, rfl, by rw [rendered, same], same.symm⟩

end IndentMarkup
