import IndentMarkup.Markup.Writer
import IndentMarkup.Template.Doctype
import IndentMarkup.Template.Parse

/-!
# Rendering

A template is written element by element in document order. Of a condition only the
chosen branch is looked at, and the first element that cannot be written ends the
rendering.
-/

namespace IndentMarkup

def TagHead.write (head : TagHead) (w : Writer) : Except RenderError Writer := do
  let w := w.startTag head.name
  let w ← match head.id with
    | some id => w.addAttribute ['i', 'd'] id
    | none => .ok w
  let w ← if head.classes.isEmpty then .ok w
    else w.addAttribute ['c', 'l', 'a', 's', 's'] ([' '].intercalate head.classes)
  head.attributes.foldlM (fun w a => w.addAttribute a.name a.value) w

def Content.write (w : Writer) : Option Content → Writer
  | none => w
  | some content => w.text content.value

mutual

def Element.write (options : RenderOptions) : Element → Writer → Except RenderError Writer
  | .tag head content children, w =>
    match head.isBare && children.isEmpty, content with
    | true, some content => w.element head.name content.value
    | _, content => do
      let w ← head.write w
      let w ← writeAll options children (Content.write w content)
      w.endTag
  | .loneAttribute name value, w => w.addAttribute name value
  | .text value, w => .ok (w.text value)
  | .expression value, w => .ok (w.text value)
  | .conditional predicate thenBranch elseBranch, w =>
    if options.branches.takesThen predicate then writeAll options thenBranch w
    else writeAll options elseBranch w
  | .comment body buffered, w => .ok (if buffered then w.comment body else w)
  | .marker kind _ _, _ => .error (.unsupported kind.name)

def Element.writeAll (options : RenderOptions) :
    List Element → Writer → Except RenderError Writer
  | [], w => .ok w
  | element :: elements, w => do writeAll options elements (← element.write options w)

end

theorem TagHead.write_of_isBare {head : TagHead} (bare : head.isBare = true) (w : Writer) :
    head.write w = .ok (w.startTag head.name) := by
  obtain ⟨name, id, classes, attributes⟩ := head
  simp only [isBare, Bool.and_eq_true, Option.isNone_iff_eq_none, List.isEmpty_iff] at bare
  obtain ⟨⟨rfl, rfl⟩, rfl⟩ := bare
  rfl

/-- A tag that holds a text and nothing else is written like any other. -/
theorem Element.write_tag (options : RenderOptions) (head : TagHead) (content : Option Content)
    (children : List Element) (w : Writer) :
    (Element.tag head content children).write options w = (do
      let w ← head.write w
      let w ← writeAll options children (Content.write w content)
      w.endTag) := by
  unfold write
  split
  next alone =>
    rw [Bool.and_eq_true, List.isEmpty_iff] at alone
    obtain ⟨bare, rfl⟩ := alone
    rw [head.write_of_isBare bare]
    rfl
  next => rfl

def Template.render (template : Template) (options : RenderOptions := {}) :
    Except RenderError Text := do
  let w := Writer.start options
  let w := match template.doctype with
    | some keyword => w.raw (Doctype.declaration keyword)
    | none => w
  return (← Element.writeAll options template.elements w).output

end IndentMarkup
