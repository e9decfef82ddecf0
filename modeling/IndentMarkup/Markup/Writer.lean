import IndentMarkup.Markup.Entity
import IndentMarkup.Markup.Options

/-!
# Markup writer

A start tag is left unfinished until something is written inside it, so that
attributes can be added; one that is closed unfinished becomes a self-closing tag.
Behind a tag or comment a line break is due, which the next tag or comment writes and
any text cancels.
-/

namespace IndentMarkup

structure Writer where
  options : RenderOptions
  /-- What has been written, the latest piece first. -/
  pieces : List Text := []
  /-- The number of indent units behind a line break. -/
  depth : Nat := 0
  /-- The names of the open elements, the innermost first. -/
  openTags : List Text := []
  /-- The innermost start tag is unfinished. -/
  startTagOpen : Bool := false
  /-- A line break is due in front of the next tag or comment. -/
  breakDue : Bool := false
  deriving DecidableEq, Repr

namespace Writer

def start (options : RenderOptions) : Writer :=
  { options }

def output (w : Writer) : Text :=
  w.pieces.reverse.flatten

def put (w : Writer) (piece : Text) : Writer :=
  { w with pieces := piece :: w.pieces }

def encoded (w : Writer) (value : Text) : Text :=
  if w.options.autoEncode then value.encode else value

/-- A line break, and the indent for the current depth. -/
def lineBreak (w : Writer) : Writer :=
  let indent := (List.replicate w.depth w.options.indentUnit).flatten
  { w.put (w.options.newlineMarker ++ indent) with breakDue := false }

def dueBreak (w : Writer) : Writer :=
  if w.breakDue then w.lineBreak else w

/-- Ends the start tag that is unfinished, if one is. -/
def finishStartTag (w : Writer) : Writer :=
  if w.startTagOpen then { w.put ['>'] with startTagOpen := false, breakDue := true } else w

def startTag (w : Writer) (name : Text) : Writer :=
  let w := w.finishStartTag.dueBreak
  { w.put ('<' :: name) with
    depth := w.depth + 1, openTags := name :: w.openTags, startTagOpen := true }

def addAttribute (w : Writer) (name value : Text) : Except RenderError Writer :=
  if w.startTagOpen then
    .ok (w.put (' ' :: name ++ ['=', '"'] ++ w.encoded value ++ ['"']))
  else .error (.attributeOutsideStartTag name)

/-- Markup as it is, never encoded. -/
def raw (w : Writer) (markup : Text) : Writer :=
  { w.finishStartTag.put markup with breakDue := false }

def text (w : Writer) (value : Text) : Writer :=
  w.raw (w.encoded value)

def comment (w : Writer) (text : Text) : Writer :=
  let w := w.finishStartTag.dueBreak
  { w.put (['<', '!', '-', '-'] ++ text ++ ['-', '-', '>']) with breakDue := true }

/-- Closes the innermost open element. -/
def endTag (w : Writer) : Except RenderError Writer :=
  match w.openTags with
  | [] => .error .unbalancedEndTag
  | name :: outer =>
    let w := { w with depth := w.depth - 1, openTags := outer }
    let closed :=
      if w.startTagOpen then { w.put ['/', '>'] with startTagOpen := false }
      else w.dueBreak.put (['<', '/'] ++ name ++ ['>'])
    .ok { closed with breakDue := true }

/-- An element that holds text. -/
def element (w : Writer) (name value : Text) : Except RenderError Writer :=
  ((w.startTag name).text value).endTag

@[simp] theorem output_start (options : RenderOptions) : (start options).output = [] := rfl

@[simp] theorem output_put (w : Writer) (piece : Text) :
    (w.put piece).output = w.output ++ piece := by
  simp [put, output]

/-- One call on a writer. -/
inductive Call where
  | startTag (name : Text)
  | addAttribute (name value : Text)
  | text (value : Text)
  | raw (markup : Text)
  | comment (text : Text)
  | endTag
  | element (name value : Text)
  | lineBreak
  deriving DecidableEq, Repr

def perform (w : Writer) : Call → Except RenderError Writer
  | .startTag name => .ok (w.startTag name)
  | .addAttribute name value => w.addAttribute name value
  | .text value => .ok (w.text value)
  | .raw markup => .ok (w.raw markup)
  | .comment text => .ok (w.comment text)
  | .endTag => w.endTag
  | .element name value => w.element name value
  | .lineBreak => .ok w.lineBreak

end Writer

end IndentMarkup
