import IndentMarkup.Text.Basic

/-!
# Templates

A template is a forest of elements with an optional document type. Predicates,
expressions and arguments are kept as they are written.
-/

namespace IndentMarkup

structure Attribute where
  name : Text
  value : Text
  deriving DecidableEq, Repr

/-- A class attribute says what the classes say. -/
def Attribute.isClass (a : Attribute) : Bool :=
  a.name.map Char.toLower = ['c', 'l', 'a', 's', 's']

/-- What a tag carries on its own line. -/
inductive Content where
  | text (value : Text)
  | expression (value : Text)
  deriving DecidableEq, Repr

/-- A tag without what stands inside it. -/
structure TagHead where
  name : Text
  id : Option Text := none
  classes : List Text := []
  attributes : List Attribute := []
  deriving DecidableEq, Repr

/-- Whether the start tag is nothing but the name. -/
def TagHead.isBare (head : TagHead) : Bool :=
  head.id.isNone && head.classes.isEmpty && head.attributes.isEmpty

def Content.value : Content → Text
  | .text value | .expression value => value

/-- Constructs that are read but have no markup. -/
inductive Marker where
  | each
  | «for»
  | mixin
  | «include»
  deriving DecidableEq, Repr

inductive Element where
  | tag (head : TagHead) (content : Option Content) (children : List Element)
  /-- An attribute of whichever start tag is being written. -/
  | loneAttribute (name value : Text)
  | text (value : Text)
  | expression (value : Text)
  | conditional (predicate : Text) (thenBranch elseBranch : List Element)
  /-- Only a buffered comment is written to the markup. -/
  | comment (text : Text) (buffered : Bool)
  | marker (kind : Marker) (argument : Text) (children : List Element)
  deriving BEq, Repr

structure Template where
  doctype : Option Text := none
  elements : List Element := []
  deriving BEq, Repr

def Marker.name : Marker → String
  | .each => "each"
  | .for => "for"
  | .mixin => "mixin"
  | .include => "include"

/-- The name of the kind of element. -/
def Element.kindName : Element → String
  | .tag .. => "tag"
  | .loneAttribute .. => "attribute"
  | .text .. => "text"
  | .expression .. => "expression"
  | .conditional .. => "conditional"
  | .comment .. => "comment"
  | .marker kind .. => kind.name

/-- The name of a tag that is written without one. -/
def TagHead.defaultName : Text :=
  ['d', 'i', 'v']

/-- A class attribute adds to the classes. Its name is read without regard to ASCII case. -/
def TagHead.addAttribute (head : TagHead) (name value : Text) : TagHead :=
  if name.map Char.toLower = ['c', 'l', 'a', 's', 's'] then
    { head with classes := head.classes ++ [value] }
  else { head with attributes := head.attributes ++ [⟨name, value⟩] }

def TagHead.addClass (head : TagHead) (name : Text) : TagHead :=
  { head with classes := head.classes ++ [name] }

end IndentMarkup
