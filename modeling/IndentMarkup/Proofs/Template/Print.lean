import IndentMarkup.Proofs.Line.Lexing
import IndentMarkup.Statement.Basic

/-! Templates written out, one line for each element and for each `else`. Which templates
have a written form depends on the texts they hold: a text must stay on its line, keep its
ends, and not be taken for another construct. -/
namespace IndentMarkup

/-- The choices left open in writing a template. -/
structure Layout where
  /-- The blanks that one level of nesting adds to a line. -/
  step : Text
  nonempty : step ≠ []
  blank : step.all (fun c => isInlineBlank c && c ≠ '\r') = true
  /-- What stands between two attributes. -/
  separator : Text
  separates : separator.all (fun c => (c = ',' || isInlineBlank c) && c ≠ '\r') = true
  /-- Whether the last line ends in a line feed. -/
  endsLastLine : Bool
  /-- Whether an `else` is written that has no lines of its own. -/
  writesEmptyElse : Bool

def Attribute.print (a : Attribute) : Text :=
  a.name ++ '=' :: '"' :: a.value ++ ['"']

def Attribute.printList (layout : Layout) : List Attribute → Text
  | [] => []
  | first :: rest =>
    '(' :: first.print ++ rest.flatMap (fun a => layout.separator ++ a.print) ++ [')']

def TagHead.print (layout : Layout) (head : TagHead) : Text :=
  head.name ++ head.id.elim [] ('#' :: ·) ++ head.classes.flatMap ('.' :: ·) ++
    Attribute.printList layout head.attributes

def Content.print : Content → Text
  | .text value => ' ' :: value
  | .expression value => '=' :: ' ' :: value

/-- A line without the blanks that indent it. -/
inductive PrintedLine where
  | tag (head : TagHead) (content : Option Content)
  | piped (text : Text)
  | comment (text : Text) (buffered : Bool)
  | marker (kind : Marker) (argument : Text)
  | condition (predicate : Text)
  | otherwise
  deriving DecidableEq, Repr

namespace PrintedLine

def print (layout : Layout) : PrintedLine → Text
  | tag head content => head.print layout ++ content.elim [] Content.print
  | piped text => '|' :: ' ' :: text
  | comment text true => Symbol.comment.literal ++ text
  | comment text false => Symbol.silentComment.literal ++ text
  | marker kind argument => kind.name.toList ++ ' ' :: argument
  | condition predicate => Keyword.if.literal ++ ' ' :: predicate
  | otherwise => Keyword.else.literal

/-- What the line says by itself; an `else` says nothing without its `if`. -/
def statement? : PrintedLine → Option Statement
  | tag head content => some (.tag (.plain head content))
  | piped text => some (.piped text)
  | comment text buffered => some (.comment text buffered)
  | marker kind argument => some (.marker kind argument)
  | condition predicate => some (.condition predicate)
  | otherwise => none

end PrintedLine

mutual

/-- The lines of an element, each with the number of lines it is nested under. An
attribute or an expression that stands by itself has none. -/
def Element.printed (layout : Layout) (depth : Nat) : Element → List (Nat × PrintedLine)
  | .tag head content children =>
    (depth, .tag head content) :: Element.allPrinted layout (depth + 1) children
  | .text value => [(depth, .piped value)]
  | .conditional predicate thenBranch elseBranch =>
    (depth, .condition predicate) :: Element.allPrinted layout (depth + 1) thenBranch ++
      if elseBranch.isEmpty && !layout.writesEmptyElse then []
      else (depth, .otherwise) :: Element.allPrinted layout (depth + 1) elseBranch
  | .comment value buffered => [(depth, .comment value buffered)]
  | .marker kind argument children =>
    (depth, .marker kind argument) :: Element.allPrinted layout (depth + 1) children
  | .loneAttribute .. | .expression _ => []

def Element.allPrinted (layout : Layout) (depth : Nat) : List Element → List (Nat × PrintedLine)
  | [] => []
  | element :: later => element.printed layout depth ++ Element.allPrinted layout depth later

end

namespace Layout

def indent (layout : Layout) (depth : Nat) : Text :=
  (List.replicate depth layout.step).flatten

def line (layout : Layout) : Nat × PrintedLine → Text
  | (depth, line) => layout.indent depth ++ line.print layout

def join (layout : Layout) : List Text → Text
  | [] => []
  | [line] => line ++ if layout.endsLastLine then ['\n'] else []
  | line :: more => line ++ '\n' :: layout.join more

end Layout

def Template.print (layout : Layout) (template : Template) : Text :=
  layout.join <|
    (template.doctype.map (Keyword.doctype.literal ++ ' ' :: ·)).toList ++
      (Element.allPrinted layout 0 template.elements).map layout.line

/-- The text can be the rest of a line behind a blank. -/
structure Text.Printable (text : Text) : Prop where
  inline : text.isInline = true
  leading : text.trimStart = text
  trailing : text.trimEnd = text

instance (text : Text) : Decidable text.Printable :=
  decidable_of_iff (text.isInline = true ∧ text.trimStart = text ∧ text.trimEnd = text)
    ⟨fun ⟨inline, leading, trailing⟩ => ⟨inline, leading, trailing⟩,
      fun ⟨inline, leading, trailing⟩ => ⟨inline, leading, trailing⟩⟩

structure Attribute.Printable (a : Attribute) : Prop where
  named : isName a.name = true
  classless : a.name.map Char.toLower ≠ ['c', 'l', 'a', 's', 's']
  unquoted : '"' ∉ a.value
  normal : '\r' ∉ a.value

instance (a : Attribute) : Decidable a.Printable :=
  decidable_of_iff (isName a.name = true ∧ a.name.map Char.toLower ≠ ['c', 'l', 'a', 's', 's'] ∧
      '"' ∉ a.value ∧ '\r' ∉ a.value)
    ⟨fun ⟨named, classless, unquoted, normal⟩ => ⟨named, classless, unquoted, normal⟩,
      fun ⟨named, classless, unquoted, normal⟩ => ⟨named, classless, unquoted, normal⟩⟩

structure TagHead.Printable (head : TagHead) : Prop where
  named : isName head.name = true
  notKeyword : ∀ k ∈ Keyword.all, head.name ≠ k.literal
  notFor : head.name ≠ ['f', 'o', 'r']
  id : ∀ name ∈ head.id, isName name = true
  classes : ∀ name ∈ head.classes, isName name = true
  attributes : ∀ a ∈ head.attributes, a.Printable

instance (head : TagHead) : Decidable head.Printable :=
  decidable_of_iff (isName head.name = true ∧ (∀ k ∈ Keyword.all, head.name ≠ k.literal) ∧
      head.name ≠ ['f', 'o', 'r'] ∧ (∀ name ∈ head.id, isName name = true) ∧
      (∀ name ∈ head.classes, isName name = true) ∧ ∀ a ∈ head.attributes, a.Printable)
    ⟨fun ⟨named, notKeyword, notFor, id, classes, attributes⟩ =>
        ⟨named, notKeyword, notFor, id, classes, attributes⟩,
      fun ⟨named, notKeyword, notFor, id, classes, attributes⟩ =>
        ⟨named, notKeyword, notFor, id, classes, attributes⟩⟩

def Content.Printable : Content → Prop
  | .text value | .expression value => value.Printable ∧ value ≠ []

/-- What the line says can be read from it again. -/
def PrintedLine.Printable : PrintedLine → Prop
  | tag head content => head.Printable ∧ ∀ held ∈ content, held.Printable
  | piped text => text.Printable
  | comment text buffered =>
    text.isInline = true ∧ text.trimEnd = text ∧ (buffered = true → text.head? ≠ some '-')
  | marker _ argument => argument.Printable ∧ argument ≠ []
  | condition predicate => predicate.Printable ∧ predicate ≠ []
  | otherwise => True

instance (content : Content) : Decidable content.Printable :=
  match content with
  | .text value | .expression value =>
    inferInstanceAs (Decidable (value.Printable ∧ value ≠ []))

instance (printed : PrintedLine) : Decidable printed.Printable :=
  match printed with
  | .tag head content =>
    inferInstanceAs (Decidable (head.Printable ∧ ∀ held ∈ content, held.Printable))
  | .piped text => inferInstanceAs (Decidable text.Printable)
  | .comment text buffered => inferInstanceAs (Decidable (text.isInline = true ∧
      text.trimEnd = text ∧ (buffered = true → text.head? ≠ some '-')))
  | .marker _ argument => inferInstanceAs (Decidable (argument.Printable ∧ argument ≠ []))
  | .condition predicate => inferInstanceAs (Decidable (predicate.Printable ∧ predicate ≠ []))
  | .otherwise => isTrue trivial

inductive Element.AllPrintable : List Element → Prop where
  | nil : AllPrintable []
  | tag {head : TagHead} {content : Option Content} {children later : List Element}
      (own : (PrintedLine.tag head content).Printable) (inside : AllPrintable children)
      (behind : AllPrintable later) : AllPrintable (.tag head content children :: later)
  | text {value : Text} {later : List Element} (own : (PrintedLine.piped value).Printable)
      (behind : AllPrintable later) : AllPrintable (.text value :: later)
  | conditional {predicate : Text} {thenBranch elseBranch later : List Element}
      (own : (PrintedLine.condition predicate).Printable) (first : AllPrintable thenBranch)
      (second : AllPrintable elseBranch) (behind : AllPrintable later) :
      AllPrintable (.conditional predicate thenBranch elseBranch :: later)
  | comment {value : Text} {buffered : Bool} {later : List Element}
      (own : (PrintedLine.comment value buffered).Printable) (behind : AllPrintable later) :
      AllPrintable (.comment value buffered :: later)
  | marker {kind : Marker} {argument : Text} {children later : List Element}
      (own : (PrintedLine.marker kind argument).Printable) (inside : AllPrintable children)
      (behind : AllPrintable later) : AllPrintable (.marker kind argument children :: later)

theorem Element.AllPrintable.printed {elements : List Element} (layout : Layout) (depth : Nat)
    (printable : AllPrintable elements) :
    ∀ entry ∈ allPrinted layout depth elements, entry.2.Printable := by
  induction printable generalizing depth with
  | nil => simp [allPrinted]
  | tag own inside behind first rest =>
    simp only [allPrinted, Element.printed, List.mem_append, List.mem_cons]
    rintro entry ((rfl | member) | member)
    · exact own
    · exact first _ entry member
    · exact rest _ entry member
  | text own behind rest =>
    simp only [allPrinted, Element.printed, List.mem_append, List.mem_singleton]
    rintro entry (rfl | member)
    · exact own
    · exact rest _ entry member
  | @conditional predicate thenBranch elseBranch later own first second behind ih ih' rest =>
    simp only [allPrinted, Element.printed, List.mem_append, List.mem_cons]
    rintro entry (((rfl | member) | member) | member)
    · exact own
    · exact ih _ entry member
    · split at member
      · contradiction
      · rcases List.mem_cons.mp member with rfl | member
        · trivial
        · exact ih' _ entry member
    · exact rest _ entry member
  | comment own behind rest =>
    simp only [allPrinted, Element.printed, List.mem_append, List.mem_singleton]
    rintro entry (rfl | member)
    · exact own
    · exact rest _ entry member
  | marker own inside behind first rest =>
    simp only [allPrinted, Element.printed, List.mem_append, List.mem_cons]
    rintro entry ((rfl | member) | member)
    · exact own
    · exact first _ entry member
    · exact rest _ entry member

structure Template.Printable (template : Template) : Prop where
  doctype : ∀ keyword ∈ template.doctype, keyword.Printable ∧ keyword ≠ []
  elements : Element.AllPrintable template.elements

theorem return_not_mem_name {name : Text} (named : isName name = true) : '\r' ∉ name :=
  fun member => absurd (isWordChar_of_isName named _ member) (by decide)

theorem Text.return_not_mem_inline {text : Text} (inline : text.isInline = true) :
    '\r' ∉ text :=
  fun member => absurd (List.all_eq_true.mp inline _ member) (by decide)

theorem TagHead.return_not_mem_print (layout : Layout) {head : TagHead}
    (printable : head.Printable) : '\r' ∉ head.print layout := by
  have single (a : Attribute) (member : a ∈ head.attributes) : '\r' ∉ a.print := by
    have own := printable.attributes a member
    simp [Attribute.print, return_not_mem_name own.named, own.normal]
  have separator : '\r' ∉ layout.separator :=
    fun within => absurd (List.all_eq_true.mp layout.separates _ within) (by decide)
  have listed : '\r' ∉ Attribute.printList layout head.attributes := by
    cases split : head.attributes with
    | nil => simp [Attribute.printList]
    | cons a more =>
      rw [split] at single
      simp only [Attribute.printList, List.mem_append, List.mem_cons, List.mem_flatMap, not_or,
        not_exists, not_and]
      refine ⟨⟨⟨by decide, single a (by simp)⟩, fun other member => ?_⟩, by decide, by simp⟩
      exact ⟨separator, single other (.tail _ member)⟩
  have id : '\r' ∉ head.id.elim [] ('#' :: ·) := by
    cases split : head.id with
    | none => simp
    | some name => simp [return_not_mem_name (printable.id name split)]
  have classes : '\r' ∉ head.classes.flatMap ('.' :: ·) := by
    simp only [List.mem_flatMap, List.mem_cons, not_exists, not_and, not_or]
    exact fun name member => ⟨by decide, return_not_mem_name (printable.classes name member)⟩
  simp [TagHead.print, return_not_mem_name printable.named, id, classes, listed]

theorem PrintedLine.return_not_mem_print (layout : Layout) {printed : PrintedLine}
    (printable : printed.Printable) : '\r' ∉ printed.print layout := by
  cases printed with
  | tag head content =>
    have own := TagHead.return_not_mem_print layout printable.1
    cases content with
    | none => simpa [print] using own
    | some held =>
      have kept := printable.2 held rfl
      cases held <;>
        simp [print, Content.print, own, Text.return_not_mem_inline kept.1.inline]
  | piped text => simp [print, Text.return_not_mem_inline printable.inline]
  | comment text buffered =>
    cases buffered <;> simp [print, Symbol.literal, Text.return_not_mem_inline printable.1]
  | marker kind argument =>
    cases kind <;>
      simp [print, Marker.name, Text.return_not_mem_inline printable.1.inline]
  | condition predicate =>
    simp [print, Keyword.literal, Text.return_not_mem_inline printable.1.inline]
  | otherwise => exact (by decide : '\r' ∉ Keyword.else.literal)

theorem Layout.return_not_mem_join (layout : Layout) {lines : List Text}
    (normal : ∀ line ∈ lines, '\r' ∉ line) : '\r' ∉ layout.join lines := by
  fun_induction layout.join lines with
  | case1 => simp
  | case2 line => cases ends : layout.endsLastLine <;> simp [normal line (by simp)]
  | case3 line more _ ih =>
    have first := normal line (by simp)
    have later := ih fun other member => normal other (.tail _ member)
    simp [first, later]

/-- A printed template is its own normal form. -/
theorem Template.normalize_print (layout : Layout) {template : Template}
    (printable : template.Printable) :
    (template.print layout).normalize = template.print layout := by
  have normal : '\r' ∉ template.print layout := by
    apply layout.return_not_mem_join
    intro line member
    rcases List.mem_append.mp member with doctype | body
    · obtain ⟨keyword, chosen, rfl⟩ := Option.map_eq_some_iff.mp (Option.mem_toList.mp doctype)
      have kept := (printable.doctype keyword chosen).1
      simp [Keyword.literal, Text.return_not_mem_inline kept.inline]
    · obtain ⟨⟨depth, printed⟩, entry, rfl⟩ := List.mem_map.mp body
      have own := printable.elements.printed layout 0 _ entry
      have indent : '\r' ∉ layout.indent depth := by
        intro within
        simp only [Layout.indent, List.mem_flatten, List.mem_replicate] at within
        obtain ⟨step, ⟨-, rfl⟩, within⟩ := within
        exact absurd (List.all_eq_true.mp layout.blank _ within) (by decide)
      simp [Layout.line, indent, PrintedLine.return_not_mem_print layout own]
  apply List.filter_eq_self.mpr
  intro c member
  simp only [decide_eq_true_eq]
  rintro rfl
  exact normal member

end IndentMarkup
