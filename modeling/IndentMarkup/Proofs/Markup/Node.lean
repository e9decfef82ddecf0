import IndentMarkup.Proofs.Markup.Compact

/-! What markup says, whatever template it was written from. A template is a list of nodes, texts
and tags, once its conditions are decided, and no text in it is empty or stands beside another. -/
namespace IndentMarkup

inductive Node where
  | text (value : Text)
  /-- A tag is hollow if nothing was put into it, not even an empty text. -/
  | tag (name : Text) (attributes : List Attribute) (hollow : Bool) (body : List Node)
  deriving BEq, Repr

namespace Node

def isText : Node → Bool
  | text _ => true
  | tag .. => false

/-- Puts a node in front. A text joins the one behind it, and an empty text is dropped. -/
def push : Node → List Node → List Node
  | text value, text next :: later => text (value ++ next) :: later
  | text [], later => later
  | node, later => node :: later

def merge (nodes : List Node) : List Node :=
  nodes.foldr push []

def ofContent : Option Content → List Node
  | none => []
  | some (.text value) => [text value]
  | some (.expression value) => [text value]

end Node

mutual

/-- The nodes of an element. Of a condition they are those of the chosen branch. -/
def Element.nodes (choice : BranchChoice) : Element → List Node
  | .tag head content children =>
    let body := Node.ofContent content ++ allNodes choice children
    [.tag head.name head.allAttributes body.isEmpty (Node.merge body)]
  | .loneAttribute .. => []
  | .text value => [.text value]
  | .expression value => [.text value]
  | .conditional predicate thenBranch elseBranch =>
    if choice.takesThen predicate then allNodes choice thenBranch else allNodes choice elseBranch
  | .comment .. => []
  | .marker .. => []

def Element.allNodes (choice : BranchChoice) : List Element → List Node
  | [] => []
  | element :: elements => element.nodes choice ++ allNodes choice elements

end

def Template.nodes (template : Template) (choice : BranchChoice) : List Node :=
  Node.merge (Element.allNodes choice template.elements)

/-- ASCII letters, digits and hyphens make up the names of markup. -/
def isMarkupNameChar (c : Char) : Bool :=
  c.isAlphanum || c = '-'

def Text.isMarkupName (name : Text) : Bool :=
  !name.isEmpty && name.all isMarkupNameChar

mutual

/-- Neither the element nor any inside of it is a buffered comment or a lone attribute, and all
tags and attributes have names of markup. -/
def Element.isPlain : Element → Bool
  | .tag head _ children =>
    head.name.isMarkupName && head.attributes.all (·.name.isMarkupName) && allPlain children
  | .loneAttribute .. => false
  | .text _ => true
  | .expression _ => true
  | .conditional _ thenBranch elseBranch => allPlain thenBranch && allPlain elseBranch
  | .comment _ buffered => !buffered
  | .marker _ _ children => allPlain children

def Element.allPlain : List Element → Bool
  | [] => true
  | element :: elements => element.isPlain && allPlain elements

end

/-- Neither is there a document type. -/
def Template.isPlain (template : Template) : Bool :=
  template.doctype.isNone && Element.allPlain template.elements

/-- Values are encoded, and no layout is added. -/
def RenderOptions.encoding (choice : BranchChoice) : RenderOptions :=
  { autoEncode := true, branches := choice }

def Attribute.markup (a : Attribute) : Text :=
  ' ' :: a.name ++ ['=', '"'] ++ a.value.encode ++ ['"']

mutual

def Node.markup : Node → Text
  | .text value => value.encode
  | .tag name attributes hollow body =>
    '<' :: name ++ (attributes.flatMap Attribute.markup ++
      if hollow then ['/', '>'] else '>' :: Node.allMarkup body ++ (['<', '/'] ++ name ++ ['>']))

def Node.allMarkup : List Node → Text
  | [] => []
  | node :: later => node.markup ++ Node.allMarkup later

end

namespace Node

theorem allMarkup_append (first second : List Node) :
    allMarkup (first ++ second) = allMarkup first ++ allMarkup second := by
  induction first with
  | nil => simp [allMarkup]
  | cons node later ih => simp [allMarkup, ih]

theorem allMarkup_push (node : Node) (later : List Node) :
    allMarkup (push node later) = node.markup ++ allMarkup later := by
  unfold push
  split
  · simp [allMarkup, markup, Text.encode_append]
  · simp [markup]
  · rw [allMarkup]

/-- Markup does not tell how texts that stand side by side were cut. -/
theorem allMarkup_merge (nodes : List Node) : allMarkup (merge nodes) = allMarkup nodes := by
  induction nodes with
  | nil => rfl
  | cons node later ih =>
    rw [allMarkup, ← ih]
    exact allMarkup_push node (merge later)

/-- No text is empty or stands beside another, neither among the nodes nor inside of them, and
all names are names of markup. -/
inductive Normal : List Node → Prop where
  | nil : Normal []
  | text {value : Text} {later : List Node} (nonempty : value ≠ [])
      (apart : ∀ next ∈ later.head?, next.isText = false) (rest : Normal later) :
      Normal (.text value :: later)
  | tag {name : Text} {attributes : List Attribute} {hollow : Bool} {body later : List Node}
      (named : name.isMarkupName = true)
      (listed : ∀ a ∈ attributes, a.name.isMarkupName = true) (inside : Normal body)
      (nothing : hollow = true → body = []) (rest : Normal later) :
      Normal (.tag name attributes hollow body :: later)

theorem Normal.push_text {later : List Node} (normal : Normal later) (value : Text) :
    Normal (push (.text value) later) := by
  cases normal with
  | nil => cases value with
    | nil => exact .nil
    | cons c value => exact .text (List.cons_ne_nil _ _) nofun .nil
  | text nonempty apart rest => exact .text (by simp [nonempty]) apart rest
  | tag named listed inside nothing rest => cases value with
    | nil => exact .tag named listed inside nothing rest
    | cons c value =>
      refine .text (List.cons_ne_nil _ _) ?_ (.tag named listed inside nothing rest)
      rintro _ ⟨rfl⟩
      rfl

end Node

theorem TagHead.allAttributes_named {head : TagHead}
    (listed : head.attributes.all (·.name.isMarkupName) = true) :
    ∀ a ∈ head.allAttributes, a.name.isMarkupName = true := by
  have id : Text.isMarkupName ['i', 'd'] = true := by decide
  have class_ : Text.isMarkupName ['c', 'l', 'a', 's', 's'] = true := by decide
  intro a member
  simp only [allAttributes, List.mem_append, Option.mem_toList, Option.map_eq_some_iff] at member
  rcases member with (⟨value, -, rfl⟩ | classes) | own
  · exact id
  · split at classes
    · contradiction
    · obtain rfl := List.mem_singleton.mp classes
      exact class_
  · exact List.all_eq_true.mp listed a own

namespace Element

variable {options : RenderOptions} {elements : List Element}

theorem normal_foldr (choice : BranchChoice) (plain : allPlain elements = true)
    {rest : List Node} (normal : Node.Normal rest) :
    Node.Normal ((allNodes choice elements).foldr Node.push rest) := by
  induction elements using forest_induction generalizing rest with
  | nil => exact normal
  | tag head content children later inside behind =>
    simp only [allPlain, isPlain, Bool.and_eq_true] at plain
    obtain ⟨⟨⟨named, listed⟩, inner⟩, outer⟩ := plain
    rw [allNodes, nodes, List.foldr_append]
    refine .tag named (TagHead.allAttributes_named listed) ?_ ?_ (behind outer normal)
    · rw [Node.merge, List.foldr_append]
      have body := inside inner .nil
      rcases content with _ | _ | _
      · exact body
      · exact body.push_text _
      · exact body.push_text _
    · intro nothing
      rw [List.isEmpty_iff.mp nothing]
      rfl
  | loneAttribute name value later behind => simp [allPlain, isPlain] at plain
  | text value later behind =>
    simp only [allPlain, isPlain, Bool.true_and] at plain
    exact (behind plain normal).push_text value
  | expression value later behind =>
    simp only [allPlain, isPlain, Bool.true_and] at plain
    exact (behind plain normal).push_text value
  | conditional predicate thenBranch elseBranch later first second behind =>
    simp only [allPlain, isPlain, Bool.and_eq_true] at plain
    rw [allNodes, nodes, List.foldr_append]
    split
    · exact first plain.1.1 (behind plain.2 normal)
    · exact second plain.1.2 (behind plain.2 normal)
  | comment body buffered later behind =>
    simp only [allPlain, Bool.and_eq_true] at plain
    exact behind plain.2 normal
  | marker kind argument children later inside behind =>
    simp only [allPlain, Bool.and_eq_true] at plain
    exact behind plain.2 normal

theorem anyLoneAttribute_of_plain (plain : allPlain elements = true) :
    anyLoneAttribute elements = false := by
  induction elements using forest_induction with
  | nil => rfl
  | conditional predicate thenBranch elseBranch later first second behind =>
    simp only [allPlain, isPlain, Bool.and_eq_true] at plain
    simp [anyLoneAttribute, hasLoneAttribute, first plain.1.1, second plain.1.2, behind plain.2]
  | _ => simp_all [allPlain, isPlain, anyLoneAttribute, hasLoneAttribute]

/-- Whether the elements have markup, and which it is, both can be told from their nodes. -/
structure ToldBy (options : RenderOptions) (elements : List Element) (nodes : List Node) :
    Prop where
  any : anyMarkup options elements = !nodes.isEmpty
  markup : allMarkup options elements = Node.allMarkup nodes

theorem ToldBy.cons {element : Element} {later : List Element}
    {nodes behind : List Node} (first : ToldBy options [element] nodes)
    (rest : ToldBy options later behind) :
    ToldBy options (element :: later) (nodes ++ behind) where
  any := by
    have here := first.any
    rw [anyMarkup, anyMarkup, Bool.or_false] at here
    rw [anyMarkup, here, rest.any]
    cases nodes <;> simp
  markup := by
    have here := first.markup
    rw [allMarkup, allMarkup, List.append_nil] at here
    rw [allMarkup, here, rest.markup, Node.allMarkup_append]

theorem text_toldBy (encoded : options.autoEncode = true) (value : Text) :
    ToldBy options [.text value] [.text value] ∧
      ToldBy options [.expression value] [.text value] := by
  constructor <;> constructor <;>
    simp [anyMarkup, hasMarkup, allMarkup, Element.markup, Node.allMarkup, Node.markup,
      RenderOptions.encoded, encoded]

theorem tag_toldBy (encoded : options.autoEncode = true) {children : List Element}
    (inside : ToldBy options children (allNodes options.branches children)) (head : TagHead)
    (content : Option Content) :
    ToldBy options [.tag head content children]
      (nodes options.branches (.tag head content children)) := by
  refine ⟨rfl, ?_⟩
  have value : options.encoded = Text.encode := by
    funext value
    simp [RenderOptions.encoded, encoded]
  have attributes : head.attributeMarkup options =
      head.allAttributes.flatMap Attribute.markup := by
    rw [TagHead.attributeMarkup]
    congr 1
    funext a
    rw [RenderOptions.attributeMarkup, value, Attribute.markup]
  have inline : options.contentMarkup content = Node.allMarkup (Node.ofContent content) := by
    rcases content with _ | _ | _ <;>
      simp [RenderOptions.contentMarkup, Node.ofContent, Node.allMarkup, Node.markup, value]
  have holds : (content.isSome || anyMarkup options children) =
      !(Node.ofContent content ++ allNodes options.branches children).isEmpty := by
    rcases content with _ | _ | _ <;> simp [inside.any, Node.ofContent]
  rw [allMarkup, markup, nodes, attributes, inline, inside.markup, holds]
  cases (Node.ofContent content ++ allNodes options.branches children).isEmpty with
  | true => simp [allMarkup, Node.allMarkup, Node.markup]
  | false =>
    simp [allMarkup, Node.allMarkup, Node.markup, Node.allMarkup_merge, Node.allMarkup_append]

theorem toldBy_nodes (encoded : options.autoEncode = true) (plain : allPlain elements = true) :
    ToldBy options elements (allNodes options.branches elements) := by
  induction elements using forest_induction with
  | nil => exact ⟨rfl, rfl⟩
  | tag head content children later inside behind =>
    simp only [allPlain, isPlain, Bool.and_eq_true] at plain
    exact (tag_toldBy encoded (inside plain.1.2) head content).cons (behind plain.2)
  | loneAttribute name value later behind => simp [allPlain, isPlain] at plain
  | text value later behind =>
    simp only [allPlain, isPlain, Bool.true_and] at plain
    exact (text_toldBy encoded value).1.cons (behind plain)
  | expression value later behind =>
    simp only [allPlain, isPlain, Bool.true_and] at plain
    exact (text_toldBy encoded value).2.cons (behind plain)
  | conditional predicate thenBranch elseBranch later first second behind =>
    simp only [allPlain, isPlain, Bool.and_eq_true] at plain
    refine ToldBy.cons ?_ (behind plain.2)
    have chosen : ToldBy options
        (if options.branches.takesThen predicate then thenBranch else elseBranch)
        (nodes options.branches (.conditional predicate thenBranch elseBranch)) := by
      rw [nodes]
      split
      · exact first plain.1.1
      · exact second plain.1.2
    constructor
    · rw [anyMarkup, hasMarkup, anyMarkup, Bool.or_false, ← chosen.any,
        apply_ite (anyMarkup options)]
    · rw [allMarkup, markup, allMarkup, List.append_nil, ← chosen.markup,
        apply_ite (allMarkup options)]
  | comment body buffered later behind =>
    simp only [allPlain, isPlain, Bool.and_eq_true, Bool.not_eq_true'] at plain
    obtain ⟨rfl, outer⟩ := plain
    exact ToldBy.cons ⟨rfl, rfl⟩ (behind outer)
  | marker kind argument children later inside behind =>
    simp only [allPlain, Bool.and_eq_true] at plain
    exact ToldBy.cons ⟨rfl, rfl⟩ (behind plain.2)

end Element

namespace Template

theorem nodes_normal {template : Template} (plain : template.isPlain = true)
    (choice : BranchChoice) : Node.Normal (template.nodes choice) := by
  rw [isPlain, Bool.and_eq_true] at plain
  exact Element.normal_foldr choice plain.2 .nil

/-- What is rendered is the markup of the nodes. -/
theorem render_nodes {template : Template} {choice : BranchChoice} {output : Text}
    (plain : template.isPlain = true) (rendered : template.render (.encoding choice) = .ok output) :
    output = Node.allMarkup (template.nodes choice) := by
  obtain ⟨doctype, elements⟩ := template
  rw [isPlain, Bool.and_eq_true, Option.isNone_iff_eq_none] at plain
  obtain ⟨rfl, plain⟩ := plain
  rw [render] at rendered
  obtain ⟨after, written, ⟨⟩⟩ := bind_ok rendered
  have compact : (RenderOptions.encoding choice).Compact := ⟨rfl, rfl⟩
  have wrote := Element.writesMarkup compact elements (Element.anyLoneAttribute_of_plain plain)
    (.start (.encoding choice)) after rfl written
  rw [wrote.output, (Element.toldBy_nodes rfl plain).markup, nodes, Node.allMarkup_merge]
  rfl

end Template

end IndentMarkup
