import IndentMarkup.Proofs.Markup.Entity
import IndentMarkup.Proofs.Markup.Node
import IndentMarkup.Proofs.Token.Rule

/-! Encoded markup has one reading. No value can imitate a tag or an attribute, so equal markup
comes from equal nodes: each part of it ends where a character stands that is no part of it. -/
namespace IndentMarkup

namespace Text

/-- An encoded value goes on up to the first character that it cannot hold. -/
theorem encode_unique {stop : Char} (stops : stop = '<' ∨ stop = '"') {value other rest left : Text}
    (ends : ∀ x ∈ rest.head?, x = stop) (ends' : ∀ x ∈ left.head?, x = stop)
    (same : value.encode ++ rest = other.encode ++ left) : value = other ∧ rest = left := by
  have inside (text : Text) : ∀ x ∈ text.encode, (x != stop) = true := by
    intro x member
    obtain ⟨lt, -, quot⟩ := not_mem_encode member
    rcases stops with rfl | rfl
    · simpa using lt
    · simpa using quot
  have outside {text : Text} (ends : ∀ x ∈ text.head?, x = stop) :
      ∀ x ∈ text.head?, (x != stop) = false := by
    intro x first
    simp [ends x first]
  obtain ⟨values, rests⟩ := run_unique (inside _) (outside ends) (inside _) (outside ends') same
  exact ⟨encode_injective values, rests⟩

/-- A name goes on up to the first character of no name. -/
theorem name_unique {name other rest left : Text} (named : name.isMarkupName = true)
    (named' : other.isMarkupName = true) (ends : ∀ x ∈ rest.head?, isMarkupNameChar x = false)
    (ends' : ∀ x ∈ left.head?, isMarkupNameChar x = false) (same : name ++ rest = other ++ left) :
    name = other ∧ rest = left := by
  rw [isMarkupName, Bool.and_eq_true, List.all_eq_true] at named named'
  exact run_unique named.2 ends named'.2 ends' same

end Text

theorem Attribute.markup_unique {a b : Attribute} {rest left : Text}
    (named : a.name.isMarkupName = true) (named' : b.name.isMarkupName = true)
    (same : a.markup ++ rest = b.markup ++ left) : a = b ∧ rest = left := by
  obtain ⟨name, value⟩ := a
  obtain ⟨name', value'⟩ := b
  have apart : isMarkupNameChar '=' = false := by decide
  simp only [markup, List.cons_append, List.append_assoc, List.nil_append, List.cons.injEq,
    true_and] at same
  obtain ⟨rfl, values⟩ := Text.name_unique named named' (by simpa using apart)
    (by simpa using apart) same
  simp only [List.cons.injEq, true_and] at values
  obtain ⟨rfl, rests⟩ := Text.encode_unique (.inr rfl) (by simp) (by simp) values
  exact ⟨rfl, (List.cons.inj rests).2⟩

/-- Behind its attributes a start tag ends. -/
def EndsTag (rest : Text) : Prop :=
  ∃ c tail, rest = c :: tail ∧ (c = '/' ∨ c = '>')

theorem EndsTag.attributes_unique {first second : List Attribute} {rest left : Text}
    (ends : EndsTag rest) (ends' : EndsTag left)
    (named : ∀ a ∈ first, a.name.isMarkupName = true)
    (named' : ∀ a ∈ second, a.name.isMarkupName = true)
    (same : first.flatMap Attribute.markup ++ rest = second.flatMap Attribute.markup ++ left) :
    first = second ∧ rest = left := by
  -- An attribute starts with a blank, where the tag would end with something else.
  have apart {a : Attribute} {more rest : Text} (ends : EndsTag rest) :
      rest ≠ a.markup ++ more := by
    obtain ⟨c, tail, rfl, rfl | rfl⟩ := ends <;> simp [Attribute.markup]
  induction first generalizing second with
  | nil =>
    cases second with
    | nil => exact ⟨rfl, same⟩
    | cons b second =>
      rw [List.flatMap_cons, List.append_assoc] at same
      exact absurd same (apart ends)
  | cons a first ih =>
    rw [List.flatMap_cons, List.append_assoc] at same
    cases second with
    | nil => exact absurd same.symm (apart ends')
    | cons b second =>
      rw [List.flatMap_cons, List.append_assoc] at same
      rw [List.forall_mem_cons] at named named'
      obtain ⟨rfl, tails⟩ := Attribute.markup_unique named.1 named'.1 same
      obtain ⟨rfl, rests⟩ := ih named.2 named'.2 tails
      exact ⟨rfl, rests⟩

namespace Node

/-- The nodes inside of a tag end with its end tag, and those of a document with the text. -/
def EndsBody (rest : Text) : Prop :=
  rest = [] ∨ ∃ tail, rest = '<' :: '/' :: tail

/-- Whether a text comes first, if there is a node, can be told from the markup. -/
def startsText? : Text → Option Bool
  | [] => none
  | '<' :: '/' :: _ => none
  | '<' :: _ => some false
  | _ => some true

theorem Normal.startsText? {nodes : List Node} (normal : Normal nodes) {rest : Text}
    (ends : EndsBody rest) :
    startsText? (allMarkup nodes ++ rest) = nodes.head?.map isText := by
  cases normal with
  | nil => rcases ends with rfl | ⟨tail, rfl⟩ <;> rfl
  | @text value later nonempty =>
    have solid : value.encode ≠ [] := fun empty => nonempty (Text.encode_injective empty)
    obtain ⟨c, tail, encoded⟩ := List.exists_cons_of_ne_nil solid
    obtain ⟨apart, -⟩ := Text.not_mem_encode (encoded ▸ List.mem_cons_self)
    rw [allMarkup, markup, encoded]
    simp [Node.startsText?, isText, apart]
  | @tag name _ _ _ _ named =>
    rw [Text.isMarkupName, Bool.and_eq_true] at named
    obtain ⟨c, tail, rfl⟩ := List.exists_cons_of_ne_nil (by simpa using named.1 : name ≠ [])
    have apart : c ≠ '/' := by
      rintro rfl
      have slash : isMarkupNameChar '/' = false := by decide
      simp [slash] at named
    rw [allMarkup, markup]
    simp [Node.startsText?, isText, apart]

/-- A text ends where something else than a text stands behind it. -/
theorem Normal.head_of_apart {nodes : List Node} (normal : Normal nodes) {rest : Text}
    (ends : EndsBody rest) (apart : ∀ next ∈ nodes.head?, next.isText = false) :
    ∀ x ∈ (allMarkup nodes ++ rest).head?, x = '<' := by
  cases normal with
  | nil => rcases ends with rfl | ⟨tail, rfl⟩ <;> simp [allMarkup]
  | text => exact absurd (apart _ rfl) (by simp [isText])
  | tag => simp [allMarkup, markup]

/-- What follows the attributes of a tag, up to its end. -/
def closing (name : Text) (hollow : Bool) (body : List Node) : Text :=
  if hollow then ['/', '>'] else '>' :: allMarkup body ++ (['<', '/'] ++ name ++ ['>'])

theorem allMarkup_tag (name : Text) (attributes : List Attribute) (hollow : Bool)
    (body later : List Node) (rest : Text) :
    allMarkup (.tag name attributes hollow body :: later) ++ rest =
      '<' :: (name ++ (attributes.flatMap Attribute.markup ++
        (closing name hollow body ++ (allMarkup later ++ rest)))) := by
  rw [allMarkup, markup, closing]
  simp only [List.cons_append, List.append_assoc]

theorem endsTag_closing (name : Text) (hollow : Bool) (body : List Node) (more : Text) :
    EndsTag (closing name hollow body ++ more) := by
  cases hollow with
  | true => exact ⟨'/', _, rfl, .inl rfl⟩
  | false => exact ⟨'>', _, rfl, .inr rfl⟩

/-- A name of a tag ends where an attribute or the end of the start tag stands behind it. -/
theorem head_not_name (attributes : List Attribute) {rest : Text} (ends : EndsTag rest) :
    ∀ x ∈ (attributes.flatMap Attribute.markup ++ rest).head?, isMarkupNameChar x = false := by
  have blank : isMarkupNameChar ' ' = false := by decide
  have slash : isMarkupNameChar '/' = false := by decide
  have close : isMarkupNameChar '>' = false := by decide
  cases attributes with
  | nil => obtain ⟨c, tail, rfl, rfl | rfl⟩ := ends <;> simpa
  | cons a attributes => simpa [Attribute.markup] using blank

theorem Normal.same_start {first second : List Node} (normal : Normal first)
    (normal' : Normal second) {rest left : Text} (ends : EndsBody rest) (ends' : EndsBody left)
    (same : allMarkup first ++ rest = allMarkup second ++ left) :
    first.head?.map isText = second.head?.map isText := by
  rw [← normal.startsText? ends, ← normal'.startsText? ends', same]

/-- Of two documents with the same markup the nodes are the same, and what stands behind them. -/
theorem Normal.markup_unique {first second : List Node} (normal : Normal first)
    (normal' : Normal second) {rest left : Text} (ends : EndsBody rest) (ends' : EndsBody left)
    (same : allMarkup first ++ rest = allMarkup second ++ left) : first = second ∧ rest = left := by
  induction normal generalizing second rest left with
  | nil =>
    have start := Normal.nil.same_start normal' ends ends' same
    cases normal' with
    | nil => exact ⟨rfl, same⟩
    | _ => contradiction
  | text nonempty apart behind ih =>
    have start := (Normal.text nonempty apart behind).same_start normal' ends ends' same
    cases normal' with
    | nil => contradiction
    | text nonempty' apart' behind' =>
      rw [allMarkup, allMarkup, List.append_assoc, List.append_assoc] at same
      obtain ⟨rfl, tails⟩ := Text.encode_unique (.inl rfl) (behind.head_of_apart ends apart)
        (behind'.head_of_apart ends' apart') same
      obtain ⟨rfl, rests⟩ := ih behind' ends ends' tails
      exact ⟨rfl, rests⟩
    | tag => simp [isText] at start
  | @tag name attributes hollow body later named listed inside nothing behind within ih =>
    have start := (Normal.tag named listed inside nothing behind).same_start normal' ends ends' same
    cases normal' with
    | nil => contradiction
    | text => simp [isText] at start
    | @tag name' attributes' hollow' body' later' named' listed' inside' nothing' behind' =>
      rw [allMarkup_tag, allMarkup_tag] at same
      have closes := endsTag_closing name hollow body (allMarkup later ++ rest)
      have closes' := endsTag_closing name' hollow' body' (allMarkup later' ++ left)
      obtain ⟨rfl, rests⟩ := Text.name_unique named named' (head_not_name _ closes)
        (head_not_name _ closes') (List.cons.inj same).2
      obtain ⟨rfl, tails⟩ := closes.attributes_unique closes' listed listed' rests
      -- A hollow tag ends in its start tag, any other behind its body.
      cases hollow with
      | true =>
        cases hollow' with
        | true =>
          obtain ⟨rfl, left⟩ := ih behind' ends ends' (List.append_cancel_left tails)
          rw [nothing rfl, nothing' rfl]
          exact ⟨rfl, left⟩
        | false => simp [closing] at tails
      | false =>
        cases hollow' with
        | true => simp [closing] at tails
        | false =>
          simp only [closing, Bool.false_eq_true, if_false, List.cons_append, List.append_assoc,
            List.cons.injEq, true_and] at tails
          obtain ⟨rfl, closed⟩ := within inside' (.inr ⟨_, rfl⟩) (.inr ⟨_, rfl⟩) tails
          simp only [List.cons.injEq, true_and, List.nil_append,
            List.append_cancel_left_eq] at closed
          obtain ⟨rfl, left⟩ := ih behind' ends ends' closed
          exact ⟨rfl, left⟩

end Node

/-- Encoded markup can be read back: two templates are rendered alike, each with its own choice
of branches, if and only if their nodes are the same. -/
theorem Template.render_encoding_iff {first second : Template} {choice choice' : BranchChoice}
    {output output' : Text} (plain : first.isPlain = true) (plain' : second.isPlain = true)
    (rendered : first.render (.encoding choice) = .ok output)
    (rendered' : second.render (.encoding choice') = .ok output') :
    output = output' ↔ first.nodes choice = second.nodes choice' := by
  rw [render_nodes plain rendered, render_nodes plain' rendered']
  constructor
  · intro same
    have ended : Node.EndsBody [] := .inl rfl
    exact ((nodes_normal plain choice).markup_unique (nodes_normal plain' choice') ended ended
      (congrArg (· ++ []) same)).1
  · exact congrArg Node.allMarkup

/-- A text that looks like a tag, and the same text in two parts behind an empty one and a hidden
comment. -/
theorem Template.render_encoding_parts :
    let first : Template := ⟨none, [.tag { name := ['p'], id := some ['"'] }
      (some (.text "</p>".toList)) [.conditional ['q'] [.marker .each ['x'] []] []]]⟩
    let second : Template := ⟨none, [.tag { name := ['p'], attributes := [⟨['i', 'd'], ['"']⟩] }
      none [.text [], .conditional ['q'] [.expression "</".toList] [], .comment ['c'] false,
        .text "p>".toList]]⟩
    first.isPlain = true ∧ second.isPlain = true ∧
      first.render (.encoding .elseBranch) =
        .ok "<p id=\"&quot;\">&lt;/p&gt;</p>".toList ∧
      second.render (.encoding .thenBranch) =
        .ok "<p id=\"&quot;\">&lt;/p&gt;</p>".toList ∧
      first.nodes .elseBranch = second.nodes .thenBranch := by
  intro first second
  have rendered : first.render (.encoding .elseBranch) =
      .ok "<p id=\"&quot;\">&lt;/p&gt;</p>".toList := by rfl
  have rendered' : second.render (.encoding .thenBranch) =
      .ok "<p id=\"&quot;\">&lt;/p&gt;</p>".toList := by rfl
  have plain : first.isPlain = true := by decide
  have plain' : second.isPlain = true := by decide
  exact ⟨plain, plain', rendered, rendered',
    (render_encoding_iff plain plain' rendered rendered').mp rfl⟩

end IndentMarkup
