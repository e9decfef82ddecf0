import IndentMarkup.Markup.Entity

/-! Encoding loses nothing and hides every character that means something in markup. One pass over
the text does what a pass for each entity does, as long as the ampersands come first, and reading
the entities back gives the text. -/
namespace IndentMarkup

/-- The entities behind the characters that they stand for, in the order of the passes. -/
def entities : List (Char × Text) :=
  [('&', "&amp;".toList), ('<', "&lt;".toList), ('>', "&gt;".toList), ('"', "&quot;".toList)]

namespace Text

/-- One pass over the text. -/
def replace (text : Text) (old : Char) (new : Text) : Text :=
  text.flatMap fun c => if c = old then new else [c]

/-- One full pass for each entity. -/
def encodeByPasses (text : Text) : Text :=
  entities.foldl (fun text (c, name) => text.replace c name) text

/-- Reads the entities from left to right. Any other ampersand stands for itself. -/
def decode : Text → Text
  | [] => []
  | '&' :: 'a' :: 'm' :: 'p' :: ';' :: rest => '&' :: decode rest
  | '&' :: 'l' :: 't' :: ';' :: rest => '<' :: decode rest
  | '&' :: 'g' :: 't' :: ';' :: rest => '>' :: decode rest
  | '&' :: 'q' :: 'u' :: 'o' :: 't' :: ';' :: rest => '"' :: decode rest
  | c :: rest => c :: decode rest

theorem replace_append (first second : Text) (old : Char) (new : Text) :
    (first ++ second).replace old new = first.replace old new ++ second.replace old new :=
  List.flatMap_append

theorem encodeByPasses_append (first second : Text) :
    (first ++ second).encodeByPasses = first.encodeByPasses ++ second.encodeByPasses := by
  simp only [encodeByPasses, entities, List.foldl_cons, List.foldl_nil, replace_append]

end Text

theorem entity_of_mem {c : Char} {name : Text} (listed : (c, name) ∈ entities) :
    entity c = name := by
  have all : ∀ named ∈ entities, entity named.1 = named.2 := by decide
  exact all (c, name) listed

theorem listed_or_plain (c : Char) :
    (∃ name, (c, name) ∈ entities) ∨ c ≠ '&' ∧ c ≠ '<' ∧ c ≠ '>' ∧ c ≠ '"' := by
  by_cases listed : c ∈ entities.map Prod.fst
  · obtain ⟨named, member, rfl⟩ := List.mem_map.mp listed
    exact .inl ⟨named.2, member⟩
  · exact .inr (by simpa [entities] using listed)

theorem entity_of_plain {c : Char} (plain : c ≠ '&' ∧ c ≠ '<' ∧ c ≠ '>' ∧ c ≠ '"') :
    entity c = [c] := by
  simp [entity, plain]

theorem not_mem_entity {c x : Char} (member : x ∈ entity c) : x ≠ '<' ∧ x ≠ '>' ∧ x ≠ '"' := by
  obtain ⟨name, listed⟩ | plain := listed_or_plain c
  · have all : ∀ named ∈ entities, ∀ x ∈ named.2, x ≠ '<' ∧ x ≠ '>' ∧ x ≠ '"' := by
      simp [entities]
    obtain rfl := entity_of_mem listed
    exact all _ listed x member
  · rw [entity_of_plain plain, List.mem_singleton] at member
    subst member
    exact plain.2

namespace Text

/-- The later passes leave the entities of the earlier ones alone. -/
theorem encodeByPasses_singleton (c : Char) : encodeByPasses [c] = entity c := by
  obtain ⟨name, listed⟩ | plain := listed_or_plain c
  · have all : ∀ named ∈ entities, encodeByPasses [named.1] = named.2 := by decide
    rw [entity_of_mem listed]
    exact all (c, name) listed
  · rw [entity_of_plain plain]
    simp [encodeByPasses, entities, replace, plain]

theorem encode_eq_encodeByPasses (text : Text) : text.encode = text.encodeByPasses := by
  induction text with
  | nil => rfl
  | cons c rest ih =>
    rw [encode_cons, ih, ← encodeByPasses_singleton c, ← encodeByPasses_append]
    rfl

theorem decode_entity (c : Char) (rest : Text) : decode (entity c ++ rest) = c :: decode rest := by
  obtain ⟨name, listed⟩ | plain := listed_or_plain c
  · have all : ∀ named ∈ entities, decode (named.2 ++ rest) = named.1 :: decode rest := by
      simp [entities, decode]
    rw [entity_of_mem listed]
    exact all (c, name) listed
  · rw [entity_of_plain plain]
    simp [decode, plain]

theorem decode_encode (text : Text) : decode text.encode = text := by
  induction text with
  | nil => rfl
  | cons c rest ih => rw [encode_cons, decode_entity, ih]

theorem encode_injective {first second : Text} (same : first.encode = second.encode) :
    first = second := by
  rw [← decode_encode first, same, decode_encode]

theorem not_mem_encode {text : Text} {x : Char} (member : x ∈ text.encode) :
    x ≠ '<' ∧ x ≠ '>' ∧ x ≠ '"' := by
  rw [encode_eq_flatMap] at member
  obtain ⟨c, -, inside⟩ := List.mem_flatMap.mp member
  exact not_mem_entity inside

/-- Inside of an entity there is no further ampersand. -/
theorem ampersand_of_entity {c : Char} {before after : Text}
    (split : entity c = before ++ '&' :: after) : before = [] ∧ (c, entity c) ∈ entities := by
  obtain ⟨name, listed⟩ | plain := listed_or_plain c
  · obtain rfl := entity_of_mem listed
    refine ⟨?_, listed⟩
    have once : ∀ named ∈ entities, '&' ∉ named.2.tail := by decide
    cases before with
    | nil => rfl
    | cons first before =>
      refine absurd ?_ (once _ listed)
      simp [split]
  · rw [entity_of_plain plain] at split
    cases before with
    | nil => exact absurd (List.cons.inj split).1 plain.1
    | cons => simp at split

theorem ampersand_of_encode {text before after : Text}
    (split : text.encode = before ++ '&' :: after) :
    ∃ named ∈ entities, named.2 <+: '&' :: after := by
  induction text generalizing before with
  | nil => simp at split
  | cons c rest ih =>
    rw [encode_cons] at split
    obtain ⟨between, same, tail⟩ | ⟨between, same, tail⟩ := List.append_eq_append_iff.mp split
    · exact ih tail
    · cases between with
      | nil =>
        have later : encode rest = [] ++ '&' :: after := tail.symm
        exact ih later
      | cons first between =>
        obtain ⟨rfl, rfl⟩ := List.cons.inj tail
        obtain ⟨rfl, listed⟩ := ampersand_of_entity same
        exact ⟨_, listed, encode rest, by simp [same]⟩

/-- Encoding is a pass for each entity, goes character by character, leaves nothing that could be
taken for markup, and can be undone. -/
theorem encode_faithful (first second : Text) :
    first.encode = first.encodeByPasses ∧
      (first ++ second).encode = first.encode ++ second.encode ∧
      (∀ c ∈ first.encode, c ≠ '<' ∧ c ≠ '>' ∧ c ≠ '"') ∧
      (∀ before after, first.encode = before ++ '&' :: after →
        ∃ named ∈ entities, named.2 <+: '&' :: after) ∧
      first.encode.decode = first ∧
      (first.encode = second.encode → first = second) := by
  refine ⟨encode_eq_encodeByPasses first, encode_append first second, ?_, ?_, decode_encode first,
    encode_injective⟩
  · intro c member
    exact not_mem_encode member
  · intro before after split
    exact ampersand_of_encode split

/-- A text that looks encoded is encoded once more. -/
theorem encode_faithful_entity :
    encode "&lt;".toList = "&amp;lt;".toList ∧ encodeByPasses "&lt;".toList = "&amp;lt;".toList ∧
      decode "&amp;lt;".toList = "&lt;".toList ∧
      ∃ named ∈ entities, named.2 <+: "&amp;lt;".toList := by
  obtain ⟨passes, -, -, starts, undone, -⟩ := encode_faithful "&lt;".toList []
  have encoded : encode "&lt;".toList = "&amp;lt;".toList := rfl
  exact ⟨encoded, passes ▸ encoded, encoded ▸ undone, starts [] _ encoded⟩

end Text

end IndentMarkup
