import IndentMarkup.Proofs.Template.Print

/-! Reading a printed tag back: its name, id and classes, then its attributes. What follows
the tag only has to end the last name. -/
namespace IndentMarkup

open TagLine

/-- The reader takes the piece in front of the rest, and goes on from another state. -/
def Passes {σ α : Type} (reader : σ → Line → α) (p : Position) (piece rest : Text)
    (before after : σ) : Prop :=
  ∃ tokens, StartsLine p piece tokens rest ∧
    ∀ line, reader before (tokens ++ line) = reader after line

theorem Passes.nil {σ α : Type} {reader : σ → Line → α} (p : Position) (rest : Text)
    (state : σ) : Passes reader p [] rest state state :=
  ⟨[], .nil p rest, fun _ => rfl⟩

theorem Passes.append {σ α : Type} {reader : σ → Line → α} {p : Position}
    {first second rest : Text} {before between after : σ}
    (begun : Passes reader p first (second ++ rest) before between)
    (done : Passes reader (p.advance first) second rest between after) :
    Passes reader p (first ++ second) rest before after := by
  obtain ⟨tokens, starts, goes⟩ := begun
  obtain ⟨more, starts', goes'⟩ := done
  exact ⟨tokens ++ more, starts.append starts', fun line => by
    rw [List.append_assoc, goes, goes']⟩

theorem endsWord_symbol (s : Symbol) (rest : Text) : EndsWord (s.literal ++ rest) := by
  cases split : s.literal ++ rest with
  | nil => trivial
  | cons c tail => exact .inr ⟨s, rest, split⟩

variable {p : Position} {name rest : Text} {head : TagHead}

theorem isWordChar_head (named : isName name = true) (rest : Text) :
    ∀ c ∈ (name ++ rest).head?, isWordChar c = true := by
  cases name with
  | nil => contradiction
  | cons d tail =>
    intro c starts
    exact isWordChar_of_isName named c (by simp_all)

theorem not_inlineBlank_of_isWordChar {c : Char} (inWord : isWordChar c = true) :
    isInlineBlank c = false := by
  simp only [isWordChar, Bool.and_eq_true, Bool.not_eq_true'] at inWord
  simp [isInlineBlank, inWord.1]

theorem passes_class (p : Position) (head : TagHead) (named : isName name = true)
    (ends : EndsWord rest) :
    Passes readSelectors p ('.' :: name) rest head (head.addClass name) := by
  have apart : (name ++ rest).head? ≠ some '\n' :=
    fun feed => absurd (isWordChar_head named rest _ feed) (by decide)
  obtain ⟨kind, isName, starts⟩ := StartsLine.exists_name (p.advance ['.']) named ends
  refine ⟨_, (StartsLine.dot p apart).append starts, fun line => ?_⟩
  simp [readSelectors, isName]

theorem passes_id (p : Position) (fresh : head.id = none) (named : isName name = true)
    (ends : EndsWord rest) :
    Passes readSelectors p ('#' :: name) rest head { head with id := some name } := by
  have hash := StartsLine.symbol (s := .hash) p (name ++ rest) rfl rfl
  obtain ⟨kind, isName, starts⟩ := StartsLine.exists_name (p.advance ['#']) named ends
  refine ⟨_, hash.append starts, fun line => ?_⟩
  simp [readSelectors, isName, fresh]

theorem endsWord_classes (names : List Text) (ends : EndsWord rest) :
    EndsWord (names.flatMap ('.' :: ·) ++ rest) := by
  cases names with
  | nil => exact ends
  | cons name more => exact endsWord_symbol .dot _

theorem passes_classes {names : List Text} (p : Position) (head : TagHead)
    (named : ∀ name ∈ names, isName name = true) (ends : EndsWord rest) :
    Passes readSelectors p (names.flatMap ('.' :: ·)) rest head
      { head with classes := head.classes ++ names } := by
  induction names generalizing p head with
  | nil => simpa using Passes.nil p rest head
  | cons name more ih =>
    have first := passes_class p head (named name (by simp)) (endsWord_classes more ends)
    have later := ih (p.advance ('.' :: name)) (head.addClass name)
      fun other member => named other (.tail _ member)
    simpa [TagHead.addClass] using first.append later

/-- An attribute, up to the quotation mark that ends its value. -/
theorem passes_attribute {a : Attribute} (p : Position) (head : TagHead) (rest : Text)
    (printable : a.Printable) :
    Passes (readAttributes .between) p a.print rest head
      { head with attributes := head.attributes ++ [a] } := by
  obtain ⟨named, classless, unquoted, -⟩ := printable
  have spelled : a.print = a.name ++ (['='] ++ ('"' :: a.value ++ ['"'])) := by
    simp [Attribute.print]
  have ends : EndsWord ((['='] ++ ('"' :: a.value ++ ['"'])) ++ rest) :=
    endsWord_symbol .equals _
  obtain ⟨kind, isName, starts⟩ := StartsLine.exists_name p named ends
  have apart : (('"' :: a.value ++ ['"']) ++ rest).head? ≠ some ' ' := by simp
  have equals := StartsLine.equals (p.advance a.name) apart
  have value := StartsLine.quoted ((p.advance a.name).advance ['=']) rest unquoted
  rw [spelled]
  refine ⟨_, starts.append (equals.append value), fun line => ?_⟩
  have unspaced : kind ≠ .space ∧ kind ≠ .symbol .comma ∧ kind ≠ .symbol .closeParen := by
    refine ⟨?_, ?_, ?_⟩ <;> rintro rfl <;> contradiction
  simp [readAttributes, unspaced, isName, TagHead.addAttribute, classless]

theorem exists_blank_run {c : Char} (text : Text) (blank : isInlineBlank c = true) :
    ∃ run left, c :: text = run ++ left ∧ run ≠ [] ∧ (∀ x ∈ run, isInlineBlank x = true) ∧
      ∀ x ∈ left.head?, isInlineBlank x = false := by
  refine ⟨(c :: text).takeWhile isInlineBlank, (c :: text).dropWhile isInlineBlank,
    List.takeWhile_append_dropWhile.symm, by simp [blank], ?_, ?_⟩
  · exact fun x member => List.mem_takeWhile_imp member
  · intro x starts
    have apart := List.head?_dropWhile_not isInlineBlank (c :: text)
    rw [Option.mem_def.mp starts] at apart
    simpa using apart

/-- Commas and blanks between attributes are passed over, run by run. -/
theorem passes_separator {separator : Text} (p : Position) (head : TagHead)
    (parts : ∀ c ∈ separator, c = ',' ∨ isInlineBlank c = true)
    (solid : ∀ c ∈ rest.head?, isInlineBlank c = false) :
    Passes (readAttributes .between) p separator rest head head := by
  cases separator with
  | nil => exact .nil p rest head
  | cons c more =>
    rcases parts c (by simp) with rfl | blank
    · have comma := StartsLine.symbol (s := .comma) p (more ++ rest) rfl rfl
      obtain ⟨tokens, starts, goes⟩ := passes_separator (p.advance [',']) head
        (fun c member => parts c (.tail _ member)) solid
      refine ⟨_, comma.append starts, fun line => ?_⟩
      simpa [readAttributes] using goes line
    · obtain ⟨run, left, split, nonempty, inside, ends⟩ := exists_blank_run more blank
      have shorter : left.length < (c :: more).length := by
        have := List.length_pos_iff.mpr nonempty
        rw [split, List.length_append]
        omega
      rw [split] at parts ⊢
      obtain ⟨tokens, starts, goes⟩ := passes_separator (p.advance run) head
        (fun c member => parts c (List.mem_append_right run member)) solid
      have apart : ∀ x ∈ (left ++ rest).head?, isInlineBlank x = false := by
        cases left with
        | nil => exact solid
        | cons d left => exact ends
      refine ⟨_, (StartsLine.blanks p nonempty inside apart).append starts, fun line => ?_⟩
      simpa [readAttributes] using goes line
termination_by separator.length

theorem Attribute.head_solid {a : Attribute} (printable : a.Printable) (rest : Text) :
    ∀ c ∈ (a.print ++ rest).head?, isInlineBlank c = false := by
  intro c starts
  have spelled : a.print ++ rest = a.name ++ ('=' :: '"' :: a.value ++ '"' :: rest) := by
    simp [Attribute.print]
  rw [spelled] at starts
  exact not_inlineBlank_of_isWordChar (isWordChar_head printable.named _ c starts)

theorem passes_further_attributes {list : List Attribute} (layout : Layout) (p : Position)
    (head : TagHead) (rest : Text) (printable : ∀ a ∈ list, a.Printable) :
    Passes (readAttributes .between) p (list.flatMap fun a => layout.separator ++ a.print) rest
      head { head with attributes := head.attributes ++ list } := by
  induction list generalizing p head with
  | nil => simpa using Passes.nil p rest head
  | cons a more ih =>
    have own := printable a (by simp)
    have parts : ∀ c ∈ layout.separator, c = ',' ∨ isInlineBlank c = true := by
      intro c member
      have part := List.all_eq_true.mp layout.separates c member
      simp_all
    have apart := passes_separator p head parts (Attribute.head_solid own
      (more.flatMap (fun a => layout.separator ++ a.print) ++ rest))
    have first := passes_attribute (p.advance layout.separator) head
      (more.flatMap (fun a => layout.separator ++ a.print) ++ rest) own
    have later := ih ((p.advance layout.separator).advance a.print)
      { head with attributes := head.attributes ++ [a] }
      fun other member => printable other (.tail _ member)
    simpa using (apart.append first).append (by simpa using later)

/-- What may follow the attributes of a tag, or its last name where it has none. -/
def FollowsTag : Line → Prop
  | [] => True
  | t :: _ => t.kind = .space ∨ t.kind = .symbol .inlineValue

theorem readSelectors_end {line : Line} (follows : FollowsTag line) (head : TagHead) :
    readSelectors head line = .ok (head, line) := by
  cases line with
  | nil => rfl
  | cons t rest =>
    unfold readSelectors
    rcases follows with kind | kind <;> simp [kind]

/-- Attributes in parentheses, or nothing at all. -/
theorem exists_parentheses {list : List Attribute} (layout : Layout) (p : Position)
    (head : TagHead) (rest : Text) (printable : ∀ a ∈ list, a.Printable) :
    ∃ tokens, StartsLine p (Attribute.printList layout list) tokens rest ∧
      ∀ line, FollowsTag line →
        readSelectors head (tokens ++ line) = .ok (head, tokens ++ line) ∧
        readParentheses head (tokens ++ line) =
          .ok ({ head with attributes := head.attributes ++ list }, line) := by
  cases list with
  | nil =>
    refine ⟨[], .nil p rest, fun line follows => ⟨readSelectors_end follows head, ?_⟩⟩
    cases line with
    | nil => simp [readParentheses]
    | cons t later => rcases follows with kind | kind <;> simp [readParentheses, kind]
  | cons a more =>
    let listed := more.flatMap fun a => layout.separator ++ a.print
    have opening := StartsLine.symbol (s := .openParen) p
      (((a.print ++ listed) ++ [')']) ++ rest) rfl rfl
    have first := passes_attribute (p.advance ['(']) head (listed ++ ([')'] ++ rest))
      (printable a (by simp))
    have further := passes_further_attributes layout ((p.advance ['(']).advance a.print)
      { head with attributes := head.attributes ++ [a] } ([')'] ++ rest)
      fun other member => printable other (.tail _ member)
    obtain ⟨tokens, starts, goes⟩ := first.append further
    have closing := StartsLine.symbol (s := .closeParen)
      ((p.advance ['(']).advance (a.print ++ listed)) rest rfl rfl
    have spelled : Attribute.printList layout (a :: more) =
        ['('] ++ ((a.print ++ listed) ++ [')']) := by
      simp [Attribute.printList, listed]
    rw [spelled]
    refine ⟨_, opening.append (starts.append closing), fun line follows => ⟨?_, ?_⟩⟩
    · unfold readSelectors
      simp
    · simp [readParentheses, goes, readAttributes]

theorem endsWord_parentheses (layout : Layout) (list : List Attribute) (ends : EndsWord rest) :
    EndsWord (Attribute.printList layout list ++ rest) := by
  cases list with
  | nil => exact ends
  | cons a more => exact endsWord_symbol .openParen _

theorem endsWord_id (id : Option Text) (ends : EndsWord rest) :
    EndsWord (id.elim [] ('#' :: ·) ++ rest) := by
  cases id with
  | none => exact ends
  | some name => exact endsWord_symbol .hash _

theorem passes_optional_id {id : Option Text} (p : Position) (head : TagHead)
    (fresh : head.id = none) (named : ∀ name ∈ id, isName name = true) (ends : EndsWord rest) :
    Passes readSelectors p (id.elim [] ('#' :: ·)) rest head { head with id } := by
  cases id with
  | none =>
    have same : { head with id := none } = head := by rw [← fresh]
    rw [same]
    exact .nil p rest head
  | some name => exact passes_id p fresh (named name rfl) ends

/-- A printed tag begins with its name and is read up to what follows it. -/
theorem exists_head (layout : Layout) (p : Position) (printable : head.Printable)
    (ends : EndsWord rest) :
    ∃ tokens, StartsLine p (head.print layout) (⟨.word, head.name, p⟩ :: tokens) rest ∧
      ∀ line, FollowsTag line →
        readHead (⟨.word, head.name, p⟩ :: (tokens ++ line)) = .ok (head, line) := by
  have listed := endsWord_parentheses layout head.attributes ends
  have chosen := endsWord_classes head.classes listed
  have nameEnds : EndsWord ((head.id.elim [] ('#' :: ·) ++ head.classes.flatMap ('.' :: ·) ++
      Attribute.printList layout head.attributes) ++ rest) := by
    simpa using endsWord_id head.id chosen
  have name := StartsLine.word p printable.named nameEnds
    fun k => printable.notKeyword k (Keyword.mem_all k)
  have id := passes_optional_id (p.advance head.name) { name := head.name } rfl
    printable.id chosen
  have classes := passes_classes ((p.advance head.name).advance (head.id.elim [] ('#' :: ·)))
    { name := head.name, id := head.id } printable.classes listed
  obtain ⟨tokens, starts, goes⟩ := id.append classes
  obtain ⟨more, starts', goes'⟩ := exists_parentheses layout
    ((p.advance head.name).advance (head.id.elim [] ('#' :: ·) ++ head.classes.flatMap ('.' :: ·)))
    { head with attributes := [] } rest printable.attributes
  have spelled : head.print layout = head.name ++ (head.id.elim [] ('#' :: ·) ++
      head.classes.flatMap ('.' :: ·) ++ Attribute.printList layout head.attributes) := by
    simp [TagHead.print]
  rw [spelled]
  refine ⟨tokens ++ more, name.append (starts.append starts'), fun line follows => ?_⟩
  obtain ⟨unread, read⟩ := goes' line follows
  simp [readHead, readName, goes, unread, read, readSelectors_end follows, bind, Except.bind]

end IndentMarkup
