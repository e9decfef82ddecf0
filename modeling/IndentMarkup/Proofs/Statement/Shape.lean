import IndentMarkup.Statement.TagLine
import Mathlib.Computability.Language

/-! The grammar of tag lines, over the kinds of their tokens. Only what stands behind a colon refers
to the grammar again; the rest is a regular language, and how its words go on behind a kind is said
part by part. -/
namespace IndentMarkup.TagLine

open scoped Computability

namespace Shape

/-- One token, of a kind that is among these. -/
def oneOf (among : Token.Kind → Bool) : Language Token.Kind :=
  {word | ∃ kind, among kind = true ∧ word = [kind]}

/-- One token of that kind. -/
def just (kind : Token.Kind) : Language Token.Kind :=
  oneOf (· = kind)

def name : Language Token.Kind :=
  oneOf Token.Kind.isName

/-- A class or an id. -/
def selector : Language Token.Kind :=
  just (.symbol .dot) * name + just (.symbol .hash) * name

def separator : Language Token.Kind :=
  oneOf fun kind => kind = .space || kind = .symbol .comma

def sign : Language Token.Kind :=
  oneOf fun kind => kind = .symbol .equals || kind = .symbol .inlineValue

def assignment : Language Token.Kind :=
  name * (just .space)∗ * sign * (just .space)∗ * just .quoted * separator∗

def attributes : Language Token.Kind :=
  just (.symbol .openParen) * separator∗ * assignment∗ * just (.symbol .closeParen)

/-- At most so many ids stand in the word. -/
def withIds (ids : Nat) (language : Language Token.Kind) : Language Token.Kind :=
  {word | word ∈ language ∧ word.count (.symbol .hash) ≤ ids}

/-- What a tag line says of the tag itself. -/
def head : Language Token.Kind :=
  withIds 1 ((1 + just .word) * selector∗ * (1 + attributes * selector∗))

/-- The kinds of a tag line. Behind a colon stands a further one that the condition holds of. -/
inductive Form (behindColon : List Token.Kind → Prop) : List Token.Kind → Prop where
  | bare {first : List Token.Kind} (head : first ∈ head) : Form behindColon first
  | dot {first : List Token.Kind} (head : first ∈ head) :
      Form behindColon (first ++ [.symbol .dot])
  | block {first : List Token.Kind} (head : first ∈ head) :
      Form behindColon (first ++ [.symbol .block])
  | text {first : List Token.Kind} (head : first ∈ head) (rest : List Token.Kind) :
      Form behindColon (first ++ .space :: rest)
  | value {first spaces : List Token.Kind} {mark kind : Token.Kind} (head : first ∈ head)
      (sign : mark = .symbol .equals ∨ mark = .symbol .inlineValue)
      (blank : spaces ∈ (just .space)∗) (solid : kind ≠ .space) (rest : List Token.Kind) :
      Form behindColon (first ++ mark :: (spaces ++ kind :: rest))
  | colon {first spaces inner : List Token.Kind} (head : first ∈ head)
      (blank : spaces ∈ (just .space)∗) (inside : Form behindColon inner)
      (behind : behindColon inner) :
      Form behindColon (first ++ .symbol .colon :: (spaces ++ inner))

theorem Form.imp {first second : List Token.Kind → Prop} {word : List Token.Kind}
    (weaker : ∀ inner, first inner → second inner) (form : Form first word) : Form second word := by
  induction form with
  | bare head => exact .bare head
  | dot head => exact .dot head
  | block head => exact .block head
  | text head rest => exact .text head rest
  | value head sign blank solid rest => exact .value head sign blank solid rest
  | colon head blank _ behind ih => exact .colon head blank ih (weaker _ behind)

/-- The kinds start with one that starts a tag. -/
def StartsTag (kinds : List Token.Kind) : Prop :=
  ∃ kind ∈ kinds.head?, kind ∈ startKinds

section Continuations

variable {L M : Language Token.Kind} {kind : Token.Kind}

/-- How the words of a language go on that begin with the kind. -/
def behind (kind : Token.Kind) (L : Language Token.Kind) : Language Token.Kind :=
  {word | kind :: word ∈ L}

theorem mem_behind {word : List Token.Kind} : word ∈ behind kind L ↔ kind :: word ∈ L :=
  Iff.rfl

theorem behind_add : behind kind (L + M) = behind kind L + behind kind M :=
  rfl

theorem behind_empty : behind kind 1 = 0 := by
  ext word
  simp [mem_behind, Language.mem_one]

theorem behind_oneOf (among : Token.Kind → Bool) :
    behind kind (oneOf among) = if among kind then 1 else 0 := by
  ext word
  have own : kind :: word ∈ oneOf among ↔ among kind = true ∧ word = [] := by
    constructor
    · rintro ⟨_, inside, same⟩
      obtain ⟨rfl, rfl⟩ := List.cons.inj same
      exact ⟨inside, rfl⟩
    · rintro ⟨inside, rfl⟩
      exact ⟨kind, inside, rfl⟩
  rw [mem_behind, own]
  split
  next inside => simp [inside, Language.mem_one]
  next outside => simp [outside]

theorem nil_mem_mul : [] ∈ L * M ↔ [] ∈ L ∧ [] ∈ M := by
  simp [Language.mem_mul]

theorem nil_notMem_oneOf (among : Token.Kind → Bool) : [] ∉ oneOf among := by
  rintro ⟨_, _, same⟩
  contradiction

theorem nil_notMem_just : [] ∉ just kind :=
  nil_notMem_oneOf _

theorem behind_just {kind' : Token.Kind} :
    behind kind (just kind') = if kind = kind' then 1 else 0 := by
  simp [just, behind_oneOf]

theorem cons_mem_mul {word : List Token.Kind} :
    kind :: word ∈ L * M ↔ word ∈ behind kind L * M ∨ ([] ∈ L ∧ kind :: word ∈ M) := by
  rw [Language.mem_mul, Language.mem_mul]
  constructor
  · rintro ⟨first, inside, second, inside', same⟩
    cases first with
    | nil => exact .inr ⟨inside, same ▸ inside'⟩
    | cons c first =>
      obtain ⟨rfl, rfl⟩ := List.cons.inj same
      exact .inl ⟨first, inside, second, inside', rfl⟩
  · rintro (⟨first, inside, second, inside', rfl⟩ | ⟨inside, inside'⟩)
    · exact ⟨kind :: first, inside, second, inside', rfl⟩
    · exact ⟨[], inside, kind :: word, inside', rfl⟩

/-- Only the first factor goes on if it is not left out. -/
theorem behind_mul_of_notMem (apart : [] ∉ L) : behind kind (L * M) = behind kind L * M := by
  ext word
  simp [mem_behind, cons_mem_mul, apart]

theorem behind_oneOf_mul (among : Token.Kind → Bool) :
    behind kind (oneOf among * M) = if among kind then M else 0 := by
  rw [behind_mul_of_notMem (nil_notMem_oneOf among), behind_oneOf, ite_mul, one_mul, zero_mul]

theorem behind_just_mul {kind' : Token.Kind} :
    behind kind (just kind' * M) = if kind = kind' then M else 0 := by
  rw [behind_mul_of_notMem nil_notMem_just, behind_just, ite_mul, one_mul, zero_mul]

theorem behind_mul_of_mem (within : [] ∈ L) :
    behind kind (L * M) = behind kind L * M + behind kind M := by
  ext word
  rw [mem_behind, cons_mem_mul, Language.mem_add, mem_behind, and_iff_right within]

theorem behind_star (apart : [] ∉ L) : behind kind L∗ = behind kind L * L∗ := by
  rw [← Language.one_add_self_mul_kstar_eq_kstar, behind_add, behind_empty, zero_add,
    behind_mul_of_notMem apart, Language.one_add_self_mul_kstar_eq_kstar]

/-- A repeated part goes on, or what stands behind it does. -/
theorem behind_star_mul (apart : [] ∉ L) :
    behind kind (L∗ * M) = behind kind L * (L∗ * M) + behind kind M := by
  rw [behind_mul_of_mem (Language.nil_mem_kstar L), behind_star apart, mul_assoc]

theorem behind_oneOf_star_mul (among : Token.Kind → Bool) :
    behind kind ((oneOf among)∗ * M) =
      (if among kind then (oneOf among)∗ * M else 0) + behind kind M := by
  rw [behind_star_mul (nil_notMem_oneOf among), behind_oneOf, ite_mul, one_mul, zero_mul]

theorem behind_just_star_mul {kind' : Token.Kind} :
    behind kind ((just kind')∗ * M) =
      (if kind = kind' then (just kind')∗ * M else 0) + behind kind M := by
  rw [behind_star_mul nil_notMem_just, behind_just, ite_mul, one_mul, zero_mul]

theorem behind_withIds {ids : Nat} (other : kind ≠ .symbol .hash) :
    behind kind (withIds ids L) = withIds ids (behind kind L) := by
  ext word
  have count : (kind :: word).count (.symbol .hash) = word.count (.symbol .hash) :=
    List.count_cons_of_ne other
  change _ ∧ _ ↔ _ ∧ _
  rw [count]
  rfl

theorem behind_withIds_hash (ids : Nat) :
    behind (.symbol .hash) (withIds ids L) =
      match ids with
      | 0 => 0
      | ids + 1 => withIds ids (behind (.symbol .hash) L) := by
  ext word
  have own : word ∈ behind (.symbol .hash) (withIds ids L) ↔
      .symbol .hash :: word ∈ L ∧ word.count (.symbol .hash) + 1 ≤ ids := by
    change _ ∧ _ ↔ _
    rw [List.count_cons_self]
  rw [own]
  cases ids with
  | zero => simp
  | succ ids => exact and_congr_right fun _ => Nat.succ_le_succ_iff

/-- No word of the language has an id. -/
def Idless (L : Language Token.Kind) : Prop :=
  ∀ word ∈ L, .symbol .hash ∉ word

theorem withIds_mul {ids : Nat} (idless : Idless L) : withIds ids (L * M) = L * withIds ids M := by
  have count (first second : List Token.Kind) (inside : first ∈ L) :
      (first ++ second).count (.symbol .hash) = second.count (.symbol .hash) := by
    rw [List.count_append, List.count_eq_zero.mpr (idless first inside), Nat.zero_add]
  ext word
  constructor
  · rintro ⟨⟨first, inside, second, inside', rfl⟩, few⟩
    exact ⟨first, inside, second, ⟨inside', count first second inside ▸ few⟩, rfl⟩
  · rintro ⟨first, inside, second, ⟨inside', few⟩, rfl⟩
    exact ⟨⟨first, inside, second, inside', rfl⟩, (count first second inside).symm ▸ few⟩

theorem withIds_zero {ids : Nat} : withIds ids 0 = 0 := by
  ext word
  exact ⟨fun member => member.1, False.elim⟩

theorem idless_oneOf {among : Token.Kind → Bool} (other : among (.symbol .hash) = false) :
    Idless (oneOf among) := by
  rintro _ ⟨kind, inside, rfl⟩ member
  rw [← List.mem_singleton.mp member, other] at inside
  contradiction

theorem Idless.mul (first : Idless L) (second : Idless M) : Idless (L * M) := by
  rintro _ ⟨word, inside, word', inside', rfl⟩ member
  exact (List.mem_append.mp member).elim (first word inside) (second word' inside')

theorem Idless.star (idless : Idless L) : Idless L∗ := by
  rintro _ ⟨words, rfl, inside⟩ member
  obtain ⟨word, part, member⟩ := List.mem_flatten.mp member
  exact idless word (inside word part) member

theorem mem_oneOf_mul {among : Token.Kind → Bool} {M : Language Token.Kind}
    {word : List Token.Kind} :
    word ∈ oneOf among * M ↔ ∃ kind, among kind = true ∧ ∃ rest ∈ M, word = kind :: rest := by
  rw [Language.mem_mul]
  constructor
  · rintro ⟨_, ⟨kind, inside, rfl⟩, rest, later, rfl⟩
    exact ⟨kind, inside, rest, later, rfl⟩
  · rintro ⟨kind, inside, rest, later, rfl⟩
    exact ⟨[kind], ⟨kind, inside, rfl⟩, rest, later, rfl⟩

theorem mem_just_mul {M : Language Token.Kind} {word : List Token.Kind} :
    word ∈ just kind * M ↔ ∃ rest ∈ M, word = kind :: rest := by
  rw [just, mem_oneOf_mul]
  simp only [decide_eq_true_eq, exists_eq_left]

theorem mem_just {word : List Token.Kind} : word ∈ just kind ↔ word = [kind] := by
  constructor
  · rintro ⟨_, same, rfl⟩
    rw [of_decide_eq_true same]
  · rintro rfl
    exact ⟨kind, decide_eq_true rfl, rfl⟩

theorem mem_star_just {word : List Token.Kind} (all : ∀ other ∈ word, other = kind) :
    word ∈ (just kind)∗ := by
  induction word with
  | nil => exact Language.nil_mem_kstar _
  | cons first word ih =>
    obtain ⟨rfl, all⟩ := List.forall_mem_cons.mp all
    rw [← mem_behind, behind_star nil_notMem_just, behind_just, if_pos rfl, one_mul]
    exact ih all

end Continuations

section Parts

variable {M : Language Token.Kind} {kind : Token.Kind}

theorem behind_selector :
    behind kind selector =
      if kind = .symbol .dot ∨ kind = .symbol .hash then name else 0 := by
  rw [selector, behind_add, behind_just_mul, behind_just_mul]
  by_cases dot : kind = .symbol .dot
  · simp [dot]
  · by_cases hash : kind = .symbol .hash <;> simp [dot, hash]

theorem nil_notMem_selector : [] ∉ selector := by
  rw [selector, Language.mem_add, nil_mem_mul, nil_mem_mul]
  exact fun member => member.elim (fun both => nil_notMem_oneOf _ both.1) fun both =>
    nil_notMem_oneOf _ both.1

theorem idless_just {kind : Token.Kind} (other : kind ≠ .symbol .hash) : Idless (just kind) :=
  idless_oneOf (decide_eq_false other.symm)

theorem idless_name : Idless name :=
  idless_oneOf rfl

theorem idless_separator : Idless separator :=
  idless_oneOf rfl

theorem idless_assignment : Idless assignment := by
  have blanks : Idless (just .space)∗ := (idless_just (by decide)).star
  have sign : Idless sign := idless_oneOf rfl
  have quoted : Idless (just .quoted) := idless_just (by decide)
  exact ((((idless_name.mul blanks).mul sign).mul blanks).mul quoted).mul idless_separator.star

/-- Assignments, and what follows them. -/
def assignmentsThen (M : Language Token.Kind) : Language Token.Kind :=
  separator∗ * (assignment∗ * M)

/-- The value of an assignment, and what follows it. -/
def valueThen (M : Language Token.Kind) : Language Token.Kind :=
  (just .space)∗ * (just .quoted * assignmentsThen M)

/-- The sign of an assignment, and what follows it. -/
def signThen (M : Language Token.Kind) : Language Token.Kind :=
  (just .space)∗ * (sign * valueThen M)

theorem attributes_eq :
    attributes = just (.symbol .openParen) * assignmentsThen (just (.symbol .closeParen)) := by
  rw [attributes, assignmentsThen, mul_assoc, mul_assoc]

theorem assignmentsThen_mul (L : Language Token.Kind) :
    assignmentsThen M * L = assignmentsThen (M * L) := by
  rw [assignmentsThen, assignmentsThen, mul_assoc, mul_assoc]

/-- Assignments have no ids. -/
theorem withIds_assignmentsThen (ids : Nat) :
    withIds ids (assignmentsThen M) = assignmentsThen (withIds ids M) := by
  rw [assignmentsThen, assignmentsThen, withIds_mul idless_separator.star,
    withIds_mul idless_assignment.star]

theorem nil_notMem_assignment : [] ∉ assignment := by
  rw [assignment]
  simp only [mul_assoc, nil_mem_mul, not_and]
  exact fun member => absurd member (nil_notMem_oneOf _)

theorem behind_assignment_mul :
    behind kind (assignment * M) =
      if kind.isName then
        (just .space)∗ * (sign * ((just .space)∗ * (just .quoted * (separator∗ * M))))
      else 0 := by
  rw [assignment]
  simp only [mul_assoc]
  rw [name, behind_oneOf_mul]

theorem behind_assignmentsThen :
    behind kind (assignmentsThen M) =
      (if kind = .space ∨ kind = .symbol .comma then assignmentsThen M else 0) +
        ((if kind.isName then signThen M else 0) + behind kind M) := by
  have assignments : behind kind (assignment∗ * M) =
      (if kind.isName then signThen M else 0) + behind kind M := by
    rw [behind_star_mul nil_notMem_assignment, ← behind_mul_of_notMem nil_notMem_assignment,
      behind_assignment_mul]
    rfl
  rw [← assignments, assignmentsThen, separator, behind_oneOf_star_mul]
  simp only [Bool.or_eq_true, decide_eq_true_eq]

theorem behind_signThen :
    behind kind (signThen M) =
      (if kind = .space then signThen M else 0) +
        if kind = .symbol .equals ∨ kind = .symbol .inlineValue then valueThen M else 0 := by
  rw [signThen, behind_just_star_mul, sign, behind_oneOf_mul]
  simp only [Bool.or_eq_true, decide_eq_true_eq]

theorem behind_valueThen :
    behind kind (valueThen M) =
      (if kind = .space then valueThen M else 0) +
        if kind = .quoted then assignmentsThen M else 0 := by
  rw [valueThen, behind_just_star_mul, behind_just_mul]

end Parts

end Shape

end IndentMarkup.TagLine
