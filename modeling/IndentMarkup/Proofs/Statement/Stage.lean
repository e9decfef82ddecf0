import IndentMarkup.Proofs.Statement.Shape

/-! How far a tag line has been read. What completes the line from a stage on is a language, which
goes on behind a token as that of the next stage does, so that the stages read the grammar. -/
namespace IndentMarkup.TagLine

open scoped Computability

namespace Shape

/-- How far a tag line has been read. -/
inductive Stage where
  /-- Behind the name of the tag, a selector or the attributes: so many ids may follow, and the
  attributes have been listed or may follow too. -/
  | selectors (ids : Nat) (listed : Bool)
  | dotted (ids : Nat) (listed : Bool)
  | hashed (ids : Nat) (listed : Bool)
  | between (ids : Nat)
  | named (ids : Nat)
  | assigned (ids : Nat)
  | block
  | text
  | value
  | colon
  deriving DecidableEq, Repr

namespace Stage

/-- What a token makes of the stage, if it can stand there. -/
def next? : Stage → Token.Kind → Option Stage
  | selectors ids listed, kind =>
    match kind with
    | .symbol .dot => some (dotted ids listed)
    | .symbol .hash =>
      match ids with
      | 0 => none
      | ids + 1 => some (hashed ids listed)
    | .symbol .openParen => if listed then none else some (between ids)
    | .space => some text
    | .symbol .equals | .symbol .inlineValue => some value
    | .symbol .block => some block
    | .symbol .colon => some colon
    | _ => none
  | dotted ids listed, kind | hashed ids listed, kind =>
    if kind.isName then some (selectors ids listed) else none
  | between ids, kind =>
    if kind = .space || kind = .symbol .comma then some (between ids)
    else if kind = .symbol .closeParen then some (selectors ids true)
    else if kind.isName then some (named ids)
    else none
  | named ids, kind =>
    if kind = .space then some (named ids)
    else if kind = .symbol .equals || kind = .symbol .inlineValue then some (assigned ids)
    else none
  | assigned ids, kind =>
    if kind = .space then some (assigned ids)
    else if kind = .quoted then some (between ids)
    else none
  | block, _ => none
  | text, _ => some text
  | value, kind => if kind = .space then some value else some text
  | colon, kind =>
    match kind with
    | .space => some colon
    | .word => some (selectors 1 false)
    | .symbol .dot => some (dotted 1 false)
    | .symbol .hash => some (hashed 0 false)
    | _ => none

/-- Whether the line may end there. -/
def isDone : Stage → Bool
  | selectors .. | dotted .. | block | text => true
  | _ => false

/-- The stage behind further tokens. -/
def after? : Stage → List Token.Kind → Option Stage :=
  List.foldlM next?

end Stage

/-- What a value is made of: it has more than blanks. -/
def filled : Language Token.Kind :=
  (just .space)∗ * (oneOf (· ≠ .space) * ⊤)

/-- The tag lines that say which tag it is. -/
def tagged : Language Token.Kind :=
  {word | Form StartsTag word ∧ StartsTag word}

/-- What stands behind a colon. -/
def nested : Language Token.Kind :=
  (just .space)∗ * tagged

/-- What a tag line says behind the tag itself. -/
def tail : Language Token.Kind :=
  1 + just (.symbol .dot) + just (.symbol .block) + just .space * ⊤ + sign * filled +
    just (.symbol .colon) * nested

/-- The attributes of a tag and the selectors behind them. -/
def listing (listed : Bool) : Language Token.Kind :=
  if listed then 1 else 1 + attributes * selector∗

/-- What a tag says of itself behind its name. -/
def body (listed : Bool) : Language Token.Kind :=
  selector∗ * listing listed

/-- What is left of a tag line behind the name of the tag. -/
def unnamed (ids : Nat) (listed : Bool) : Language Token.Kind :=
  withIds ids (body listed) * tail

/-- What is left of a tag line behind its assignments. -/
def closed (ids : Nat) : Language Token.Kind :=
  just (.symbol .closeParen) * unnamed ids true

/-- The kinds that complete a tag line from the stage on. -/
def Stage.left : Stage → Language Token.Kind
  | selectors ids listed => unnamed ids listed
  | dotted ids listed => name * unnamed ids listed + 1
  | hashed ids listed => name * unnamed ids listed
  | between ids => assignmentsThen (closed ids)
  | named ids => signThen (closed ids)
  | assigned ids => valueThen (closed ids)
  | block => 1
  | text => ⊤
  | value => filled
  | colon => nested

section Derivatives

variable {kind : Token.Kind} {ids : Nat} {listed : Bool}

theorem behind_filled : behind kind filled = if kind = .space then filled else ⊤ := by
  rw [filled, behind_star_mul nil_notMem_just, behind_just, behind_oneOf_mul]
  by_cases space : kind = .space <;> simp [space]

theorem behind_tail :
    behind kind tail =
      match kind with
      | .symbol .dot | .symbol .block => 1
      | .space => ⊤
      | .symbol .equals | .symbol .inlineValue => filled
      | .symbol .colon => nested
      | _ => 0 := by
  simp only [tail, behind_add, behind_empty, behind_just_mul, sign, behind_oneOf_mul, behind_just]
  cases kind with
  | symbol s => cases s <;> simp [-add_eq_sup]
  | _ => simp [-add_eq_sup]

theorem nil_mem_body : [] ∈ body listed := by
  refine nil_mem_mul.mpr ⟨Language.nil_mem_kstar _, ?_⟩
  rw [listing]
  split
  · rfl
  · exact Or.inl rfl

theorem nil_mem_withIds {L : Language Token.Kind} (within : [] ∈ L) : [] ∈ withIds ids L :=
  ⟨within, Nat.zero_le ids⟩

theorem behind_listing :
    behind kind (listing listed) =
      if kind = .symbol .openParen ∧ listed = false then
        assignmentsThen (just (.symbol .closeParen) * selector∗)
      else 0 := by
  cases listed with
  | true => simp [listing, behind_empty]
  | false =>
    simp only [listing, Bool.false_eq_true, if_false, behind_add, behind_empty, zero_add,
      attributes_eq, mul_assoc, behind_just_mul, assignmentsThen_mul, and_true]

theorem behind_body :
    behind kind (body listed) =
      (if kind = .symbol .dot ∨ kind = .symbol .hash then name * body listed else 0) +
        behind kind (listing listed) := by
  rw [body, behind_star_mul nil_notMem_selector, behind_selector, ite_mul, zero_mul]

theorem withIds_listing :
    withIds ids (assignmentsThen (just (.symbol .closeParen) * selector∗)) * tail =
      assignmentsThen (closed ids) := by
  rw [withIds_assignmentsThen, withIds_mul (idless_just (by decide)), assignmentsThen_mul,
    mul_assoc, closed, unnamed, body, listing, if_pos rfl, mul_one]

theorem behind_unnamed :
    behind kind (unnamed ids listed) =
      ((Stage.selectors ids listed).next? kind).elim 0 Stage.left := by
  rw [unnamed, behind_mul_of_mem (nil_mem_withIds nil_mem_body), behind_tail]
  by_cases hash : kind = .symbol .hash
  · subst hash
    rw [behind_withIds_hash, behind_body]
    cases ids with
    | zero => simp [Stage.next?, -add_eq_sup]
    | succ ids =>
      simp [Stage.next?, Stage.left, unnamed, behind_listing, withIds_mul idless_name, mul_assoc,
        -add_eq_sup]
  · rw [behind_withIds hash, behind_body, behind_listing]
    cases kind with
    | symbol s =>
      cases s
      case dot =>
        simp [Stage.next?, Stage.left, unnamed, withIds_mul idless_name, mul_assoc, -add_eq_sup]
      case openParen =>
        cases listed
        · simpa [Stage.next?, Stage.left, -add_eq_sup] using withIds_listing
        · simp [Stage.next?, withIds_zero, -add_eq_sup]
      case hash => contradiction
      all_goals simp [Stage.next?, Stage.left, withIds_zero, -add_eq_sup]
    | _ => simp [Stage.next?, Stage.left, withIds_zero, -add_eq_sup]

theorem mem_filled {word : List Token.Kind} :
    word ∈ filled ↔
      ∃ spaces ∈ (just .space)∗, ∃ kind, kind ≠ .space ∧ ∃ rest, word = spaces ++ kind :: rest := by
  rw [filled, Language.mem_mul]
  refine exists_congr fun spaces => and_congr_right fun _ => ?_
  constructor
  · rintro ⟨_, inside, rfl⟩
    obtain ⟨kind, solid, rest, -, rfl⟩ := mem_oneOf_mul.mp inside
    exact ⟨kind, of_decide_eq_true solid, rest, rfl⟩
  · rintro ⟨kind, solid, rest, rfl⟩
    exact ⟨_, mem_oneOf_mul.mpr ⟨kind, decide_eq_true solid, rest, trivial, rfl⟩, rfl⟩

theorem mem_tail {word : List Token.Kind} :
    word ∈ tail ↔
      word = [] ∨ word = [.symbol .dot] ∨ word = [.symbol .block] ∨
        (∃ rest, word = .space :: rest) ∨
        (∃ mark, (mark = .symbol .equals ∨ mark = .symbol .inlineValue) ∧
          ∃ rest ∈ filled, word = mark :: rest) ∨
        ∃ rest ∈ nested, word = .symbol .colon :: rest := by
  have everything (rest : List Token.Kind) : rest ∈ (⊤ : Language Token.Kind) := trivial
  simp only [tail, Language.mem_add, Language.mem_one, mem_just, mem_just_mul, sign, mem_oneOf_mul,
    everything, true_and, Bool.or_eq_true, decide_eq_true_eq, or_assoc]

theorem form_iff {word : List Token.Kind} : Form StartsTag word ↔ word ∈ head * tail := by
  simp only [Language.mem_mul, mem_tail]
  constructor
  · intro form
    cases form with
    | bare head => exact ⟨_, head, [], .inl rfl, List.append_nil _⟩
    | dot head => exact ⟨_, head, _, .inr (.inl rfl), rfl⟩
    | block head => exact ⟨_, head, _, .inr (.inr (.inl rfl)), rfl⟩
    | text head rest => exact ⟨_, head, _, .inr (.inr (.inr (.inl ⟨rest, rfl⟩))), rfl⟩
    | value head sign blank solid rest =>
      have inside := mem_filled.mpr ⟨_, blank, _, solid, rest, rfl⟩
      exact ⟨_, head, _, .inr (.inr (.inr (.inr (.inl ⟨_, sign, _, inside, rfl⟩)))), rfl⟩
    | colon head blank inside behind =>
      have inside : _ ∈ nested := Language.append_mem_mul blank ⟨inside, behind⟩
      exact ⟨_, head, _, .inr (.inr (.inr (.inr (.inr ⟨_, inside, rfl⟩)))), rfl⟩
  · rintro ⟨first, head, _, rfl | rfl | rfl | ⟨rest, rfl⟩ | ⟨mark, sign, rest, inside, rfl⟩ |
      ⟨rest, inside, rfl⟩, rfl⟩
    · rw [List.append_nil]
      exact .bare head
    · exact .dot head
    · exact .block head
    · exact .text head rest
    · obtain ⟨spaces, blank, kind, solid, rest, rfl⟩ := mem_filled.mp inside
      exact .value head sign blank solid rest
    · obtain ⟨spaces, blank, inner, ⟨inside, behind⟩, rfl⟩ := inside
      exact .colon head blank inside behind

theorem head_mul_tail : head * tail = (1 + just .word) * unnamed 1 false := by
  have idless : Idless (1 + just .word) := by
    rintro word (rfl | inside)
    · exact List.not_mem_nil
    · exact idless_just (by decide) word inside
  rw [head, mul_assoc, withIds_mul idless, unnamed, body, listing, if_neg Bool.false_ne_true,
    mul_assoc]

theorem behind_tagged :
    behind kind tagged =
      if kind = .space then 0 else (Stage.colon.next? kind).elim 0 Stage.left := by
  have starts : behind kind tagged =
      if kind ∈ startKinds then behind kind (head * tail) else 0 := by
    ext word
    rw [mem_behind]
    split
    next starts => exact (and_iff_left ⟨kind, rfl, starts⟩).trans form_iff
    next other =>
      refine iff_of_false ?_ id
      rintro ⟨_, _, same, starts⟩
      exact other (Option.some.inj same ▸ starts)
  rw [starts, head_mul_tail, behind_mul_of_mem (.inl rfl), behind_add, behind_empty, zero_add,
    behind_just, behind_unnamed]
  cases kind with
  | symbol s => cases s <;> simp [startKinds, Stage.next?, -add_eq_sup]
  | _ => simp [startKinds, Stage.next?, Stage.left, -add_eq_sup]

/-- A stage goes on as its next stage does. -/
theorem behind_left (stage : Stage) :
    behind kind stage.left = (stage.next? kind).elim 0 Stage.left := by
  cases stage with
  | selectors ids listed => exact behind_unnamed
  | dotted ids listed =>
    rw [Stage.left, name, behind_add, behind_empty, add_zero, behind_oneOf_mul, Stage.next?]
    split <;> rfl
  | hashed ids listed =>
    rw [Stage.left, name, behind_oneOf_mul, Stage.next?]
    split <;> rfl
  | between ids =>
    have closes : behind kind (closed ids) =
        if kind = .symbol .closeParen then unnamed ids true else 0 := behind_just_mul
    rw [Stage.left, behind_assignmentsThen, closes]
    cases kind with
    | symbol s => cases s <;> simp [Stage.next?, Token.Kind.isName, Stage.left, -add_eq_sup]
    | keyword k => cases k <;> simp [Stage.next?, Token.Kind.isName, Stage.left, -add_eq_sup]
    | _ => simp [Stage.next?, Token.Kind.isName, Stage.left, -add_eq_sup]
  | named ids =>
    rw [Stage.left, behind_signThen, Stage.next?]
    by_cases space : kind = .space
    · simp [space, Stage.left, -add_eq_sup]
    · by_cases sign : kind = .symbol .equals ∨ kind = .symbol .inlineValue <;>
        simp [space, sign, Stage.left, -add_eq_sup]
  | assigned ids =>
    rw [Stage.left, behind_valueThen, Stage.next?]
    by_cases space : kind = .space
    · simp [space, Stage.left, -add_eq_sup]
    · by_cases quoted : kind = .quoted <;> simp [space, quoted, Stage.left, -add_eq_sup]
  | block => exact behind_empty
  | text => rfl
  | value =>
    rw [Stage.left, behind_filled, Stage.next?]
    split <;> rfl
  | colon =>
    rw [Stage.left, nested, behind_just_star_mul, behind_tagged]
    split
    next space =>
      rw [space, add_zero]
      rfl
    next => rw [zero_add]

theorem nil_mem_left (stage : Stage) : [] ∈ stage.left ↔ stage.isDone = true := by
  cases stage with
  | selectors ids listed =>
    exact iff_of_true (nil_mem_mul.mpr ⟨nil_mem_withIds nil_mem_body, mem_tail.mpr (.inl rfl)⟩) rfl
  | dotted ids listed => exact iff_of_true (.inr rfl) rfl
  | block => exact iff_of_true rfl rfl
  | text => exact iff_of_true trivial rfl
  | colon =>
    refine iff_of_false (fun member => ?_) Bool.false_ne_true
    obtain ⟨_, _, starts, _⟩ := (nil_mem_mul.mp member).2
    contradiction
  | _ =>
    refine iff_of_false ?_ Bool.false_ne_true
    simp [Stage.left, assignmentsThen, signThen, valueThen, closed, filled, nil_mem_mul, name, sign,
      nil_notMem_just, nil_notMem_oneOf]

/-- The words that complete a line are those that take the stage to a last one. -/
theorem mem_left_iff {stage : Stage} {word : List Token.Kind} :
    word ∈ stage.left ↔ ∃ last, stage.after? word = some last ∧ last.isDone = true := by
  induction word generalizing stage with
  | nil => simpa [Stage.after?] using nil_mem_left stage
  | cons kind word ih =>
    rw [← mem_behind, behind_left, Stage.after?, List.foldlM_cons]
    cases stage.next? kind with
    | none => exact iff_of_false id (by simp)
    | some next => exact ih

/-- A line that starts with a tag is in the grammar if it is read to a last stage. -/
theorem form_iff_mem_left {word : List Token.Kind} (starts : StartsTag word) :
    Form StartsTag word ↔ word ∈ Stage.colon.left := by
  obtain _ | ⟨kind, word⟩ := word
  · obtain ⟨_, _, _⟩ := starts
    contradiction
  have solid : kind ≠ .space := by
    rintro rfl
    obtain ⟨_, same, starts⟩ := starts
    exact absurd (Option.some.inj same ▸ starts) (by decide)
  rw [← mem_behind, behind_left, ← (behind_tagged.trans (if_neg solid)), mem_behind]
  exact (and_iff_left starts).symm

/-- A line can go on wherever it has been read to, but behind a block marker. -/
theorem exists_mem_left {stage : Stage} (unblocked : stage ≠ .block) :
    ∃ word ≠ [], word ∈ stage.left := by
  have completes (kind : Token.Kind) (word : List Token.Kind) {last : Stage}
      (after : stage.after? (kind :: word) = some last) (done : last.isDone = true) :
      ∃ word ≠ [], word ∈ stage.left :=
    ⟨kind :: word, List.cons_ne_nil _ _, mem_left_iff.mpr ⟨last, after, done⟩⟩
  cases stage with
  | selectors => exact completes .space [] rfl rfl
  | between => exact completes (.symbol .closeParen) [] rfl rfl
  | named => exact completes (.symbol .equals) [.quoted, .symbol .closeParen] rfl rfl
  | assigned => exact completes .quoted [.symbol .closeParen] rfl rfl
  | block => contradiction
  | _ => exact completes .word [] rfl rfl

end Derivatives

end Shape

end IndentMarkup.TagLine
