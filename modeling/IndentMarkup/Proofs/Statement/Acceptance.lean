import IndentMarkup.Proofs.Statement.Spelling
import IndentMarkup.Proofs.Statement.Stage

/-! Reading a tag line goes through the stages of the grammar. So it succeeds on the lines of the
grammar, and it fails at the first token that none of them has there. -/
namespace IndentMarkup.TagLine

variable {source : Text} {line rest : Line} {head : TagHead} {t : Token}

namespace Shape

/-- The error is about the leftmost token that no word of the language has there, or about the end
of a line that should go on. -/
inductive LeftmostError (L : Language Token.Kind) (line : Line) : ParseError → Prop where
  | token {before behind : Line} {t : Token} (whole : line = before ++ t :: behind)
      (viable : ∃ word ≠ [], before.kinds ++ word ∈ L)
      (stuck : ∀ word, before.kinds ++ t.kind :: word ∉ L) :
      LeftmostError L line (.unexpectedToken t.text t.position.line t.position.column)
  | ended (viable : ∃ word ≠ [], line.kinds ++ word ∈ L) (unfinished : line.kinds ∉ L) :
      LeftmostError L line .unexpectedEnd

theorem LeftmostError.cons {L : Language Token.Kind} {error : ParseError}
    (later : LeftmostError (behind t.kind L) line error) : LeftmostError L (t :: line) error := by
  cases later with
  | token whole viable stuck =>
    subst whole
    exact .token (List.cons_append ..).symm viable stuck
  | ended viable unfinished => exact .ended viable unfinished

namespace Stage

/-- Goes through a line from the stage on, and looks at the kinds of its tokens alone. -/
def check : Stage → Line → Except ParseError Unit
  | stage, [] => if stage.isDone then .ok () else .error .unexpectedEnd
  | stage, t :: rest =>
    match stage.next? t.kind with
    | none => .error (.ofToken t)
    | some next => next.check rest

/-- How many ids may follow. -/
def room (head : TagHead) : Nat :=
  if head.id.isSome then 0 else 1

@[simp] theorem room_addClass (head : TagHead) (name : Text) :
    room (head.addClass name) = room head :=
  rfl

@[simp] theorem room_addAttribute (head : TagHead) (name value : Text) :
    room (head.addAttribute name value) = room head := by
  rw [TagHead.addAttribute]
  split <;> rfl

def ofAttribute (ids : Nat) : AttributeStage → Stage
  | .between => between ids
  | .named _ => named ids
  | .assigned _ => assigned ids

theorem check_selectors (head : TagHead) (listed : Bool) (line : Line) :
    (selectors (room head) listed).check line =
      readSelectors head line >>= fun (head, rest) =>
        (selectors (room head) listed).check rest := by
  fun_induction readSelectors head line with
  | case1 => rfl
  | case2 head t dot => simp [check, next?, dot, isDone, bind, Except.bind]
  | case3 head t dot name left named ih =>
    rw [check, dot]
    simpa [check, next?, named] using ih
  | case4 head t dot name left unnamed => simp [check, next?, dot, unnamed, bind, Except.bind]
  | case5 head t rest dot hash taken =>
    simp [check, next?, hash, room, taken, bind, Except.bind]
  | case6 head t dot hash fresh =>
    simp [check, next?, hash, room, fresh, isDone, bind, Except.bind]
  | case7 head t dot hash fresh name left named ih =>
    rw [check, hash, ← ih]
    simp [check, next?, named, room, fresh]
  | case8 head t dot hash fresh name left unnamed =>
    simp [check, next?, hash, room, fresh, unnamed, bind, Except.bind]
  | case9 => rfl

theorem check_attributes (stage : AttributeStage) (head : TagHead) (line : Line) :
    (ofAttribute (room head) stage).check line =
      readAttributes stage head line >>= fun (head, rest) =>
        (selectors (room head) true).check rest := by
  fun_induction readAttributes stage head line with
  | case1 stage head => cases stage <;> rfl
  | case2 head t rest separates ih => simpa [check, ofAttribute, next?, separates] using ih
  | case3 head t rest other close =>
    simp [check, ofAttribute, next?, close, bind, Except.bind]
  | case4 head t rest other unclosed named ih =>
    simpa [check, ofAttribute, next?, other, unclosed, named] using ih
  | case5 head t rest other unclosed unnamed =>
    simp [check, ofAttribute, next?, other, unclosed, unnamed, bind, Except.bind]
  | case6 name head t rest space ih => simpa [check, ofAttribute, next?, space] using ih
  | case7 name head t rest solid sign ih =>
    simpa [check, ofAttribute, next?, solid, sign] using ih
  | case8 name head t rest solid unsigned =>
    simp [check, ofAttribute, next?, solid, unsigned, bind, Except.bind]
  | case9 name head t rest space ih => simpa [check, ofAttribute, next?, space] using ih
  | case10 name head t rest solid quoted ih =>
    simpa [check, ofAttribute, next?, solid, quoted] using ih
  | case11 name head t rest solid unquoted =>
    simp [check, ofAttribute, next?, solid, unquoted, bind, Except.bind]

/-- Neither a class nor an id begins the line. -/
def Apart (line : Line) : Prop :=
  ∀ t ∈ line.head?, t.kind ≠ .symbol .dot ∧ t.kind ≠ .symbol .hash

theorem readSelectors_apart {head : TagHead} {line : Line} {result : TagHead × Line}
    (read : readSelectors head line = .ok result) : Apart result.2 := by
  fun_induction readSelectors head line with
  | case1 =>
    cases read
    simp [Apart]
  | case2 =>
    cases read
    simp [Apart]
  | case3 _ _ _ _ _ _ ih => exact ih read
  | case7 _ _ _ _ _ _ _ _ ih => exact ih read
  | case9 head t rest dot hash =>
    cases read
    rintro _ ⟨rfl⟩
    exact ⟨dot, hash⟩
  | _ => contradiction

theorem readHead_apart {line : Line} {result : TagHead × Line}
    (read : readHead line = .ok result) : Apart result.2 := by
  obtain ⟨_, -, read⟩ := bind_ok read
  obtain ⟨_, -, read⟩ := bind_ok read
  exact readSelectors_apart read

theorem check_parentheses (head : TagHead) {line : Line} (apart : Apart line) :
    (selectors (room head) false).check line =
      readParentheses head line >>= fun (head, rest) =>
        (selectors (room head) true).check rest := by
  cases line with
  | nil => rfl
  | cons t rest =>
    obtain ⟨dot, hash⟩ := apart t rfl
    rw [readParentheses]
    split
    next opened =>
      rw [check, opened]
      exact check_attributes .between head rest
    next plain =>
      change check _ (t :: rest) = check _ (t :: rest)
      -- A dot or a hash would lead to stages that differ in whether attributes may follow.
      have same : (selectors (room head) false).next? t.kind =
          (selectors (room head) true).next? t.kind := by
        generalize t.kind = kind at plain dot hash
        cases kind with
        | symbol s => cases s <;> first | rfl | contradiction
        | _ => rfl
      rw [check, check, same]

/-- A word in front is the name of the tag, and anything else belongs to its selectors. -/
theorem check_name {line : Line} (starts : line.startsWithAny startKinds = true) :
    colon.check line = (selectors 1 false).check (readName line).2 := by
  cases line with
  | nil => contradiction
  | cons t rest =>
    rw [readName]
    split
    next word => rw [check, word]; rfl
    next unnamed =>
      have same : colon.next? t.kind = (selectors 1 false).next? t.kind := by
        have starts := startsWithAny_cons.mp starts
        generalize t.kind = kind at starts unnamed
        rcases starts with rfl | rfl | rfl
        · contradiction
        · rfl
        · rfl
      rw [check, check, same]

theorem check_head {line : Line} (starts : line.startsWithAny startKinds = true) :
    colon.check line =
      readHead line >>= fun (head, rest) => (selectors (room head) true).check rest := by
  have bare : room { name := (readName line).1 } = 1 := rfl
  rw [check_name starts, ← bare, check_selectors, readHead, bind_assoc]
  cases selected : readSelectors { name := (readName line).1 } (readName line).2 with
  | error => rfl
  | ok result =>
    change _ = (readParentheses _ _ >>= _) >>= _
    refine (check_parentheses _ (readSelectors_apart selected)).trans ?_
    rw [bind_assoc]
    exact congrArg _ (funext fun _ => check_selectors _ true _)

theorem check_text (line : Line) : text.check line = .ok () := by
  induction line with
  | nil => rfl
  | cons t rest ih => exact ih

theorem check_value (left : line.LeftOf source) :
    value.check line = (Line.requiredText source (Line.skipSpace line)).map fun _ => () := by
  induction line with
  | nil => rfl
  | cons t rest ih =>
    by_cases space : t.kind = .space
    · simpa [check, next?, Line.skipSpace, space] using ih left.tail
    · have solid : Line.startsWith (t :: rest) .space = false := by
        simpa [Line.startsWith] using space
      have skipped : Line.skipSpace (t :: rest) = t :: rest := by simp [Line.skipSpace, space]
      rw [skipped, left.requiredText (List.cons_ne_nil _ _) solid, check, next?, if_neg space]
      exact check_text rest

theorem check_skipSpace (line : Line) : colon.check line = colon.check (Line.skipSpace line) := by
  induction line with
  | nil => rfl
  | cons t rest ih =>
    by_cases space : t.kind = .space
    · simpa [check, next?, Line.skipSpace, space] using ih
    · rw [Line.skipSpace, List.dropWhile_cons_of_neg (by simpa using space)]

theorem check_unexpected (solid : line.startsWith .space = false)
    (other : line.startsWithAny startKinds = false) :
    colon.check line = .error line.unexpected := by
  cases line with
  | nil => rfl
  | cons t rest =>
    have stuck : colon.next? t.kind = none := by
      have other : t.kind ≠ .space ∧ t.kind ∉ startKinds := by
        simpa [Line.startsWith, Line.startsWithAny] using And.intro solid other
      generalize t.kind = kind at other
      cases kind with
      | symbol s => cases s <;> simp_all [next?, startKinds]
      | _ => simp_all [next?, startKinds]
    rw [check, stuck]
    rfl

/-- Behind the tag itself the line is checked as it is read. -/
theorem check_tail (ids : Nat) (head : TagHead) (left : line.LeftOf source) (apart : Apart line)
    (inner : ∀ inner : Line, inner.length < line.length → inner.LeftOf source →
      inner.startsWithAny startKinds = true →
      colon.check inner = (TagLine.read source inner).map fun _ => ()) :
    (selectors ids true).check line = (readTail source head line).map fun _ => () := by
  cases line with
  | nil => rfl
  | cons t rest =>
    obtain ⟨dot, hash⟩ := apart t rfl
    have expression : value.check rest =
        ((Line.requiredText source (Line.skipSpace rest)).map fun value =>
          (TagLine.plain head (some (.expression value)), ([] : Line))).map fun _ => () := by
      rw [check_value left.tail]
      cases Line.requiredText source (Line.skipSpace rest) <;> rfl
    rw [readTail]
    split
    next inlineValue => rw [check, inlineValue]; exact expression
    next equals => rw [check, equals]; exact expression
    next space =>
      rw [check, space]
      refine (check_text rest).trans ?_
      split <;> rfl
    next block =>
      rw [check, block, left.nil_of_block block]
      rfl
    next colon =>
      rw [check, colon]
      change Stage.colon.check rest = _
      rw [check_skipSpace]
      split
      next starts =>
        have shorter := Nat.lt_succ_of_le (Line.length_skipSpace_le rest)
        rw [inner _ shorter left.tail.skipSpace starts]
        cases TagLine.read source (Line.skipSpace rest) <;> rfl
      next other => exact check_unexpected (Line.skipSpace_solid rest) (by simpa using other)
    next inlineValue equals space block colon =>
      have stuck : (selectors ids true).next? t.kind = none := by
        generalize t.kind = kind at *
        cases kind with
        | symbol s => cases s <;> first | rfl | contradiction
        | space => contradiction
        | _ => rfl
      rw [check, stuck]
      rfl

/-- Reading a tag line succeeds as the stages do, and fails with their error. -/
theorem check_read (source : Text) {line : Line} (left : line.LeftOf source)
    (starts : line.startsWithAny startKinds = true) :
    colon.check line = (TagLine.read source line).map fun _ => () := by
  rw [check_head starts, read_eq_bind]
  cases taken : readHead line with
  | error => rfl
  | ok result =>
    obtain ⟨own, whole, -⟩ := readHead_taken taken
    have shorter := length_readHead_le taken
    exact check_tail _ _ (left.suffix whole.suffix) (readHead_apart taken)
      fun inner less left starts => check_read source left starts
termination_by line.length
decreasing_by omega

theorem check_ok_iff {stage : Stage} {line : Line} :
    stage.check line = .ok () ↔ line.kinds ∈ stage.left := by
  induction line generalizing stage with
  | nil =>
    rw [check, Line.kinds, List.map_nil, nil_mem_left]
    split <;> simp_all
  | cons t rest ih =>
    rw [check, Line.kinds, List.map_cons, ← mem_behind, behind_left]
    cases stage.next? t.kind with
    | none => exact iff_of_false (by simp) id
    | some next => exact ih

/-- Only a block marker leads to the stage behind one. -/
theorem kind_of_next?_block {stage : Stage} {kind : Token.Kind}
    (follows : stage.next? kind = some .block) : kind = .symbol .block := by
  revert follows
  fun_cases next? stage kind <;> grind

/-- A token at which a check fails cannot stand there in any line, whatever follows, but another one
can. A line that ends too early can go on. -/
theorem check_error {stage : Stage} {line : Line} {error : ParseError} (left : line.LeftOf source)
    (unblocked : stage ≠ .block) (failed : stage.check line = .error error) :
    LeftmostError stage.left line error := by
  induction line generalizing stage with
  | nil =>
    rw [check] at failed
    split at failed
    · contradiction
    next unfinished =>
      cases failed
      exact .ended (exists_mem_left unblocked) fun member =>
        unfinished ((nil_mem_left stage).mp member)
  | cons t rest ih =>
    rw [check] at failed
    have follows : behind t.kind stage.left = _ := behind_left stage
    cases next : stage.next? t.kind with
    | none =>
      rw [next] at failed follows
      cases failed
      rw [ParseError.ofToken, if_neg (left.kind_ne_eof (List.mem_cons_self ..))]
      have viable : ∃ word ≠ [], Line.kinds [] ++ word ∈ stage.left := exists_mem_left unblocked
      have stuck (word : List Token.Kind) : Line.kinds [] ++ t.kind :: word ∉ stage.left := by
        change word ∉ behind t.kind stage.left
        rw [follows]
        exact id
      exact .token (List.nil_append _).symm viable stuck
    | some next' =>
      rw [next] at failed follows
      -- Nothing is left behind a block marker, so the check cannot fail there.
      by_cases block : next' = .block
      · subst block
        have marked := kind_of_next?_block next
        rw [left.nil_of_block marked] at failed
        contradiction
      · have later := ih left.tail block failed
        exact .cons (follows.symm ▸ later)

end Stage

/-- The first token of a tag line is never blamed, and what begins with that token is a tag line if
it is read from the first stage on. -/
theorem LeftmostError.form {error : ParseError} (starts : StartsTag line.kinds)
    (leftmost : LeftmostError Stage.colon.left line error) :
    LeftmostError {word | Form StartsTag word} line error := by
  have whole {front : Line} (begins : StartsTag front.kinds) (word : List Token.Kind) :
      Form StartsTag (front.kinds ++ word) ↔ front.kinds ++ word ∈ Stage.colon.left := by
    cases front with
    | nil => simp [StartsTag] at begins
    | cons first front => exact form_iff_mem_left begins
  cases leftmost with
  | ended viable unfinished =>
    obtain ⟨word, more, member⟩ := viable
    refine .ended ⟨word, more, (whole starts word).mpr member⟩ ?_
    exact fun form => unfinished ((form_iff_mem_left starts).mp form)
  | @token before behind t split viable stuck =>
    subst split
    cases before with
    | nil =>
      obtain ⟨next, follows, unblocked⟩ :
          ∃ next, Stage.colon.next? t.kind = some next ∧ next ≠ .block := by
        rcases startsWithAny_cons.mp (startsTag_kinds.mp starts) with word | dot | hash
        · exact ⟨.selectors 1 false, word ▸ rfl, by simp⟩
        · exact ⟨.dotted 1 false, dot ▸ rfl, by simp⟩
        · exact ⟨.hashed 0 false, hash ▸ rfl, by simp⟩
      obtain ⟨word, -, member⟩ := exists_mem_left unblocked
      refine absurd ?_ (stuck word)
      change word ∈ Shape.behind t.kind Stage.colon.left
      rwa [behind_left, follows]
    | cons first before =>
      have begins : StartsTag (Line.kinds (first :: before)) := starts
      obtain ⟨word, more, member⟩ := viable
      exact .token rfl ⟨word, more, (whole begins word).mpr member⟩
        fun word form => stuck word ((whole begins _).mp form)

end Shape

end IndentMarkup.TagLine
