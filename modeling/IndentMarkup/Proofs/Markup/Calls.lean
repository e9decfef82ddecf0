import IndentMarkup.Proofs.Markup.Pieces

/-! A writer under any calls, also behind calls that failed. What it answers is told from the calls
alone: attributes go to a start tag that nothing was written behind, and an end tag belongs to the
latest start tag that has none. -/
namespace IndentMarkup.Writer

/-- The writer behind a step that may fail. It is left as it was if the step fails. -/
def settle (w : Writer) : Except RenderError Writer → Except RenderError Unit × Writer
  | .ok later => (.ok (), later)
  | .error error => (.error error, w)

/-- Calls a writer in place: what the first steps of a call have written stays there if a later one
fails. -/
def call (w : Writer) : Call → Except RenderError Unit × Writer
  | .startTag name => (.ok (), w.startTag name)
  | .addAttribute name value => w.settle (w.addAttribute name value)
  | .text value => (.ok (), w.text value)
  | .raw markup => (.ok (), w.raw markup)
  | .comment text => (.ok (), w.comment text)
  | .endTag => w.settle w.endTag
  | .element name value =>
    let inside := (w.startTag name).text value
    inside.settle inside.endTag
  | .lineBreak => (.ok (), w.lineBreak)

/-- A call that was made. -/
structure Event where
  call : Call
  succeeded : Bool
  deriving DecidableEq, Repr

def run (w : Writer) : List Call → Writer
  | [] => w
  | c :: calls => (w.call c).2.run calls

def history (w : Writer) : List Call → List Event
  | [] => []
  | c :: calls => ⟨c, (w.call c).1.isOk⟩ :: (w.call c).2.history calls

namespace Event

def started (name : Text) : Event :=
  ⟨.startTag name, true⟩

def ended : Event :=
  ⟨.endTag, true⟩

/-- Nothing is written behind an unfinished start tag: the call failed, or it has added an attribute
or a line break. -/
def sparesStartTag (e : Event) : Bool :=
  !e.succeeded || match e.call with
    | .addAttribute .. | .lineBreak => true
    | _ => false

/-- Each start tag among the events has its end tag behind it, and each end tag its start tag in
front. -/
inductive Matched : List Event → Prop where
  | nil : Matched []
  | other {e : Event} {later : List Event} (start : ∀ name, e ≠ started name) (stop : e ≠ ended)
      (matched : Matched later) : Matched (e :: later)
  | element {inner later : List Event} (name : Text) (inside : Matched inner)
      (matched : Matched later) : Matched (started name :: (inner ++ ended :: later))

/-- The open tags behind an event. -/
def openTags (tags : List Text) : Event → List Text
  | ⟨.startTag name, true⟩ => name :: tags
  | ⟨.endTag, true⟩ => tags.tail
  | _ => tags

/-- Whether a start tag is unfinished behind an event. -/
def startTagOpen (unfinished : Bool) : Event → Bool
  | ⟨.startTag _, true⟩ => true
  | e => unfinished && e.sparesStartTag

end Event

section Steps

variable (w : Writer) (c : Call)

theorem endTag_text_startTag (name value : Text) :
    ∃ later, ((w.startTag name).text value).endTag = .ok later := by
  have inside : ((w.startTag name).text value).openTags = name :: w.openTags := by
    simp [text, raw, put]
  rw [endTag, inside]
  exact ⟨_, rfl⟩

/-- No call fails halfway. -/
theorem call_eq_settle : w.call c = w.settle (w.perform c) := by
  cases c with
  | element name value =>
    obtain ⟨later, ended⟩ := endTag_text_startTag w name value
    simp only [call, perform, Writer.element, ended, settle]
  | _ => rfl

theorem call_of_failed (failed : (w.call c).1.isOk = false) : (w.call c).2 = w := by
  rw [call_eq_settle] at failed ⊢
  cases performed : w.perform c with
  | ok later =>
    rw [performed] at failed
    contradiction
  | error => rfl

end Steps

/-- What a call has made of a writer. The depth is right behind it if it was before. -/
structure Moves (w after : Writer) (tags : List Text) (unfinished : Bool) : Prop where
  output : w.output <+: after.output
  openTags : after.openTags = tags
  startTagOpen : after.startTagOpen = unfinished
  depth : w.depth = w.openTags.length → after.depth = after.openTags.length

section Moves

variable (w : Writer)

theorem moves_refl : w.Moves w w.openTags w.startTagOpen :=
  ⟨List.prefix_rfl, rfl, rfl, id⟩

theorem moves_put (piece : Text) : w.Moves (w.put piece) w.openTags w.startTagOpen :=
  ⟨⟨piece, (output_put w piece).symm⟩, rfl, rfl, id⟩

theorem moves_finish : w.Moves w.finishStartTag w.openTags false := by
  refine ⟨⟨_, (output_finishStartTag w).symm⟩, openTags_finishStartTag w,
    startTagOpen_finishStartTag w, fun deep => ?_⟩
  unfold finishStartTag
  split <;> exact deep

theorem moves_lineBreak : w.Moves w.lineBreak w.openTags w.startTagOpen := by
  have written := moves_put w
    (w.options.newlineMarker ++ (List.replicate w.depth w.options.indentUnit).flatten)
  exact ⟨written.output, rfl, rfl, id⟩

theorem moves_dueBreak : w.Moves w.dueBreak w.openTags w.startTagOpen := by
  unfold dueBreak
  split
  · exact moves_lineBreak w
  · exact moves_refl w

variable {w}

theorem Moves.trans {middle after : Writer} {tags tags' : List Text} {unfinished unfinished' : Bool}
    (first : w.Moves middle tags unfinished) (second : middle.Moves after tags' unfinished') :
    w.Moves after tags' unfinished' :=
  ⟨first.output.trans second.output, second.openTags, second.startTagOpen, fun deep =>
    second.depth (first.depth deep)⟩

theorem moves_startTag (w : Writer) (name : Text) :
    w.Moves (w.startTag name) (name :: w.openTags) true := by
  have broken := (moves_finish w).trans (moves_dueBreak _)
  have written := broken.trans (moves_put _ ('<' :: name))
  refine ⟨written.output, openTags_startTag w name, rfl, fun deep => ?_⟩
  have depth := broken.depth deep
  simp at depth
  simp [startTag, put, depth]

theorem moves_raw (w : Writer) (markup : Text) : w.Moves (w.raw markup) w.openTags false := by
  have written := (moves_finish w).trans (moves_put _ markup)
  exact ⟨written.output, openTags_finishStartTag w, startTagOpen_finishStartTag w, written.depth⟩

theorem moves_text (w : Writer) (value : Text) : w.Moves (w.text value) w.openTags false :=
  moves_raw w (w.encoded value)

theorem moves_comment (w : Writer) (text : Text) : w.Moves (w.comment text) w.openTags false := by
  have written := ((moves_finish w).trans (moves_dueBreak _)).trans
    (moves_put _ (['<', '!', '-', '-'] ++ text ++ ['-', '-', '>']))
  refine ⟨written.output, ?_, ?_, written.depth⟩
  · simp [comment, put]
  · simp [comment, put]

/-- An end tag closes the innermost element, in its start tag if that is unfinished. -/
theorem endTag_of_open {name : Text} {outer : List Text} (inside : w.openTags = name :: outer) :
    ∃ later, w.endTag = .ok later ∧ w.Moves later outer false ∧
      ∃ indent, later.output = w.output ++
        if w.startTagOpen then ['/', '>'] else indent ++ (['<', '/'] ++ name ++ ['>']) := by
  obtain ⟨options, pieces, depth, openTags, startTagOpen, breakDue⟩ := w
  obtain rfl : openTags = name :: outer := inside
  have shallower : depth = (name :: outer).length → depth - 1 = outer.length := by
    rintro rfl
    rfl
  cases startTagOpen with
  | true =>
    have written := output_put ⟨options, pieces, depth - 1, outer, true, breakDue⟩ ['/', '>']
    exact ⟨_, rfl, ⟨⟨_, written.symm⟩, rfl, rfl, shallower⟩, [], written⟩
  | false =>
    let inner : Writer := ⟨options, pieces, depth - 1, outer, false, breakDue⟩
    obtain ⟨indent, broken⟩ := (moves_dueBreak inner).output
    have written := output_put inner.dueBreak (['<', '/'] ++ name ++ ['>'])
    rw [← broken, List.append_assoc inner.output] at written
    refine ⟨_, rfl, ⟨⟨_, written.symm⟩, openTags_dueBreak inner, startTagOpen_dueBreak inner, ?_⟩,
      indent, written⟩
    intro deep
    refine (depth_dueBreak inner).trans ((shallower deep).trans ?_)
    exact congrArg List.length (openTags_dueBreak inner).symm

theorem endTag_of_closed (outside : w.openTags = []) : w.endTag = .error .unbalancedEndTag := by
  rw [endTag, outside]

end Moves

/-- Each call does to the open tags and to the start tag what its event says. -/
theorem moves_perform {w later : Writer} {c : Call} (performed : w.perform c = .ok later) :
    w.Moves later (Event.openTags w.openTags ⟨c, true⟩)
      (Event.startTagOpen w.startTagOpen ⟨c, true⟩) := by
  simp only [Event.startTagOpen, Event.sparesStartTag, Event.openTags]
  cases c with
  | startTag name =>
    cases performed
    exact moves_startTag w name
  | addAttribute name value =>
    rw [perform, addAttribute] at performed
    split at performed
    · cases performed
      simpa using moves_put w _
    · contradiction
  | text value =>
    cases performed
    simpa using moves_text w value
  | raw markup =>
    cases performed
    simpa using moves_raw w markup
  | comment text =>
    cases performed
    simpa using moves_comment w text
  | endTag =>
    cases inside : w.openTags with
    | nil =>
      rw [perform, endTag_of_closed inside] at performed
      contradiction
    | cons name outer =>
      obtain ⟨_, ended, moves, -⟩ := endTag_of_open inside
      rw [perform, ended] at performed
      cases performed
      simpa using moves
  | element name value =>
    have begun := (moves_startTag w name).trans (moves_text _ value)
    obtain ⟨_, ended, moves, -⟩ :=
      endTag_of_open (begun.openTags.trans (openTags_startTag w name))
    cases ended.symm.trans performed
    simpa using begun.trans moves
  | lineBreak =>
    cases performed
    simpa using moves_lineBreak w

/-- What is told of a failed call is that nothing happened. -/
theorem moves_call (w : Writer) (c : Call) :
    w.Moves (w.call c).2 (Event.openTags w.openTags ⟨c, (w.call c).1.isOk⟩)
      (Event.startTagOpen w.startTagOpen ⟨c, (w.call c).1.isOk⟩) := by
  rw [call_eq_settle]
  cases performed : w.perform c with
  | ok later => exact moves_perform performed
  | error error =>
    have tags : Event.openTags w.openTags ⟨c, false⟩ = w.openTags := by cases c <;> rfl
    have tag : Event.startTagOpen w.startTagOpen ⟨c, false⟩ = w.startTagOpen := by
      cases c <;> exact Bool.and_true _
    change w.Moves w (Event.openTags w.openTags ⟨c, false⟩)
      (Event.startTagOpen w.startTagOpen ⟨c, false⟩)
    rw [tags, tag]
    exact moves_refl w

theorem run_append (w : Writer) (first second : List Call) :
    w.run (first ++ second) = (w.run first).run second := by
  induction first generalizing w with
  | nil => rfl
  | cons c calls ih => exact ih _

theorem history_append (w : Writer) (first second : List Call) :
    w.history (first ++ second) = w.history first ++ (w.run first).history second := by
  induction first generalizing w with
  | nil => rfl
  | cons c calls ih => exact congrArg _ (ih _)

namespace Event

theorem Matched.append {first second : List Event} (matched : Matched first)
    (matched' : Matched second) : Matched (first ++ second) := by
  induction matched with
  | nil => exact matched'
  | other start stop _ ih => exact .other start stop ih
  | @element inner later name inside _ _ ih =>
    have split : started name :: (inner ++ ended :: later) ++ second =
        started name :: (inner ++ ended :: (later ++ second)) := by simp
    rw [split]
    exact .element name inside ih

/-- All that was opened is closed again. -/
theorem Matched.openTags {events : List Event} (matched : Matched events) (tags : List Text) :
    events.foldl openTags tags = tags := by
  induction matched generalizing tags with
  | nil => rfl
  | @other e later start stop _ ih =>
    have same : e.openTags tags = tags := by
      obtain ⟨c, succeeded⟩ := e
      cases succeeded with
      | false => cases c <;> rfl
      | true =>
        cases c with
        | startTag name => exact absurd rfl (start name)
        | endTag => exact absurd rfl stop
        | _ => rfl
    rw [List.foldl_cons, same, ih]
  | @element inner later name _ _ inside ih =>
    rw [List.foldl_cons, List.foldl_append, List.foldl_cons, inside]
    exact ih tags

theorem openTags_of_spares {e : Event} (spared : e.sparesStartTag = true) (tags : List Text) :
    e.openTags tags = tags := by
  obtain ⟨c, succeeded⟩ := e
  cases succeeded <;> cases c <;> first | rfl | contradiction

/-- Behind each start tag stands its end tag. -/
theorem Matched.exists_ended {events : List Event} (matched : Matched events)
    {before since : List Event} {name : Text} (split : events = before ++ started name :: since) :
    ended ∈ since := by
  induction matched generalizing before with
  | nil => simp at split
  | @other e later start _ _ ih =>
    cases before with
    | nil => exact absurd (List.cons.inj split).1 (start name)
    | cons first before => exact ih (List.cons.inj split).2
  | @element inner later outerName _ _ inside ih =>
    cases before with
    | nil =>
      obtain ⟨-, rfl⟩ := List.cons.inj split
      simp
    | cons first before =>
      obtain ⟨-, split⟩ := List.cons.inj split
      obtain ⟨between, same, tail⟩ | ⟨between, same, tail⟩ := List.append_eq_append_iff.mp split
      · cases between with
        | nil => cases tail
        | cons first between => exact ih (List.cons.inj tail).2
      · cases between with
        | nil => cases tail
        | cons first between =>
          obtain ⟨-, rfl⟩ := List.cons.inj tail
          simp

/-- The names are those of the start tags without an end tag, the latest first. -/
inductive Opens : List Event → List Text → Prop where
  | none {past : List Event} (matched : Matched past) : Opens past []
  | inside {before since : List Event} {outer : List Text} (name : Text)
      (around : Opens before outer) (matched : Matched since) :
      Opens (before ++ started name :: since) (name :: outer)

theorem Opens.append {past later : List Event} {tags : List Text} (opens : Opens past tags)
    (matched : Matched later) : Opens (past ++ later) tags := by
  cases opens with
  | none earlier => exact .none (earlier.append matched)
  | @inside before since outer name around earlier =>
    rw [List.append_assoc, List.cons_append]
    exact .inside name around (earlier.append matched)

/-- An event opens a tag, closes the latest one, or leaves the open tags alone. -/
theorem Opens.step {past : List Event} {tags : List Text} (opens : Opens past tags) (e : Event)
    (fits : e = ended → tags ≠ []) : Opens (past ++ [e]) (e.openTags tags) := by
  by_cases start : ∃ name, e = started name
  · obtain ⟨name, rfl⟩ := start
    exact .inside name opens .nil
  · have start : ∀ name, e ≠ started name := fun name same => start ⟨name, same⟩
    by_cases stop : e = ended
    · subst stop
      cases opens with
      | none => exact absurd rfl (fits rfl)
      | @inside before since outer name around matched =>
        rw [List.append_assoc]
        exact around.append (.element name matched .nil)
    · have alone : Matched [e] := .other start stop .nil
      have same : e.openTags tags = tags := alone.openTags tags
      rw [same]
      exact opens.append alone

theorem startTagOpen_iff (unfinished : Bool) (e : Event) :
    e.startTagOpen unfinished = true ↔
      (∃ name, e = started name) ∨ unfinished = true ∧ e.sparesStartTag = true := by
  obtain ⟨c, succeeded⟩ := e
  cases succeeded <;> cases c <;> simp [startTagOpen, sparesStartTag, started]

/-- Behind the latest start tag nothing was written that would finish it. -/
def Unfinished (past : List Event) : Prop :=
  ∃ before name since, past = before ++ started name :: since ∧
    ∀ e ∈ since, e.sparesStartTag = true

theorem unfinished_nil : ¬ Unfinished [] := by
  rintro ⟨before, name, since, split, -⟩
  simp at split

theorem unfinished_append (past : List Event) (e : Event) :
    Unfinished (past ++ [e]) ↔
      (∃ name, e = started name) ∨ Unfinished past ∧ e.sparesStartTag = true := by
  constructor
  · rintro ⟨before, name, since, split, spared⟩
    obtain rfl | ⟨since, last, rfl⟩ := List.eq_nil_or_concat since
    · exact .inl ⟨name, (List.append_inj' split rfl).2 |> List.singleton_inj.mp⟩
    · rw [List.concat_eq_append, ← List.cons_append, ← List.append_assoc] at split
      obtain ⟨rfl, same⟩ := List.append_inj' split rfl
      obtain rfl := List.singleton_inj.mp same
      rw [List.concat_eq_append, List.forall_mem_append, List.forall_mem_singleton] at spared
      exact .inr ⟨⟨before, name, since, rfl, spared.1⟩, spared.2⟩
  · rintro (⟨name, rfl⟩ | ⟨⟨before, name, since, rfl, spared⟩, last⟩)
    · exact ⟨past, name, [], rfl, List.forall_mem_nil _⟩
    · refine ⟨before, name, since ++ [e], by simp, ?_⟩
      rw [List.forall_mem_append, List.forall_mem_singleton]
      exact ⟨spared, last⟩

/-- Where there was a start tag there was a latest one. -/
theorem exists_latest {past : List Event} (begun : ∃ name, started name ∈ past) :
    ∃ before name since, past = before ++ started name :: since ∧
      ∀ e ∈ since, ∀ other, e ≠ started other := by
  induction past using List.reverseRecOn with
  | nil => simp at begun
  | append_singleton past e ih =>
    by_cases start : ∃ name, e = started name
    · obtain ⟨name, rfl⟩ := start
      exact ⟨past, name, [], rfl, List.forall_mem_nil _⟩
    · have earlier : ∃ name, started name ∈ past := by
        obtain ⟨name, member⟩ := begun
        refine ⟨name, (List.mem_append.mp member).resolve_right fun last => start ⟨name, ?_⟩⟩
        exact (List.mem_singleton.mp last).symm
      obtain ⟨before, name, since, rfl, none⟩ := ih earlier
      refine ⟨before, name, since ++ [e], by simp, ?_⟩
      rw [List.forall_mem_append, List.forall_mem_singleton]
      exact ⟨none, fun other same => start ⟨other, same⟩⟩

/-- Of two places in the events one is the other or stands behind it. -/
theorem places_cases {before since before' since' : List Event} {e e' : Event}
    (same : before ++ e :: since = before' ++ e' :: since') :
    since = since' ∨ (∃ between, since = between ++ e' :: since') ∨
      ∃ between, since' = between ++ e :: since := by
  obtain ⟨between, -, tail⟩ | ⟨between, -, tail⟩ := List.append_eq_append_iff.mp same
  · cases between with
    | nil => exact .inl (List.cons.inj tail).2
    | cons first between => exact .inr (.inl ⟨between, (List.cons.inj tail).2⟩)
  · cases between with
    | nil => exact .inl (List.cons.inj tail).2.symm
    | cons first between => exact .inr (.inr ⟨between, (List.cons.inj tail).2⟩)

theorem not_unfinished_iff {past : List Event} :
    ¬ Unfinished past ↔ (∀ name, started name ∉ past) ∨
      ∃ before name since, past = before ++ started name :: since ∧
        (∀ e ∈ since, ∀ other, e ≠ started other) ∧ ∃ e ∈ since, e.sparesStartTag = false := by
  constructor
  · intro finished
    refine or_iff_not_imp_left.mpr fun begun => ?_
    obtain ⟨before, name, since, rfl, latest⟩ := exists_latest (not_forall_not.mp begun)
    refine ⟨before, name, since, rfl, latest, ?_⟩
    by_contra spared
    refine finished ⟨before, name, since, rfl, fun e member => ?_⟩
    exact Bool.not_eq_false _ ▸ fun written => spared ⟨e, member, written⟩
  · rintro (none | ⟨before, name, since, split, latest, e, member, written⟩)
      ⟨before', name', since', split', spared⟩
    · exact none name' (by simp [split'])
    · obtain rfl | ⟨between, rfl⟩ | ⟨between, rfl⟩ := places_cases (split.symm.trans split')
      · rw [spared e member] at written
        contradiction
      · exact latest (started name') (by simp) name' rfl
      · have start := spared (started name) (by simp)
        contradiction

end Event

theorem isOk_endTag (w : Writer) : (w.call .endTag).1.isOk = false ↔ w.openTags = [] := by
  cases inside : w.openTags with
  | nil => simp [call, endTag_of_closed inside, settle, Except.isOk, Except.toBool]
  | cons name outer =>
    obtain ⟨later, ended, -⟩ := endTag_of_open inside
    simp [call, ended, settle, Except.isOk, Except.toBool]

theorem isOk_addAttribute (w : Writer) (name value : Text) :
    (w.call (.addAttribute name value)).1.isOk = w.startTagOpen := by
  rw [call, addAttribute]
  cases w.startTagOpen <;> rfl

/-- The state of the writer is what the calls up to now say. -/
structure Consistent (w : Writer) (past : List Event) : Prop where
  depth : w.depth = w.openTags.length
  inside : w.startTagOpen = true → 0 < w.openTags.length
  startTagOpen : w.startTagOpen = true ↔ Event.Unfinished past
  openTags : Event.Opens past w.openTags

theorem consistent_start (options : RenderOptions) : Consistent (start options) [] where
  depth := rfl
  inside := nofun
  startTagOpen := iff_of_false nofun Event.unfinished_nil
  openTags := .none .nil

theorem Consistent.call {w : Writer} {past : List Event} (known : w.Consistent past) (c : Call) :
    (w.call c).2.Consistent (past ++ [⟨c, (w.call c).1.isOk⟩]) := by
  have moves := moves_call w c
  have fits : Event.mk c (w.call c).1.isOk = Event.ended → w.openTags ≠ [] := by
    intro stop outside
    obtain ⟨rfl, succeeded⟩ := Event.mk.inj stop
    rw [(isOk_endTag w).mpr outside] at succeeded
    contradiction
  generalize Event.mk c (w.call c).1.isOk = e at moves fits
  have unfinished := Event.startTagOpen_iff w.startTagOpen e
  refine ⟨moves.depth known.depth, ?_, ?_, ?_⟩
  · rw [moves.startTagOpen, moves.openTags, unfinished]
    rintro (⟨name, rfl⟩ | ⟨before, spared⟩)
    · exact Nat.succ_pos _
    · rw [Event.openTags_of_spares spared]
      exact known.inside before
  · rw [moves.startTagOpen, unfinished, known.startTagOpen, Event.unfinished_append]
  · rw [moves.openTags]
    exact known.openTags.step e fits

theorem consistent_run (options : RenderOptions) (calls : List Call) :
    ((start options).run calls).Consistent ((start options).history calls) := by
  induction calls using List.reverseRecOn with
  | nil => exact consistent_start options
  | append_singleton calls c ih =>
    rw [run_append, history_append]
    exact ih.call c

theorem openTags_run (w : Writer) (calls : List Call) :
    (w.run calls).openTags = (w.history calls).foldl Event.openTags w.openTags := by
  induction calls generalizing w with
  | nil => rfl
  | cons c calls ih =>
    rw [run, ih, (moves_call w c).openTags]
    rfl

/-- The events up to some place are those of the calls up to there. -/
theorem history_before {w : Writer} {calls : List Call} {before after : List Event}
    (split : w.history calls = before ++ after) :
    w.history (before.map Event.call) = before := by
  induction before generalizing w calls with
  | nil => rfl
  | cons e before ih =>
    cases calls with
    | nil => contradiction
    | cons c calls =>
      obtain ⟨rfl, tail⟩ := List.cons.inj split
      exact congrArg _ (ih tail)

/-- Behind a start tag all of whose inner tags are ended, its own element is the innermost. -/
theorem openTags_of_matched {options : RenderOptions} {calls : List Call}
    {before since : List Event} {name : Text}
    (split : (start options).history calls = before ++ Event.started name :: since)
    (matched : Event.Matched since) :
    ((start options).run calls).openTags =
      name :: ((start options).run (before.map Event.call)).openTags := by
  rw [openTags_run, openTags_run, history_before split, split, List.foldl_append, List.foldl_cons,
    matched.openTags]
  rfl

/-- A start tag is unfinished as long as nothing is written behind it. -/
theorem Consistent.startTagOpen_since {w : Writer} {before since : List Event} {name : Text}
    (known : w.Consistent (before ++ Event.started name :: since)) (matched : Event.Matched since) :
    w.startTagOpen = true ↔ ∀ e ∈ since, e.sparesStartTag = true := by
  rw [known.startTagOpen]
  constructor
  · rintro ⟨before', name', since', split, spared⟩
    obtain rfl | ⟨between, rfl⟩ | ⟨between, rfl⟩ := Event.places_cases split
    · exact spared
    · have stop := spared _ (matched.exists_ended rfl)
      contradiction
    · have start := spared (Event.started name) (by simp)
      contradiction
  · exact fun spared => ⟨before, name, since, rfl, spared⟩

/-- What a writer does behind the past calls is told by them: its depth is the number of open tags,
output is only added and nothing happens in a call that fails, attributes are for a start tag that
nothing was written behind, and an end tag is that of the latest start tag without one. -/
structure Orderly (options : RenderOptions) (w : Writer) (past : List Event) : Prop where
  performs : ∀ c, w.call c = w.settle (w.perform c)
  depth : w.depth = w.openTags.length
  inside : w.startTagOpen = true → 0 < w.openTags.length
  appends : ∀ c, w.output <+: (w.call c).2.output
  unchanged : ∀ c, (w.call c).1.isOk = false → (w.call c).2 = w
  refusesAttribute : ∀ name value, (w.call (.addAttribute name value)).1.isOk = false ↔
    (∀ tag, Event.started tag ∉ past) ∨
      ∃ before tag since, past = before ++ Event.started tag :: since ∧
        (∀ e ∈ since, ∀ other, e ≠ Event.started other) ∧ ∃ e ∈ since, e.sparesStartTag = false
  refusesEnd : (w.call .endTag).1.isOk = false ↔ w.openTags = []
  unmatched : w.openTags = [] ↔
    ¬ ∃ before name since, past = before ++ Event.started name :: since ∧ Event.Matched since
  closes : ∀ before name since, past = before ++ Event.started name :: since →
    Event.Matched since →
      (w.call .endTag).2.openTags = ((start options).run (before.map Event.call)).openTags ∧
      ∃ closing, (w.call .endTag).2.output = w.output ++ closing ∧
        (closing = ['/', '>'] ↔ ∀ e ∈ since, e.sparesStartTag = true) ∧
        (closing ≠ ['/', '>'] → ['<', '/'] ++ name ++ ['>'] <:+ closing)

theorem orderly_run (options : RenderOptions) (calls : List Call) :
    Orderly options ((start options).run calls) ((start options).history calls) := by
  have known := consistent_run options calls
  have innermost := @openTags_of_matched options calls
  generalize (start options).run calls = w, (start options).history calls = past at *
  refine ⟨call_eq_settle w, known.depth, known.inside, fun c => (moves_call w c).output,
    fun c => call_of_failed w c, ?_, isOk_endTag w, ?_, ?_⟩
  · intro name value
    rw [isOk_addAttribute, ← Event.not_unfinished_iff, ← known.startTagOpen, Bool.not_eq_true]
  · constructor
    · rintro outside ⟨before, name, since, split, matched⟩
      rw [innermost split matched] at outside
      contradiction
    · intro none
      have opens := known.openTags
      generalize w.openTags = tags at opens
      cases opens with
      | none => rfl
      | inside name around matched => exact absurd ⟨_, name, _, rfl, matched⟩ none
  · intro before name since split matched
    have inmost := innermost split matched
    subst split
    obtain ⟨later, ended, moves, indent, written⟩ := endTag_of_open inmost
    have finished := known.startTagOpen_since matched
    have called : (w.call .endTag).2 = later := by simp [call, ended, settle]
    rw [called]
    refine ⟨moves.openTags, _, written, ?_, ?_⟩
    · rw [← finished]
      by_cases unfinished : w.startTagOpen = true
      · simp [unfinished]
      · refine iff_of_false (fun same => ?_) unfinished
        have length := congrArg List.length same
        simp [unfinished] at length
        omega
    · by_cases unfinished : w.startTagOpen = true
      · simp [unfinished]
      · intro _
        rw [if_neg unfinished]
        exact List.suffix_append _ _

/-- An end tag that has nothing to end, a list, and an item in it that is ended in its start tag,
behind a line break there. -/
def itemCalls : List Call :=
  [.endTag, .startTag ['u', 'l'], .startTag ['l', 'i'], .lineBreak,
    .addAttribute ['i', 'd'] ['x'], .endTag, .addAttribute ['i', 'd'] ['y']]

/-- The end tag of the list stands apart from its start tag. -/
theorem orderly_run_item :
    ((start {}).history itemCalls).map Event.succeeded =
        [false, true, true, true, true, true, false] ∧
      (((start {}).run itemCalls).call .endTag).2.openTags = [] ∧
      ∃ closing, (((start {}).run itemCalls).call .endTag).2.output =
        "<ul><li id=\"x\"/>".toList ++ closing ∧ ['<', '/', 'u', 'l', '>'] <:+ closing := by
  have written : ((start {}).run itemCalls).output = "<ul><li id=\"x\"/>".toList := by rfl
  have past : (start {}).history itemCalls = [⟨.endTag, false⟩] ++ Event.started ['u', 'l'] ::
      [Event.started ['l', 'i'], ⟨.lineBreak, true⟩, ⟨.addAttribute ['i', 'd'] ['x'], true⟩,
        Event.ended, ⟨.addAttribute ['i', 'd'] ['y'], false⟩] := by
    rfl
  have matched : Event.Matched [Event.started ['l', 'i'], ⟨.lineBreak, true⟩,
      ⟨.addAttribute ['i', 'd'] ['x'], true⟩, Event.ended,
      ⟨.addAttribute ['i', 'd'] ['y'], false⟩] := by
    refine @Event.Matched.element [_, _] [_] ['l', 'i'] ?_ ?_
    · exact .other nofun nofun (.other nofun nofun .nil)
    · exact .other nofun nofun .nil
  obtain ⟨closed, closing, output, same, apart⟩ :=
    (orderly_run {} itemCalls).closes _ _ _ past matched
  rw [written] at output
  refine ⟨by rw [past]; rfl, closed, closing, output, apart fun hollow => ?_⟩
  have spared := same.mp hollow (Event.started ['l', 'i']) List.mem_cons_self
  contradiction

end IndentMarkup.Writer
