import IndentMarkup.Proofs.Cursor.Program

/-! Saved places are a stack. A program that gives up just the places that it saved leaves those
below alone and does not depend on them, so that a place which is saved in front of it is at hand
behind it. -/
namespace IndentMarkup

/-- A cursor stands at a place, and its saved places are those of another cursor with further ones
above. The place that the next step goes to is told by the items alone. -/
class Framed (σ : Type) (π : outParam Type) extends Backtracking σ where
  place : σ → π
  next : σ → π → π
  /-- The cursor at another place, with more places saved. -/
  stand : σ → π → List π → σ
  stand_place (c : σ) : stand c (place c) [] = c
  place_stand (c : σ) (x : π) (own : List π) : place (stand c x own) = x
  next_stand (c : σ) (x : π) (own : List π) : next (stand c x own) = next c
  stand_stand (c : σ) (x y : π) (own more : List π) :
    stand (stand c x own) y more = stand c y (more ++ own)
  consume_stand (c : σ) (x : π) (own : List π) : consume (stand c x own) = stand c (next c x) own
  save_stand (c : σ) (x : π) (own : List π) : save (stand c x own) = stand c x (x :: own)
  commit_stand (c : σ) (x y : π) (own : List π) : commit (stand c x (y :: own)) = stand c x own
  rollback_stand (c : σ) (x y : π) (own : List π) :
    rollback (stand c x (y :: own)) = stand c y own

instance {α : Type} : Framed (Cursor α) Nat where
  place c := c.index
  next c index := if index < c.items.length then index + 1 else index
  stand c index own := { c with index, saved := own ++ c.saved }
  stand_place _ := rfl
  place_stand _ _ _ := rfl
  next_stand _ _ _ := rfl
  stand_stand c x y own more := by simp
  consume_stand c x own := by
    simp only [Backtracking.consume, Cursor.consume]
    split <;> rfl
  save_stand _ _ _ := rfl
  commit_stand _ _ _ _ := rfl
  rollback_stand _ _ _ _ := rfl

instance : Framed TextCursor Position where
  place := TextCursor.position
  next c p := (c.chars.items[p.index]?).elim p p.step
  stand c p own :=
    { chars := { c.chars with index := p.index, saved := own.map Position.index ++ c.chars.saved }
      line := p.line
      column := p.column
      saved := own.map (fun p => (p.line, p.column)) ++ c.saved }
  stand_place _ := rfl
  place_stand _ _ _ := rfl
  next_stand _ _ _ := rfl
  stand_stand c x y own more := by simp
  consume_stand c x own := by
    simp only [Backtracking.consume, TextCursor.consume, TextCursor.current?, Cursor.current?]
    cases here : c.chars.items[x.index]? with
    | none => rfl
    | some char =>
      obtain ⟨bound, -⟩ := List.getElem?_eq_some_iff.mp here
      simp [Cursor.consume, bound, TextCursor.position]
  save_stand _ _ _ := rfl
  commit_stand _ _ _ _ := rfl
  rollback_stand _ _ _ _ := rfl

namespace Program

/-- Behind so many places that it saved, the program gives up no others, and in the end none of
its own are left. Neither do the bodies in it reach below the places they start with. -/
def isBracketed : Program → Nat → Bool
  | done, own => own = 0
  | consume later, own => later.isBracketed own
  | save later, own => later.isBracketed (own + 1)
  | commit _, 0 | rollback _, 0 => false
  | commit later, own + 1 | rollback later, own + 1 => later.isBracketed own
  | attempt body _ later, own | lookahead body _ later, own =>
    body.isBracketed 0 && later.isBracketed own

/-- Where a bracketed program gets to. Of a body only the result counts. -/
def goal {π : Type} (next : π → π) : Program → π → List π → π
  | done, x, _ => x
  | consume later, x, own => later.goal next (next x) own
  | save later, x, own => later.goal next x (x :: own)
  | commit later, x, own => later.goal next x own.tail
  | rollback later, x, own => later.goal next (own.headD x) own.tail
  | attempt body succeeds later, x, own =>
    later.goal next (if succeeds then body.goal next x [] else x) own
  | lookahead _ _ later, x, own => later.goal next x own

variable {σ π : Type} [Framed σ π]

open Backtracking Framed

section Body

variable {body : Program}
  (runs : ∀ (c : σ) (x : π), body.run (stand c x []) = stand c (body.goal (next c) x []) [])

include runs

/-- A body starts above the place that is saved for it. -/
theorem run_body (c : σ) (x : π) (own : List π) :
    body.run (Backtracking.save (stand c x own)) =
      stand c (body.goal (next c) x []) (x :: own) := by
  have above := runs (stand c x (x :: own)) x
  rw [stand_stand, stand_stand, next_stand, List.nil_append] at above
  rw [save_stand, above]

theorem attempt_stand (succeeds : Bool) (c : σ) (x : π) (own : List π) :
    (Backtracking.attempt (stand c x own) (trial body.run succeeds)).2 =
      stand c (if succeeds then body.goal (next c) x [] else x) own := by
  rw [attempt_trial, run_body runs]
  cases succeeds with
  | true => exact commit_stand ..
  | false => exact rollback_stand ..

theorem lookahead_stand (succeeds : Bool) (c : σ) (x : π) (own : List π) :
    (Backtracking.lookahead (stand c x own) (trial body.run succeeds)).2 = stand c x own := by
  rw [lookahead_trial, run_body runs, rollback_stand]

end Body

theorem states_body {body : Program}
    (passes : ∀ (c : σ) (x : π), ∀ reached ∈ body.states (stand c x []),
      ∃ y more, reached = stand c y more)
    {c : σ} {x : π} {own : List π} :
    ∀ reached ∈ body.states (Backtracking.save (stand c x own)),
      ∃ y more, reached = stand c y more := by
  intro reached member
  have base : Backtracking.save (stand c x own) = stand (stand c x (x :: own)) x [] := by
    rw [save_stand, stand_stand, List.nil_append]
  obtain ⟨y, more, rfl⟩ := passes _ x reached (base ▸ member)
  exact ⟨y, _, stand_stand ..⟩

/-- Nothing but the place changes, and how it does is told by the place and what was saved. -/
theorem run_stand {p : Program} {c : σ} {x : π} {own : List π}
    (bracketed : p.isBracketed own.length = true) :
    p.run (stand c x own) = stand c (p.goal (next c) x own) [] := by
  induction p generalizing c x own with
  | done =>
    obtain rfl : own = [] := by simpa [isBracketed] using bracketed
    rfl
  | consume later ih => rw [run, consume_stand, ih bracketed, goal]
  | save later ih =>
    rw [run, save_stand, goal]
    exact ih bracketed
  | commit later ih =>
    cases own with
    | nil => contradiction
    | cons y own => rw [run, commit_stand, ih bracketed, goal, List.tail_cons]
  | rollback later ih =>
    cases own with
    | nil => contradiction
    | cons y own => rw [run, rollback_stand, ih bracketed, goal, List.headD_cons, List.tail_cons]
  | attempt body succeeds later inside ih =>
    obtain ⟨within, behind⟩ := Bool.and_eq_true_iff.mp bracketed
    rw [run, attempt_stand fun c x => inside within, ih behind, goal]
  | lookahead body succeeds later inside ih =>
    obtain ⟨within, behind⟩ := Bool.and_eq_true_iff.mp bracketed
    rw [run, lookahead_stand fun c x => inside within, ih behind, goal]

/-- All the while the saved places of the cursor are below those of the program. -/
theorem states_stand {p : Program} {c : σ} {x : π} {own : List π}
    (bracketed : p.isBracketed own.length = true) :
    ∀ reached ∈ p.states (stand c x own), ∃ y more, reached = stand c y more := by
  induction p generalizing c x own with
  | done => exact List.forall_mem_singleton.mpr ⟨x, own, rfl⟩
  | consume later ih =>
    rw [states, List.forall_mem_cons, consume_stand]
    exact ⟨⟨x, own, rfl⟩, ih bracketed⟩
  | save later ih =>
    rw [states, List.forall_mem_cons, save_stand]
    exact ⟨⟨x, own, rfl⟩, ih bracketed⟩
  | commit later ih =>
    cases own with
    | nil => contradiction
    | cons y own =>
      rw [states, List.forall_mem_cons, commit_stand]
      exact ⟨⟨x, _, rfl⟩, ih bracketed⟩
  | rollback later ih =>
    cases own with
    | nil => contradiction
    | cons y own =>
      rw [states, List.forall_mem_cons, rollback_stand]
      exact ⟨⟨x, _, rfl⟩, ih bracketed⟩
  | attempt body succeeds later inside ih =>
    obtain ⟨within, behind⟩ := Bool.and_eq_true_iff.mp bracketed
    rw [states, List.forall_mem_cons, List.forall_mem_append,
      attempt_stand fun c x => run_stand within]
    exact ⟨⟨x, own, rfl⟩, states_body fun c x => inside within, ih behind⟩
  | lookahead body succeeds later inside ih =>
    obtain ⟨within, behind⟩ := Bool.and_eq_true_iff.mp bracketed
    rw [states, List.forall_mem_cons, List.forall_mem_append,
      lookahead_stand fun c x => run_stand within]
    exact ⟨⟨x, own, rfl⟩, states_body fun c x => inside within, ih behind⟩

section Bracketed

variable {p : Program} (bracketed : p.isBracketed 0 = true)

include bracketed

theorem run_place (c : σ) : p.run c = stand c (p.goal (next c) (place c) []) [] := by
  have reached := @run_stand _ _ _ p c (place c) [] bracketed
  rwa [stand_place] at reached

theorem states_place (c : σ) : ∀ reached ∈ p.states c, ∃ y more, reached = stand c y more := by
  have passed := @states_stand _ _ _ p c (place c) [] bracketed
  rwa [stand_place] at passed

/-- The place that was saved in front of the program is the latest behind it. -/
theorem run_save (c : σ) :
    p.run (Backtracking.save c) = stand c (p.goal (next c) (place c) []) [place c] := by
  have base : Backtracking.save c = stand c (place c) [place c] := by
    rw [← save_stand, stand_place]
  rw [base, run_place bracketed, next_stand, place_stand, stand_stand, List.nil_append]

theorem rollback_run (c : σ) : Backtracking.rollback (p.run (Backtracking.save c)) = c := by
  rw [run_save bracketed, rollback_stand, stand_place]

theorem commit_run (c : σ) : Backtracking.commit (p.run (Backtracking.save c)) = p.run c := by
  rw [run_save bracketed, commit_stand, run_place bracketed]

variable {β : Type} {c : σ} {body : σ → Option β × σ} {result : Option β}
  (ran : body (Backtracking.save c) = (result, p.run (Backtracking.save c)))

include ran

theorem attempt_of_run :
    Backtracking.attempt c body = (result, if result.isSome then p.run c else c) := by
  rw [attempt_eq, ran, rollback_run bracketed, commit_run bracketed]

theorem lookahead_of_run : Backtracking.lookahead c body = (result.isSome, c) := by
  rw [lookahead_eq, ran, rollback_run bracketed]

end Bracketed

/-- A program that gives up just what it saves keeps to the stack. Going back behind it to a place
saved in front of it undoes it, and to give up that place there is to do nothing else than the
program. The places that were saved before stay as they are all the while. And if it is the body of
an attempt, then all of it is done if it has a result, and nothing if not, or if it is the body of a
lookahead. -/
theorem run_bracketed {p : Program} (bracketed : p.isBracketed 0 = true) :
    (∀ {α : Type} (c : Cursor α),
      (p.run c.save).rollback = c ∧ (p.run c.save).commit = p.run c ∧
      (p.run c).saved = c.saved ∧ (∀ reached ∈ p.states c, c.saved <:+ reached.saved) ∧
      ∀ {β : Type} (body : Cursor α → Option β × Cursor α) (result : Option β),
        body c.save = (result, p.run c.save) →
          c.attempt body = (result, if result.isSome then p.run c else c)) ∧
    ∀ c : TextCursor,
      (p.run c.save).rollback = c ∧ (p.run c.save).commit = p.run c ∧
      (p.run c).chars.saved = c.chars.saved ∧ (p.run c).saved = c.saved ∧
      (∀ reached ∈ p.states c,
        c.chars.saved <:+ reached.chars.saved ∧ c.saved <:+ reached.saved) ∧
      ∀ {β : Type} (body : TextCursor → Option β × TextCursor) (result : Option β),
        body c.save = (result, p.run c.save) →
          c.attempt body = (result, if result.isSome then p.run c else c) ∧
          c.lookahead body = (result.isSome, c) := by
  constructor
  · intro α c
    refine ⟨rollback_run bracketed c, commit_run bracketed c, ?_, ?_, ?_⟩
    · rw [run_place bracketed]
      rfl
    · intro reached member
      obtain ⟨y, more, rfl⟩ := states_place bracketed c reached member
      exact List.suffix_append _ _
    · exact fun body result ran => attempt_of_run bracketed ran
  · intro c
    refine ⟨rollback_run bracketed c, commit_run bracketed c, ?_, ?_, ?_, ?_⟩
    · rw [run_place bracketed]
      rfl
    · rw [run_place bracketed]
      rfl
    · intro reached member
      obtain ⟨y, more, rfl⟩ := states_place bracketed c reached member
      exact ⟨List.suffix_append _ _, List.suffix_append _ _⟩
    · exact fun body result ran => ⟨attempt_of_run bracketed ran, lookahead_of_run bracketed ran⟩

/-- Steps back inside of an attempt, a look ahead, and a step that is kept. -/
def detour : Program :=
  .attempt (.consume (.save (.consume (.rollback .done)))) true
    (.lookahead (.consume .done) true (.save (.consume (.commit .done))))

/-- Behind a place that is saved already it gets on by two characters, and as a body to none. -/
theorem run_bracketed_detour :
    detour.isBracketed 0 = true ∧
      (detour.run (TextCursor.start ['a', '\n', 'b']).save).position = ⟨2, 2, 1⟩ ∧
      (detour.run (TextCursor.start ['a', '\n', 'b']).save.save).rollback =
        (TextCursor.start ['a', '\n', 'b']).save ∧
      (TextCursor.start ['a', '\n', 'b']).save.lookahead (fun c => (c.peek? 2, detour.run c)) =
        (true, (TextCursor.start ['a', '\n', 'b']).save) := by
  have bracketed : detour.isBracketed 0 = true := rfl
  have kept := (run_bracketed bracketed).2 (TextCursor.start ['a', '\n', 'b']).save
  have ahead := (kept.2.2.2.2.2 (fun c => (c.peek? 2, detour.run c)) (some 'b') rfl).2
  exact ⟨bracketed, rfl, kept.1, ahead⟩

end Program

end IndentMarkup
