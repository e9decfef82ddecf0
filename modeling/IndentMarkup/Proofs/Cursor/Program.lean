import IndentMarkup.TextCursor

/-! Programs for cursors. A program is a sequence of steps. An attempt runs a program of its own,
which may leave places saved behind it or give up places that were saved before it. -/
namespace IndentMarkup

/-- What a cursor can do, whatever it walks over. -/
class Backtracking (σ : Type) where
  consume : σ → σ
  save : σ → σ
  commit : σ → σ
  rollback : σ → σ
  attempt {β : Type} : σ → (σ → Option β × σ) → Option β × σ
  lookahead {β : Type} : σ → (σ → Option β × σ) → Bool × σ
  attempt_eq {β : Type} (c : σ) (body : σ → Option β × σ) :
    attempt c body = ((body (save c)).1,
      if (body (save c)).1.isSome then commit (body (save c)).2 else rollback (body (save c)).2)
  lookahead_eq {β : Type} (c : σ) (body : σ → Option β × σ) :
    lookahead c body = ((body (save c)).1.isSome, rollback (body (save c)).2)

instance {α : Type} : Backtracking (Cursor α) where
  consume := Cursor.consume
  save := Cursor.save
  commit := Cursor.commit
  rollback := Cursor.rollback
  attempt := Cursor.attempt
  -- A cursor over any items has no such operation of its own.
  lookahead c body := ((body c.save).1.isSome, (body c.save).2.rollback)
  attempt_eq c body := by
    rw [Cursor.attempt]
    rcases body c.save with ⟨_ | _, reached⟩ <;> rfl
  lookahead_eq _ _ := rfl

instance : Backtracking TextCursor where
  consume := TextCursor.consume
  save := TextCursor.save
  commit := TextCursor.commit
  rollback := TextCursor.rollback
  attempt := TextCursor.attempt
  lookahead := TextCursor.lookahead
  attempt_eq c body := by
    rw [TextCursor.attempt]
    rcases body c.save with ⟨_ | _, reached⟩ <;> rfl
  lookahead_eq _ _ := rfl

/-- Steps, each with those behind it. Of the body of an attempt it is told whether it has a result
in the end. -/
inductive Program where
  | done
  | consume (later : Program)
  | save (later : Program)
  | commit (later : Program)
  | rollback (later : Program)
  | attempt (body : Program) (succeeds : Bool) (later : Program)
  | lookahead (body : Program) (succeeds : Bool) (later : Program)
  deriving DecidableEq, Repr

namespace Program

variable {σ : Type} [Backtracking σ]

/-- The steps of a body, with a result or without. -/
def trial (steps : σ → σ) (succeeds : Bool) (c : σ) : Option Unit × σ :=
  (if succeeds then some () else none, steps c)

def run : Program → σ → σ
  | done, c => c
  | consume later, c => later.run (Backtracking.consume c)
  | save later, c => later.run (Backtracking.save c)
  | commit later, c => later.run (Backtracking.commit c)
  | rollback later, c => later.run (Backtracking.rollback c)
  | attempt body succeeds later, c =>
    later.run (Backtracking.attempt c (trial body.run succeeds)).2
  | lookahead body succeeds later, c =>
    later.run (Backtracking.lookahead c (trial body.run succeeds)).2

/-- Where the cursor is in front of each step and in the end, also inside of bodies. -/
def states : Program → σ → List σ
  | done, c => [c]
  | consume later, c => c :: later.states (Backtracking.consume c)
  | save later, c => c :: later.states (Backtracking.save c)
  | commit later, c => c :: later.states (Backtracking.commit c)
  | rollback later, c => c :: later.states (Backtracking.rollback c)
  | attempt body succeeds later, c =>
    c :: (body.states (Backtracking.save c) ++
      later.states (Backtracking.attempt c (trial body.run succeeds)).2)
  | lookahead body succeeds later, c =>
    c :: (body.states (Backtracking.save c) ++
      later.states (Backtracking.lookahead c (trial body.run succeeds)).2)

theorem attempt_trial (steps : σ → σ) (succeeds : Bool) (c : σ) :
    (Backtracking.attempt c (trial steps succeeds)).2 =
      if succeeds then Backtracking.commit (steps (Backtracking.save c))
      else Backtracking.rollback (steps (Backtracking.save c)) := by
  rw [Backtracking.attempt_eq]
  cases succeeds <;> rfl

theorem lookahead_trial (steps : σ → σ) (succeeds : Bool) (c : σ) :
    (Backtracking.lookahead c (trial steps succeeds)).2 =
      Backtracking.rollback (steps (Backtracking.save c)) := by
  rw [Backtracking.lookahead_eq]
  rfl

theorem run_mem_states (p : Program) (c : σ) : p.run c ∈ p.states c := by
  induction p generalizing c with
  | done => exact List.mem_singleton_self c
  | attempt body succeeds later inside ih =>
    exact .tail _ (List.mem_append_right _ (ih _))
  | lookahead body succeeds later inside ih =>
    exact .tail _ (List.mem_append_right _ (ih _))
  | _ later ih => exact .tail _ (ih _)

/-- What every single step keeps holds wherever a program comes by. -/
theorem invariant {P : σ → Prop} (consumed : ∀ c, P c → P (Backtracking.consume c))
    (saved : ∀ c, P c → P (Backtracking.save c))
    (committed : ∀ c, P c → P (Backtracking.commit c))
    (returned : ∀ c, P c → P (Backtracking.rollback c)) (p : Program) {c : σ} (start : P c) :
    ∀ reached ∈ p.states c, P reached := by
  induction p generalizing c with
  | done => exact List.forall_mem_singleton.mpr start
  | consume later ih => exact List.forall_mem_cons.mpr ⟨start, ih (consumed c start)⟩
  | save later ih => exact List.forall_mem_cons.mpr ⟨start, ih (saved c start)⟩
  | commit later ih => exact List.forall_mem_cons.mpr ⟨start, ih (committed c start)⟩
  | rollback later ih => exact List.forall_mem_cons.mpr ⟨start, ih (returned c start)⟩
  | attempt body succeeds later inside ih =>
    have within := inside (saved c start)
    have ended := within _ (body.run_mem_states _)
    refine List.forall_mem_cons.mpr ⟨start, List.forall_mem_append.mpr ⟨within, ih ?_⟩⟩
    rw [attempt_trial]
    split
    · exact committed _ ended
    · exact returned _ ended
  | lookahead body succeeds later inside ih =>
    have within := inside (saved c start)
    have ended := within _ (body.run_mem_states _)
    refine List.forall_mem_cons.mpr ⟨start, List.forall_mem_append.mpr ⟨within, ih ?_⟩⟩
    rw [lookahead_trial]
    exact returned _ ended

end Program

end IndentMarkup
