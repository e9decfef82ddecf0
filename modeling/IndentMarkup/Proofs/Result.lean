/-! Computations that may fail: one that succeeds succeeds in each of its steps, what holds of the
results and errors of each step holds of the whole, and two that agree in each of their steps
agree. -/
namespace IndentMarkup

theorem bind_ok {ε α β : Type} {first : Except ε α} {next : α → Except ε β} {result : β}
    (ran : first >>= next = .ok result) :
    ∃ value, first = .ok value ∧ next value = .ok result := by
  cases first with
  | error error => contradiction
  | ok value => exact ⟨value, rfl, ran⟩

theorem map_ok {ε α β : Type} {run : Except ε α} {f : α → β} {result : β}
    (ran : run.map f = .ok result) : ∃ value, run = .ok value ∧ f value = result := by
  cases run with
  | error error => contradiction
  | ok value => exact ⟨value, rfl, Except.ok.inj ran⟩

/-- It succeeds with a result of the one kind, or it fails with an error of the other. -/
inductive Meets {ε α : Type} (E : ε → Prop) (R : α → Prop) : Except ε α → Prop where
  | ok {value : α} (holds : R value) : Meets E R (.ok value)
  | error {error : ε} (holds : E error) : Meets E R (.error error)

namespace Meets

variable {ε α β : Type} {E E' : ε → Prop} {R R' : α → Prop} {S : β → Prop} {run : Except ε α}

theorem bind {next : α → Except ε β} (begun : Meets E R run)
    (done : ∀ value, R value → Meets E S (next value)) : Meets E S (run >>= next) := by
  cases begun with
  | ok holds => exact done _ holds
  | error holds => exact .error holds

theorem map {f : α → β} (meets : Meets E R run) (kept : ∀ value, R value → S (f value)) :
    Meets E S (run.map f) := by
  cases meets with
  | ok holds => exact .ok (kept _ holds)
  | error holds => exact .error holds

theorem imp (meets : Meets E R run) (errors : ∀ error, E error → E' error)
    (results : ∀ value, R value → R' value) : Meets E' R' run := by
  cases meets with
  | ok holds => exact .ok (results _ holds)
  | error holds => exact .error (errors _ holds)

/-- Nothing is asked of a computation. -/
theorem any (run : Except ε α) : Meets (fun _ => True) (fun _ => True) run := by
  cases run with
  | ok => exact .ok trivial
  | error => exact .error trivial

theorem of_ok {value : α} (meets : Meets E R (.ok value)) : R value := by
  cases meets with
  | ok holds => exact holds

end Meets

/-- The computation fails, with whatever error. -/
def Fails {ε α : Type} (run : Except ε α) : Prop :=
  Meets (fun _ => True) (fun _ => False) run

namespace Fails

variable {ε α β : Type} {run : Except ε α}

theorem error (error : ε) : Fails (.error error : Except ε α) :=
  Meets.error trivial

theorem exists_error (fails : Fails run) : ∃ error, run = .error error := by
  cases fails with
  | ok nothing => contradiction
  | error => exact ⟨_, rfl⟩

theorem bind (fails : Fails run) (next : α → Except ε β) : Fails (run >>= next) :=
  Meets.bind fails fun _ nothing => nothing.elim

theorem map (fails : Fails run) (f : α → β) : Fails (run.map f) :=
  Meets.map fails fun _ nothing => nothing

/-- It fails at the latest behind its first step. -/
theorem behind (run : Except ε α) {next : α → Except ε β} (later : ∀ value, Fails (next value)) :
    Fails (run >>= next) :=
  (Meets.any run).bind fun value _ => later value

end Fails

/-- Both succeed with related results, or both fail with related errors. -/
inductive Agree {ε α β : Type} (E : ε → ε → Prop) (R : α → β → Prop) :
    Except ε α → Except ε β → Prop where
  | ok {value : α} {value' : β} (same : R value value') : Agree E R (.ok value) (.ok value')
  | error {error error' : ε} (same : E error error') : Agree E R (.error error) (.error error')

/-- Which errors they are is left open. -/
def AnyErrors {ε : Type} (_ _ : ε) : Prop := True

instance {ε : Type} : Std.Refl (@AnyErrors ε) := ⟨fun _ => trivial⟩

namespace Agree

variable {ε α β γ δ : Type} {E : ε → ε → Prop} {R : α → β → Prop} {S : γ → δ → Prop}
  {first : Except ε α} {second : Except ε β}

theorem refl [Std.Refl E] (run : Except ε α) : Agree E Eq run run := by
  cases run with
  | ok => exact .ok rfl
  | error error => exact .error (Std.Refl.refl error)

theorem bind {next : α → Except ε γ} {next' : β → Except ε δ} (begun : Agree E R first second)
    (done : ∀ value value', R value value' → Agree E S (next value) (next' value')) :
    Agree E S (first >>= next) (second >>= next') := by
  cases begun with
  | ok same => exact done _ _ same
  | error same => exact .error same

theorem map {f : α → γ} {g : β → δ} (agree : Agree E R first second)
    (kept : ∀ value value', R value value' → S (f value) (g value')) :
    Agree E S (first.map f) (second.map g) := by
  cases agree with
  | ok same => exact .ok (kept _ _ same)
  | error same => exact .error same

theorem bind_left [Std.Refl E] {first second : Except ε α} (agree : Agree E Eq first second)
    (next : α → Except ε γ) : Agree E Eq (first >>= next) (second >>= next) := by
  refine agree.bind fun value _ same => ?_
  subst same
  exact refl _

theorem bind_right [Std.Refl E] (run : Except ε α) {next : α → Except ε γ} {next' : α → Except ε δ}
    (later : ∀ value, Agree E S (next value) (next' value)) :
    Agree E S (run >>= next) (run >>= next') := by
  refine (refl run).bind fun value _ same => ?_
  subst same
  exact later value

theorem imp {R' : α → β → Prop} (agree : Agree E R first second)
    (weaker : ∀ value value', R value value' → R' value value') : Agree E R' first second := by
  cases agree with
  | ok same => exact .ok (weaker _ _ same)
  | error same => exact .error same

/-- Where the errors do not matter, the one succeeds if and only if the other does. -/
theorem ok_iff {first second : Except ε α} (agree : Agree E Eq first second) (value : α) :
    first = .ok value ↔ second = .ok value := by
  cases agree with
  | ok same => rw [same]
  | error => simp

theorem eq {first second : Except ε α} (agree : Agree Eq Eq first second) : first = second := by
  cases agree with
  | ok same => rw [same]
  | error same => rw [same]

end Agree

/-- If the first succeeds the second does so too, with a related result. -/
inductive Follows {ε α β : Type} (R : α → β → Prop) : Except ε α → Except ε β → Prop where
  | ok {value : α} {value' : β} (same : R value value') : Follows R (.ok value) (.ok value')
  | error (error : ε) (second : Except ε β) : Follows R (.error error) second

namespace Follows

variable {ε α β γ δ : Type} {R : α → β → Prop} {S : γ → δ → Prop}
  {first : Except ε α} {second : Except ε β}

theorem refl (run : Except ε α) : Follows Eq run run := by
  cases run with
  | ok => exact .ok rfl
  | error error => exact .error error _

theorem of_fails (fails : Fails first) (second : Except ε β) : Follows R first second := by
  obtain ⟨error, rfl⟩ := fails.exists_error
  exact .error error second

theorem bind {next : α → Except ε γ} {next' : β → Except ε δ} (follows : Follows R first second)
    (done : ∀ value value', R value value' → Follows S (next value) (next' value')) :
    Follows S (first >>= next) (second >>= next') := by
  cases follows with
  | ok same => exact done _ _ same
  | error error => exact .error error _

theorem map {f : α → γ} {g : β → δ} (follows : Follows R first second)
    (kept : ∀ value value', R value value' → S (f value) (g value')) :
    Follows S (first.map f) (second.map g) := by
  cases follows with
  | ok same => exact .ok (kept _ _ same)
  | error error => exact .error error _

theorem of_ok {first second : Except ε α} {value : α} (follows : Follows Eq first second)
    (ran : first = .ok value) : second = .ok value := by
  subst ran
  cases follows with
  | ok same => rw [same]

end Follows

end IndentMarkup
