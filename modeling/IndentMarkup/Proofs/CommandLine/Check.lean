import IndentMarkup.CommandLine.Run
import IndentMarkup.Proofs.Markup.Walk

/-! What a check tells about builds. A check walks the branches behind `else`, so a build without
options for conditions never fails behind it, and any other one fails exactly at a node without
markup in a branch that it takes instead. -/
namespace IndentMarkup

/-- Where no attribute is an element, only nodes without markup offend. -/
theorem Step.firstOffence_eq_none_iff {before steps : List Step}
    (unattributed : ∀ name, .addAttribute name ∉ steps) :
    firstOffence before steps = none ↔ ∀ kind, .unsupported kind ∉ steps := by
  induction steps generalizing before with
  | nil => simp [firstOffence]
  | cons step later ih =>
    simp only [List.mem_cons, not_or, forall_and] at unattributed
    rw [firstOffence, Option.or_eq_none_iff, ih unattributed.2]
    cases step with
    | addAttribute name => exact absurd rfl (unattributed.1 name)
    | unsupported kind =>
      exact iff_of_false (by simp [offence]) fun clear => clear kind (.head _)
    | _ => simp [offence]

theorem Template.not_mem_allWalk {text : Text} {template : Template}
    (read : parse text = .ok template) (choice : BranchChoice) (name : Text) :
    .addAttribute name ∉ Element.allWalk choice template.elements := by
  intro member
  obtain ⟨e, inside, walked⟩ := Element.mem_allWalk.mp member
  exact ((wellFormed_of_parse read).elements e inside).not_mem_walk choice name walked

/-- What was read from a text can be written if no node without markup is on the way. -/
theorem Template.exists_render_iff {text : Text} {template : Template}
    (read : parse text = .ok template) (options : RenderOptions) :
    (∃ markup, template.render options = .ok markup) ↔
      ∀ kind, .unsupported kind ∉ Element.allWalk options.branches template.elements := by
  rw [← @Step.firstOffence_eq_none_iff [] _ (not_mem_allWalk read options.branches)]
  have failed := template.render_eq_error_iff options
  cases rendered : template.render options with
  | ok markup =>
    simp only [rendered, reduceCtorEq, false_iff] at failed
    simpa using Option.eq_none_iff_forall_ne_some.mpr failed
  | error error =>
    rw [(failed error).mp rendered]
    simp

namespace CommandLine

/-- There is no node without markup in the branches that are chosen. -/
def Clear (source : Text) (choice : BranchChoice) : Prop :=
  ∀ template, Template.parse source = .ok template →
    ∀ kind, .unsupported kind ∉ Element.allWalk choice template.elements

theorem compile_eq_ok_iff {path source markup : Text} {options : RenderOptions} :
    compile path source options = .ok markup ↔
      ∃ template, Template.parse source = .ok template ∧
        template.render options = .ok markup := by
  rw [compile]
  cases Template.parse source with
  | error error => simp [Except.mapError, bind, Except.bind]
  | ok template =>
    cases rendered : template.render options <;>
      simp [Except.mapError, bind, Except.bind, rendered]

/-- A build knows of one choice of branches, which goes by its options for conditions. -/
theorem Collected.branches_cases (c : Collected) :
    c.renderOptions.branches = .elseBranch ∨ c.renderOptions.branches = .thenBranch ∨
      ∃ names, names ≠ [] ∧ c.renderOptions.branches = .flags names := by
  rw [renderOptions]
  dsimp only
  split
  · exact .inr (.inl rfl)
  · split
    · exact .inl rfl
    next some => exact .inr (.inr ⟨c.defines, by simpa using some, rfl⟩)

/-- What a template that passes the check can be built with. A build fails exactly if there is a
node without markup in the branches that it chooses. So it never fails without options for
conditions, whatever its layout and encoding are, and it fails with none of the others if the branches
of all of them are clear. -/
theorem builds_of_check (path source : Text)
    (checked : ∃ markup, compile path source {} = .ok markup) :
    (∀ options, (∃ markup, compile path source options = .ok markup) ↔
      Clear source options.branches) ∧
    (∀ options, options.branches = .elseBranch →
      ∃ markup, compile path source options = .ok markup) ∧
    ((∀ c : Collected, ∃ markup, compile path source c.renderOptions = .ok markup) ↔
      Clear source .thenBranch ∧ ∀ names, names ≠ [] → Clear source (.flags names)) := by
  have compiles (options : RenderOptions) : (∃ markup, compile path source options = .ok markup) ↔
      Clear source options.branches := by
    obtain ⟨_, made⟩ := checked
    obtain ⟨template, read, -⟩ := compile_eq_ok_iff.mp made
    simpa [compile_eq_ok_iff, Clear, read] using Template.exists_render_iff read options
  have usual : Clear source .elseBranch := (compiles {}).mp checked
  refine ⟨compiles, fun options same => (compiles options).mpr (same ▸ usual), ?_, ?_⟩
  · intro builds
    refine ⟨(compiles _).mp (builds { thenBranch := true }), fun names nonempty => ?_⟩
    have flags : Collected.renderOptions { defines := names } = { branches := .flags names } := by
      simp [Collected.renderOptions, nonempty]
    exact (compiles _).mp (flags ▸ builds { defines := names })
  · rintro ⟨thenClear, flagsClear⟩ c
    refine (compiles _).mpr ?_
    obtain same | same | ⟨names, nonempty, same⟩ := c.branches_cases
    · exact same ▸ usual
    · exact same ▸ thenClear
    · exact same ▸ flagsClear names nonempty

/-- A loop under a condition passes the check and stops the builds for which the condition holds. -/
theorem builds_of_check_loop :
    (∃ markup, compile ['t'] "if a\n  each x".toList {} = .ok markup) ∧
      (∃ markup, compile ['t'] "if a\n  each x".toList
        { RenderOptions.pretty with autoEncode := true } = .ok markup) ∧
      ¬ ∃ markup, compile ['t'] "if a\n  each x".toList { branches := .flags [['a']] } =
        .ok markup := by
  have checked : ∃ markup, compile ['t'] "if a\n  each x".toList {} = .ok markup :=
    ⟨[], by cbv⟩
  have read : Template.parse "if a\n  each x".toList =
      .ok ⟨none, [.conditional ['a'] [.marker .each ['x'] []] []]⟩ := by cbv
  refine ⟨checked, (builds_of_check _ _ checked).2.1 _ rfl, fun built => ?_⟩
  have clear := ((builds_of_check _ _ checked).1 _).mp built
  exact clear _ read .each (by decide)

/-- So the check does not vouch for all builds. -/
theorem not_all_builds_of_check :
    ¬ ∀ path source : Text, (∃ markup, compile path source {} = .ok markup) →
      ∀ c : Collected, ∃ markup, compile path source c.renderOptions = .ok markup := by
  intro promised
  have checked : compile ['t'] "if a\n  each x in y".toList {} = .ok [] := by cbv
  obtain ⟨markup, built⟩ := promised _ _ ⟨[], checked⟩ { thenBranch := true }
  have failed : compile ['t'] "if a\n  each x in y".toList { branches := .thenBranch } =
      .error "Render error in t: Cannot render each: not supported" := by cbv
  exact absurd (built.symm.trans failed) (by simp)

end CommandLine

end IndentMarkup
