import IndentMarkup.Proofs.Line.InPlace
import IndentMarkup.Proofs.Template.Siblings

/-!
# Reading siblings in place

The elements of sibling lines are read with a look ahead: behind an `if` line the sibling
that may be its `else` is looked for, and reading goes on behind that.
-/

namespace IndentMarkup.LineTree

/-- Which of the siblings is the `else` of a line in front of them. -/
def elseSibling (indent : Nat) (siblings : List LineTree) : Option (Fin siblings.length) := do
  let offset ← siblings.findFinIdx? (!·.isBlank)
  let tree := siblings[offset]
  if tree.indent = indent && tree.line.skipSpace.startsWith (.keyword .else) then some offset
  else none

theorem sizeOf_drop_le (siblings : List LineTree) (n : Nat) :
    sizeOf (siblings.drop n) ≤ sizeOf siblings := by
  induction siblings generalizing n with
  | nil => simp
  | cons tree later ih =>
    cases n with
    | zero => simp
    | succ n =>
      have rest := ih n
      simp only [List.drop_succ_cons, List.cons.sizeOf_spec]
      omega

theorem sizeOf_nested_lt {tree : LineTree} {siblings : List LineTree} (member : tree ∈ siblings) :
    sizeOf tree.nested < sizeOf siblings := by
  have inside := List.sizeOf_lt_of_mem member
  obtain ⟨line, indent, nested⟩ := tree
  simp only [LineTree.mk.sizeOf_spec] at inside
  dsimp only
  omega

def readSiblings (source : Text) : List LineTree → Except ParseError (List Element)
  | [] => .ok []
  | tree :: later =>
    if tree.isBlank then readSiblings source later
    else do
      match ← Statement.ofLine source tree.line with
      | .condition predicate =>
        let thenBranch ← readSiblings source tree.nested
        match elseSibling tree.indent later with
        | some offset =>
          readElse later[offset].line
          let elseBranch ← readSiblings source later[offset].nested
          let elements ← readSiblings source (later.drop (offset + 1))
          return .conditional predicate thenBranch elseBranch :: elements
        | none =>
          return .conditional predicate thenBranch [] :: (← readSiblings source later)
      | statement =>
        let element ← statement.element source tree.nested (readSiblings source tree.nested)
        return element :: (← readSiblings source later)
termination_by siblings => sizeOf siblings
decreasing_by
  all_goals
    have own : sizeOf tree.nested < sizeOf (tree :: later) := sizeOf_nested_lt (.head _)
    have rest : sizeOf later < sizeOf (tree :: later) := by
      simp only [List.cons.sizeOf_spec]
      omega
    first
    | exact own
    | exact rest
    | exact (sizeOf_nested_lt (List.getElem_mem _)).trans rest
    | exact Nat.lt_of_le_of_lt (sizeOf_drop_le _ _) rest

variable {source : Text} {tree : LineTree} {indent : Nat}

theorem elseSibling_blank (blank : tree.isBlank = true) (later : List LineTree) :
    elseSibling indent (tree :: later) = (elseSibling indent later).map Fin.succ := by
  rw [elseSibling, elseSibling, List.findFinIdx?_cons]
  simp only [blank, Bool.not_true, Bool.false_eq_true, if_false]
  cases later.findFinIdx? (!·.isBlank) with
  | none => rfl
  | some offset =>
    simp

theorem elseSibling_solid (solid : tree.isBlank = false) (later : List LineTree) :
    elseSibling indent (tree :: later) =
      if tree.indent = indent && tree.line.skipSpace.startsWith (.keyword .else) then
        some ⟨0, Nat.succ_pos _⟩
      else none := by
  rw [elseSibling, List.findFinIdx?_cons]
  simp [solid]
  rfl

/-- An `if` that is open finds the `else` that is looked for, or is closed before the siblings. -/
theorem elements_open (own : OpenCondition) (later : List LineTree) :
    elements source (some own) later =
      match elseSibling own.indent later with
      | some offset => do
        readElse later[offset].line
        let branch ← later[offset].children source
        return own.close branch :: (← elements source none (later.drop (offset + 1)))
      | none => (elements source none later).map (own.close [] :: ·) := by
  induction later with
  | nil => rfl
  | cons tree later ih =>
    cases blank : tree.isBlank with
    | true =>
      rw [elements_blank blank, elements_blank blank, ih, elseSibling_blank blank]
      cases elseSibling own.indent later <;> rfl
    | false =>
      have same : (tree.indent = own.indent && tree.line.skipSpace.startsWith (.keyword .else)) =
          own.claims tree := by
        simp only [OpenCondition.claims, eq_comm]
      rw [elseSibling_solid blank, same]
      cases claimed : own.claims tree with
      | true => exact elements_else blank (by simp [claimed]) later
      | false =>
        rw [elements_statement blank (by simp [claimed]), elements_statement blank rfl]
        cases Statement.ofLine source tree.line with
        | error error => rfl
        | ok statement => exact elementsFrom_closed [own.close []] later statement

/-- Looking ahead for an `else` reads the same as waiting for it. -/
theorem readSiblings_eq_elements (source : Text) (trees : List LineTree) :
    readSiblings source trees = elements source none trees := by
  fun_induction readSiblings source trees with
  | case1 => rfl
  | case2 tree later blank rest => rw [rest, elements_blank blank]
  | case3 tree later solid nested branch behind rest =>
    rw [elements_statement (by simpa using solid) rfl]
    refine bind_congr fun statement => ?_
    obtain ⟨predicate, rfl⟩ | plain := statement.condition_or_plain
    · rw [elementsFrom, children_eq, ← nested]
      refine bind_congr fun thenBranch => ?_
      rw [elements_open]
      dsimp only
      cases elseSibling tree.indent later with
      | none =>
        dsimp only
        rw [rest]
        cases elements source none later <;> rfl
      | some offset =>
        simp only [branch, behind, children_eq, bind_assoc, pure_bind]
        rfl
    · change _ = elementsFrom source [] tree later statement
      rw [elementsFrom_of_ne [] later plain, children_eq, ← nested, ← rest]
      cases statement with
      | condition predicate => exact absurd rfl (plain predicate)
      | _ => rfl

/-- Lines that are grouped and read in place are the elements that a template has of them. -/
theorem readSiblings_collectAll (source : Text) (lines : List Line) :
    readSiblings source (collectAll lines) = elements source none (ofLines lines) := by
  rw [readSiblings_eq_elements, collectAll_eq_ofLines]

end IndentMarkup.LineTree
