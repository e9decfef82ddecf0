import IndentMarkup.Template.Basic

/-! Induction over a forest of elements: a list of siblings follows from what stands
inside its first element and from the siblings behind it. -/
namespace IndentMarkup

theorem Element.forest_induction {motive : List Element → Prop} (nil : motive [])
    (tag : ∀ head content children later, motive children → motive later →
      motive (.tag head content children :: later))
    (loneAttribute : ∀ name value later, motive later →
      motive (.loneAttribute name value :: later))
    (text : ∀ value later, motive later → motive (.text value :: later))
    (expression : ∀ value later, motive later → motive (.expression value :: later))
    (conditional : ∀ predicate thenBranch elseBranch later, motive thenBranch →
      motive elseBranch → motive later →
      motive (.conditional predicate thenBranch elseBranch :: later))
    (comment : ∀ text buffered later, motive later → motive (.comment text buffered :: later))
    (marker : ∀ kind argument children later, motive children → motive later →
      motive (.marker kind argument children :: later))
    (elements : List Element) : motive elements := by
  refine @Element.rec_1 (fun element => ∀ later, motive later → motive (element :: later))
    motive ?_ loneAttribute text expression ?_ comment ?_ nil ?_ elements
  · exact fun head content children inside later => tag head content children later inside
  · exact fun predicate thenBranch elseBranch first second later =>
      conditional predicate thenBranch elseBranch later first second
  · exact fun kind argument children inside later => marker kind argument children later inside
  · exact fun element later first rest => first later rest

end IndentMarkup
