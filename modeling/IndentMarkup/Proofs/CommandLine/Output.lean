import IndentMarkup.Proofs.CommandLine.Files
import Mathlib.Data.List.TakeWhile

/-! Where the markup of a template goes. The path of the output leads into the folder of the
template, so both are the same file only if they have the same name there or are linked. -/
namespace IndentMarkup

namespace Path

theorem names_nil : names [] = [] := rfl

theorem names_of_plain {name : Text} (plain : '/' ∉ name) (nonempty : name ≠ []) :
    names name = [name] := by
  have single : name.splitOn '/' = [name] := by
    refine List.splitOn_eq_singleton_of_beq_eq_false fun c member => ?_
    exact beq_eq_false_iff_ne.mpr fun same => plain (same ▸ member)
  simp [names, single, nonempty]

theorem names_slash (front rest : Text) :
    names (front ++ '/' :: rest) = names front ++ names rest := by
  rw [names, List.splitOn_append_cons_of_beq front rest (beq_self_eq_true _), List.filter_append]
  rfl

theorem names_slash_end (front : Text) : names (front ++ ['/']) = names front := by
  rw [names_slash, names_nil, List.append_nil]

theorem isAbsolute_append {front : Text} (nonempty : front ≠ []) (rest : Text) :
    isAbsolute (front ++ rest) = isAbsolute front := by
  cases front with
  | nil => contradiction
  | cons c front => rfl

theorem isAbsolute_of_plain {name : Text} (plain : '/' ∉ name) : isAbsolute name = false :=
  decide_eq_false fun slash => plain (List.mem_of_head? slash)

theorem front_append_lastPart (path : Text) : front path ++ lastPart path = path := by
  rw [front, lastPart, ← List.reverse_append, List.takeWhile_append_dropWhile, List.reverse_reverse]

theorem lastPart_plain (path : Text) : '/' ∉ lastPart path := by
  intro member
  have inside := List.mem_takeWhile_imp (List.mem_reverse.mp member)
  simp at inside

/-- What stands in front of the last part is nothing, or it ends in a slash. -/
theorem front_cases (path : Text) : front path = [] ∨ ∃ folder, front path = folder ++ ['/'] := by
  rw [front]
  cases left : path.reverse.dropWhile (· ≠ '/') with
  | nil => exact .inl rfl
  | cons c rest =>
    have stopped := List.head?_dropWhile_not (· ≠ '/') path.reverse
    rw [left] at stopped
    obtain rfl : c = '/' := by simpa using stopped
    exact .inr ⟨rest.reverse, List.reverse_cons⟩

theorem isAbsolute_front (path : Text) : isAbsolute (front path) = isAbsolute path := by
  have whole := front_append_lastPart path
  obtain none | ⟨folder, some⟩ := front_cases path
  · rw [none, List.nil_append] at whole
    rw [none, ← whole, isAbsolute_of_plain (lastPart_plain path)]
    rfl
  · calc isAbsolute (front path)
        = isAbsolute (front path ++ lastPart path) := by rw [isAbsolute_append (by simp [some])]
      _ = isAbsolute path := by rw [whole]

theorem split_eq {folder name : Text} (plain : '/' ∉ name)
    (ended : folder = [] ∨ ∃ above, folder = above ++ ['/']) :
    front (folder ++ name) = folder ∧ lastPart (folder ++ name) = name := by
  have all : ∀ c ∈ name.reverse, decide (c ≠ '/') = true := by
    rintro c member
    refine decide_eq_true ?_
    rintro rfl
    exact plain (List.mem_reverse.mp member)
  have stops : folder.reverse.takeWhile (· ≠ '/') = [] ∧
      folder.reverse.dropWhile (· ≠ '/') = folder.reverse := by
    obtain rfl | ⟨above, rfl⟩ := ended <;> simp
  constructor
  · rw [front, List.reverse_append, List.dropWhile_append_of_pos all, stops.2,
      List.reverse_reverse]
  · rw [lastPart, List.reverse_append, List.takeWhile_append_of_pos all, stops.1,
      List.append_nil, List.reverse_reverse]

theorem names_concat (front name : Text) (plain : '/' ∉ name) (nonempty : name ≠ [])
    (ended : front = [] ∨ ∃ folder, front = folder ++ ['/']) :
    names (front ++ name) = names front ++ [name] := by
  obtain rfl | ⟨folder, rfl⟩ := ended
  · rw [List.nil_append, names_nil, names_of_plain plain nonempty, List.nil_append]
  · rw [List.append_assoc, List.singleton_append, names_slash, names_slash_end,
      names_of_plain plain nonempty]

/-- Only slashes and single dots are dropped, and never all of a path. -/
theorem trimReversed_reverse (path : Text) :
    (∃ n, names path.reverse = names (trimReversed path).reverse ++ List.replicate n ['.']) ∧
      isAbsolute path.reverse = isAbsolute (trimReversed path).reverse := by
  fun_induction trimReversed path with
  | case1 => exact ⟨⟨0, by simp⟩, rfl⟩
  | case2 rest more ih =>
    have nonempty : rest.reverse ≠ [] := by simpa using more
    rw [List.reverse_cons, names_slash_end, isAbsolute_append nonempty]
    exact ih
  | case3 rest ih =>
    obtain ⟨⟨n, dots⟩, start⟩ := ih
    rw [List.reverse_cons] at dots start
    rw [List.reverse_cons, List.reverse_cons, isAbsolute_append (by simp), start]
    refine ⟨⟨n + 1, ?_⟩, rfl⟩
    rw [names_concat _ ['.'] (by decide) (by decide) (.inr ⟨_, rfl⟩), dots,
      List.replicate_succ', List.append_assoc]
  | case4 path _ _ _ => exact ⟨⟨0, by simp⟩, rfl⟩

theorem names_trimmed (path : Text) :
    ∃ n, names path = names (trimmed path) ++ List.replicate n ['.'] := by
  simpa [trimmed] using (trimReversed_reverse path.reverse).1

theorem isAbsolute_trimmed (path : Text) : isAbsolute (trimmed path) = isAbsolute path := by
  simpa [trimmed] using (trimReversed_reverse path.reverse).2.symm

/-- The last part is a name, and not one of a folder. -/
def Proper (name : Text) : Prop :=
  name ∉ [[], ['.'], ['.', '.']]

/-- Nothing is dropped from a path that ends in a name. -/
theorem trimmed_of_proper {path : Text} (proper : Proper (lastPart path)) : trimmed path = path := by
  have unchanged : trimReversed path.reverse = path.reverse := by
    have taken : lastPart path = (path.reverse.takeWhile (· ≠ '/')).reverse := rfl
    rw [taken] at proper
    generalize path.reverse = backwards at proper
    unfold trimReversed
    split
    · rfl
    · exact absurd (by simp) proper
    · exact absurd (by simp) proper
    · rfl
  rw [trimmed, unchanged, List.reverse_reverse]

theorem fileName?_of_proper {path : Text} (proper : Proper (lastPart path)) :
    fileName? path = some (lastPart path) := by
  rw [fileName?, trimmed_of_proper proper]
  exact if_neg (by simpa [Proper] using proper)

theorem directory?_of_proper {path : Text} (proper : Proper (lastPart path)) :
    directory? path = some (trimmed (front path)) := by
  have named : ¬ (path = [] ∨ path = ['/']) := by
    rintro (rfl | rfl) <;> exact proper (.head _)
  rw [directory?, trimmed_of_proper proper]
  exact if_neg named

/-- The name of the output of a template. -/
def outputName (name : Text) : Text :=
  stem name ++ ['.', 'h', 't', 'm', 'l']

theorem defaultOutput_of_proper {path : Text} (proper : Proper (lastPart path)) :
    defaultOutput path = append (trimmed (front path)) (outputName (lastPart path)) := by
  simp [defaultOutput, fileName?_of_proper proper, directory?_of_proper proper, outputName]

theorem stem_subset (name : Text) : stem name ⊆ name := by
  have within : name.reverse.dropWhile (· ≠ '.') ⊆ name.reverse :=
    (List.dropWhile_suffix _).subset
  unfold stem
  split
  · exact List.Subset.refl _
  · exact List.Subset.refl _
  next dot before _ split =>
    intro c member
    exact List.mem_reverse.mp (within (split ▸ .tail _ (List.mem_reverse.mp member)))

theorem outputName_plain {name : Text} (plain : '/' ∉ name) : '/' ∉ outputName name := by
  intro member
  obtain stem | extension := List.mem_append.mp member
  · exact plain (stem_subset _ stem)
  · revert extension
    decide

theorem stem_html {base : Text} (nonempty : base ≠ []) :
    stem (base ++ ['.', 'h', 't', 'm', 'l']) = base := by
  obtain ⟨front, c, rfl⟩ := base.eq_nil_or_concat.resolve_left nonempty
  simp [stem]

/-- The output is named as the template is if that is named as markup already. -/
theorem outputName_eq_iff (name : Text) :
    outputName name = name ↔ ∃ base, base ≠ [] ∧ name = base ++ ['.', 'h', 't', 'm', 'l'] := by
  constructor
  · intro same
    refine ⟨stem name, fun hidden => ?_, same.symm⟩
    -- A name that is all extension is its own stem.
    have only : name = ['.', 'h', 't', 'm', 'l'] := by
      rw [← same, outputName, hidden, List.nil_append]
    rw [only] at hidden
    exact absurd hidden (by decide)
  · rintro ⟨base, nonempty, rfl⟩
    rw [outputName, stem_html nonempty]

theorem append_split (folder : Text) {name : Text} (plain : '/' ∉ name) :
    names (front (append folder name)) = names folder ∧
      isAbsolute (append folder name) = isAbsolute folder ∧
      lastPart (append folder name) = name := by
  obtain rfl | ⟨above, c, rfl⟩ := folder.eq_nil_or_concat
  · obtain ⟨front, last⟩ := split_eq plain (.inl rfl)
    exact ⟨congrArg names front, isAbsolute_of_plain plain, last⟩
  · rw [List.concat_eq_append]
    have started : above ++ [c] ≠ [] := by simp
    by_cases slash : c = '/'
    · subst slash
      have appended : append (above ++ ['/']) name = above ++ ['/'] ++ name := by simp [append]
      obtain ⟨front, last⟩ := split_eq plain (.inr ⟨above, rfl⟩)
      rw [appended]
      exact ⟨congrArg names front, isAbsolute_append started _, last⟩
    · have appended : append (above ++ [c]) name = above ++ [c] ++ ['/'] ++ name := by
        simp [append]
      obtain ⟨front, last⟩ := split_eq plain (.inr ⟨above ++ [c], rfl⟩)
      rw [appended, front, names_slash_end]
      refine ⟨rfl, ?_, last⟩
      rw [List.append_assoc, isAbsolute_append started]

end Path

namespace View

variable {σ Folder File Bytes : Type} {view : View σ Folder File Bytes}
  {storage : Storage (StateM σ) File}

/-- Single dots lead nowhere. -/
theorem Lawful.foldlM_dots (lawful : view.Lawful storage) (s : σ) (folder : Folder) (n : Nat) :
    (List.replicate n ['.']).foldlM (view.enter s) folder = some folder := by
  induction n with
  | zero => rfl
  | succ n ih => rw [List.replicate_succ, List.foldlM_cons, lawful.enter_dot]; exact ih

theorem Lawful.proper (lawful : view.Lawful storage) {s : σ} {path : Text} {file : File}
    (leads : view.lookup s path = some file) : Path.Proper (Path.lastPart path) := by
  obtain ⟨folder, -, entry⟩ := Option.bind_eq_some_iff.mp leads
  intro dots
  rw [lawful.entry_dots s folder _ dots] at entry
  contradiction

/-- The template and its output are in the same folder. -/
theorem Lawful.folder_defaultOutput (lawful : view.Lawful storage) (s : σ) {path : Text}
    (proper : Path.Proper (Path.lastPart path)) :
    view.folder s (Path.defaultOutput path) = view.folder s path := by
  have plain := Path.outputName_plain (Path.lastPart_plain path)
  obtain ⟨names, absolute, -⟩ := Path.append_split (Path.trimmed (Path.front path)) plain
  obtain ⟨n, dots⟩ := Path.names_trimmed (Path.front path)
  rw [folder, folder, Path.defaultOutput_of_proper proper, names, absolute,
    Path.isAbsolute_trimmed, Path.isAbsolute_front, dots, List.foldlM_append]
  -- The dots that the directory lacks are steps that stay where they are.
  cases (Path.names (Path.trimmed (Path.front path))).foldlM (view.enter s)
      (view.start s (Path.isAbsolute path)) with
  | none => rfl
  | some folder => exact (lawful.foldlM_dots s folder n).symm

/-- The output is the template itself only where both have the same name, or the file has both
names. -/
theorem Lawful.named_or_linked (lawful : view.Lawful storage) {s : σ} {path : Text} {file : File}
    (leads : view.lookup s path = some file)
    (same : view.lookup s (Path.defaultOutput path) = some file) :
    (∃ base, base ≠ [] ∧ Path.fileName? path = some (base ++ ['.', 'h', 't', 'm', 'l'])) ∨
      view.Linked s file := by
  have proper := lawful.proper leads
  have plain := Path.outputName_plain (Path.lastPart_plain path)
  obtain ⟨folder, within, entry⟩ := Option.bind_eq_some_iff.mp leads
  obtain ⟨folder', within', entry'⟩ := Option.bind_eq_some_iff.mp same
  obtain rfl : folder = folder' := by
    rw [lawful.folder_defaultOutput s proper, within] at within'
    exact Option.some.inj within'
  rw [Path.defaultOutput_of_proper proper, (Path.append_split _ plain).2.2] at entry'
  by_cases named : Path.outputName (Path.lastPart path) = Path.lastPart path
  · obtain ⟨base, nonempty, whole⟩ := (Path.outputName_eq_iff _).mp named
    exact .inl ⟨base, nonempty, by rw [Path.fileName?_of_proper proper, whole]⟩
  · exact .inr ⟨folder, _, _, Ne.symm named, entry, entry'⟩

/-- Touching the output leaves the template as it was, or it is the template that is touched. -/
theorem Lawful.kept_or_output (lawful : view.Lawful storage) {s after : σ} {path : Text}
    {file template : File} {bytes : Bytes}
    (touched : view.Touched (Path.defaultOutput path) file s after)
    (leads : view.lookup s path = some template) (held : view.held s template = some bytes) :
    (view.lookup after path = some template ∧ view.held after template = some bytes) ∨
      view.lookup s (Path.defaultOutput path) = some template ∧
        ((∃ base, base ≠ [] ∧ Path.fileName? path = some (base ++ ".html".toList)) ∨
          view.Linked s template) := by
  by_cases same : view.lookup s (Path.defaultOutput path) = some template
  · exact .inr ⟨same, lawful.named_or_linked leads same⟩
  · exact .inl ⟨touched.lookup leads, touched.held_eq same held⟩

end View

end IndentMarkup
