import IndentMarkup.Proofs.Template.Dedent

/-! Text that is moved to the right as a whole. With the same blanks in front of each of its lines
the same lines are nested, and as text they are what they were. -/
namespace IndentMarkup

variable {margin : Text} {margins : Nat → Text} {source source' : Text} {o : Nat}

namespace Text

/-- The text with the margin in front of each of its lines. -/
def indentLines (text margin : Text) : Text :=
  ['\n'].intercalate ((text.splitOn '\n').map (margin ++ ·))

/-- Without margins a text is what it was. -/
theorem pad_of_flush {text : Text} (flush : ∀ k < text.length, margins (o + k + 1) = []) :
    text.pad margins o = text := by
  induction text generalizing o with
  | nil => rfl
  | cons c rest ih =>
    have own : margins (o + 1) = [] := flush 0 (Nat.zero_lt_succ _)
    have later (k : Nat) (inside : k < rest.length) : margins (o + 1 + k + 1) = [] := by
      rw [Nat.add_assoc o, Nat.add_comm 1]
      exact flush (k + 1) (Nat.succ_lt_succ inside)
    rw [pad, ih later, own, ite_self, List.nil_append]

theorem indentLines_nil (text : Text) : text.indentLines [] = text := by
  have same : ∀ line : Text, [] ++ line = line := List.nil_append
  rw [indentLines, List.map_congr_left fun line _ => same line, List.map_id',
    List.intercalate_splitOn]

/-- The margins of a text that are all the same. -/
theorem append_pad {text : Text} (first : margins o = margin)
    (same : ∀ k < text.length, margins (o + k + 1) = margin) :
    margins o ++ text.pad margins o = text.indentLines margin := by
  induction text using Text.line_induction generalizing o with
  | last line within =>
    rw [indentLines, splitOn_last within, pad_of_feedless within, List.map_singleton,
      List.intercalate_singleton, first]
  | cons line rest within ih =>
    rw [List.length_append, List.length_cons] at same
    have next : margins (o + line.length + 1) = margin := same line.length (by omega)
    have later (k : Nat) (inside : k < rest.length) :
        margins (o + line.length + 1 + k + 1) = margin := by
      have number : o + line.length + 1 + k + 1 = o + (line.length + 1 + k) + 1 := by omega
      rw [number]
      exact same _ (by omega)
    have nonempty : (rest.splitOn '\n').map (margin ++ ·) ≠ [] := by simp
    rw [pad_append_of_feedless within, pad_feed, ih next later, indentLines, indentLines,
      splitOn_feed within, List.map_cons, List.intercalate_cons_of_ne_nil nonempty, first]
    simp

theorem indentLines_feed (margin first rest : Text) :
    (first ++ '\n' :: rest).indentLines margin =
      first.indentLines margin ++ '\n' :: rest.indentLines margin := by
  obtain ⟨margins, same⟩ : ∃ margins : Nat → Text, ∀ o, margins o = margin :=
    ⟨fun _ => margin, fun _ => rfl⟩
  have moved (o : Nat) (text : Text) : margin ++ text.pad margins o = text.indentLines margin := by
    rw [← append_pad (same o) fun _ _ => same _, same]
  rw [← moved 0, ← moved 0, pad_append, pad_feed, same, moved, List.append_assoc]

theorem indentLines_intercalate (margin : Text) {texts : List Text} (nonempty : texts ≠ []) :
    indentLines (['\n'].intercalate texts) margin =
      ['\n'].intercalate (texts.map (indentLines · margin)) := by
  induction texts with
  | nil => contradiction
  | cons text later ih =>
    by_cases alone : later = []
    · rw [alone, List.map_singleton, List.intercalate_singleton, List.intercalate_singleton]
    · have more : later.map (indentLines · margin) ≠ [] := by simpa using alone
      rw [List.map_cons, List.intercalate_cons_of_ne_nil alone,
        List.intercalate_cons_of_ne_nil more, List.append_assoc, List.append_assoc,
        List.singleton_append, List.singleton_append, indentLines_feed, ih alone]

theorem feedless_of_mem_splitOn (text : Text) : ∀ line ∈ text.splitOn '\n', '\n' ∉ line := by
  induction text using Text.line_induction with
  | last line within =>
    rw [splitOn_last within]
    exact List.forall_mem_singleton.mpr within
  | cons line rest within ih =>
    rw [splitOn_feed within]
    exact List.forall_mem_cons.mpr ⟨within, ih⟩

theorem splitOn_indentLines (within : '\n' ∉ margin) (text : Text) :
    (text.indentLines margin).splitOn '\n' = (text.splitOn '\n').map (margin ++ ·) := by
  refine List.splitOn_intercalate '\n' ?_ (by simp)
  refine List.forall_mem_map.mpr fun line member inside => ?_
  rcases List.mem_append.mp inside with front | behind
  · exact within front
  · exact feedless_of_mem_splitOn text line member behind

/-- What is indented further by spaces loses them with the rest of its indent. -/
theorem dedent_spaces (k width : Nat) (line : Text) :
    dedent (k + width) (List.replicate k ' ' ++ line) = dedent width line := by
  induction k with
  | zero => rw [Nat.zero_add, List.replicate_zero, List.nil_append]
  | succ k ih =>
    rw [List.replicate_succ, List.cons_append, Nat.add_right_comm, dedent]
    exact ih

end Text

/-- The margin stands in front of the lines that begin between the offsets. -/
def Text.between (start stop : Nat) (margin : Text) (o : Nat) : Text :=
  if start ≤ o ∧ o ≤ stop then margin else []

theorem Text.between_outside {start stop : Nat} (apart : o < start ∨ stop < o) :
    Text.between start stop margin o = [] := by
  rw [between, if_neg (by omega)]

theorem Text.between_inside {start stop : Nat} (after : start ≤ o) (before : o ≤ stop) :
    Text.between start stop margin o = margin := by
  rw [between, if_pos ⟨after, before⟩]

theorem Text.blankMargins_between (blank : ∀ c ∈ margin, isInlineBlank c = true)
    (start stop : Nat) : BlankMargins (between start stop margin) := by
  intro o
  rw [between]
  split
  · exact blank
  · exact List.forall_mem_nil _

/-- Margins that stand in front of the lines of a body only. -/
theorem Text.pad_between (margin head body tail : Text) :
    (head ++ '\n' :: (body ++ tail)).pad
        (between (head.length + 1) (head.length + 1 + body.length) margin) 0 =
      head ++ '\n' :: (body.indentLines margin ++ tail) := by
  have moved : between (head.length + 1) (head.length + 1 + body.length) margin (head.length + 1) ++
      body.pad (between (head.length + 1) (head.length + 1 + body.length) margin)
        (head.length + 1) = body.indentLines margin :=
    append_pad (between_inside (by omega) (by omega)) fun k bound =>
      between_inside (by omega) (by omega)
  rw [pad_append, pad_of_flush fun k bound => between_outside (by omega), pad_feed, pad_append,
    ← List.append_assoc, Nat.zero_add, moved,
    pad_of_flush fun k bound => between_outside (by omega)]

/-- The second line has the margin in front and behind its line feeds. -/
structure Line.Indented (margin source source' : Text) (line line' : Line) : Prop where
  isBlank : line'.isBlank = line.isBlank
  indent : line'.indent = margin.length + line.indent
  sourceText : line'.sourceText source' = (line.sourceText source).indentLines margin
  startsWith : margin = [] → ∀ kind, line'.startsWith kind = line.startsWith kind

theorem Line.Padded.indented {entry : Nat × Line} {line' : Line}
    (padded : Line.Padded margins source source' entry line') (first : margins entry.1 = margin)
    (same : ∀ k < entry.2.size source, margins (entry.1 + k + 1) = margin) :
    Line.Indented margin source source' entry.2 line' where
  isBlank := padded.isBlank
  indent := first ▸ padded.indent
  sourceText := padded.sourceText.trans (Text.append_pad first same)
  startsWith := first ▸ padded.startsWith

/-- Lines that all begin where the margins are the same. -/
theorem Line.indented_of_located {lines lines' : List Line}
    (padded : List.Forall₂ (Line.Padded margins source source') (Line.located source o lines)
      lines')
    (same : ∀ x, o ≤ x → x < o + extent (Line.size source) lines → margins x = margin) :
    List.Forall₂ (Line.Indented margin source source') lines lines' := by
  have whole : (Line.located source o lines).map Prod.snd = lines := map_withOffsets lines
  rw [← whole, List.forall₂_map_left_iff]
  have placed : ∀ entry ∈ Line.located source o lines,
      o ≤ entry.1 ∧ entry.1 + entry.2.size source <
        o + extent (Line.size source) lines := withOffsets_bounds
  refine ((List.forall₂_and_left _ _).mpr ⟨placed, padded⟩).imp fun entry line' both => ?_
  obtain ⟨⟨after, before⟩, padded⟩ := both
  refine padded.indented (same _ after (by omega)) fun k inside => same _ (by omega) (by omega)

/-- Entries that belong to one list after another divide where the lists do. -/
theorem forall₂_append_left {α β : Type} {R : α → β → Prop} {first second : List α}
    {entries : List β} (related : List.Forall₂ R (first ++ second) entries) :
    ∃ begun done, entries = begun ++ done ∧ List.Forall₂ R first begun ∧
      List.Forall₂ R second done :=
  ⟨_, _, (List.take_append_drop first.length entries).symm,
    (List.forall₂_take_append _ _ _ related.flip).flip,
    (List.forall₂_drop_append _ _ _ related.flip).flip⟩

theorem extent_lines {lines : List Line} (nonempty : lines ≠ []) :
    extent (Line.size source) lines =
      (['\n'].intercalate (lines.map (Line.sourceText source))).length + 1 := by
  induction lines with
  | nil => contradiction
  | cons line later ih =>
    rw [extent]
    by_cases alone : later = []
    · rw [alone, List.map_singleton, List.intercalate_singleton]
      rfl
    · rw [ih alone, List.map_cons, List.intercalate_cons_of_ne_nil (by simpa using alone)]
      simp only [Line.size, List.length_append, List.length_singleton]
      omega

namespace Template

/-- How many lines the document type takes up. -/
def doctypeLines (lines : List Line) : Nat :=
  if lines.head?.any (·.startsWith (.keyword .doctype)) then 1 else 0

theorem body_eq_drop (lines : List Line) : body lines = lines.drop (doctypeLines lines) := by
  rcases lines with _ | ⟨_ | ⟨t, rest⟩, later⟩
  · rfl
  · rfl
  · by_cases doctype : t.kind = .keyword .doctype <;>
      simp [body, doctypeLines, Line.startsWith, doctype]

theorem doctypeLines_indented {first first' later later' : List Line} {own own' : Line}
    (aligned : List.Forall₂ (Line.Indented [] source source') first first')
    (same : Line.Indented [] source source' own own') :
    doctypeLines (first' ++ own' :: later') = doctypeLines (first ++ own :: later) := by
  cases aligned with
  | nil =>
    have kept := same.startsWith rfl (.keyword .doctype)
    rw [doctypeLines, doctypeLines, List.nil_append, List.nil_append, List.head?_cons,
      List.head?_cons, Option.any_some, Option.any_some, kept]
  | cons head =>
    have kept := head.startsWith rfl (.keyword .doctype)
    rw [doctypeLines, doctypeLines, List.cons_append, List.cons_append, List.head?_cons,
      List.head?_cons, Option.any_some, Option.any_some, kept]

end Template

namespace LineTree

variable {lines lines' : List Line}

theorem lead_indented (indented : List.Forall₂ (Line.Indented margin source source') lines lines') :
    lead lines' = (lead lines).map (margin.length + ·) := by
  induction indented with
  | nil => rfl
  | @cons line line' lines lines' same _ ih =>
    rw [lead, lead] at ih ⊢
    by_cases blank : line.isBlank = true
    · simpa [blank, same.isBlank] using ih
    · simp [blank, same.isBlank, same.indent]

theorem map_sourceText_indented
    (indented : List.Forall₂ (Line.Indented margin source source') lines lines') :
    lines'.map (Line.sourceText source') =
      (lines.map (Line.sourceText source)).map (Text.indentLines · margin) := by
  induction indented with
  | nil => rfl
  | cons same _ ih => rw [List.map_cons, List.map_cons, List.map_cons, same.sourceText, ih]

theorem Encloses.indented {own own' : Line} {inner inner' after after' : List Line}
    (encloses : Encloses own inner after) (same : own'.indent = own.indent)
    (inside : List.Forall₂ (Line.Indented margin source source') inner inner')
    (beyond : List.Forall₂ (Line.Indented [] source source') after after') :
    Encloses own' inner' after' := by
  have length := inside.length_eq
  refine ⟨fun j bound => ?_, fun more => ?_⟩
  · obtain ⟨width, first, deeper⟩ := encloses.deeper j (length ▸ bound)
    rw [lead_indented (List.forall₂_drop j inside), Option.mem_def.mp first]
    exact ⟨margin.length + width, rfl, by omega⟩
  · have kept : after ≠ [] := by
      rintro rfl
      exact more (List.forall₂_nil_left_iff.mp beyond)
    have shallow := encloses.ends kept
    rw [lead_indented beyond, same]
    simpa using shallow

/-- The same text is nested when all its lines are moved to the right. -/
theorem blockText_indented {k : Nat} {nested nested' : List LineTree}
    (indented : List.Forall₂ (Line.Indented (List.replicate k ' ') source source')
      (forestLines nested) (forestLines nested')) :
    blockText source' nested' = blockText source nested := by
  have first := lead_indented indented
  rw [lead, lead, List.length_replicate] at first
  unfold blockText
  generalize forestLines nested = lines, forestLines nested' = lines' at indented first
  have within : '\n' ∉ List.replicate k ' ' := fun member =>
    absurd (List.eq_of_mem_replicate member) (by decide)
  -- how far the lines are dedented counts only where there is one that is not blank
  have pieces (width width' : Nat)
      (wider : (∃ line ∈ lines, line.isBlank = false) → width' = k + width) :
      lines'.flatMap (fun line => if line.isBlank then [[]]
          else ((line.sourceText source').splitOn '\n').map (Text.dedent width')) =
        lines.flatMap fun line => if line.isBlank then [[]]
          else ((line.sourceText source).splitOn '\n').map (Text.dedent width) := by
    clear first
    induction indented with
    | nil => rfl
    | @cons line line' lines lines' same _ ih =>
      have later := ih fun solid => wider (solid.imp fun _ both => ⟨.tail _ both.1, both.2⟩)
      rw [List.flatMap_cons, List.flatMap_cons, later, same.isBlank, same.sourceText,
        Text.splitOn_indentLines within, List.map_map]
      by_cases blank : line.isBlank = true
      · rw [if_pos blank, if_pos blank]
      · have own : width' = k + width := wider ⟨line, .head _, Bool.eq_false_iff.mpr blank⟩
        have dedent : Text.dedent width' ∘ (List.replicate k ' ' ++ ·) = Text.dedent width :=
          funext fun text => own ▸ Text.dedent_spaces k width text
        rw [dedent]
  dsimp only
  rw [pieces]
  rintro ⟨line, member, solid⟩
  rw [first]
  cases found : lines.find? (!·.isBlank) with
  | none => simpa [solid] using List.find?_eq_none.mp found line member
  | some line => rfl

variable {k m i : Nat} {tree : LineTree} {front after : List Line} {head body tail : Text}

/-- With margins in front of the lines of its body, the lines of the source are those of the moved
one. -/
theorem Framed.padded (framed : Framed source tree front head body tail)
    (blank : ∀ c ∈ margin, isInlineBlank c = true)
    (moved : source' = head ++ '\n' :: (body.indentLines margin ++ tail)) :
    List.Forall₂ (Line.Padded
        (Text.between (head.length + 1) (head.length + 1 + body.length) margin) source source')
      (Line.located source 0 (Template.linesOf source)) (Template.linesOf source') := by
  have blanks := Text.blankMargins_between blank (head.length + 1) (head.length + 1 + body.length)
  have whole := Text.pad_between margin head body tail
  rw [← framed.whole, ← moved] at whole
  have flush : Text.between (head.length + 1) (head.length + 1 + body.length) margin 0 = [] :=
    Text.between_outside (.inl (Nat.zero_lt_succ _))
  have ended : source.EndsLine → Text.between (head.length + 1) (head.length + 1 + body.length)
      margin (0 + source.length) = [] := by
    intro ends
    have more : tail ≠ [] := fun none => framed.open_ none (by
      rw [framed.whole, none, List.append_nil, List.append_cons] at ends
      exact ends.suffix)
    have positive := List.length_pos_iff.mpr more
    refine Text.between_outside (.inr ?_)
    rw [framed.whole, List.length_append, List.length_cons, List.length_append]
    omega
  have text : Text.between (head.length + 1) (head.length + 1 + body.length) margin 0 ++
      source.pad (Text.between (head.length + 1) (head.length + 1 + body.length) margin) 0 =
        source' := by
    rw [flush, List.nil_append, whole]
  have padded := padded_split blanks (show Position.start.Before source source from rfl)
    (show Position.start.Before source' _ from text.symm) ended
  rwa [show Position.start.index = 0 from rfl, text] at padded

/-- Moved to the right, the lines of a body stay the lines of a body, and all others are what they
were. -/
theorem Nests.indented (nests : Nests source tree front after)
    (framed : Framed source tree front head body tail)
    (blank : ∀ c ∈ margin, isInlineBlank c = true)
    (moved : source' = head ++ '\n' :: (body.indentLines margin ++ tail)) :
    ∃ front' own' inner' after', Template.linesOf source' = front' ++ own' :: (inner' ++ after') ∧
      List.Forall₂ (Line.Indented [] source source') front front' ∧
      Line.Indented [] source source' tree.line own' ∧
      List.Forall₂ (Line.Indented margin source source') tree.descendants inner' ∧
      List.Forall₂ (Line.Indented [] source source') after after' := by
  have padded := framed.padded blank moved
  rw [nests.lines, List.append_cons, Line.located, withOffsets_append (front ++ [tree.line]),
    withOffsets_append tree.descendants] at padded
  have above : extent (Line.size source) (front ++ [tree.line]) = head.length + 1 := by
    rw [extent_lines (by simp), ← framed.above]
  have room : extent (Line.size source) tree.descendants = body.length + 1 := by
    rw [extent_lines nests.nonempty, ← framed.lines]
  obtain ⟨begun, rest, lines, first, later⟩ := forall₂_append_left padded
  obtain ⟨inner', after', rfl, second, third⟩ := forall₂_append_left later
  have aligned : List.Forall₂ (Line.Indented [] source source') (front ++ [tree.line]) begun :=
    Line.indented_of_located first fun x _ before => Text.between_outside (.inl (by omega))
  have shifted : List.Forall₂ (Line.Indented margin source source') tree.descendants inner' :=
    Line.indented_of_located second fun x past before =>
      Text.between_inside (by omega) (by omega)
  have beyond : List.Forall₂ (Line.Indented [] source source') after after' :=
    Line.indented_of_located third fun x past before => Text.between_outside (.inr (by omega))
  obtain ⟨front', last, rfl, before, own⟩ := forall₂_append_left aligned
  obtain ⟨own', none, same, nothing, rfl⟩ := List.forall₂_cons_left_iff.mp own
  obtain rfl := List.forall₂_nil_left_iff.mp nothing
  refine ⟨front', own', inner', after', ?_, before, same, shifted, beyond⟩
  rw [lines, ← List.append_cons]

/-- A line with what is nested under it, wherever it stands among others. -/
theorem exists_tree (before : List Line) {own : Line} {inner after : List Line}
    (solid : own.isBlank = false) (encloses : Encloses own inner after) :
    ∃ tree, (within (ofLines (before ++ own :: (inner ++ after))))[before.length]? = some tree ∧
      tree.line = own ∧ tree.descendants = inner := by
  have nestedTo : NestedTo (before ++ own :: (inner ++ after)) before.length
      (before.length + 1 + inner.length) := (nestedTo_iff solid).mpr encloses
  obtain ⟨tree, place, same⟩ := getElem?_ofLines.1
    (show (before ++ own :: (inner ++ after))[before.length]? = some own by simp)
  obtain ⟨before', after', split, length, nestedTo'⟩ := exists_around place
  have size : inner.length = tree.descendants.length :=
    Nat.add_left_cancel (nestedTo.unique nestedTo')
  obtain ⟨rfl, rest⟩ := List.append_inj split length.symm
  obtain ⟨-, rest⟩ := List.cons.inj rest
  exact ⟨tree, place, same, (List.append_inj rest size).1.symm⟩

/-- The same tree is found when its body is moved to the right, and its text is what it was. -/
theorem Nests.shifted (nests : Nests source tree front after)
    (framed : Framed source tree front head body tail)
    (moved : source' = head ++ '\n' :: (body.indentLines (List.replicate k ' ') ++ tail))
    (number : front.length = m + i) :
    ∃ tree', (within (ofLines ((Template.linesOf source').drop m)))[i]? = some tree' ∧
      tree'.HasBody source' head (body.indentLines (List.replicate k ' ')) tail ∧
      tree'.line.sourceText source' = tree.line.sourceText source ∧
      blockText source' tree'.nested = blockText source tree.nested ∧
      Template.doctypeLines (Template.linesOf source') =
        Template.doctypeLines (Template.linesOf source) := by
  have blank : ∀ c ∈ List.replicate k ' ', isInlineBlank c = true :=
    fun c member => List.eq_of_mem_replicate member ▸ rfl
  obtain ⟨front', own', inner', after', lines, before, own, inside, beyond⟩ :=
    nests.indented framed blank moved
  have length := before.length_eq
  have solid : own'.isBlank = false := own.isBlank.trans nests.solid
  have encloses : Encloses own' inner' after' :=
    nests.encloses.indented (by simpa using own.indent) inside beyond
  obtain ⟨tree', place, rfl, rfl⟩ := exists_tree (front'.drop m) solid encloses
  have nonempty : tree'.descendants ≠ [] := by
    rw [← List.length_pos_iff, ← inside.length_eq]
    exact List.length_pos_iff.mpr nests.nonempty
  have nests' : Nests source' tree' front' after' := ⟨lines, solid, nonempty, encloses⟩
  obtain ⟨head', body', tail', framed'⟩ := nests'.exists_body
  obtain rfl : head' = head := by
    have texts := map_sourceText_indented (List.rel_append before (.cons own .nil))
    have same : (Text.indentLines · []) = (id : Text → Text) := funext Text.indentLines_nil
    rw [framed'.above, texts, same, List.map_id, framed.above]
  obtain rfl : body' = body.indentLines (List.replicate k ' ') := by
    rw [framed'.lines, map_sourceText_indented inside, framed.lines,
      Text.indentLines_intercalate _ (by simpa using nests.nonempty)]
  obtain rfl : tail' = tail := by
    have whole := framed'.whole.symm.trans moved
    exact List.append_cancel_left (List.cons.inj (List.append_cancel_left whole)).2
  refine ⟨tree', ?_, framed'.toHasBody, own.sourceText.trans (Text.indentLines_nil _),
    blockText_indented inside,
    by rw [lines, nests.lines, Template.doctypeLines_indented before own]⟩
  have same : front'.length - m = i := by omega
  rw [List.length_drop, same] at place
  rwa [lines, List.drop_append_of_le_length (by omega)]

end LineTree

namespace Template

variable {i : Nat} {tree : LineTree} {head text tail : Text}

/-- What is nested under the line with that number of the body, as text. -/
structure NestedText (source : Text) (i : Nat) (tree : LineTree) (head text tail : Text) :
    Prop where
  /-- The text is the source from behind the line to the end of the last nested one. -/
  covers : tree.HasBody source head text tail
  /-- It is dedented by the indent of the first line that is not blank. -/
  dedented : ∃ first, tree.descendants.find? (!·.isBlank) = some first ∧
    blockText source tree.nested =
      text.dedentLines (Line.blankOffsets source 0 tree.descendants) first.indent
  /-- With more spaces in front of all its lines it stays the same. -/
  moved : ∀ k, ∃ source' tree',
    source' = head ++ '\n' :: (text.indentLines (List.replicate k ' ') ++ tail) ∧
    (LineTree.within (LineTree.ofLines (body (linesOf source'))))[i]? = some tree' ∧
    tree'.HasBody source' head (text.indentLines (List.replicate k ' ')) tail ∧
    tree'.line.sourceText source' = tree.line.sourceText source ∧
    blockText source' tree'.nested = blockText source tree.nested

/-- The lines that are nested under a line are, as text, the source there without the indent of the
first of them, so it does not matter how far the text as a whole is indented. -/
theorem nestedText_of_body
    (place : (LineTree.within (LineTree.ofLines (body (linesOf source))))[i]? = some tree)
    (nested : tree.nested ≠ []) : ∃ head text tail, NestedText source i tree head text tail := by
  rw [body_eq_drop] at place
  obtain ⟨front, after, nests, number⟩ := LineTree.exists_nests place nested
  obtain ⟨head, text, tail, framed⟩ := nests.exists_body
  obtain ⟨first, found⟩ := nests.encloses.exists_first nests.nonempty
  have dedented := nests.blockText_eq framed.toHasBody found
  refine ⟨head, text, tail, framed.toHasBody, ⟨first, found, dedented⟩, fun k => ?_⟩
  obtain ⟨tree', place', covers', own, same, doctype⟩ := nests.shifted framed rfl number
  rw [← doctype, ← body_eq_drop] at place'
  exact ⟨_, tree', rfl, place', covers', own, same⟩

/-- A body with a string over two lines and a blank line. -/
theorem nestedText_of_body_string : ∃ tree,
    (LineTree.within (LineTree.ofLines
      (body (linesOf "p.\n  'a\n    b'\n\n   c \nq".toList))))[0]? = some tree ∧
    tree.nested ≠ [] ∧
    blockText "p.\n  'a\n    b'\n\n   c \nq".toList tree.nested = "'a\n  b'\n\n c".toList ∧
    ∃ head text tail,
      NestedText "p.\n  'a\n    b'\n\n   c \nq".toList 0 tree head text tail := by
  have found : ((LineTree.within (LineTree.ofLines
      (body (linesOf "p.\n  'a\n    b'\n\n   c \nq".toList))))[0]?.any fun tree =>
        !tree.nested.isEmpty && blockText "p.\n  'a\n    b'\n\n   c \nq".toList tree.nested =
          "'a\n  b'\n\n c".toList) = true := by
    cbv
  obtain ⟨tree, place, checked⟩ := (Option.any_eq_true _ _).mp found
  rw [Bool.and_eq_true, decide_eq_true_eq] at checked
  have nested : tree.nested ≠ [] := by simpa using checked.1
  exact ⟨tree, place, nested, checked.2, nestedText_of_body place nested⟩

end Template

end IndentMarkup
