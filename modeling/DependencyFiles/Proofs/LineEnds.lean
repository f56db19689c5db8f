import DependencyFiles.Proofs.Cutting

/-!
# Line ends and comments

What is read of a line alone mostly does not depend on the blanks behind it. Then it does not
depend on the line ends either: a carriage return before a line feed is a blank, wherever the
reader takes it to belong. Comments that are written into a file change nothing of what is
read when a line with a comment behind it is read like the line without it.
-/

namespace DependencyFiles.Text

/-! ## Blanks behind a text -/

/-- The second text is the first one with blanks behind it. -/
def Padded (text padded : List Char) : Prop :=
  ∃ blanks, allBlank blanks = true ∧ padded = text ++ blanks

theorem allBlank_append (text rest : List Char) :
    allBlank (text ++ rest) = (allBlank text && allBlank rest) := List.all_append

/-- Blanks are the only characters among blanks. -/
theorem not_mem_of_allBlank {blanks : List Char} (h : allBlank blanks = true) {c : Char}
    (hc : isBlank c = false) : c ∉ blanks := fun hmem =>
  Bool.false_ne_true (hc.symm.trans (List.all_eq_true.1 h c hmem))

/-- Blanks in front of a text do not count when both its ends are trimmed. -/
theorem trim_append {blanks : List Char} (h : allBlank blanks = true) (text : List Char) :
    trim (blanks ++ text) = trim text := congrArg trimEnd (trimStart_append h text)

/-- Nothing stays of a text that is dropped as a whole. -/
theorem dropEndWhile_eq_nil {p : Char → Bool} {text : List Char} (h : text.all p = true) :
    dropEndWhile p text = [] := by
  induction text with
  | nil => rfl
  | cons c text ih =>
    rw [List.all_cons, Bool.and_eq_true] at h
    simp [dropEndWhile, ih h.2, h.1]

/-- What is dropped as a whole does not matter behind a text. -/
theorem dropEndWhile_append {p : Char → Bool} {rest : List Char} (h : rest.all p = true)
    (text : List Char) : dropEndWhile p (text ++ rest) = dropEndWhile p text := by
  induction text with
  | nil => exact dropEndWhile_eq_nil h
  | cons c text ih => rw [List.cons_append, dropEndWhile, ih, dropEndWhile]

/-- What stands before a marker starts the text. -/
theorem isPrefix_before (marker text : List Char) : before marker text <+: text := by
  induction text with
  | nil => exact List.prefix_rfl
  | cons c text ih =>
    rw [before]
    split
    · exact List.nil_prefix
    · exact List.cons_prefix_cons.2 ⟨rfl, ih⟩

/-- A text ends with what is dropped of it at its end. -/
theorem exists_dropEndWhile_append (p : Char → Bool) (text : List Char) :
    ∃ rest, rest.all p = true ∧ text = dropEndWhile p text ++ rest := by
  induction text with
  | nil => exact ⟨[], rfl, rfl⟩
  | cons c text ih =>
    obtain ⟨rest, hrest, htext⟩ := ih
    rw [dropEndWhile]
    split
    · rename_i hnil
      rw [hnil, List.nil_append] at htext
      split
      · rename_i hc
        exact ⟨c :: text, by rw [htext, List.all_cons, hc]; exact hrest, rfl⟩
      · exact ⟨rest, hrest, by rw [htext]; rfl⟩
    · exact ⟨rest, hrest, by rw [List.cons_append, ← htext]⟩

/-- A text ends with the blanks that are trimmed away. -/
theorem padded_trimEnd (text : List Char) : Padded (trimEnd text) text :=
  exists_dropEndWhile_append isBlank text

/-- A text without blanks at its ends starts with no blank. -/
theorem exists_cons_of_trim_eq {text : List Char} (h : trim text = text) (hfilled : text ≠ []) :
    ∃ c rest, text = c :: rest ∧ isBlank c = false := by
  obtain ⟨c, rest, rfl⟩ := List.exists_cons_of_ne_nil hfilled
  obtain ⟨blanks, -, hstart⟩ := padded_trimEnd (trimStart (c :: rest))
  have hfirst := List.head?_dropWhile_not isBlank (c :: rest)
  have htrim : trimEnd (trimStart (c :: rest)) = c :: rest := h
  rw [htrim] at hstart
  rw [← trimStart, hstart] at hfirst
  exact ⟨c, rest, rfl, hfirst⟩

namespace Padded

variable {text padded : List Char}

theorem refl (text : List Char) : Padded text text := ⟨[], rfl, (List.append_nil text).symm⟩

theorem append {blanks : List Char} (h : allBlank blanks = true) (text : List Char) :
    Padded text (text ++ blanks) := ⟨blanks, h, rfl⟩

theorem cons (h : Padded text padded) (c : Char) : Padded (c :: text) (c :: padded) := by
  obtain ⟨blanks, hblanks, rfl⟩ := h
  exact append hblanks (c :: text)

theorem allBlank_eq (h : Padded text padded) : allBlank padded = allBlank text := by
  obtain ⟨blanks, hblanks, rfl⟩ := h
  rw [allBlank_append, hblanks, Bool.and_true]

theorem trimEnd_eq (h : Padded text padded) : trimEnd padded = trimEnd text := by
  obtain ⟨blanks, hblanks, rfl⟩ := h
  exact dropEndWhile_append hblanks text

/-- Dropping from the start leaves blanks behind what it leaves of the text. -/
theorem dropWhile (h : Padded text padded) (p : Char → Bool) :
    Padded (text.dropWhile p) (padded.dropWhile p) := by
  obtain ⟨blanks, hblanks, rfl⟩ := h
  rw [List.dropWhile_append]
  split
  · rename_i hempty
    rw [List.isEmpty_iff.1 hempty]
    refine ⟨_, List.all_eq_true.2 fun c hc => ?_, rfl⟩
    exact List.all_eq_true.1 hblanks c ((List.dropWhile_suffix p).subset hc)
  · exact append hblanks _

/-- Taking characters of a class without blanks stops before the blanks. -/
theorem takeWhile_eq (h : Padded text padded) {p : Char → Bool}
    (hp : ∀ c, isBlank c = true → p c = false) : padded.takeWhile p = text.takeWhile p := by
  obtain ⟨blanks, hblanks, rfl⟩ := h
  have hnone : blanks.takeWhile p = [] := by
    cases blanks with
    | nil => rfl
    | cons c rest =>
      rw [List.takeWhile_cons_of_neg]
      simp [hp c (List.all_eq_true.1 hblanks c List.mem_cons_self)]
  rw [List.takeWhile_append]
  split
  · rename_i hall
    rw [hnone, List.append_nil, (List.takeWhile_prefix p).eq_of_length hall]
  · rfl

theorem trim_eq (h : Padded text padded) : trim padded = trim text :=
  (h.dropWhile isBlank).trimEnd_eq

theorem trimStart (h : Padded text padded) : Padded (trimStart text) (trimStart padded) :=
  h.dropWhile isBlank

/-- Both texts start with the same character, or else there are blanks alone. -/
theorem eq_nil_or_cons (h : Padded text padded) :
    text = [] ∧ allBlank padded = true ∨
      ∃ c rest more, text = c :: rest ∧ padded = c :: more ∧ Padded rest more := by
  obtain ⟨blanks, hblanks, rfl⟩ := h
  cases text with
  | nil => exact .inl ⟨rfl, hblanks⟩
  | cons c rest => exact .inr ⟨c, rest, rest ++ blanks, rfl, rfl, append hblanks rest⟩

/-- A character that the padded text starts with, and that is no blank, is one of the text. -/
theorem exists_cons_of_cons {c : Char} {more : List Char} (h : Padded text (c :: more))
    (hc : isBlank c = false) : ∃ rest, text = c :: rest ∧ Padded rest more := by
  obtain ⟨-, hblank⟩ | ⟨d, rest, tail, rfl, heq, htail⟩ := h.eq_nil_or_cons
  · exact absurd List.mem_cons_self (not_mem_of_allBlank hblank hc)
  · obtain ⟨rfl, rfl⟩ := List.cons.inj heq
    exact ⟨rest, rfl, htail⟩

theorem exists_padded_cons {c : Char} {rest : List Char} (h : Padded (c :: rest) padded) :
    ∃ more, padded = c :: more ∧ Padded rest more := by
  obtain ⟨blanks, hblanks, rfl⟩ := h
  exact ⟨rest ++ blanks, rfl, append hblanks rest⟩

/-- A character that is no blank is the first one of both texts or of none. -/
theorem head?_eq_some_iff (h : Padded text padded) {c : Char} (hc : isBlank c = false) :
    padded.head? = some c ↔ text.head? = some c := by
  obtain ⟨rfl, hblank⟩ | ⟨d, rest, more, rfl, rfl, -⟩ := h.eq_nil_or_cons
  · refine iff_of_false (fun hhead => ?_) (by simp)
    exact not_mem_of_allBlank hblank hc (List.mem_of_mem_head? hhead)
  · exact Iff.rfl

/-- A marker that ends with no blank does not reach into the blanks behind the text. -/
theorem isPrefixOf_eq (h : Padded text padded) {marker : List Char}
    (hmarker : marker.getLast?.any isBlank = false) :
    marker.isPrefixOf padded = marker.isPrefixOf text := by
  obtain ⟨blanks, hblanks, rfl⟩ := h
  refine Bool.eq_iff_iff.2 ⟨fun hpre => ?_, fun hpre => ?_⟩
  · rw [List.isPrefixOf_iff_prefix] at hpre ⊢
    obtain hshort | ⟨more, rfl⟩ := List.prefix_or_prefix_of_prefix hpre (List.prefix_append text blanks)
    · exact hshort
    · obtain rfl | ⟨start, c, rfl⟩ := more.eq_nil_or_concat
      · rw [List.append_nil]
      · have hmem : c ∈ blanks :=
          ((List.prefix_append_right_inj text).1 hpre).subset (by simp)
        have hc : isBlank c = false := by simpa using hmarker
        exact absurd hmem (not_mem_of_allBlank hblanks hc)
  · rw [List.isPrefixOf_iff_prefix] at hpre ⊢
    exact hpre.trans (List.prefix_append text blanks)

/-- What stands before a marker that ends with no blank has blanks behind it when the text has. -/
theorem before (h : Padded text padded) {marker : List Char}
    (hmarker : marker.getLast?.any isBlank = false) :
    Padded (before marker text) (before marker padded) := by
  obtain ⟨blanks, hblanks, rfl⟩ := h
  induction text with
  | nil =>
    refine ⟨Text.before marker blanks, List.all_eq_true.2 fun c hc => ?_, rfl⟩
    exact List.all_eq_true.1 hblanks c ((isPrefix_before marker blanks).subset hc)
  | cons c text ih =>
    have hprefix : marker.isPrefixOf (c :: (text ++ blanks)) = marker.isPrefixOf (c :: text) :=
      (append hblanks (c :: text)).isPrefixOf_eq hmarker
    rw [List.cons_append, Text.before, Text.before, hprefix]
    split
    · exact refl []
    · exact ih.cons c

end Padded

/-! ## Lines as they are written -/

/-- What stands between two lines: a line feed, perhaps with a carriage return before it. -/
inductive LineEnd where
  | feed
  | returnFeed
  deriving DecidableEq, Repr

/-- The text of a line end. -/
def LineEnd.text : LineEnd → List Char
  | .feed => ['\n']
  | .returnFeed => ['\r', '\n']

/-- A line of a file, with the line end that follows it when another line does. -/
structure Line where
  text : List Char
  inLine : '\n' ∉ text
  lineEnd : LineEnd := .feed

/-- The text of a file with the given lines. Line ends stand between lines, so that a file
whose text ends with one has an empty line last. -/
def linesText : List Line → List Char
  | [] => []
  | [line] => line.text
  | line :: next :: more => line.text ++ (line.lineEnd.text ++ linesText (next :: more))

/-- A line ends at a carriage return and a line feed, and keeps other carriage returns. -/
theorem lines_append_returnFeed {line : List Char} (hfeed : '\n' ∉ line) (rest : List Char) :
    lines (line ++ '\r' :: '\n' :: rest) = line :: lines rest := by
  induction line with
  | nil => rw [List.nil_append, lines]
  | cons c line ih =>
    simp only [List.mem_cons, not_or] at hfeed
    rw [List.cons_append, lines_cons (Ne.symm hfeed.1), ih hfeed.2]
    rintro ⟨-, hhead⟩
    cases line with
    | nil => simp at hhead
    | cons d tail =>
      simp only [List.cons_append, List.head?_cons, Option.some.injEq] at hhead
      exact hfeed.2 (hhead ▸ List.mem_cons_self)

/-- A line is read as it is written, but for a carriage return that is taken for a part of
the line end. -/
theorem Line.exists_read (line : Line) (rest : List Char) :
    ∃ read, Padded read line.text ∧
      lines (line.text ++ (line.lineEnd.text ++ rest)) = read :: lines rest := by
  obtain ⟨text, hfeed, lineEnd⟩ := line
  cases lineEnd with
  | returnFeed => exact ⟨text, .refl text, lines_append_returnFeed hfeed rest⟩
  | feed =>
    -- A carriage return that ends the text is taken along by the line feed behind it.
    by_cases hreturn : text.getLast? = some '\r'
    · obtain ⟨start, rfl⟩ := List.getLast?_eq_some_iff.1 hreturn
      have hstart : '\n' ∉ start := fun h => hfeed (List.mem_append_left _ h)
      refine ⟨start, .append (by decide) start, ?_⟩
      rw [List.append_assoc]
      exact lines_append_returnFeed hstart rest
    · exact ⟨text, .refl text, lines_append_feed hfeed hreturn rest⟩

/-! ## Reading line by line -/

/-- What is read of a line does not depend on the blanks behind it, and nothing is read of an
empty line. -/
structure IgnoresBlanks {α : Type} (read? : List Char → Option α) : Prop where
  nil : read? [] = none
  padded {text padded : List Char} (h : Padded text padded) : read? padded = read? text

section
variable {α : Type} {read? : List Char → Option α} (hread : IgnoresBlanks read?)

include hread

theorem IgnoresBlanks.eq_none {line : List Char} (h : allBlank line = true) : read? line = none :=
  (hread.padded ⟨line, h, rfl⟩).trans hread.nil

/-- What is read of the lines of a file is read of them as they are written. -/
theorem IgnoresBlanks.filterMap_lines (rows : List Line) :
    (lines (linesText rows)).filterMap read? = (rows.map Line.text).filterMap read? := by
  induction rows with
  | nil => rfl
  | cons row more ih =>
    cases more with
    | nil =>
      by_cases hempty : row.text = []
      · simp [linesText, hempty, lines, hread.nil]
      · rw [linesText, lines_eq_singleton row.inLine hempty]
        rfl
    | cons next others =>
      obtain ⟨read, hpadded, hlines⟩ := row.exists_read (linesText (next :: others))
      rw [linesText, hlines, List.map_cons, List.filterMap_cons, List.filterMap_cons, ih,
        hread.padded hpadded]

end

/-- A property that no empty line has, and that does not depend on the blanks behind a line, is
one of a line as it is read when it is one of a line as it is written. -/
theorem any_lines {p : List Char → Bool} (hnil : p [] = false)
    (hpadded : ∀ {text padded : List Char}, Padded text padded → p padded = p text)
    (rows : List Line) : (lines (linesText rows)).any p = (rows.map Line.text).any p := by
  have hread : IgnoresBlanks fun line => if p line then some () else none :=
    ⟨by simp [hnil], fun h => by rw [hpadded h]⟩
  have hany (texts : List (List Char)) :
      texts.any p = (texts.filterMap fun line => if p line then some () else none).any fun _ => true := by
    rw [List.any_filterMap]
    congr 1
    funext line
    cases p line <;> rfl
  rw [hany, hread.filterMap_lines, ← hany]

/-! ## Comments -/

/-- The second list of lines is the first one with one comment more: behind a line that a
comment with the gap before it may follow, or on a line of its own. -/
inductive Commented (mayFollow : (line gap : List Char) → Prop) : List Line → List Line → Prop where
  | behind (before after : List Line) {line commented : Line} {gap comment : List Char}
      (hgap : mayFollow line.text gap)
      (htext : commented.text = line.text ++ (gap ++ '#' :: comment)) :
      Commented mayFollow (before ++ line :: after) (before ++ commented :: after)
  | between (before after : List Line) {line : Line} {blanks comment : List Char}
      (hblank : allBlank blanks = true) (htext : line.text = blanks ++ '#' :: comment) :
      Commented mayFollow (before ++ after) (before ++ line :: after)

/-- Nothing that is read of a file changes with a comment when nothing that is read of a line does. -/
theorem Commented.filterMap_lines {mayFollow : (line gap : List Char) → Prop} {rows commented : List Line}
    (h : Commented mayFollow rows commented) {α : Type} {read? : List Char → Option α}
    (hread : IgnoresBlanks read?)
    (hbehind : ∀ {line gap : List Char}, mayFollow line gap → ∀ comment,
      read? (line ++ (gap ++ '#' :: comment)) = read? line)
    (hbetween : ∀ {blanks : List Char}, allBlank blanks = true → ∀ comment,
      read? (blanks ++ '#' :: comment) = none) :
    (lines (linesText commented)).filterMap read? = (lines (linesText rows)).filterMap read? := by
  rw [hread.filterMap_lines, hread.filterMap_lines]
  cases h with
  | behind before after hgap htext =>
    simp only [List.map_append, List.map_cons, List.filterMap_append, List.filterMap_cons, htext,
      hbehind hgap]
  | between before after hblank htext =>
    simp only [List.map_append, List.map_cons, List.filterMap_append, List.filterMap_cons, htext,
      hbetween hblank]

end DependencyFiles.Text
