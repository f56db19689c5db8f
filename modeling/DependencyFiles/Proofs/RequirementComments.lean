import DependencyFiles.Pip.Requirements
import DependencyFiles.Proofs.LineEnds
import Mathlib.Data.List.ReduceOption
import Mathlib.Data.List.TakeWhile

/-!
# Comments in requirement files

A requirement file is read requirement by requirement: the text of a line without its comment
and without the blanks around it. A comment on a line of its own is no requirement, and one
that stands behind a space leaves the requirement as it was. A comment behind another blank is
not told from the requirement.
-/

namespace DependencyFiles.Pip

open Text

/-! ## Requirements -/

/-- The requirement on a line, if there is one. -/
def requirement? (line : List Char) : Option (List Char) :=
  let text := trim (withoutComment line)
  if text.isEmpty then none else some text

/-- Lines have the references of their requirements. -/
theorem lineReferences_eq (origin : String) (rows : List (List Char)) :
    lineReferences origin rows =
      ((rows.filterMap requirement?).mapM (lineReference? · origin)).map List.reduceOption := by
  induction rows with
  | nil => rfl
  | cons row more ih =>
    rw [lineReferences, ih]
    by_cases hempty : (trim (withoutComment row)).isEmpty
    · have hnone : requirement? row = none := if_pos hempty
      rw [List.filterMap_cons_none hnone]
      simp only [hempty, if_true]
      cases (more.filterMap requirement?).mapM (lineReference? · origin) <;> rfl
    · have hsome : requirement? row = some (trim (withoutComment row)) := if_neg hempty
      rw [List.filterMap_cons_some hsome, List.mapM_cons]
      simp only [hempty]
      cases lineReference? (trim (withoutComment row)) origin with
      | error failure => rfl
      | ok found =>
        cases (more.filterMap requirement?).mapM (lineReference? · origin) with
        | error failure => rfl
        | ok others => cases found <;> rfl

/-! ## Blanks and comments behind a requirement -/

/-- A line without its comment has blanks behind it when the line has. -/
theorem padded_withoutComment {line padded : List Char} (h : Padded line padded) :
    Padded (withoutComment line) (withoutComment padded) := by
  have hhead : (trimStart padded).head? = some '#' ↔ (trimStart line).head? = some '#' :=
    h.trimStart.head?_eq_some_iff rfl
  rw [withoutComment, withoutComment]
  simp only [hhead]
  split
  · exact .refl []
  · exact h.before rfl

theorem ignoresBlanks_requirement? : IgnoresBlanks requirement? where
  nil := rfl
  padded h := by simp only [requirement?, (padded_withoutComment h).trim_eq]

/-- A comment on a line of its own is no requirement. -/
theorem requirement?_comment_line {blanks : List Char} (h : allBlank blanks = true)
    (comment : List Char) : requirement? (blanks ++ '#' :: comment) = none := by
  have hstart : trimStart (blanks ++ '#' :: comment) = '#' :: comment :=
    (trimStart_append h _).trans (trimStart_cons rfl comment)
  rw [requirement?, withoutComment, hstart]
  rfl

/-- No comment starts before a character that is not its sign. -/
theorem isPrefixOf_cons_eq_false {rest : List Char} (h : rest.head? ≠ some '#') (c : Char) :
    [' ', '#'].isPrefixOf (c :: rest) = false := by
  cases rest with
  | nil => simp [List.isPrefixOf]
  | cons d rest =>
    have hd : '#' ≠ d := fun hd => h (hd ▸ rfl)
    simp [List.isPrefixOf, hd]

/-- No comment starts with another character than a blank. -/
theorem isPrefixOf_cons_of_not_isBlank {c : Char} (hc : isBlank c = false) (rest : List Char) :
    [' ', '#'].isPrefixOf (c :: rest) = false := by
  have hne : ' ' ≠ c := fun h => Bool.false_ne_true (hc.symm.trans (h ▸ rfl))
  simp [List.isPrefixOf, hne]

/-- No comment starts in a text without the sign of comments, nor between it and what follows
when that starts with another character. -/
theorem before_append {text rest : List Char} (h : '#' ∉ text) (hrest : rest.head? ≠ some '#') :
    before [' ', '#'] (text ++ rest) = text ++ before [' ', '#'] rest := by
  induction text with
  | nil => rfl
  | cons c text ih =>
    simp only [List.mem_cons, not_or] at h
    have hhead : (text ++ rest).head? ≠ some '#' := by
      cases text with
      | nil => exact hrest
      | cons d text => exact fun hhead => h.2 (List.mem_of_mem_head? hhead)
    rw [List.cons_append, before, isPrefixOf_cons_eq_false hhead, ih h.2]
    rfl

/-- What stands behind a line that is not blank does not matter for its start. -/
theorem head?_trimStart_append {line : List Char} (h : ¬ allBlank line = true) (rest : List Char) :
    (trimStart (line ++ rest)).head? = (trimStart line).head? := by
  have hne : line.dropWhile isBlank ≠ [] := fun hnil =>
    h (List.all_eq_true.2 (List.dropWhile_eq_nil_iff.1 hnil))
  rw [trimStart, List.dropWhile_append, if_neg (by simpa using hne)]
  exact List.head?_append_of_ne_nil _ hne

/-! ## Comments in a file -/

/-- A comment may follow a line without the sign of comments behind blanks the last of which
is a space, and behind any blanks when the line is blank. -/
def MayFollow (line gap : List Char) : Prop :=
  '#' ∉ line ∧ allBlank gap = true ∧ (gap.getLast? = some ' ' ∨ allBlank line = true)

/-- A comment behind a line does not change the requirement. -/
theorem requirement?_comment {line gap : List Char} (h : MayFollow line gap) (comment : List Char) :
    requirement? (line ++ (gap ++ '#' :: comment)) = requirement? line := by
  obtain ⟨hline, hgap, hlast⟩ := h
  by_cases hblank : allBlank line
  · have hblanks : allBlank (line ++ gap) = true := by rw [allBlank_append, hblank, hgap]; rfl
    rw [ignoresBlanks_requirement?.eq_none hblank, ← List.append_assoc]
    exact requirement?_comment_line hblanks comment
  · obtain ⟨start, rfl⟩ := List.getLast?_eq_some_iff.1 (hlast.resolve_right hblank)
    have hstart : allBlank start = true := by
      rw [allBlank_append, Bool.and_eq_true] at hgap
      exact hgap.1
    have hhead : ¬ (trimStart line).head? = some '#' := fun hhead =>
      hline ((List.dropWhile_suffix isBlank).subset (List.mem_of_mem_head? hhead))
    have hsign : '#' ∉ line ++ start := by
      simp only [List.mem_append, not_or]
      exact ⟨hline, not_mem_of_allBlank hstart rfl⟩
    have hcode : withoutComment line = line := by
      have hcut : before [' ', '#'] (line ++ []) = line ++ [] := before_append hline (by simp)
      rw [withoutComment, if_neg hhead]
      simpa using hcut
    have hcommented : withoutComment (line ++ (start ++ [' '] ++ '#' :: comment)) = line ++ start := by
      have hcut : before [' ', '#'] (line ++ start ++ ' ' :: '#' :: comment) = line ++ start ++ [] :=
        before_append hsign (by simp)
      rw [withoutComment, head?_trimStart_append hblank, if_neg hhead]
      simpa using hcut
    simp only [requirement?, hcode, hcommented, (Padded.append hstart line).trim_eq]

/-- **Comments behind a space are inert.** A requirement file has the same references in the
same order, or fails in the same way, with a comment more: behind a space that follows a line
without the sign of comments, or on a line of its own. -/
theorem requirementReferences_commented {rows commented : List Line}
    (h : Commented MayFollow rows commented) (origin : String) :
    requirementReferences (String.ofList (linesText commented)) origin =
      requirementReferences (String.ofList (linesText rows)) origin := by
  rw [requirementReferences, requirementReferences, String.toList_ofList, String.toList_ofList,
    lineReferences_eq, lineReferences_eq,
    h.filterMap_lines ignoresBlanks_requirement? requirement?_comment requirement?_comment_line]

/-- A line that includes another file. -/
def includeLine : Line := ⟨"-r base.txt".toList, by decide, .feed⟩

/-- The same line with a comment behind a tab and a space. -/
def spacedLine : Line := ⟨"-r base.txt\t # -e ./hidden".toList, by decide, .feed⟩

/-- The same line with a comment behind a tab. -/
def tabbedLine : Line := ⟨"-r base.txt\t# shared".toList, by decide, .feed⟩

theorem requirementReferences_spacedLine :
    Commented MayFollow [includeLine] [spacedLine] ∧
      requirementReferences (String.ofList (linesText [spacedLine])) "requirements.txt" =
        requirementReferences (String.ofList (linesText [includeLine])) "requirements.txt" := by
  have hgap : MayFollow includeLine.text ['\t', ' '] := ⟨by decide, rfl, .inl rfl⟩
  have htext : spacedLine.text = includeLine.text ++ (['\t', ' '] ++ '#' :: " -e ./hidden".toList) := by
    decide
  have hcommented : Commented MayFollow [includeLine] [spacedLine] := .behind [] [] hgap htext
  exact ⟨hcommented, requirementReferences_commented hcommented "requirements.txt"⟩

/-- A comment behind a tab becomes a part of the name of the file. -/
theorem requirementReferences_tabbedLine :
    '#' ∉ includeLine.text ∧ tabbedLine.text = includeLine.text ++ ['\t'] ++ '#' :: " shared".toList ∧
      requirementReferences (String.ofList (linesText [includeLine])) "requirements.txt" =
        .ok [⟨.childManifest, "base.txt", "requirements.txt"⟩] ∧
      requirementReferences (String.ofList (linesText [tabbedLine])) "requirements.txt" =
        .ok [⟨.childManifest, "base.txt\t# shared", "requirements.txt"⟩] := by
  decide +kernel

end DependencyFiles.Pip
