import DependencyFiles.Text.Blank
import Mathlib.Data.List.Infix
import Mathlib.Data.List.TakeDrop

/-!
# Texts cut where they were put together

A text that is written piece by piece is cut at the same places again: blanks around a text
without blanks at its ends are trimmed away, a word ends before the first character that is
none of its own, and lines end where line feeds were put.
-/

namespace DependencyFiles.Text

/-! ## Ends of texts -/

/-- Nothing is dropped in front of a character that stays. -/
theorem dropEndWhile_append_cons {p : Char → Bool} {c : Char} (hc : p c = false)
    (text rest : List Char) :
    dropEndWhile p (text ++ c :: rest) = text ++ c :: dropEndWhile p rest := by
  induction text with
  | nil =>
    simp only [List.nil_append, dropEndWhile, hc]
    cases dropEndWhile p rest <;> rfl
  | cons d text ih =>
    simp only [List.cons_append, dropEndWhile, ih]
    cases text <;> rfl

/-- A text without characters of a class is what stays between two of them. -/
theorem dropAroundWhile_between {p : Char → Bool} {first last : Char} (hfirst : p first = true)
    (hlast : p last = true) {text : List Char} (h : ∀ c ∈ text, p c = false) :
    dropAroundWhile p (first :: text ++ [last]) = text := by
  have hend : dropEndWhile p [last] = [] := by simp [dropEndWhile, hlast]
  rw [dropAroundWhile, List.cons_append, List.dropWhile_cons_of_pos hfirst]
  obtain rfl | ⟨start, c, htext⟩ := text.eq_nil_or_concat
  · simp [hlast, dropEndWhile]
  · obtain ⟨d, more, hd⟩ := List.exists_cons_of_ne_nil (by simp [htext] : text ≠ [])
    have hc : p c = false := h c (by simp [htext])
    have hstart : (text ++ [last]).dropWhile p = text ++ [last] := by
      rw [hd]
      exact List.dropWhile_cons_of_neg (by simp [h d (by simp [hd])])
    rw [hstart, htext, List.concat_eq_append, List.append_assoc, List.singleton_append,
      dropEndWhile_append_cons hc, hend]

/-! ## Trimming -/

/-- Blanks in front of a text do not count when it is trimmed. -/
theorem trimStart_append {blanks : List Char} (h : allBlank blanks = true) (text : List Char) :
    trimStart (blanks ++ text) = trimStart text :=
  List.dropWhile_append_of_pos (List.all_eq_true.1 h)

/-- A text that starts with another character than a blank is not trimmed at its start. -/
theorem trimStart_cons {c : Char} (hc : isBlank c = false) (rest : List Char) :
    trimStart (c :: rest) = c :: rest := by
  simp [trimStart, hc]

/-- A text between two characters that are no blanks is trimmed behind the second one. -/
theorem trim_cons_append_cons {c d : Char} (hc : isBlank c = false) (hd : isBlank d = false)
    (text rest : List Char) :
    trim (c :: text ++ d :: rest) = c :: text ++ d :: trimEnd rest := by
  have hstart : (c :: (text ++ d :: rest)).dropWhile isBlank = c :: text ++ d :: rest :=
    trimStart_cons hc _
  rw [trim, dropAroundWhile, List.cons_append, hstart, dropEndWhile_append_cons hd]
  rfl

/-- A blank in front of a text is trimmed away. -/
theorem trim_blank_cons {c : Char} (hc : isBlank c = true) (text : List Char) :
    trim (c :: text) = trim text := by
  simp [trim, dropAroundWhile, hc]

/-- The first character that is no blank stays the first one. -/
theorem trim_cons {c : Char} (hc : isBlank c = false) (rest : List Char) :
    trim (c :: rest) = c :: trimEnd rest := by
  rw [trim, dropAroundWhile, ← trimStart, trimStart_cons hc]
  exact dropEndWhile_append_cons hc [] rest

/-! ## Words -/

/-- Dropping from the start does not go beyond a character that stays. -/
theorem dropWhile_append_cons {p : Char → Bool} {c : Char} (hc : p c = false)
    (text rest : List Char) :
    (text ++ c :: rest).dropWhile p = text.dropWhile p ++ c :: rest := by
  rw [List.dropWhile_append, List.dropWhile_cons_of_neg (by simp [hc])]
  split
  · rename_i hempty
    rw [List.isEmpty_iff.1 hempty, List.nil_append]
  · rfl

/-- A text of characters of a class ends before the first character outside of it. -/
theorem span_append_cons {p : Char → Bool} {word : List Char} (hword : ∀ c ∈ word, p c = true)
    {c : Char} (hc : p c = false) (rest : List Char) :
    (word ++ c :: rest).span p = (word, c :: rest) := by
  rw [List.span_eq_takeWhile_dropWhile, List.takeWhile_append_of_pos hword,
    List.dropWhile_append_of_pos hword]
  simp [hc]

/-- Behind a marker stands what was put there. -/
@[simp] theorem after?_append (marker text : List Char) : after? marker (marker ++ text) = some text :=
  List.isPrefixOf?_eq_some_iff_append_eq.2 rfl

/-! ## Lines -/

/-- A character that is neither a line feed nor may belong to a line end goes to the first line. -/
theorem lines_cons {c : Char} (hfeed : c ≠ '\n') (rest : List Char)
    (hreturn : ¬ (c = '\r' ∧ rest.head? = some '\n')) :
    lines (c :: rest) = match lines rest with
      | [] => [[c]]
      | line :: more => (c :: line) :: more := by
  have hpair (tail : List Char) (hc : c = '\r') (hrest : rest = '\n' :: tail) : False :=
    hreturn ⟨hc, by rw [hrest]; rfl⟩
  exact lines.eq_4 c rest hfeed hpair

/-- A line ends at its line feed, unless a carriage return stands before that. -/
theorem lines_append_feed {line : List Char} (hfeed : '\n' ∉ line)
    (hreturn : line.getLast? ≠ some '\r') (rest : List Char) :
    lines (line ++ '\n' :: rest) = line :: lines rest := by
  induction line with
  | nil => rw [List.nil_append, lines]
  | cons c line ih =>
    simp only [List.mem_cons, not_or] at hfeed
    have hrest : lines (line ++ '\n' :: rest) = line :: lines rest := by
      refine ih hfeed.2 ?_
      cases line with
      | nil => simp
      | cons d tail => simpa using hreturn
    rw [List.cons_append, lines_cons (Ne.symm hfeed.1), hrest]
    rintro ⟨rfl, hhead⟩
    cases line with
    | nil => simp at hreturn
    | cons d tail =>
      simp only [List.cons_append, List.head?_cons, Option.some.injEq] at hhead
      exact hfeed.2 (hhead ▸ List.mem_cons_self)

/-- A text without line feeds is one line, unless it is empty. -/
theorem lines_eq_singleton {line : List Char} (hfeed : '\n' ∉ line) (hne : line ≠ []) :
    lines line = [line] := by
  induction line with
  | nil => exact absurd rfl hne
  | cons c line ih =>
    simp only [List.mem_cons, not_or] at hfeed
    rw [lines_cons (Ne.symm hfeed.1)]
    · cases line with
      | nil => rfl
      | cons d tail => rw [ih hfeed.2 (List.cons_ne_nil d tail)]
    · rintro ⟨-, hhead⟩
      exact hfeed.2 (List.mem_of_mem_head? hhead)

end DependencyFiles.Text
