import DependencyFiles.Proofs.LineEnds
import DependencyFiles.Proofs.Spelling
import DependencyFiles.Proofs.Statements

/-!
# Comments in Ruby files

A comment behind a line whose string literals are closed leaves the code of that line with
blanks behind it, and no statement depends on the blanks behind its code. So a file makes the
same references with a comment more, whatever the comment looks like.
-/

namespace DependencyFiles.Bundler

open Text

/-! ## Blanks behind a call -/

/-- No blank is a word character. -/
theorem isWord_of_isBlank {c : Char} (h : isBlank c = true) : isWord c = false := by
  -- Word characters are known by a table alone, so the blanks are looked up one after the other.
  have hrange (first count : Nat)
      (hall : ∀ n ∈ List.range' first count, isWord (Char.ofNat n) = false)
      (hfirst : first ≤ c.toNat) (hlast : c.toNat < first + count) : isWord c = false := by
    have hc := hall c.toNat (List.mem_range'_1.2 ⟨hfirst, hlast⟩)
    rwa [Char.ofNat_toNat] at hc
  simp only [isBlank, Bool.or_eq_true, Bool.and_eq_true, beq_iff_eq, decide_eq_true_eq,
    Char.le_def, UInt32.le_iff_toNat_le, or_assoc] at h
  obtain rfl | ⟨hfirst, hlast⟩ | rfl | rfl | rfl | ⟨hfirst, hlast⟩ | hsingle := h
  · decide
  · exact hrange 9 5 (by decide) hfirst (Nat.lt_succ_of_le hlast)
  · decide +kernel
  · decide +kernel
  · decide +kernel
  · exact hrange 0x2000 11 (by decide +kernel) hfirst (Nat.lt_succ_of_le hlast)
  · obtain rfl | rfl | rfl | rfl | rfl := hsingle <;> decide +kernel

/-- Whether a text is the list of the parameters of a block. -/
def isParameters : List Char → Bool
  | '|' :: parameters =>
    match parameters.dropWhile (· ≠ '|') with
    | '|' :: rest => allBlank rest
    | _ => false
  | _ => false

theorem isBlockOpener_do (rest : List Char) :
    isBlockOpener ('d' :: 'o' :: rest) = (allBlank rest || isParameters (trimStart rest)) := rfl

section
variable {text padded : List Char} (h : Padded text padded)

include h

/-- Whether a text is a list of parameters does not depend on the blanks behind it. -/
theorem isParameters_padded : isParameters padded = isParameters text := by
  rw [isParameters.eq_def padded]
  split
  · obtain ⟨parameters, rfl, hparameters⟩ := h.exists_cons_of_cons rfl
    have hend := hparameters.dropWhile (· ≠ '|')
    rw [isParameters]
    split
    · rename_i rest heq
      rw [heq] at hend
      obtain ⟨rest, hrest, hpadded⟩ := hend.exists_cons_of_cons rfl
      rw [hrest]
      exact hpadded.allBlank_eq
    · rename_i hbar
      split
      · rename_i rest heq
        rw [heq] at hend
        obtain ⟨more, hmore, -⟩ := hend.exists_padded_cons
        exact absurd hmore (hbar more)
      · rfl
  · rename_i hbar
    unfold isParameters
    split
    · obtain ⟨more, rfl, -⟩ := h.exists_padded_cons
      exact absurd rfl (hbar more)
    · rfl

/-- Whether a text is a block opener does not depend on the blanks behind it. -/
theorem isBlockOpener_padded : isBlockOpener padded = isBlockOpener text := by
  rw [isBlockOpener.eq_def padded]
  split
  · obtain ⟨rest, rfl, hrest⟩ := h.exists_cons_of_cons rfl
    obtain ⟨opened, rfl, hopened⟩ := hrest.exists_cons_of_cons rfl
    rw [isBlockOpener_do, ← hopened.allBlank_eq, ← isParameters_padded hopened.trimStart]
    rfl
  · obtain ⟨rest, rfl, hrest⟩ := h.exists_cons_of_cons rfl
    exact hrest.allBlank_eq
  · rename_i hdo hbrace
    unfold isBlockOpener
    split
    · obtain ⟨more, rfl, hmore⟩ := h.exists_padded_cons
      obtain ⟨opened, rfl, -⟩ := hmore.exists_padded_cons
      exact absurd rfl (hdo opened)
    · obtain ⟨more, rfl, -⟩ := h.exists_padded_cons
      exact absurd rfl (hbrace more)
    · rfl

end

/-- What stands before a block opener starts the text. -/
theorem isPrefix_dropBlockOpener (text : List Char) : dropBlockOpener text <+: text := by
  induction text with
  | nil => exact List.prefix_rfl
  | cons c text ih =>
    rw [dropBlockOpener]
    split
    · exact List.nil_prefix
    · exact List.cons_prefix_cons.2 ⟨rfl, ih⟩

/-- A text without its block opener has blanks behind it when the text has. -/
theorem padded_dropBlockOpener {text padded : List Char} (h : Padded text padded) :
    Padded (dropBlockOpener text) (dropBlockOpener padded) := by
  obtain ⟨blanks, hblanks, rfl⟩ := h
  induction text with
  | nil =>
    refine ⟨dropBlockOpener blanks, List.all_eq_true.2 fun c hc => ?_, rfl⟩
    exact List.all_eq_true.1 hblanks c ((isPrefix_dropBlockOpener blanks).subset hc)
  | cons c text ih =>
    have hstart : Padded (trimStart text) (trimStart (text ++ blanks)) :=
      (Padded.append hblanks text).trimStart
    rw [List.cons_append, dropBlockOpener, dropBlockOpener, isBlockOpener_padded hstart]
    split
    · exact .refl []
    · exact ih.cons c

/-- No blank closes a call. -/
theorem beforeClosing?_padded {text padded : List Char} (h : Padded text padded) (n : Nesting) :
    beforeClosing? n padded = beforeClosing? n text := by
  obtain ⟨blanks, hblanks, rfl⟩ := h
  induction text generalizing n with
  | nil =>
    rw [List.nil_append, beforeClosing?]
    induction blanks generalizing n with
    | nil => rfl
    | cons c rest ih =>
      rw [allBlank, List.all_cons, Bool.and_eq_true] at hblanks
      have hc : ¬ (n.isOutside = true ∧ c = ')') := by
        rintro ⟨-, rfl⟩
        exact absurd hblanks.1 (by decide)
      rw [beforeClosing?, if_neg hc, ih hblanks.2, Option.map_none]
  | cons c text ih => rw [List.cons_append, beforeClosing?, beforeClosing?, ih]

/-- Arguments without parentheses stand behind a blank. -/
theorem callArguments?_cons {c : Char} (hopen : c ≠ '(') (rest : List Char) :
    callArguments? (c :: rest) =
      if isBlank c then
        let text := trim (dropBlockOpener (c :: rest))
        if text.head? = some '=' then none else some (splitArguments text)
      else none := by
  unfold callArguments?
  split
  · rename_i heq
    exact absurd heq (List.cons_ne_nil c rest)
  · rename_i heq
    exact absurd (List.cons.inj heq).1 hopen
  · rename_i heq
    obtain ⟨rfl, rfl⟩ := List.cons.inj heq
    rfl

/-- Blanks alone are no arguments. -/
theorem callArguments?_of_allBlank {text : List Char} (h : allBlank text = true) :
    callArguments? text = some [] := by
  cases text with
  | nil => rfl
  | cons c rest =>
    have hc : isBlank c = true := List.all_eq_true.1 h c List.mem_cons_self
    have hopen : c ≠ '(' := fun h => absurd (h ▸ hc) (by decide)
    have hpadded : Padded [] (c :: rest) := ⟨c :: rest, h, rfl⟩
    have htrim : trim (dropBlockOpener (c :: rest)) = [] := (padded_dropBlockOpener hpadded).trim_eq
    rw [callArguments?_cons hopen, if_pos hc, htrim]
    rfl

/-- Arguments in parentheses. -/
theorem callArguments?_parenthesis (rest : List Char) :
    callArguments? ('(' :: rest) = (beforeClosing? {} rest).map splitArguments := rfl

/-- The arguments of a call do not depend on the blanks behind them. -/
theorem callArguments?_padded {text padded : List Char} (h : Padded text padded) :
    callArguments? padded = callArguments? text := by
  obtain ⟨rfl, hblank⟩ | ⟨c, rest, more, rfl, rfl, hmore⟩ := h.eq_nil_or_cons
  · exact callArguments?_of_allBlank hblank
  · by_cases hopen : c = '('
    · rw [hopen, callArguments?_parenthesis, callArguments?_parenthesis, beforeClosing?_padded hmore]
    · rw [callArguments?_cons hopen, callArguments?_cons hopen, (padded_dropBlockOpener h).trim_eq]

/-! ## Blanks behind a statement -/

/-- The first word of a line ends before the blanks behind the line. -/
theorem span_padded {text padded : List Char} (h : Padded text padded) :
    ∃ word rest more, (trimStart text).span isWord = (word, rest) ∧
      (trimStart padded).span isWord = (word, more) ∧ Padded rest more := by
  refine ⟨_, _, _, List.span_eq_takeWhile_dropWhile .., ?_, h.trimStart.dropWhile isWord⟩
  rw [List.span_eq_takeWhile_dropWhile, h.trimStart.takeWhile_eq fun _ => isWord_of_isBlank]

/-- Whether a line is an assignment does not depend on the blanks behind it. -/
theorem assignment?_padded {text padded : List Char} (h : Padded text padded) :
    assignment? padded = assignment? text := by
  obtain ⟨word, rest, more, htext, hpadded, hmore⟩ := span_padded h
  have hstart : Padded (trimStart rest) (trimStart more) := hmore.trimStart
  rw [assignment?, assignment?, htext, hpadded]
  dsimp only
  generalize trimStart rest = rest at hstart ⊢
  generalize trimStart more = more at hstart ⊢
  split
  · obtain ⟨value, rfl, hvalue⟩ := hstart.exists_cons_of_cons rfl
    rw [hvalue.trim_eq]
    rfl
  · rename_i hequals
    split
    · obtain ⟨value, rfl, -⟩ := hstart.exists_padded_cons
      exact absurd rfl (hequals value)
    · rfl

/-- The call on a line does not depend on the blanks behind it. -/
theorem call?_padded {text padded : List Char} (h : Padded text padded) : call? padded = call? text := by
  obtain ⟨word, rest, more, htext, hpadded, hmore⟩ := span_padded h
  rw [call?, call?, htext, hpadded]
  dsimp only
  rw [callArguments?_padded hmore]

/-- Lines with the same code up to blanks behind it are the same statement. -/
theorem File.statement?_eq_of_padded (file : File) {line other : List Char}
    (h : Padded (withoutComment {} line) (withoutComment {} other)) :
    file.statement? other = file.statement? line := by
  simp only [statement?, use?, h.allBlank_eq, assignment?_padded h, call?_padded h]

/-! ## Comments behind a line -/

/-- Blanks are code outside and inside of string literals. -/
theorem withoutComment_blanks {blanks : List Char} (h : allBlank blanks = true) (n : Nesting) :
    withoutComment n blanks = blanks := by
  induction blanks generalizing n with
  | nil => rfl
  | cons c rest ih =>
    rw [allBlank, List.all_cons, Bool.and_eq_true] at h
    have hc : ¬ (n.quote.isNone = true ∧ c = '#') := by
      rintro ⟨-, rfl⟩
      exact absurd h.1 (by decide)
    rw [withoutComment, if_neg hc, ih h.2]

/-- The code of a line has blanks behind it when the line has. -/
theorem padded_withoutComment {line padded : List Char} (h : Padded line padded) (n : Nesting) :
    Padded (withoutComment n line) (withoutComment n padded) := by
  obtain ⟨blanks, hblanks, rfl⟩ := h
  induction line generalizing n with
  | nil => exact ⟨blanks, hblanks, withoutComment_blanks hblanks n⟩
  | cons c line ih =>
    rw [List.cons_append, withoutComment, withoutComment]
    split
    · exact .refl []
    · exact (ih (n.step c)).cons c

/-- A comment behind blanks outside of string literals leaves the blanks. -/
theorem withoutComment_comment {blanks : List Char} (h : allBlank blanks = true) {n : Nesting}
    (hquote : n.quote = none) (comment : List Char) :
    withoutComment n (blanks ++ '#' :: comment) = blanks := by
  obtain ⟨quote, depth⟩ := n
  obtain rfl : quote = none := hquote
  have hinert : Inert Nesting.startsComment blanks :=
    .of_idle stopsAt_startsComment (List.all_eq_true.2 fun c hc =>
      isIdle_of_isBlank rfl (List.all_eq_true.1 h c hc))
  rw [withoutComment_append (hinert.passes depth), hinert.keeps, withoutComment, if_pos ⟨rfl, rfl⟩,
    List.append_nil]

/-- A comment may follow a line whose string literals are closed where its code ends, behind
blanks or without any. -/
def MayFollow (line gap : List Char) : Prop :=
  (Nesting.after {} (withoutComment {} line)).quote = none ∧ allBlank gap = true

/-- The code of a line keeps at most blanks of what a comment adds to the line. -/
theorem padded_withoutComment_comment {line gap : List Char} {n : Nesting}
    (hquote : (n.after (withoutComment n line)).quote = none) (hgap : allBlank gap = true)
    (comment : List Char) :
    Padded (withoutComment n line) (withoutComment n (line ++ (gap ++ '#' :: comment))) := by
  induction line generalizing n with
  | nil => exact ⟨gap, hgap, withoutComment_comment hgap hquote comment⟩
  | cons c line ih =>
    rw [List.cons_append, withoutComment, withoutComment]
    rw [withoutComment] at hquote
    split
    · exact .refl []
    · rename_i hsign
      rw [if_neg hsign] at hquote
      exact (ih hquote).cons c

/-- What statement a line is does not depend on blanks behind it. -/
theorem File.ignoresBlanks_statement? (file : File) : IgnoresBlanks file.statement? where
  nil := rfl
  padded h := file.statement?_eq_of_padded (padded_withoutComment h {})

/-- A comment behind a line does not change the statement. -/
theorem File.statement?_comment (file : File) {line gap : List Char} (h : MayFollow line gap)
    (comment : List Char) : file.statement? (line ++ (gap ++ '#' :: comment)) = file.statement? line :=
  file.statement?_eq_of_padded (padded_withoutComment_comment h.1 h.2 comment)

/-- A comment on a line of its own is no statement. -/
theorem File.statement?_comment_line (file : File) {blanks : List Char}
    (h : allBlank blanks = true) (comment : List Char) :
    file.statement? (blanks ++ '#' :: comment) = none := by
  have hcode : withoutComment {} (blanks ++ '#' :: comment) = blanks :=
    withoutComment_comment h (n := {}) rfl comment
  simp only [statement?, hcode, h, if_true]

/-! ## Comments in a file -/

/-- The references that a Ruby file declares, without those to files that it only mentions. -/
def declaredReferences (content origin : String) : Except ScanError (List Reference) :=
  (references content origin).map (·.filter (·.kind ≠ .supportFile))

/-- What a file declares depends on its statements alone. -/
theorem declaredReferences_eq (content origin : String) :
    declaredReferences content origin =
      ((File.ofOrigin origin).run (File.ofOrigin origin).lateMemory []
        ((File.ofOrigin origin).statements content)).map (·.filter (·.kind ≠ .supportFile)) := by
  have hsupport : (supportReferences content.toList origin).filter (·.kind ≠ .supportFile) = [] := by
    rw [List.filter_eq_nil_iff]
    intro reference hreference
    obtain ⟨name, -, rfl⟩ := List.mem_map.1 hreference
    simp
  rw [declaredReferences, references_eq_scan, scan]
  cases (File.ofOrigin origin).run (File.ofOrigin origin).lateMemory []
      ((File.ofOrigin origin).statements content) with
  | error failure => rfl
  | ok declared =>
    show Except.ok ((declared ++ _).filter _) = Except.ok (declared.filter _)
    rw [List.filter_append]
    split
    · rw [hsupport, List.append_nil]
    · rw [List.filter_nil, List.append_nil]

/-- **Comments are inert.** A Ruby file declares the same references in the same order, or
fails in the same way, with a comment more: behind a line whose string literals are closed, or
on a line of its own. -/
theorem declaredReferences_commented {rows commented : List Line}
    (h : Commented MayFollow rows commented) (origin : String) :
    declaredReferences (String.ofList (linesText commented)) origin =
      declaredReferences (String.ofList (linesText rows)) origin := by
  have hstatements : (File.ofOrigin origin).statements (String.ofList (linesText commented)) =
      (File.ofOrigin origin).statements (String.ofList (linesText rows)) := by
    rw [File.statements, File.statements, String.toList_ofList, String.toList_ofList]
    exact h.filterMap_lines (File.ofOrigin origin).ignoresBlanks_statement?
      (File.ofOrigin origin).statement?_comment (File.ofOrigin origin).statement?_comment_line
  rw [declaredReferences_eq, declaredReferences_eq, hstatements]

/-- A line that binds a variable to a directory. -/
def variableLine : Line := ⟨"dir = 'libs'".toList, by decide, .feed⟩

/-- A line that declares a package below that directory. -/
def packageLine : Line := ⟨"gem \"core\", path: \"#\x7bdir\x7d/core\"".toList, by decide, .feed⟩

/-- The same line with a comment that looks like an assignment, a block and an open literal. -/
def notedLine : Line :=
  ⟨"gem \"core\", path: \"#\x7bdir\x7d/core\" # dir = 'other' do |x| isn't".toList, by decide, .feed⟩

theorem declaredReferences_notedLine :
    Commented MayFollow [variableLine, packageLine] [variableLine, notedLine] ∧
      declaredReferences (String.ofList (linesText [variableLine, notedLine])) "Gemfile" =
        declaredReferences (String.ofList (linesText [variableLine, packageLine])) "Gemfile" ∧
      declaredReferences (String.ofList (linesText [variableLine, packageLine])) "Gemfile" =
        .ok [⟨.pathDependency "core", "libs/core", "Gemfile"⟩] := by
  have hgap : MayFollow packageLine.text [' '] := ⟨by decide +kernel, rfl⟩
  have htext : notedLine.text =
      packageLine.text ++ ([' '] ++ '#' :: " dir = 'other' do |x| isn't".toList) := by
    decide +kernel
  have hcommented : Commented MayFollow [variableLine, packageLine] [variableLine, notedLine] :=
    .behind [variableLine] [] hgap htext
  exact ⟨hcommented, declaredReferences_commented hcommented "Gemfile", by decide +kernel⟩

end DependencyFiles.Bundler
