import DependencyFiles.Bundler.Lockfile
import DependencyFiles.Proofs.LineEnds

/-!
# Lock files as they are written

A lock file is written section by section: a title without indentation, then indented lines,
with blank lines anywhere and either kind of line end. Scanning gives back the remotes that
stand in the sections titled `PATH`, in whatever order the sections come and however often one
comes again.
-/

namespace DependencyFiles.Bundler

open Text

/-! ## Sections -/

/-- What stands on a line that is no header: a remote behind an indentation, or something else
that is indented or blank. -/
inductive SectionEntry where
  | remote (indent value : List Char) (indented : indent ≠ []) (blank : allBlank indent = true)
  | other (text : List Char) (indented : text ≠ [] → startsBlank text = true)
      (unnamed : ¬ "remote:".toList <+: trim text)

/-- The text of an entry. -/
def SectionEntry.text : SectionEntry → List Char
  | .remote indent value _ _ => indent ++ ("remote:".toList ++ value)
  | .other text _ _ => text

/-- The value of a remote, without the blanks around it. -/
def SectionEntry.remote? : SectionEntry → Option (List Char)
  | .remote _ value _ _ => some (trim value)
  | .other .. => none

/-- An entry on a line of its own. -/
structure SectionLine where
  entry : SectionEntry
  inLine : '\n' ∉ entry.text
  lineEnd : LineEnd := .feed

/-- The line of an entry. -/
def SectionLine.line (line : SectionLine) : Line := ⟨line.entry.text, line.inLine, line.lineEnd⟩

/-- A section: its title, perhaps with blanks behind it, and the lines below. -/
structure LockSection where
  title : List Char
  padding : List Char := []
  body : List SectionLine
  filled : title ≠ []
  unindented : startsBlank title = false
  trimmed : trimEnd title = title
  blank : allBlank padding = true := by rfl
  inLine : '\n' ∉ title ++ padding
  lineEnd : LineEnd := .feed

/-- The line of a section's title. -/
def LockSection.header (part : LockSection) : Line :=
  ⟨part.title ++ part.padding, part.inLine, part.lineEnd⟩

/-- The lines of a section. -/
def LockSection.lines (part : LockSection) : List Line :=
  part.header :: part.body.map SectionLine.line

/-- The remotes that a section names. -/
def LockSection.remotes (part : LockSection) : List (List Char) :=
  part.body.filterMap (·.entry.remote?)

/-- A lock file as it is written: sections, and what stands before the first of them. -/
structure LockLayout where
  preamble : List SectionLine := []
  sections : List LockSection

namespace LockLayout

/-- The lines of a lock file. -/
def lines (layout : LockLayout) : List Line :=
  layout.preamble.map SectionLine.line ++ layout.sections.flatMap LockSection.lines

/-- A line starts with a conflict marker. -/
def Conflicted (layout : LockLayout) : Prop :=
  ∃ line ∈ layout.lines, ∃ marker ∈ ["<<<<<<<", "|||||||", ">>>>>>>"], marker.toList <+: line.text

/-- A section is titled as one of plugin sources. -/
def Plugged (layout : LockLayout) : Prop :=
  ∃ part ∈ layout.sections, part.title = "PLUGIN SOURCE".toList

instance (layout : LockLayout) : Decidable layout.Conflicted :=
  inferInstanceAs (Decidable (∃ line ∈ layout.lines, ∃ marker ∈ [_, _, _],
    String.toList marker <+: line.text))

instance (layout : LockLayout) : Decidable layout.Plugged :=
  inferInstanceAs (Decidable (∃ part ∈ layout.sections, part.title = _))

/-- The remotes in the sections of paths, one after the other. -/
def remotes (layout : LockLayout) : List (List Char) :=
  (layout.sections.filter (·.title = "PATH".toList)).flatMap LockSection.remotes

end LockLayout

/-! ## What lines stand for -/

/-- What a line stands for in a scan: a header with its title, or another line with the remote
that it names. -/
inductive Mark where
  | header (title : List Char)
  | body (remote : Option (List Char))
  deriving DecidableEq, Repr

/-- What a line stands for, if it is not blank. -/
def mark? (line : List Char) : Option Mark :=
  if allBlank line then none
  else some (if startsBlank line then .body (remote? line) else .header (trimEnd line))

theorem ignoresBlanks_mark? : IgnoresBlanks mark? where
  nil := rfl
  padded {text padded} h := by
    obtain ⟨rfl, hblank⟩ | ⟨c, rest, more, rfl, rfl, -⟩ := h.eq_nil_or_cons
    · exact if_pos hblank
    · have hstart : startsBlank (c :: more) = startsBlank (c :: rest) := rfl
      simp only [mark?, h.allBlank_eq, hstart, remote?, h.trim_eq, h.trimEnd_eq]

/-- The remotes of path sections among marks; `inside` while such a section goes on. -/
def markedRemotes (inside : Bool) : List Mark → List (List Char)
  | [] => []
  | .body remote :: rest => (if inside then remote.toList else []) ++ markedRemotes inside rest
  | .header title :: rest => markedRemotes (title == "PATH".toList) rest

/-- The remotes that a scan finds depend on the marks of the lines alone. -/
theorem pathRemotes_eq (inside : Bool) (rows : List (List Char)) :
    pathRemotes inside rows = markedRemotes inside (rows.filterMap mark?) := by
  induction rows generalizing inside with
  | nil => rfl
  | cons row more ih =>
    rw [pathRemotes]
    by_cases hblank : allBlank row
    · have hmark : mark? row = none := if_pos hblank
      rw [if_pos hblank, List.filterMap_cons_none hmark, ih]
    · rw [if_neg hblank]
      by_cases hstart : startsBlank row
      · have hmark : mark? row = some (.body (remote? row)) := by
          rw [mark?, if_neg hblank, if_pos hstart]
        rw [if_pos hstart, List.filterMap_cons_some hmark, markedRemotes, ih]
        cases inside <;> rfl
      · have hmark : mark? row = some (.header (trimEnd row)) := by
          rw [mark?, if_neg hblank, if_neg hstart]
        rw [if_neg hstart, List.filterMap_cons_some hmark, markedRemotes, ih]

theorem isPluginHeader_iff (line : List Char) :
    isPluginHeader line = true ↔ mark? line = some (.header "PLUGIN SOURCE".toList) := by
  unfold isPluginHeader isHeader mark?
  cases allBlank line <;> cases startsBlank line <;> simp

theorem isPluginHeader_eq (line : List Char) :
    isPluginHeader line = (mark? line == some (.header "PLUGIN SOURCE".toList)) :=
  Bool.eq_iff_iff.2 ((isPluginHeader_iff line).trans beq_iff_eq.symm)

/-! ## Marks of written lines -/

/-- A remote is read as it is written, without the blanks around it. -/
theorem remote?_append {indent : List Char} (hblank : allBlank indent = true) (value : List Char) :
    remote? (indent ++ ("remote:".toList ++ value)) = some (trim value) := by
  have htrim : trim ("remote:".toList ++ value) = "remote:".toList ++ trimEnd value :=
    trim_cons_append_cons (c := 'r') (d := ':') rfl rfl "emote".toList value
  rw [remote?, trim_append hblank, htrim, after?_append, Option.map_some, ← (padded_trimEnd value).trim_eq]

/-- A text behind a text that starts with a blank starts with a blank. -/
theorem startsBlank_append {indent : List Char} (hne : indent ≠ []) (hblank : allBlank indent = true)
    (text : List Char) : startsBlank (indent ++ text) = true := by
  obtain ⟨c, rest, rfl⟩ := List.exists_cons_of_ne_nil hne
  exact List.all_eq_true.1 hblank c List.mem_cons_self

/-- An entry stands for the remote that it names, unless it is blank. -/
theorem SectionEntry.mark?_text (entry : SectionEntry) :
    mark? entry.text = some (.body entry.remote?) ∨ mark? entry.text = none ∧ entry.remote? = none := by
  cases entry with
  | remote indent value indented blank =>
    have hfilled : allBlank (indent ++ ("remote:".toList ++ value)) = false := by
      rw [allBlank_append, blank]
      rfl
    refine .inl ?_
    rw [text, mark?, hfilled, startsBlank_append indented blank, remote?_append blank]
    rfl
  | other text indented unnamed =>
    by_cases hblank : allBlank text
    · exact .inr ⟨if_pos hblank, rfl⟩
    · have hne : text ≠ [] := fun h => hblank (h ▸ rfl)
      have hremote : Bundler.remote? text = none := by
        have hafter : after? "remote:".toList (trim text) = none := by
          refine Option.eq_none_iff_forall_ne_some.2 fun rest hrest => unnamed ?_
          exact ⟨rest, List.isPrefixOf?_eq_some_iff_append_eq.1 hrest⟩
        rw [Bundler.remote?, hafter, Option.map_none]
      refine .inl ?_
      rw [SectionEntry.text, mark?, if_neg hblank, indented hne, hremote]
      rfl

/-- The line of a title is a header with that title. -/
theorem LockSection.mark?_header (part : LockSection) :
    mark? part.header.text = some (.header part.title) := by
  obtain ⟨c, rest, htitle⟩ := List.exists_cons_of_ne_nil part.filled
  have hc : isBlank c = false := by simpa [startsBlank, htitle] using part.unindented
  have hfilled : allBlank part.title = false := by simp [htitle, allBlank, hc]
  have hpadded : Padded part.title part.header.text := .append part.blank part.title
  rw [ignoresBlanks_mark?.padded hpadded, mark?, hfilled, part.unindented, part.trimmed]
  rfl

/-! ## Scans of written lines -/

/-- The lines below a title give their remotes inside of a path section, and nothing elsewhere. -/
theorem markedRemotes_body (inside : Bool) (body : List SectionLine) (rest : List Mark) :
    markedRemotes inside ((body.map fun line => line.line.text).filterMap mark? ++ rest) =
      (if inside then body.filterMap (·.entry.remote?) else []) ++ markedRemotes inside rest := by
  induction body with
  | nil => cases inside <;> rfl
  | cons line more ih =>
    have hline : mark? line.line.text = some (.body line.entry.remote?) ∨
        mark? line.line.text = none ∧ line.entry.remote? = none := line.entry.mark?_text
    rw [List.map_cons]
    obtain hmark | ⟨hmark, hremote⟩ := hline
    · rw [List.filterMap_cons_some hmark, List.cons_append, markedRemotes, ih]
      cases inside with
      | false => rfl
      | true => cases hremote : line.entry.remote? <;> simp [hremote]
    · have hmore : (line :: more).filterMap (·.entry.remote?) = more.filterMap (·.entry.remote?) :=
        List.filterMap_cons_none hremote
      rw [List.filterMap_cons_none hmark, ih, hmore]

/-- The sections of paths give their remotes. -/
theorem markedRemotes_sections (inside : Bool) (sections : List LockSection) :
    markedRemotes inside (((sections.flatMap LockSection.lines).map Line.text).filterMap mark?) =
      (sections.filter (·.title = "PATH".toList)).flatMap LockSection.remotes := by
  induction sections generalizing inside with
  | nil => rfl
  | cons part more ih =>
    have hbody : (part.body.map SectionLine.line).map Line.text =
        part.body.map fun line => line.line.text := by rw [List.map_map]; rfl
    rw [List.flatMap_cons, LockSection.lines, List.cons_append, List.map_cons,
      List.filterMap_cons_some part.mark?_header, markedRemotes, List.map_append,
      List.filterMap_append, hbody, markedRemotes_body, ih]
    by_cases htitle : part.title = "PATH".toList
    · rw [List.filter_cons_of_pos (by simpa using htitle), List.flatMap_cons, htitle]
      rfl
    · have hother : (part.title == "PATH".toList) = false := by simpa using htitle
      rw [List.filter_cons_of_neg (by simpa using htitle), hother]
      rfl

/-- A scan finds the remotes in the sections of paths. -/
theorem LockLayout.pathRemotes_lines (layout : LockLayout) :
    pathRemotes false (Text.lines (linesText layout.lines)) = layout.remotes := by
  have hpreamble : (layout.preamble.map SectionLine.line).map Line.text =
      layout.preamble.map fun line => line.line.text := by rw [List.map_map]; rfl
  rw [pathRemotes_eq, ignoresBlanks_mark?.filterMap_lines, lines, List.map_append,
    List.filterMap_append, hpreamble, markedRemotes_body, markedRemotes_sections]
  rfl

/-- A scan meets a section of plugin sources when there is one. -/
theorem LockLayout.any_isPluginHeader_lines (layout : LockLayout) :
    (Text.lines (linesText layout.lines)).any isPluginHeader = decide layout.Plugged := by
  have hpadded {text padded : List Char} (h : Padded text padded) :
      isPluginHeader padded = isPluginHeader text := by
    rw [isPluginHeader_eq, isPluginHeader_eq, ignoresBlanks_mark?.padded h]
  rw [any_lines rfl hpadded, Bool.eq_iff_iff, decide_eq_true_iff, List.any_eq_true]
  have hline (line : SectionLine) : ¬ isPluginHeader line.line.text = true := by
    rw [isPluginHeader_iff]
    obtain hmark | ⟨hmark, -⟩ := line.entry.mark?_text
    · exact fun h => nomatch hmark.symm.trans h
    · exact fun h => nomatch hmark.symm.trans h
  have hheader (part : LockSection) :
      isPluginHeader part.header.text = true ↔ part.title = "PLUGIN SOURCE".toList := by
    rw [isPluginHeader_iff, part.mark?_header, Option.some.injEq, Mark.header.injEq]
  simp only [lines, LockSection.lines, List.map_append, List.mem_append, List.mem_map,
    List.mem_flatMap, List.mem_cons, Plugged]
  constructor
  · rintro ⟨text, ⟨line, ⟨entry, -, rfl⟩, rfl⟩ |
      ⟨line, ⟨part, hpart, rfl | ⟨entry, -, rfl⟩⟩, rfl⟩, hplugin⟩
    · exact absurd hplugin (hline entry)
    · exact ⟨part, hpart, (hheader part).1 hplugin⟩
    · exact absurd hplugin (hline entry)
  · rintro ⟨part, hpart, htitle⟩
    exact ⟨_, .inr ⟨_, ⟨part, hpart, .inl rfl⟩, rfl⟩, (hheader part).2 htitle⟩

/-- A conflict marker starts with no blank behind a text. -/
theorem isConflictLine_padded {text padded : List Char} (h : Padded text padded) :
    isConflictLine padded = isConflictLine text := by
  have hmarkers : ∀ marker ∈ conflictMarkers, marker.getLast?.any isBlank = false := by decide
  refine Bool.eq_iff_iff.2 ?_
  simp only [isConflictLine, List.any_eq_true]
  refine exists_congr fun marker => and_congr_right fun hmarker => ?_
  rw [h.isPrefixOf_eq (hmarkers marker hmarker)]

/-- A lock file has a merge conflict when one of its lines starts with a conflict marker. -/
theorem LockLayout.hasMergeConflict_lines (layout : LockLayout) :
    hasMergeConflict (String.ofList (linesText layout.lines)) = decide layout.Conflicted := by
  have hmarkers : conflictMarkers = ["<<<<<<<", "|||||||", ">>>>>>>"].map String.toList := rfl
  rw [hasMergeConflict, String.toList_ofList, any_lines rfl isConflictLine_padded, Bool.eq_iff_iff,
    decide_eq_true_iff, List.any_map, List.any_eq_true]
  simp only [Function.comp_apply, isConflictLine, hmarkers, List.any_map, List.any_eq_true,
    List.isPrefixOf_iff_prefix, Conflicted]

/-! ## First occurrences -/

theorem distinct_filter (p : List Char → Bool) (items : List (List Char)) :
    distinct (items.filter p) = (distinct items).filter p := by
  induction items with
  | nil => rfl
  | cons item rest ih =>
    by_cases hitem : p item
    · rw [List.filter_cons_of_pos hitem, distinct, distinct, List.filter_cons_of_pos hitem, ih,
        List.filter_comm]
    · rw [List.filter_cons_of_neg hitem, distinct, List.filter_cons_of_neg hitem, ih,
        List.filter_filter]
      refine List.filter_congr fun other _ => ?_
      by_cases hother : other = item
      · simp [hother, hitem]
      · simp [hother]

/-- The first occurrences are what is left when later ones are erased. -/
theorem distinct_eq_eraseDups (items : List (List Char)) : distinct items = items.eraseDups := by
  match items with
  | [] => rfl
  | item :: rest =>
    rw [distinct, List.eraseDups_cons, ← distinct_filter, distinct_eq_eraseDups]
    rfl
termination_by items.length
decreasing_by exact Nat.lt_succ_of_le (List.length_filter_le _ _)

/-- **Scanning inverts the layout of lock files.** It fails for a merge conflict exactly when a
line starts with a conflict marker. Else the lock file speaks for all packages: it names none
when one of its sections is one of plugin sources, and otherwise one for each remote in its
sections of paths, in the order in which they occur first, named by its last segment. -/
theorem scanLockfile_linesText (layout : LockLayout) (origin : String) :
    scanLockfile (String.ofList (linesText layout.lines)) origin =
      if layout.Conflicted then .error (.mergeConflict origin)
      else .ok
        { references := (if layout.Plugged then [] else layout.remotes.eraseDups).map fun remote =>
            ⟨.pathDependency (String.ofList (basename remote)), String.ofList remote, origin⟩
          authoritative := true } := by
  rw [scanLockfile, unlessConflict, layout.hasMergeConflict_lines, String.toList_ofList]
  simp only [layout.any_isPluginHeader_lines, layout.pathRemotes_lines, distinct_eq_eraseDups,
    decide_eq_true_iff]

/-- Two sections of paths, with a section of another kind between them, blank lines, both kinds of line
ends, and a remote that comes again. -/
def sampleLayout : LockLayout where
  sections :=
    [{ title := "PATH".toList
       lineEnd := .returnFeed
       body :=
         [⟨.remote "    ".toList " a".toList (by decide) (by decide), by decide, .returnFeed⟩,
          ⟨.other "    specs:".toList (by decide) (by decide), by decide, .returnFeed⟩,
          ⟨.other [] (by decide) (by decide), by decide, .returnFeed⟩]
       filled := by decide
       unindented := by decide
       trimmed := by decide
       blank := List.all_nil
       inLine := by decide },
     { title := "GEM".toList
       body := [⟨.remote "    ".toList " x".toList (by decide) (by decide), by decide, .feed⟩]
       filled := by decide
       unindented := by decide
       trimmed := by decide
       blank := List.all_nil
       inLine := by decide },
     { title := "PATH".toList
       padding := "\t".toList
       body :=
         [⟨.remote "\t".toList " b/c".toList (by decide) (by decide), by decide, .feed⟩,
          ⟨.other [] (by decide) (by decide), by decide, .feed⟩,
          ⟨.remote "    ".toList "a ".toList (by decide) (by decide), by decide, .feed⟩,
          ⟨.other [] (by decide) (by decide), by decide, .feed⟩]
       filled := by decide
       unindented := by decide
       trimmed := by decide
       inLine := by decide }]

theorem scanLockfile_sampleLayout :
    String.ofList (linesText sampleLayout.lines) = "PATH\r\n    remote: a\r\n    specs:\r\n\r\n" ++
        "GEM\n    remote: x\nPATH\t\n\tremote: b/c\n\n    remote:a \n" ∧
      scanLockfile (String.ofList (linesText sampleLayout.lines)) "Gemfile.lock" =
        .ok
          { references :=
              [⟨.pathDependency "a", "a", "Gemfile.lock"⟩, ⟨.pathDependency "c", "b/c", "Gemfile.lock"⟩]
            authoritative := true } := by
  have hconflict : ¬ sampleLayout.Conflicted := by decide +kernel
  have hplugged : ¬ sampleLayout.Plugged := by decide +kernel
  have hremotes : sampleLayout.remotes.eraseDups = ["a".toList, "b/c".toList] := by decide +kernel
  refine ⟨by decide +kernel, ?_⟩
  rw [scanLockfile_linesText, if_neg hconflict, if_neg hplugged, hremotes]
  rfl

end DependencyFiles.Bundler
