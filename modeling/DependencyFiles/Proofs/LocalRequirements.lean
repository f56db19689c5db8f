import DependencyFiles.Proofs.RequirementComments

/-!
# Requirements that name local directories

A requirement may name a relative directory, by itself or behind the option that installs it
in place, and go on with extras, a fragment or an environment marker. The directory is told by
its start before anything behind it is cut off: a directory with a slash in it is found
whatever follows, the directory `.` only when nothing follows, and the directory `..` never.
-/

namespace DependencyFiles.Pip

open Text

/-! ## Requirements as they are written -/

/-- A relative directory: its first segment is one or two dots, and nothing in it could be
taken for the start of what may follow. -/
structure LocalDirectory where
  text : List Char
  relative : (pieces (· == '/') text).head? = some ['.'] ∨
    (pieces (· == '/') text).head? = some ['.', '.']
  plain : ∀ c ∈ text, isBlank c = false ∧ c ∉ ['[', '#', ';', '$']

/-- What may follow a directory. -/
inductive Suffix where
  | nothing
  | extras (names : List Char)
  | fragment (text : List Char)
  | marker (gap condition : List Char) (blank : allBlank gap = true)

/-- The text of what follows a directory. -/
def Suffix.text : Suffix → List Char
  | .nothing => []
  | .extras names => '[' :: names ++ [']']
  | .fragment text => '#' :: text
  | .marker gap condition _ => gap ++ ';' :: condition

/-- What stands before a directory: nothing, or an option that installs it in place, with
blanks or an equals sign behind. -/
inductive Installing where
  | bare
  | spaced (option : String) (editable : option ∈ editableOptions) (gap : List Char)
      (filled : gap ≠ []) (blank : allBlank gap = true)
  | equal (option : String) (editable : option ∈ editableOptions)

/-- The text of what stands before a directory. -/
def Installing.text : Installing → List Char
  | .bare => []
  | .spaced option _ gap _ _ => option.toList ++ gap
  | .equal option _ => option.toList ++ ['=']

/-- A requirement that names a local directory, on a line of its own. -/
structure LocalRequirement where
  installing : Installing
  directory : LocalDirectory
  suffix : Suffix
  inLine : '\n' ∉ installing.text ++ (directory.text ++ suffix.text)
  lineEnd : LineEnd := .feed

/-- The line of a requirement. -/
def LocalRequirement.line (requirement : LocalRequirement) : Line :=
  ⟨requirement.installing.text ++ (requirement.directory.text ++ requirement.suffix.text),
    requirement.inLine, requirement.lineEnd⟩

/-- Whether the directory of a requirement is told by its start: it goes on behind the dots,
or it is a single dot with nothing behind it. -/
def LocalRequirement.Told (requirement : LocalRequirement) : Prop :=
  '/' ∈ requirement.directory.text ∨
    requirement.directory.text = ['.'] ∧ requirement.suffix.text = []

instance (requirement : LocalRequirement) : Decidable requirement.Told :=
  inferInstanceAs (Decidable (_ ∨ _ ∧ _))

/-- The reference of a requirement whose directory is told. -/
def LocalRequirement.reference? (requirement : LocalRequirement) (origin : String) : Option Reference :=
  if requirement.Told then
    some ⟨.pathDependency (String.ofList (basename requirement.directory.text)),
      String.ofList requirement.directory.text, origin⟩
  else none

/-! ## Directories -/

namespace LocalDirectory

variable (directory : LocalDirectory)

/-- A relative directory is one of the two alone, or goes on behind a slash. -/
theorem text_cases : directory.text = ['.'] ∨ directory.text = ['.', '.'] ∨
    (∃ rest, directory.text = '.' :: '/' :: rest) ∨
      ∃ rest, directory.text = '.' :: '.' :: '/' :: rest := by
  have hjoin := joinWith_pieces '/' directory.text
  have hrelative := directory.relative
  cases hpieces : pieces (· == '/') directory.text with
  | nil => simp [hpieces] at hrelative
  | cons segment more =>
    rw [hpieces] at hjoin hrelative
    simp only [List.head?_cons, Option.some.injEq] at hrelative
    cases more with
    | nil =>
      have htext : directory.text = segment := hjoin.symm
      obtain rfl | rfl := hrelative
      · exact .inl htext
      · exact .inr (.inl htext)
    | cons next others =>
      have htext : directory.text = segment ++ '/' :: joinWith '/' (next :: others) := hjoin.symm
      obtain rfl | rfl := hrelative
      · exact .inr (.inr (.inl ⟨_, htext⟩))
      · exact .inr (.inr (.inr ⟨_, htext⟩))

theorem exists_dot : ∃ rest, directory.text = '.' :: rest := by
  obtain h | h | ⟨rest, h⟩ | ⟨rest, h⟩ := directory.text_cases
  all_goals exact ⟨_, h⟩

theorem exists_last : ∃ start last, directory.text = start ++ [last] ∧ isBlank last = false ∧
    last ≠ '#' := by
  obtain ⟨rest, hrest⟩ := directory.exists_dot
  obtain ⟨start, last, htext⟩ := (List.eq_nil_or_concat directory.text).resolve_left (by simp [hrest])
  rw [List.concat_eq_append] at htext
  have hplain := directory.plain last (by simp [htext])
  refine ⟨start, last, htext, hplain.1, fun h => ?_⟩
  exact hplain.2 (by simp [h])

theorem not_mem {c : Char} (hc : c ∈ ['[', '#', ';', '$']) : c ∉ directory.text := fun hmem =>
  (directory.plain c hmem).2 hc

theorem bne_of_mem {c sign : Char} (hc : c ∈ directory.text) (hsign : sign ∈ ['[', '#', ';', '$']) :
    (c != sign) = true := bne_iff_ne.2 (ne_of_mem_of_not_mem hc (directory.not_mem hsign))

/-- Behind a directory only what follows it is trimmed. -/
theorem trimEnd_append (before after : List Char) :
    trimEnd (before ++ (directory.text ++ after)) = before ++ (directory.text ++ trimEnd after) := by
  obtain ⟨start, last, htext, hlast, -⟩ := directory.exists_last
  have hend := dropEndWhile_append_cons hlast (before ++ start) after
  rw [htext]
  simpa [trimEnd] using hend

/-- A directory is trimmed already, and behind it only what follows is trimmed. -/
theorem trim_append (after : List Char) :
    trim (directory.text ++ after) = directory.text ++ trimEnd after := by
  obtain ⟨rest, hrest⟩ := directory.exists_dot
  have hstart : (directory.text ++ after).dropWhile isBlank = directory.text ++ after := by
    rw [hrest]
    exact trimStart_cons rfl _
  rw [trim, dropAroundWhile, hstart]
  exact directory.trimEnd_append [] after

theorem trim_text : trim directory.text = directory.text := by
  simpa [trimEnd, dropEndWhile] using directory.trim_append []

/-- A comment is cut off only behind the directory. -/
theorem before_append {before : List Char} (hbefore : '#' ∉ before) (after : List Char) :
    Text.before [' ', '#'] (before ++ (directory.text ++ after)) =
      before ++ (directory.text ++ Text.before [' ', '#'] after) := by
  obtain ⟨start, last, htext, hlast, hsign⟩ := directory.exists_last
  have hstart : '#' ∉ before ++ start := by
    have hdirectory : '#' ∉ directory.text := directory.not_mem (by decide)
    simp only [htext, List.mem_append, not_or] at hdirectory ⊢
    exact ⟨hbefore, hdirectory.1⟩
  have hhead : (last :: after).head? ≠ some '#' := by simpa using hsign
  have hcut := Pip.before_append hstart hhead
  rw [Text.before, isPrefixOf_cons_of_not_isBlank hlast] at hcut
  rw [htext]
  simpa using hcut

end LocalDirectory

/-! ## What follows a directory -/

/-- What ends a directory: nothing, or a sign behind which nothing counts. -/
inductive Ends : List Char → Prop where
  | nothing : Ends []
  | sign {c : Char} (hc : c = '[' ∨ c = '#') (rest : List Char) : Ends (c :: rest)
  | marker {gap : List Char} (hgap : allBlank gap = true) (rest : List Char) : Ends (gap ++ ';' :: rest)

theorem Suffix.ends_text (suffix : Suffix) : Ends suffix.text := by
  cases suffix with
  | nothing => exact .nothing
  | extras names => exact .sign (.inl rfl) _
  | fragment text => exact .sign (.inr rfl) _
  | marker gap condition blank => exact .marker blank condition

/-- What ends a directory still does without a comment and without the blanks behind it. -/
theorem Ends.trimmed {text : List Char} (h : Ends text) :
    Ends (trimEnd (before [' ', '#'] text)) ∧ (trimEnd (before [' ', '#'] text) = [] ↔ text = []) := by
  cases h with
  | nothing => exact ⟨.nothing, Iff.rfl⟩
  | @sign c hc rest =>
    have hblank : isBlank c = false := by obtain rfl | rfl := hc <;> rfl
    have htrim : trimEnd (before [' ', '#'] (c :: rest)) = c :: trimEnd (before [' ', '#'] rest) := by
      rw [before, isPrefixOf_cons_of_not_isBlank hblank]
      exact dropEndWhile_append_cons hblank [] _
    rw [htrim]
    exact ⟨.sign hc _, by simp⟩
  | @marker gap hgap rest =>
    have hcut : before [' ', '#'] (gap ++ ';' :: rest) = gap ++ ';' :: before [' ', '#'] rest := by
      rw [Pip.before_append (not_mem_of_allBlank hgap rfl) (by simp), before,
        isPrefixOf_cons_of_not_isBlank rfl]
      rfl
    have htrim : trimEnd (before [' ', '#'] (gap ++ ';' :: rest)) =
        gap ++ ';' :: trimEnd (before [' ', '#'] rest) := by
      rw [hcut]
      exact dropEndWhile_append_cons rfl gap _
    rw [htrim]
    exact ⟨.marker hgap _, by simp⟩

/-- What ends a directory does not go on with it. -/
theorem Ends.eq_nil_or_cons {text : List Char} (h : Ends text) :
    text = [] ∨ ∃ c rest, text = c :: rest ∧ c ≠ '.' ∧ c ≠ '/' := by
  cases h with
  | nothing => exact .inl rfl
  | @sign c hc rest =>
    obtain rfl | rfl := hc
    all_goals exact .inr ⟨_, rest, rfl, by decide⟩
  | @marker gap hgap rest =>
    cases gap with
    | nil => exact .inr ⟨';', rest, rfl, by decide⟩
    | cons c gap =>
      exact .inr ⟨c, _, rfl, ne_of_mem_of_not_mem List.mem_cons_self (not_mem_of_allBlank hgap rfl),
        ne_of_mem_of_not_mem List.mem_cons_self (not_mem_of_allBlank hgap rfl)⟩

/-! ## What stands before a directory -/

/-- The value of an option is what stands behind the blanks that follow it. -/
theorem valueOf?_append_gap (option : List Char) {gap : List Char} (hfilled : gap ≠ [])
    (hblank : allBlank gap = true) (text : List Char) :
    valueOf? option (option ++ (gap ++ text)) = some (trim text) := by
  obtain ⟨c, more, rfl⟩ := List.exists_cons_of_ne_nil hfilled
  have hc : isBlank c = true := List.all_eq_true.1 hblank c List.mem_cons_self
  have hne : c ≠ '=' := ne_of_mem_of_not_mem List.mem_cons_self (not_mem_of_allBlank hblank rfl)
  rw [valueOf?, after?_append]
  split
  · rename_i value heq
    exact absurd (List.cons.inj (Option.some.inj heq)).1 hne
  · rename_i rest heq
    have hstarts : startsBlank (c :: more ++ text) = true := hc
    rw [← Option.some.inj heq, hstarts, trim_append hblank]
    rfl
  · rename_i heq
    exact absurd heq (by simp)

/-- The value of an option is what stands behind its equals sign. -/
theorem valueOf?_append_equal (option text : List Char) :
    valueOf? option (option ++ '=' :: text) = some (trim text) := by
  rw [valueOf?, after?_append]
  rfl

theorem eq_or_eq_of_mem_editableOptions {option : String} (h : option ∈ editableOptions) :
    option = "-e" ∨ option = "--editable" := by
  simpa [editableOptions] using h

/-- An option that installs in place has the value that it has by itself: neither is the start
of the other with anything behind it. -/
theorem optionValue?_editable {option : String} (h : option ∈ editableOptions) (rest : List Char) :
    optionValue? editableOptions (option.toList ++ rest) =
      valueOf? option.toList (option.toList ++ rest) := by
  obtain rfl | rfl := eq_or_eq_of_mem_editableOptions h
  · have hother : valueOf? "--editable".toList ("-e".toList ++ rest) = none := rfl
    simp only [optionValue?, editableOptions, List.findSome?_cons, List.findSome?_nil, hother]
    cases valueOf? "-e".toList ("-e".toList ++ rest) <;> rfl
  · have hother : valueOf? "-e".toList ("--editable".toList ++ rest) = none := rfl
    simp only [optionValue?, editableOptions, List.findSome?_cons, List.findSome?_nil, hother]
    cases valueOf? "--editable".toList ("--editable".toList ++ rest) <;> rfl

namespace Installing

variable (installing : Installing)

/-- What stands before a directory is nothing or starts with an option. -/
theorem text_cases : installing.text = [] ∨
    ∃ option ∈ editableOptions, ∃ more, installing.text = option.toList ++ more := by
  cases installing with
  | bare => exact .inl rfl
  | spaced option editable gap filled blank => exact .inr ⟨option, editable, gap, rfl⟩
  | equal option editable => exact .inr ⟨option, editable, ['='], rfl⟩

theorem sign_not_mem : '#' ∉ installing.text := by
  have hoption : ∀ option ∈ editableOptions, '#' ∉ option.toList := by decide
  cases installing with
  | bare => exact List.not_mem_nil
  | spaced option editable gap filled blank =>
    simpa [Installing.text] using ⟨hoption option editable, not_mem_of_allBlank blank rfl⟩
  | equal option editable => simpa [Installing.text] using hoption option editable

/-- A requirement that names a directory starts neither with a blank nor with a comment. -/
theorem exists_start (rest : List Char) :
    ∃ c more, installing.text ++ '.' :: rest = c :: more ∧ isBlank c = false ∧ c ≠ '#' := by
  obtain htext | ⟨option, editable, more, htext⟩ := installing.text_cases
  · exact ⟨'.', rest, by rw [htext]; rfl, rfl, by decide⟩
  · obtain rfl | rfl := eq_or_eq_of_mem_editableOptions editable
    all_goals exact ⟨'-', _, by rw [htext]; rfl, rfl, by decide⟩

/-- Installing a directory includes no file. -/
theorem optionValue?_includes (rest : List Char) :
    optionValue? includeOptions (installing.text ++ '.' :: rest) = none := by
  obtain htext | ⟨option, editable, more, htext⟩ := installing.text_cases
  · rw [htext]
    rfl
  · obtain rfl | rfl := eq_or_eq_of_mem_editableOptions editable
    all_goals
      rw [htext]
      rfl

/-- What is installed is read behind the option. -/
theorem getD_optionValue? {rest : List Char} (htrim : trim ('.' :: rest) = '.' :: rest) :
    (optionValue? editableOptions (installing.text ++ '.' :: rest)).getD
      (installing.text ++ '.' :: rest) = '.' :: rest := by
  cases installing with
  | bare =>
    have hnone : optionValue? editableOptions ('.' :: rest) = none := rfl
    rw [Installing.text, List.nil_append, hnone, Option.getD_none]
  | spaced option editable gap filled blank =>
    rw [Installing.text, List.append_assoc, optionValue?_editable editable,
      valueOf?_append_gap option.toList filled blank, htrim, Option.getD_some]
  | equal option editable =>
    rw [Installing.text, List.append_assoc, List.singleton_append, optionValue?_editable editable,
      valueOf?_append_equal, htrim, Option.getD_some]

end Installing

/-! ## Cutting off what follows a directory -/

section
variable (directory : LocalDirectory) {ending : List Char}

/-- A directory is told by its start, or by being a dot alone. -/
theorem localPart?_append (h : Ends ending) :
    localPart? (directory.text ++ ending) =
      if '/' ∈ directory.text ∨ directory.text = ['.'] ∧ ending = [] then
        some (directory.text ++ ending)
      else none := by
  -- Behind a slash the start alone decides; the two directories without one need the next character.
  obtain htext | htext | ⟨rest, htext⟩ | ⟨rest, htext⟩ := directory.text_cases
  · obtain rfl | ⟨c, more, rfl, hdot, hslash⟩ := h.eq_nil_or_cons
    · rw [htext]
      rfl
    · have hnone : localPart? ('.' :: c :: more) = none := by
        simp [localPart?, after?, List.isPrefixOf?, List.isPrefixOf, Ne.symm hdot, Ne.symm hslash]
      simpa [htext] using hnone
  · obtain rfl | ⟨c, more, rfl, -, hslash⟩ := h.eq_nil_or_cons
    · rw [htext]
      rfl
    · have hnone : localPart? ('.' :: '.' :: c :: more) = none := by
        simp [localPart?, after?, List.isPrefixOf?, List.isPrefixOf, Ne.symm hslash]
      simpa [htext] using hnone
  · rw [if_pos (.inl (by simp [htext])), htext]
    rfl
  · rw [if_pos (.inl (by simp [htext])), htext]
    rfl

/-- Cutting leaves the directory and nothing of what ends it. -/
theorem cut_append (h : Ends ending) :
    trim ((trim ((directory.text ++ ending).takeWhile fun c => c != '#' && c != ';')).takeWhile
      (· != '[')) = directory.text := by
  have hplain : ∀ c ∈ directory.text, (c != '#' && c != ';') = true := fun c hc => by
    rw [directory.bne_of_mem hc (by decide), directory.bne_of_mem hc (by decide)]
    rfl
  have hextras : ∀ c ∈ directory.text, (c != '[') = true := fun c hc =>
    directory.bne_of_mem hc (by decide)
  have hwhole : trim ((trim directory.text).takeWhile (· != '[')) = directory.text := by
    rw [directory.trim_text, List.takeWhile_eq_self_iff.2 hextras, directory.trim_text]
  rw [List.takeWhile_append_of_pos hplain]
  -- Extras outlast the first cut, and the blanks before a marker the first cut but not the trimming.
  cases h with
  | nothing => rwa [List.takeWhile_nil, List.append_nil]
  | @sign c hc rest =>
    obtain rfl | rfl := hc
    · have hkept (more : List Char) : trimEnd ('[' :: more) = '[' :: trimEnd more :=
        dropEndWhile_append_cons rfl [] more
      rw [List.takeWhile_cons_of_pos (by decide), directory.trim_append, hkept,
        List.takeWhile_append_of_pos hextras, List.takeWhile_cons_of_neg (by decide), List.append_nil,
        directory.trim_text]
    · rwa [List.takeWhile_cons_of_neg (by decide), List.append_nil]
  | @marker gap hgap rest =>
    have hgapPlain : ∀ c ∈ gap, (c != '#' && c != ';') = true := fun c hc => by
      have hsign : c ≠ '#' := ne_of_mem_of_not_mem hc (not_mem_of_allBlank hgap rfl)
      have hmark : c ≠ ';' := ne_of_mem_of_not_mem hc (not_mem_of_allBlank hgap rfl)
      simp [hsign, hmark]
    have htrim : trim (directory.text ++ gap) = trim directory.text :=
      (Padded.append hgap directory.text).trim_eq
    rwa [List.takeWhile_append_of_pos hgapPlain, List.takeWhile_cons_of_neg (by decide),
      List.append_nil, htrim]

/-- The directory of a requirement is found when it is told by its start. -/
theorem localPath?_append (h : Ends ending) :
    localPath? (directory.text ++ ending) =
      if '/' ∈ directory.text ∨ directory.text = ['.'] ∧ ending = [] then some directory.text
      else none := by
  obtain ⟨rest, hrest⟩ := directory.exists_dot
  rw [localPath?, localPart?_append directory h]
  split
  · rw [Option.map_some, cut_append directory h, Option.filter_some, hrest]
    rfl
  · rfl

end

/-- A text without dollar signs depends on no environment variable. -/
theorem isVariable_eq_false {path : List Char} (h : '$' ∉ path) : isVariable path = false := by
  have hnone : occursIn ['$', '\x7b'] path = false := by
    induction path with
    | nil => rfl
    | cons c path ih =>
      simp only [List.mem_cons, not_or] at h
      rw [occursIn, ih h.2]
      simp [List.isPrefixOf, h.1]
  have hhead : path.head? ≠ some '$' := fun hhead => h (List.mem_of_mem_head? hhead)
  simp [isVariable, hnone, hhead]

/-! ## Requirement files that name local directories -/

namespace LocalRequirement

variable (requirement : LocalRequirement)

/-- What stays of the suffix of a requirement without a comment and the blanks behind it. -/
def ending : List Char := trimEnd (before [' ', '#'] requirement.suffix.text)

/-- A line that names a directory is a requirement. -/
theorem requirement?_line : requirement? requirement.line.text =
    some (requirement.installing.text ++ (requirement.directory.text ++ requirement.ending)) := by
  obtain ⟨path, hpath⟩ := requirement.directory.exists_dot
  have hstart (rest : List Char) :
      trimStart (requirement.installing.text ++ (requirement.directory.text ++ rest)) =
          requirement.installing.text ++ (requirement.directory.text ++ rest) ∧
        (requirement.installing.text ++ (requirement.directory.text ++ rest)).head? ≠ some '#' := by
    obtain ⟨c, more, htext, hblank, hsign⟩ := requirement.installing.exists_start (path ++ rest)
    rw [hpath, List.cons_append, htext]
    exact ⟨trimStart_cons hblank more, by simpa using hsign⟩
  have hcode : withoutComment requirement.line.text = requirement.installing.text ++
      (requirement.directory.text ++ before [' ', '#'] requirement.suffix.text) := by
    rw [withoutComment, line, (hstart _).1, if_neg (hstart _).2,
      requirement.directory.before_append requirement.installing.sign_not_mem]
  have htrim : trim (withoutComment requirement.line.text) =
      requirement.installing.text ++ (requirement.directory.text ++ requirement.ending) := by
    rw [hcode, trim, dropAroundWhile, ← trimStart, (hstart _).1]
    exact requirement.directory.trimEnd_append _ _
  rw [requirement?, htrim, if_neg (by simp [hpath])]

/-- A requirement has its reference when its directory is told by its start, and else none. -/
theorem lineReference?_eq (origin : String) :
    lineReference?
        (requirement.installing.text ++ (requirement.directory.text ++ requirement.ending)) origin =
      .ok (requirement.reference? origin) := by
  obtain ⟨hends, hnil⟩ := requirement.suffix.ends_text.trimmed
  obtain ⟨path, hpath⟩ := requirement.directory.exists_dot
  have hinclude : optionValue? includeOptions
      (requirement.installing.text ++ (requirement.directory.text ++ requirement.ending)) = none := by
    rw [hpath]
    exact requirement.installing.optionValue?_includes _
  have htarget : (optionValue? editableOptions
        (requirement.installing.text ++ (requirement.directory.text ++ requirement.ending))).getD
        (requirement.installing.text ++ (requirement.directory.text ++ requirement.ending)) =
      requirement.directory.text ++ requirement.ending := by
    have hrest : requirement.directory.text ++ requirement.ending =
        '.' :: (path ++ requirement.ending) := by
      rw [hpath]
      rfl
    have htrim : trim (requirement.directory.text ++ requirement.ending) =
        requirement.directory.text ++ requirement.ending := by
      rw [requirement.directory.trim_append, ending, ← (padded_trimEnd _).trimEnd_eq]
    rw [hrest] at htrim ⊢
    exact requirement.installing.getD_optionValue? htrim
  have hfixed (line : List Char) : fixedPath requirement.directory.text line origin =
      .ok requirement.directory.text := by
    rw [fixedPath, isVariable_eq_false (requirement.directory.not_mem (by decide))]
    rfl
  have htold : ('/' ∈ requirement.directory.text ∨
      requirement.directory.text = ['.'] ∧ requirement.ending = []) ↔ requirement.Told :=
    or_congr_right (and_congr_right fun _ => hnil)
  have hlocal : localPath? (requirement.directory.text ++ requirement.ending) = _ :=
    localPath?_append requirement.directory hends
  rw [lineReference?, hinclude]
  by_cases h : requirement.Told
  · simp only [htarget, hlocal, htold, if_pos h, hfixed, reference?]
    rfl
  · simp only [htarget, hlocal, htold, if_neg h, reference?]

end LocalRequirement

/-- **Requirements that name local directories.** A file of requirements that name relative
directories, installed in place or not and with extras, a fragment or a marker behind them, has
one reference for each whose directory is told by its start: a path dependency on the directory
that the last segment names. The others have none. -/
theorem requirementReferences_localRequirements (rows : List LocalRequirement) (origin : String) :
    requirementReferences (String.ofList (linesText (rows.map LocalRequirement.line))) origin =
      .ok (rows.filterMap (·.reference? origin)) := by
  have hlines : (lines (linesText (rows.map LocalRequirement.line))).filterMap requirement? = rows.map
      fun row => row.installing.text ++ (row.directory.text ++ row.ending) := by
    rw [ignoresBlanks_requirement?.filterMap_lines, List.map_map, List.filterMap_map]
    exact List.filterMap_eq_map.symm ▸ List.filterMap_congr fun row _ => row.requirement?_line
  have hread : ((lineReference? · origin) ∘ fun row : LocalRequirement =>
      row.installing.text ++ (row.directory.text ++ row.ending)) =
        fun row => pure (row.reference? origin) :=
    funext fun row => row.lineReference?_eq origin
  rw [requirementReferences, String.toList_ofList, lineReferences_eq, hlines, List.mapM_map, hread,
    List.mapM_pure]
  exact congrArg Except.ok List.filterMap_map

/-- The directory of a file, installed in place with an extra. -/
def extraDot : LocalRequirement where
  installing := .spaced "-e" (by decide) [' '] (by decide) rfl
  directory := ⟨['.'], by decide, by simp [isBlank]⟩
  suffix := .extras "dev".toList
  inLine := by decide

/-- The directory above, by itself. -/
def parentDots : LocalRequirement where
  installing := .bare
  directory := ⟨['.', '.'], by decide, by simp [isBlank]⟩
  suffix := .nothing
  inLine := by decide

/-- A directory of dots is lost with an extra behind it, and the one above in any case. -/
theorem requirementReferences_dots :
    extraDot.line.text = "-e .[dev]".toList ∧ parentDots.line.text = "..".toList ∧
      requirementReferences (String.ofList (linesText [extraDot.line, parentDots.line]))
        "requirements.txt" = .ok [] ∧
      requirementReferences "-e .\n-e ./[dev]\n../\n" "requirements.txt" =
        .ok [⟨.pathDependency ".", ".", "requirements.txt"⟩,
          ⟨.pathDependency "./", "./", "requirements.txt"⟩,
          ⟨.pathDependency "..", "../", "requirements.txt"⟩] := by
  decide +kernel

end DependencyFiles.Pip
