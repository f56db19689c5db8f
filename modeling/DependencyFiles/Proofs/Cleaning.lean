import DependencyFiles.Proofs.Paths
import DependencyFiles.Repo.PathText
import Mathlib.Data.Set.Function

/-!
# Paths as lists of segments

A path is a list of clean segments. A written path is followed piece by piece over the segments
passed so far, and cleaning a text gives the text of the path that it leads to from the root.
Going on along a written path, up to the directory that holds a path and to its name are worked
out on the text alone, and come to following more pieces, dropping the last segment and reading it.
-/

namespace DependencyFiles

namespace Text

/-- No piece holds a separator. -/
theorem isSeparator_of_mem_pieces {isSeparator : Char → Bool} {text piece : List Char}
    (h : piece ∈ pieces isSeparator text) : ∀ c ∈ piece, isSeparator c = false := by
  induction text generalizing piece with
  | nil =>
    rw [pieces, List.mem_singleton] at h
    simp [h]
  | cons c rest ih =>
    unfold pieces at h
    split at h
    · rcases List.mem_cons.1 h with rfl | h
      · simp
      · exact ih h
    · rename_i hc
      have hthis : isSeparator c = false := by simpa using hc
      split at h
      · simpa [List.mem_singleton.1 h] using hthis
      · rename_i first more hpieces
        have hfirst : ∀ c ∈ first, isSeparator c = false := ih (hpieces ▸ List.mem_cons_self)
        rcases List.mem_cons.1 h with rfl | h
        · exact List.forall_mem_cons.2 ⟨hthis, hfirst⟩
        · exact ih (hpieces ▸ List.mem_cons_of_mem _ h)

/-- A separator stands between the texts at the start and those that follow. -/
theorem joinWith_append (separator : Char) {front back : List (List Char)} (hfront : front ≠ [])
    (hback : back ≠ []) :
    joinWith separator (front ++ back) =
      joinWith separator front ++ separator :: joinWith separator back := by
  induction front with
  | nil => exact absurd rfl hfront
  | cons first rest ih =>
    cases rest with
    | nil =>
      cases back with
      | nil => exact absurd rfl hback
      | cons next more => rfl
    | cons next more =>
      have hrest := ih (by simp)
      simp only [List.cons_append, joinWith] at hrest ⊢
      rw [hrest, List.append_assoc]
      rfl

/-- A text without the separator stands behind the last one. -/
theorem splitAtLast?_append_cons {separator : Char} (front : List Char) {back : List Char}
    (h : separator ∉ back) : splitAtLast? separator (front ++ separator :: back) = some (front, back) := by
  have hnone : splitAtLast? separator back = none := by
    induction back with
    | nil => rfl
    | cons c rest ih =>
      simp only [List.mem_cons, not_or] at h
      rw [splitAtLast?, ih h.2]
      exact if_neg (Ne.symm h.1)
  induction front with
  | nil => simp [splitAtLast?, hnone]
  | cons c front ih => rw [List.cons_append, splitAtLast?, ih]

end Text

open Text

namespace PathText

/-- The segments that a written path leads to from given ones: its pieces between slashes or
backslashes act on them one after the other. -/
def run (segments : List (List Char)) (written : List Char) : List (List Char) :=
  (written.splitOnP TreePath.isSeparator).foldl follow segments

/-- Slashes alone separate a text that has no backslash any more. -/
theorem pieces_slashed (written : List Char) :
    pieces (· == '/') (slashed written) = pieces TreePath.isSeparator written := by
  induction written with
  | nil => rfl
  | cons c rest ih =>
    have hslashed : slashed (c :: rest) = (if c = '\\' then '/' else c) :: slashed rest := rfl
    rw [hslashed, pieces, pieces, ih]
    by_cases hback : c = '\\'
    · subst hback
      rfl
    · simp [TreePath.isSeparator, hback]

/-- A text is cleaned by following it from the root. -/
theorem clean_eq (written : List Char) : clean written = ofSegments (run [] written) := by
  rw [clean, run, pieces_slashed, pieces_eq_splitOnP]

/-- A written path behind another one is followed after it. -/
theorem run_append (segments : List (List Char)) (first second : List Char) :
    run segments (first ++ '/' :: second) = run (run segments first) second := by
  rw [run, List.splitOnP_append_cons first second rfl, List.foldl_append]
  rfl

end PathText

namespace TreePath

open PathText

/-- A piece without separators leads on in the same way from a path and from its segments. -/
theorem names_follow (path : TreePath) {piece : List Char} (h : ∀ c ∈ piece, isSeparator c = false) :
    (path.follow piece).names = PathText.follow path.names piece := by
  have hchars : ∀ c ∈ (String.ofList piece).toList, c ≠ '/' ∧ c ≠ '\\' := by
    intro c hc
    rw [String.toList_ofList] at hc
    simpa [isSeparator] using h c hc
  have hword (word : List Char) : String.ofList piece = String.ofList word ↔ piece = word :=
    String.ofList_inj
  unfold TreePath.follow PathText.follow
  by_cases hup : piece = ['.', '.']
  · rw [if_pos hup, if_neg (by simp [hup]), if_pos hup]
    exact List.map_dropLast
  · rw [if_neg hup]
    by_cases hstay : piece = [] ∨ piece = ['.']
    · have hsegment : ¬IsSegment (String.ofList piece) := fun hsegment =>
        hstay.elim (fun hnil => hsegment.1 ((hword []).2 hnil))
          fun hdot => hsegment.2.1 ((hword ['.']).2 hdot)
      rw [dif_neg hsegment, if_pos hstay]
    · have hsegment : IsSegment (String.ofList piece) :=
        ⟨fun hnil => hstay (.inl ((hword []).1 hnil)), fun hdot => hstay (.inr ((hword ['.']).1 hdot)),
          fun hdots => hup ((hword ['.', '.']).1 hdots), hchars⟩
      rw [dif_pos hsegment, if_neg hstay, if_neg hup]
      simp [names]

/-- A written path leads from a path to what its pieces make of the segments. -/
theorem names_join (path : TreePath) (relative : String) :
    (path.join relative).names = run path.names relative.toList := by
  have hfold (steps : List (List Char)) (h : ∀ step ∈ steps, ∀ c ∈ step, isSeparator c = false)
      (start : TreePath) : (steps.foldl TreePath.follow start).names =
        steps.foldl PathText.follow start.names := by
    induction steps generalizing start with
    | nil => rfl
    | cons step rest ih =>
      rw [List.foldl_cons, List.foldl_cons, ih (fun s hs => h s (List.mem_cons_of_mem _ hs)),
        names_follow start (h step List.mem_cons_self)]
  rw [join, run, ← pieces_eq_splitOnP]
  exact hfold _ (fun step hstep => isSeparator_of_mem_pieces hstep) path

theorem names_ofString (written : String) : (ofString written).names = run [] written.toList :=
  names_join root written

/-- Cleaning a text gives the text of the path that it names. -/
theorem text_ofString (written : String) : (ofString written).text = PathText.clean written.toList := by
  rw [text_eq, names_ofString, clean_eq]

/-- A slash in front of a written path is of no account. -/
theorem join_slash (path : TreePath) (relative : List Char) :
    path.join (String.ofList ('/' :: relative)) = path.join (String.ofList relative) := by
  have hpieces : pieces isSeparator ('/' :: relative) = [] :: pieces isSeparator relative :=
    pieces_append_cons rfl [] relative
  have hstay : path.follow [] = path := rfl
  rw [join, join, String.toList_ofList, String.toList_ofList, hpieces, List.foldl_cons, hstay]

/-- The joined segments of a path lead on along it. -/
theorem join_joinSegments_segments (path rest : TreePath) :
    path.join (joinSegments rest.segments) = path ++ rest := by
  by_cases hnone : rest.segments = []
  · have hstay : path.join "" = path := rfl
    rw [hnone]
    exact hstay.trans (ext_segments (by simp [hnone]))
  · rw [join_joinSegments path hnone fun step hstep => isSeparator_of_isSegment (rest.clean step hstep)]
    exact ext_segments (foldl_follow_down path rest.clean)

/-- A path that is written down and read again is the same. -/
theorem ofString_toString (path : TreePath) : ofString path.toString = path :=
  ((join_slash root _).trans (join_joinSegments_segments root path)).trans (root_append path)

/-- The segments of a path are those that its text leads to. -/
theorem run_text (path : TreePath) : run [] path.text = path.names := by
  rw [text, ← names_ofString, ofString_toString]

/-- Going on along a written path is worked out on the text. -/
theorem text_join (path : TreePath) (relative : String) :
    (path.join relative).text = PathText.join path.text relative.toList := by
  rw [text_eq, names_join, PathText.join, clean_eq, run_append, run_text]

/-- Two written paths may be followed as one. -/
theorem join_join (path : TreePath) (first second : String) :
    (path.join first).join second = path.join (first ++ "/" ++ second) := by
  have hwritten : (first ++ "/" ++ second).toList = first.toList ++ '/' :: second.toList := by simp
  apply ext_names
  rw [names_join, names_join, names_join, hwritten, run_append]

end TreePath

/-! ## The last segment -/

namespace PathText

variable {front : List (List Char)} {last : List Char}

/-- The text of a path with a last segment is more than a slash. -/
theorem isRoot_ofSegments_concat (hsome : last ≠ []) : isRoot (ofSegments (front ++ [last])) = false := by
  have hchars : joinWith '/' (front ++ [last]) ≠ [] := by
    cases front with
    | nil => exact hsome
    | cons first rest => rw [joinWith_append '/' (by simp) (by simp)]; simp
  simpa [isRoot, ofSegments] using hchars

/-- The last slash stands before the last segment. -/
theorem splitAtLast?_ofSegments_concat (hslash : '/' ∉ last) :
    splitAtLast? '/' (ofSegments (front ++ [last])) =
      some (if front = [] then [] else ofSegments front, last) := by
  by_cases hfront : front = []
  · subst hfront
    exact splitAtLast?_append_cons [] hslash
  · rw [if_neg hfront, ofSegments, joinWith_append '/' hfront (by simp)]
    exact splitAtLast?_append_cons (ofSegments front) hslash

/-- The directory that holds a path has the segments before the last. -/
theorem parent?_ofSegments_concat (hslash : '/' ∉ last) (hsome : last ≠ []) :
    parent? (ofSegments (front ++ [last])) = some (ofSegments front) := by
  rw [parent?, isRoot_ofSegments_concat hsome, splitAtLast?_ofSegments_concat hslash]
  by_cases hfront : front = []
  · subst hfront
    rfl
  · simp [hfront, ofSegments]

/-- The name of a path is its last segment. -/
theorem name?_ofSegments_concat (hslash : '/' ∉ last) (hsome : last ≠ []) :
    name? (ofSegments (front ++ [last])) = some last := by
  rw [name?, isRoot_ofSegments_concat hsome, splitAtLast?_ofSegments_concat hslash]
  rfl

/-- The segments of a path are read off its text. -/
theorem segments_ofSegments {names : List (List Char)} (h : ∀ name ∈ names, name ≠ [] ∧ '/' ∉ name) :
    segments (ofSegments names) = names := by
  have hpieces : pieces (· == '/') (ofSegments names) = [] :: pieces (· == '/') (joinWith '/' names) :=
    pieces_append_cons rfl [] _
  have hfree : ∀ name ∈ names, ∀ c ∈ name, (c == '/') = false := fun name hname c hc =>
    beq_false_of_ne fun hslash => (h name hname).2 (hslash ▸ hc)
  by_cases hnone : names = []
  · subst hnone
    rfl
  · rw [segments, hpieces, pieces_joinWith rfl hnone hfree, List.filter_cons_of_neg (by simp),
      List.filter_eq_self]
    intro name hname
    simpa using (h name hname).1

end PathText

namespace TreePath

open PathText

/-- A path is the root or has a last segment. -/
theorem names_cases (path : TreePath) :
    path = root ∨ ∃ front last, path.names = front ++ [last] ∧ '/' ∉ last ∧ last ≠ [] := by
  rcases List.eq_nil_or_concat path.names with hnone | ⟨front, last, hnames⟩
  · exact .inl (ext_names hnone)
  · rw [List.concat_eq_append] at hnames
    obtain ⟨hsome, hslash⟩ := path.clean_names last (hnames ▸ List.mem_concat_self)
    exact .inr ⟨front, last, hnames, hslash, hsome⟩

/-- The root alone has no segments. -/
theorem isRoot_iff {path : TreePath} : path.isRoot = true ↔ path = root :=
  List.isEmpty_iff.trans ⟨fun h => ext_segments h, fun h => h ▸ rfl⟩

/-- The segments of the directory that holds a path are those before the last. -/
theorem names_up (path : TreePath) : path.up.names = path.names.dropLast := List.map_dropLast

/-- Going up is worked out on the text. -/
theorem text_parent? (path : TreePath) : path.parent?.map text = PathText.parent? path.text := by
  rcases path.names_cases with rfl | ⟨front, last, hnames, hslash, hsome⟩
  · rfl
  · have hroot : ¬path.isRoot = true := by
      rw [isRoot_iff]
      rintro rfl
      simp at hnames
    rw [parent?, if_neg hroot, Option.map_some, text_eq path, hnames,
      parent?_ofSegments_concat hslash hsome, text_eq, names_up, hnames, List.dropLast_concat]

/-- The name is read off the text. -/
theorem text_name? (path : TreePath) : path.name?.map String.toList = PathText.name? path.text := by
  have hlast : path.name?.map String.toList = path.names.getLast? := List.getLast?_map.symm
  rw [hlast]
  rcases path.names_cases with rfl | ⟨front, last, hnames, hslash, hsome⟩
  · rfl
  · rw [text_eq, hnames, name?_ofSegments_concat hslash hsome, List.getLast?_concat]

/-- The segments are read off the text. -/
theorem segments_text (path : TreePath) : PathText.segments path.text = path.names := by
  rw [text_eq, segments_ofSegments path.clean_names]

/-- The directory that holds a path and its name lead back to the path. -/
theorem exists_parent_of_ne_root {path : TreePath} (h : path ≠ root) :
    ∃ up name, path.parent? = some up ∧ path.name? = some name ∧ up.join name = path := by
  have hroot : ¬path.isRoot = true := mt isRoot_iff.1 h
  have hsome : path.segments ≠ [] := fun hnone => h (ext_segments hnone)
  have hname := path.clean _ (List.getLast_mem hsome)
  refine ⟨path.up, path.segments.getLast hsome, if_neg hroot, List.getLast?_eq_some_getLast hsome, ?_⟩
  rw [join_of_isSegment _ hname]
  exact ext_segments (List.dropLast_concat_getLast hsome)

/-- The clean texts are those of paths. -/
theorem range_clean : Set.range PathText.clean = Set.range text := by
  apply Set.Subset.antisymm
  · rintro _ ⟨written, rfl⟩
    exact ⟨ofString (String.ofList written), by rw [text_ofString, String.toList_ofList]⟩
  · rintro _ ⟨path, rfl⟩
    exact ⟨path.text, by rw [clean_eq, run_text, text_eq]⟩

/-- The segments that are read off a text of a path are those of the path. -/
theorem ofList_segments_text (path : TreePath) :
    (PathText.segments path.text).map String.ofList = path.segments := by
  rw [segments_text, names, List.map_map]
  exact List.map_id'' (fun _ => String.ofList_toList) _

/-- Clean texts and lists of clean segments determine each other. -/
theorem bijOn_segments :
    Set.BijOn (fun written => (PathText.segments written).map String.ofList) (Set.range PathText.clean)
      {segments | ∀ segment ∈ segments, IsSegment segment} := by
  rw [range_clean]
  refine ⟨?_, ?_, ?_⟩
  · rintro _ ⟨path, rfl⟩
    simp only [ofList_segments_text]
    exact path.clean
  · rintro _ ⟨path, rfl⟩ _ ⟨other, rfl⟩ hsame
    simp only [ofList_segments_text] at hsame
    rw [ext_segments hsame]
  · intro segments hsegments
    exact ⟨text ⟨segments, hsegments⟩, ⟨_, rfl⟩, ofList_segments_text ⟨segments, hsegments⟩⟩

/-- **A path is a list of clean segments.** The texts that cleaning gives correspond one to one to
the lists of clean segments, and cleaning a path again does not change it. A written path is
followed piece by piece, from the root when it is cleaned and from a path when it is joined to it;
what holds a path has its segments but the last, which is its name. All of this is worked out on
texts. So two written paths may be followed as one, and what holds a path leads to it by its name. -/
theorem path_as_segments :
    Set.BijOn (fun written => (PathText.segments written).map String.ofList) (Set.range PathText.clean)
        {segments | ∀ segment ∈ segments, IsSegment segment} ∧
      (∀ written : String, (ofString written).text = PathText.clean written.toList ∧
        (ofString written).names = run [] written.toList) ∧
      (∀ path : TreePath, ofString path.toString = path ∧ PathText.segments path.text = path.names) ∧
      (∀ (path : TreePath) (relative : String),
        (path.join relative).text = PathText.join path.text relative.toList ∧
          (path.join relative).names = run path.names relative.toList) ∧
      (∀ path : TreePath, path.parent?.map text = PathText.parent? path.text ∧
        path.parent?.map segments = if path = root then none else some path.segments.dropLast) ∧
      (∀ path : TreePath, path.name?.map String.toList = PathText.name? path.text ∧
        path.name? = path.segments.getLast?) ∧
      (∀ (path : TreePath) (first second : String),
        (path.join first).join second = path.join (first ++ "/" ++ second)) ∧
      ∀ path : TreePath, path ≠ root →
        ∃ up name, path.parent? = some up ∧ path.name? = some name ∧ up.join name = path := by
  have hparent (path : TreePath) :
      path.parent?.map segments = if path = root then none else some path.segments.dropLast := by
    unfold parent?
    simp only [isRoot_iff]
    split <;> rfl
  exact ⟨bijOn_segments, fun written => ⟨text_ofString written, names_ofString written⟩,
    fun path => ⟨path.ofString_toString, path.segments_text⟩,
    fun path relative => ⟨path.text_join relative, path.names_join relative⟩,
    fun path => ⟨path.text_parent?, hparent path⟩, fun path => ⟨path.text_name?, rfl⟩,
    fun path first second => path.join_join first second, fun _ => exists_parent_of_ne_root⟩

/-- The path of a specification two directories down, written with both separators and a detour. -/
def toolSpecification : TreePath := ofString "..\\gems//tool/./lib\\../tool.gemspec"

theorem path_as_segments_tool :
    toolSpecification ≠ root ∧ toolSpecification.segments = ["gems", "tool", "tool.gemspec"] ∧
      PathText.parent? toolSpecification.text = some "/gems/tool".toList ∧
      ∃ up name, toolSpecification.parent? = some up ∧ toolSpecification.name? = some name ∧
        up.join name = toolSpecification :=
  have hsegments : toolSpecification.segments = ["gems", "tool", "tool.gemspec"] := by decide
  have hroot : toolSpecification ≠ root := by decide
  have hparent : PathText.parent? toolSpecification.text = some "/gems/tool".toList := by decide
  ⟨hroot, hsegments, hparent, path_as_segments.2.2.2.2.2.2.2 toolSpecification hroot⟩

end TreePath

end DependencyFiles
