import DependencyFiles.Proofs.Cleaning
import Mathlib.Data.String.Basic
import Mathlib.Order.Defs.Unbundled

/-!
# Paths beneath paths

Whether a path lies beneath another one is told from their texts: it goes on behind the other
with a slash, so that a name that merely extends another one is not taken for it. That is the same
as the segments of one starting the segments of the other. What stands behind, the directories
above and the order of texts all agree with it.
-/

namespace DependencyFiles

open Text

namespace PathText

/-- What starts with a segment does not start with a slash. -/
theorem dropWhile_joinWith {names : List (List Char)} (h : ∀ name ∈ names, name ≠ [] ∧ '/' ∉ name) :
    (joinWith '/' names).dropWhile (· == '/') = joinWith '/' names := by
  have hfirst {name : List Char} (hname : name ≠ [] ∧ '/' ∉ name) (rest : List Char) :
      (name ++ rest).dropWhile (· == '/') = name ++ rest := by
    obtain ⟨hsome, hslash⟩ := hname
    cases name with
    | nil => exact absurd rfl hsome
    | cons c name =>
      have hc : ¬(c == '/') = true := fun hc => hslash (by simp [beq_iff_eq.1 hc])
      exact List.dropWhile_cons_of_neg hc
  cases names with
  | nil => rfl
  | cons name more =>
    have hname := h name List.mem_cons_self
    cases more with
    | nil => simpa [joinWith] using hfirst hname []
    | cons next others => exact hfirst hname _

/-- The segments before a slash and those behind it are the segments of a text. -/
theorem segments_append (path rest : List Char) :
    segments (path ++ '/' :: rest) = segments path ++ segments rest := by
  rw [segments, pieces_append_cons rfl, List.filter_append]
  rfl

/-- Above a path is the directory that holds it, and then all that is above that. -/
theorem ancestors_of_parent? {path up : List Char} (h : parent? path = some up) :
    ancestors path = up :: ancestors up := by
  rw [ancestors]
  split
  · rw [h] at *
    contradiction
  · rename_i up' hup
    rw [Option.some_inj.1 (hup.symm.trans h)]

/-- A path starts with another one that is the root, is the path, or goes on with a slash. -/
theorem startsWith_iff {path other : List Char} : startsWith path other = true ↔
    isRoot other = true ∨ path = other ∨ ∃ tail, path = other ++ '/' :: tail := by
  have hgoes : (after? other path).any (fun rest => rest.head? == some '/') = true ↔
      ∃ tail, path = other ++ '/' :: tail := by
    rw [Option.any_eq_true_iff_get]
    constructor
    · rintro ⟨hsome, hslash⟩
      obtain ⟨tail, htail⟩ := List.head?_eq_some_iff.1 (beq_iff_eq.1 hslash)
      have hrest : other ++ (after? other path).get hsome = path :=
        List.isPrefixOf?_eq_some_iff_append_eq.1 (Option.some_get hsome).symm
      exact ⟨tail, by rw [← hrest, htail]⟩
    · rintro ⟨tail, rfl⟩
      have hafter : after? other (other ++ '/' :: tail) = some ('/' :: tail) :=
        List.isPrefixOf?_eq_some_iff_append_eq.2 rfl
      simp [hafter]
  rw [startsWith, Bool.or_eq_true, Bool.or_eq_true, beq_iff_eq, hgoes, or_assoc]

end PathText

namespace TreePath

variable {path other : TreePath}

/-- A path lies within another one when the segments of that one start its own. -/
theorem isWithin_iff : path.isWithin other = true ↔ other.segments <+: path.segments :=
  List.isPrefixOf_iff_prefix

/-- A path lies within another one when it leads on from there. -/
theorem isWithin_iff_append : path.isWithin other = true ↔ ∃ rest, path = other ++ rest := by
  constructor
  · intro h
    exact ⟨path.drop other.segments.length,
      ext_segments (List.prefix_iff_eq_append.1 (isWithin_iff.1 h)).symm⟩
  · rintro ⟨rest, rfl⟩
    exact isWithin_append other rest

theorem isWithin_refl (path : TreePath) : path.isWithin path = true :=
  isWithin_iff.2 (List.prefix_refl _)

/-! ## Texts of paths beneath paths -/

/-- The text of a path without the slash at its start. -/
theorem dropWhile_text (path : TreePath) : path.text.dropWhile (· == '/') = joinWith '/' path.names := by
  rw [text_eq, PathText.ofSegments, List.dropWhile_cons_of_pos (by simp),
    PathText.dropWhile_joinWith path.clean_names]

/-- The text of a path that leads on is written behind that of the path that it leads on from. -/
theorem text_append {path rest : TreePath} (hpath : path ≠ root) (hrest : rest ≠ root) :
    (path ++ rest).text = path.text ++ rest.text := by
  have hnames {p : TreePath} (hp : p ≠ root) : p.names ≠ [] := fun hnone => hp (ext_names hnone)
  have happend : (path ++ rest).names = path.names ++ rest.names := List.map_append
  rw [text_eq, happend, PathText.ofSegments, joinWith_append '/' (hnames hpath) (hnames hrest),
    text_eq, text_eq]
  rfl

theorem append_root (path : TreePath) : path ++ root = path :=
  ext_segments (List.append_nil _)

/-- Paths with the same text are the same. -/
theorem text_injective (h : path.text = other.text) : path = other :=
  toString_injective (String.toList_inj.1 h)

/-- Only the text of the root is a single slash. -/
theorem isRoot_text (path : TreePath) : PathText.isRoot path.text = true ↔ path = root := by
  constructor
  · intro h
    have htext : path.text = root.text := beq_iff_eq.1 h
    exact text_injective htext
  · rintro rfl
    rfl

/-- Texts tell whether a path lies within another one. -/
theorem startsWith_text (path other : TreePath) :
    PathText.startsWith path.text other.text = path.isWithin other := by
  rw [Bool.eq_iff_iff, PathText.startsWith_iff, isRoot_text]
  constructor
  · rintro (rfl | hsame | ⟨tail, htail⟩)
    · exact isWithin_iff.2 List.nil_prefix
    · rw [text_injective hsame]
      exact isWithin_refl other
    · -- What goes on behind a slash goes on by whole segments.
      have hnames : path.names = other.names ++ PathText.segments tail := by
        rw [← segments_text, htail, PathText.segments_append, segments_text]
      exact isWithin_iff.2 ((List.prefix_map_iff_of_injective fun _ _ => String.toList_inj.1).1
        ⟨_, hnames.symm⟩)
  · intro h
    obtain ⟨rest, rfl⟩ := isWithin_iff_append.1 h
    by_cases hother : other = root
    · exact .inl hother
    · by_cases hrest : rest = root
      · subst hrest
        exact .inr (.inl (congrArg text other.append_root))
      · have hslash : rest.text = '/' :: joinWith '/' rest.names := text_eq rest
        exact .inr (.inr ⟨joinWith '/' rest.names, by rw [text_append hother hrest, hslash]⟩)

/-- What stands behind a path is joined from the segments that it leaves. -/
theorem beneath?_eq (path other : TreePath) :
    path.beneath? other = if path.isWithin other then
      some (joinSegments (path.segments.drop other.segments.length)) else none := by
  unfold beneath? segmentsBeneath?
  split
  · rename_i h
    rw [List.isPrefixOf?_eq_some_iff_append_eq.2 (List.prefix_iff_eq_append.1 (isWithin_iff.1 h))]
    rfl
  · rename_i h
    have hnone : (other.segments.isPrefixOf? path.segments).isSome = false := by
      rw [List.isSome_isPrefixOf?_eq_isPrefixOf]
      exact Bool.not_eq_true _ ▸ h
    rw [Option.isSome_eq_false_iff.1 hnone |> Option.isNone_iff_eq_none.1]
    rfl

/-- What stands behind a path is cut from the text. -/
theorem text_beneath? (path other : TreePath) :
    (path.beneath? other).map String.toList = PathText.beneath? path.text other.text := by
  rw [beneath?_eq, PathText.beneath?, startsWith_text]
  by_cases h : path.isWithin other = true
  · obtain ⟨rest, rfl⟩ := isWithin_iff_append.1 h
    rw [if_pos h, if_pos h, Option.map_some, Option.some_inj, segments_append, List.drop_left, joinSegments,
      String.toList_ofList]
    change joinWith '/' rest.names = _
    by_cases hother : other = root
    · subst hother
      rw [if_pos ((isRoot_text root).2 rfl), root_append, dropWhile_text]
    · rw [if_neg (mt (isRoot_text other).1 hother)]
      by_cases hrest : rest = root
      · subst hrest
        rw [append_root, List.drop_length]
        rfl
      · rw [text_append hother hrest, List.drop_left, dropWhile_text]
  · rw [if_neg h, if_neg h]
    rfl

/-- What stands behind a path leads from there to the path again. -/
theorem join_beneath? (path other : TreePath) :
    (path.beneath? other).map other.join = if path.isWithin other then some path else none := by
  rw [beneath?_eq]
  split
  · rename_i h
    obtain ⟨rest, rfl⟩ := isWithin_iff_append.1 h
    rw [Option.map_some, segments_append, List.drop_left, join_joinSegments_segments]
  · rfl

/-! ## Directories above a path -/

/-- A path that is not the root is one segment longer than the directory that holds it. -/
theorem length_segments_of_ne_root (h : path ≠ root) :
    path.segments.length = path.up.segments.length + 1 := by
  have hpositive := List.length_pos_iff.2 fun hnone : path.segments = [] => h (ext_segments hnone)
  rw [segments_up, List.length_dropLast]
  omega

/-- Above a path are the directory that holds it and all that is above that. -/
theorem ancestors_of_ne_root (h : path ≠ root) : path.ancestors = path.up :: path.up.ancestors := by
  have hlength := length_segments_of_ne_root h
  have htake (n : Nat) (hn : n ≤ path.up.segments.length) : path.take n = path.up.take n := by
    apply ext_segments
    rw [segments_take, segments_take, segments_up, List.dropLast_eq_take, List.take_take,
      Nat.min_eq_left (by omega)]
  have hup : path.up.take path.up.segments.length = path.up := ext_segments (List.take_length ..)
  rw [ancestors, hlength, List.range_succ, List.reverse_concat, List.map_cons,
    htake _ (Nat.le_refl _), hup]
  refine congrArg (path.up :: ·) (List.map_congr_left fun n hn => htake n ?_)
  exact (List.mem_range.1 (List.mem_reverse.1 hn)).le

/-- The directories above a path are found on its text. -/
theorem text_ancestors (path : TreePath) : path.ancestors.map text = PathText.ancestors path.text := by
  induction hn : path.segments.length generalizing path with
  | zero =>
    obtain rfl : path = root := ext_segments (List.length_eq_zero_iff.1 hn)
    rw [PathText.ancestors]
    rfl
  | succ n ih =>
    have hroot : path ≠ root := by
      rintro rfl
      cases hn
    have hparent : PathText.parent? path.text = some path.up.text := by
      rw [← text_parent?, parent?, if_neg (mt isRoot_iff.1 hroot), Option.map_some]
    rw [ancestors_of_ne_root hroot, PathText.ancestors_of_parent? hparent, List.map_cons,
      ih path.up (by rw [segments_up, List.length_dropLast, hn, Nat.add_sub_cancel])]

/-- The directories above a path are what it lies within, but itself. -/
theorem mem_ancestors : other ∈ path.ancestors ↔ other ≠ path ∧ path.isWithin other = true := by
  rw [isWithin_iff]
  constructor
  · intro h
    obtain ⟨n, hn, rfl⟩ := List.mem_map.1 h
    have hlength := List.mem_range.1 (List.mem_reverse.1 hn)
    refine ⟨fun hsame => ?_, List.take_prefix _ _⟩
    have hshort := congrArg (fun p => p.segments.length) hsame
    rw [segments_take, List.length_take] at hshort
    omega
  · rintro ⟨hne, hstart⟩
    have hshort : other.segments.length < path.segments.length :=
      Nat.lt_of_le_of_ne hstart.length_le fun hsame => hne (ext_segments (hstart.eq_of_length hsame))
    refine List.mem_map.2 ⟨other.segments.length, ?_, ext_segments (List.prefix_iff_eq_take.1 hstart).symm⟩
    exact List.mem_reverse.2 (List.mem_range.2 hshort)

/-- The text of a path starts with that of what the path lies within. -/
theorem text_starts (h : path.isWithin other = true) : other.text <+: path.text := by
  obtain ⟨rest, rfl⟩ := isWithin_iff_append.1 h
  by_cases hother : other = root
  · rw [hother, text_root, text_eq]
    exact List.prefix_append ['/'] _
  · by_cases hrest : rest = root
    · exact ⟨[], by rw [hrest, append_root, List.append_nil]⟩
    · exact ⟨rest.text, (text_append hother hrest).symm⟩

/-- The directories above a path come longest first. -/
theorem pairwise_ancestors (path : TreePath) : path.ancestors.Pairwise fun longer shorter =>
    shorter.segments.length < longer.segments.length ∧ shorter.text.length < longer.text.length := by
  rw [ancestors, List.pairwise_map, List.pairwise_reverse]
  refine List.pairwise_lt_range.imp_of_mem fun {n m} _ hm hlt => ?_
  have hlength := List.mem_range.1 hm
  have hsegments : (path.take n).segments.length < (path.take m).segments.length := by
    simp only [segments_take, List.length_take]
    omega
  have hwithin : (path.take m).isWithin (path.take n) = true :=
    isWithin_iff.2 (List.take_prefix_take_left hlt.le)
  refine ⟨hsegments, Nat.lt_of_le_of_ne (text_starts hwithin).length_le fun hsame => ?_⟩
  rw [text_injective ((text_starts hwithin).eq_of_length hsame)] at hsegments
  exact Nat.lt_irrefl _ hsegments

/-- The root is the last directory above a path. -/
theorem getLast?_ancestors (path : TreePath) :
    path.ancestors.getLast? = if path = root then none else some root := by
  have hnone : path.segments.length = 0 ↔ path = root :=
    List.length_eq_zero_iff.trans ⟨fun h => ext_segments h, fun h => h ▸ rfl⟩
  have hroot : path.take 0 = root := rfl
  rw [ancestors, List.getLast?_map, List.getLast?_reverse, List.head?_range]
  simp only [hnone]
  split
  · rfl
  · exact congrArg some hroot

/-! ## The order of paths -/

/-- Paths are in the order of their texts. -/
theorem compare_isLE_iff : (compare other path).isLE = true ↔ other.toString ≤ path.toString :=
  isLE_compareOfLessAndEq le_antisymm not_le le_total

/-- What a path lies within does not come after it. -/
theorem compare_isLE_of_isWithin (h : path.isWithin other = true) : (compare other path).isLE = true :=
  compare_isLE_iff.2 (not_lt.1 fun hbefore => (text_starts h).le hbefore)

theorem isPartialOrder_isWithin : IsPartialOrder TreePath fun path other => path.isWithin other = true where
  refl := isWithin_refl
  trans _ _ _ := isWithin_trans
  antisymm _ _ := isWithin_antisymm

/-- **Texts and segments agree on what lies beneath what.** The test on texts says of two paths that
one lies within the other exactly when the segments of the other start its own; what stands behind
the other is then cut from the text, is joined from the remaining segments, and leads from there to
the path again. The directories above a path are all that it lies within, but itself, each once,
the longest first and the root last. To lie within is a partial order, and what a path lies within
does not come after it in the order of paths. -/
theorem beneath_by_text (path other : TreePath) :
    (PathText.startsWith path.text other.text = path.isWithin other ∧
        (path.isWithin other = true ↔ other.segments <+: path.segments)) ∧
      ((path.beneath? other).map String.toList = PathText.beneath? path.text other.text ∧
        (path.beneath? other = if path.isWithin other then
          some (joinSegments (path.segments.drop other.segments.length)) else none) ∧
        (path.beneath? other).map other.join = if path.isWithin other then some path else none) ∧
      (path.ancestors.map text = PathText.ancestors path.text ∧
        (other ∈ path.ancestors ↔ other ≠ path ∧ path.isWithin other = true) ∧ path.ancestors.Nodup ∧
        (path.ancestors.Pairwise fun longer shorter =>
          shorter.segments.length < longer.segments.length ∧ shorter.text.length < longer.text.length) ∧
        path.ancestors.getLast? = if path = root then none else some root) ∧
      (IsPartialOrder TreePath fun p q => p.isWithin q = true) ∧
      (path.isWithin other = true → (compare other path).isLE = true) := by
  have hnodup : path.ancestors.Nodup := path.pairwise_ancestors.imp fun hlength hsame =>
    absurd hlength.1 (by simp [hsame])
  exact ⟨⟨startsWith_text path other, isWithin_iff⟩,
    ⟨text_beneath? path other, beneath?_eq path other, join_beneath? path other⟩,
    ⟨text_ancestors path, mem_ancestors, hnodup, pairwise_ancestors path, getLast?_ancestors path⟩,
    isPartialOrder_isWithin, compare_isLE_of_isWithin⟩

/-- A directory of plugins, one of its plugins, and a directory whose name starts the same. -/
def plugins : TreePath := ofString "plugins"

def pluginLibrary : TreePath := ofString "plugins/größe/lib"

def plug : TreePath := ofString "plug"

theorem beneath_by_text_plugins :
    pluginLibrary.isWithin plugins = true ∧ PathText.startsWith pluginLibrary.text plug.text = false ∧
      PathText.beneath? pluginLibrary.text plugins.text = some "größe/lib".toList ∧
      (compare plugins pluginLibrary).isLE = true :=
  have hwithin : pluginLibrary.isWithin plugins = true := by decide
  have hplug : PathText.startsWith pluginLibrary.text plug.text = false := by decide
  have hbeneath : PathText.beneath? pluginLibrary.text plugins.text = some "größe/lib".toList := by decide
  ⟨hwithin, hplug, hbeneath, (beneath_by_text pluginLibrary plugins).2.2.2.2 hwithin⟩

end TreePath

end DependencyFiles
