import DependencyFiles.Proofs.Cleaning

/-!
# Paths as seen from a directory

As seen from a base directory a path goes up once for every segment of the base beyond what
both share, and then down along its own remaining segments. Followed from the base, that leads
back to the path, however far up it goes.
-/

namespace DependencyFiles.TreePath

open Text

/-- What starts two lists is no longer than what they share. -/
theorem length_le_sharedLength {start segments others : List String} (h : start <+: segments)
    (h' : start <+: others) : start.length ≤ sharedLength segments others := by
  induction start generalizing segments others with
  | nil => exact Nat.zero_le _
  | cons segment rest ih =>
    obtain ⟨more, rfl⟩ := h
    obtain ⟨more', rfl⟩ := h'
    have hrest := ih (List.prefix_append rest more) (List.prefix_append rest more')
    simpa [sharedLength] using hrest

/-- The longest start that two lists share leaves the rest of each. -/
theorem exists_shared (segments others : List String) :
    ∃ shared down up, segments = shared ++ down ∧ others = shared ++ up ∧
      shared.length = sharedLength segments others ∧
      ∀ start, start <+: segments → start <+: others → start.length ≤ shared.length := by
  obtain ⟨hsame, hlength⟩ := take_sharedLength segments others
  have hshared : (segments.take (sharedLength segments others)).length = sharedLength segments others := by
    rw [hsame, List.length_take, Nat.min_eq_left hlength]
  refine ⟨_, segments.drop (sharedLength segments others), others.drop (sharedLength segments others),
    (List.take_append_drop _ _).symm, ?_, hshared, fun start h h' => ?_⟩
  · rw [hsame]
    exact (List.take_append_drop _ _).symm
  · rw [hshared]
    exact length_le_sharedLength h h'

/-- Segments that agree pair by pair are those that two paths share. -/
theorem length_takeWhile_zip (segments others : List String) :
    (((segments.map String.toList).zip (others.map String.toList)).takeWhile fun (a, b) => a == b).length =
      sharedLength segments others := by
  induction segments generalizing others with
  | nil => rfl
  | cons segment rest ih =>
    cases others with
    | nil => rfl
    | cons other more =>
      by_cases hsame : segment = other
      · simp [sharedLength, hsame, ih more]
      · simp [sharedLength, hsame, String.toList_inj]

/-- The form of a path as seen from a base is worked out on the texts. -/
theorem text_relativeTo (path base : TreePath) :
    (path.relativeTo base).toList = PathText.relativeTo path.text base.text := by
  have hsteps (n k : Nat) : List.replicate n ['.', '.'] ++ path.names.drop k =
      (List.replicate n ".." ++ path.segments.drop k).map String.toList := by
    rw [List.map_append, List.map_replicate, names, List.map_drop]
    rfl
  unfold PathText.relativeTo
  simp only [segments_text, hsteps]
  have hshared : ((path.names.zip base.names).takeWhile fun (a, b) => a == b).length =
      sharedLength path.segments base.segments := length_takeWhile_zip _ _
  have hlength : base.names.length = base.segments.length := List.length_map _
  rw [hshared, hlength, List.isEmpty_map]
  unfold relativeTo
  dsimp only
  split
  · rfl
  · exact String.toList_ofList

/-- As seen from a base a path goes up from what it does not share with it, and then down. -/
theorem relativeTo_eq {path base : TreePath} {shared down up : List String}
    (hpath : path.segments = shared ++ down) (hbase : base.segments = shared ++ up)
    (hshared : shared.length = sharedLength path.segments base.segments) :
    path.relativeTo base = if path = base then "." else
      joinSegments (List.replicate up.length ".." ++ down) := by
  have hsteps : List.replicate (base.segments.length - shared.length) ".." ++
      path.segments.drop shared.length = List.replicate up.length ".." ++ down := by
    rw [hpath, hbase, List.drop_left, List.length_append, Nat.add_sub_cancel_left]
  have hempty : (List.replicate up.length ".." ++ down).isEmpty = true ↔ path = base := by
    constructor
    · intro hnone
      simp only [List.isEmpty_iff, List.append_eq_nil_iff, List.replicate_eq_nil_iff,
        List.length_eq_zero_iff] at hnone
      exact ext_segments (by rw [hpath, hbase, hnone.1, hnone.2])
    · rintro rfl
      have hall : path.segments.length ≤ shared.length := by
        rw [hshared]
        exact length_le_sharedLength (List.prefix_refl _) (List.prefix_refl _)
      have hnone {rest : List String} (h : path.segments = shared ++ rest) : rest = [] := by
        rw [h, List.length_append] at hall
        exact List.length_eq_zero_iff.1 (by omega)
      rw [hnone hpath, hnone hbase]
      rfl
  unfold relativeTo
  dsimp only
  rw [← hshared, hsteps]
  simp only [hempty]

/-- **Seen from a directory, a path leads back to itself.** From a base directory it is a dot
when it is the base, and otherwise as many steps up as the base has segments beyond the longest
start that it shares with the path, followed by the path's remaining segments. Following that from
the base leads to the path, so that different paths never look the same from one base. -/
theorem relativeTo_shared (path base : TreePath) :
    base.join (path.relativeTo base) = path ∧
      (path.relativeTo base).toList = PathText.relativeTo path.text base.text ∧
      (∃ shared down up, path.segments = shared ++ down ∧ base.segments = shared ++ up ∧
        (∀ start, start <+: path.segments → start <+: base.segments → start.length ≤ shared.length) ∧
        path.relativeTo base = if path = base then "." else
          joinSegments (List.replicate up.length ".." ++ down)) ∧
      Function.Injective fun other : TreePath => other.relativeTo base := by
  obtain ⟨shared, down, up, hpath, hbase, hshared, hlongest⟩ := exists_shared path.segments base.segments
  refine ⟨join_relativeTo path base, text_relativeTo path base,
    ⟨shared, down, up, hpath, hbase, hlongest, relativeTo_eq hpath hbase hshared⟩, ?_⟩
  intro first second hsame
  calc first
      _ = base.join (first.relativeTo base) := (join_relativeTo first base).symm
      _ = base.join (second.relativeTo base) := congrArg base.join hsame
      _ = second := join_relativeTo second base

/-- A name that extends another one shares no segment with it. -/
example : (ofString "/plugins/core").relativeTo (ofString "/plug/in") = "../../plugins/core" := by decide

end DependencyFiles.TreePath
