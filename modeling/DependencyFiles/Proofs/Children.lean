import DependencyFiles.Proofs.Directories
import DependencyFiles.Proofs.Prefixes
import Mathlib.Data.List.TakeWhile

/-!
# Children of a directory

The children of a directory of a repository are the paths right beneath it that a node is at or
lies beneath, in ascending order. A scan of all nodes in ascending order that shows each at the
child that leads to it, unless that child is shown already, comes to the same: a node at a child
itself sorts before all that lies beneath the child, and is shown first.
-/

namespace DependencyFiles

namespace TreePath

/-! ## Ascending paths -/

/-- Each path comes before those behind it. -/
def Ascending (paths : List TreePath) : Prop := paths.Pairwise fun p q => compare p q = .lt

theorem compare_eq_lt_iff {p q : TreePath} : compare p q = .lt ↔ p.toString < q.toString :=
  compareOfLessAndEq_eq_lt

theorem compare_eq_gt_iff {p q : TreePath} : compare p q = .gt ↔ q.toString < p.toString :=
  compareOfLessAndEq_eq_gt le_antisymm le_total not_le _ _

theorem compare_lt_trans {p q r : TreePath} (hpq : compare p q = .lt) (hqr : compare q r = .lt) :
    compare p r = .lt :=
  compare_eq_lt_iff.2 ((compare_eq_lt_iff.1 hpq).trans (compare_eq_lt_iff.1 hqr))

theorem compare_lt_asymm {p q : TreePath} (h : compare p q = .lt) : ¬compare q p = .lt := fun h' =>
  lt_asymm (compare_eq_lt_iff.1 h) (compare_eq_lt_iff.1 h')

/-- What a path lies strictly within comes before it. -/
theorem compare_lt_of_isWithin {p q : TreePath} (h : p.isWithin q = true) (hne : q ≠ p) :
    compare q p = .lt :=
  compare_eq_lt_iff.2 (lt_of_le_of_ne (compare_isLE_iff.1 (compare_isLE_of_isWithin h))
    fun hsame => hne (toString_injective hsame))

/-- A path is entered into ascending paths where it belongs. -/
theorem ascending_insertSorted (path : TreePath) {paths : List TreePath} (h : Ascending paths) :
    Ascending (insertSorted path paths) := by
  induction paths with
  | nil => exact List.pairwise_singleton _ _
  | cons first rest ih =>
    obtain ⟨hfirst, hrest⟩ := List.pairwise_cons.1 h
    unfold insertSorted
    split
    · rename_i hlt
      refine List.pairwise_cons.2 ⟨fun other hother => ?_, h⟩
      rcases List.mem_cons.1 hother with rfl | hother
      · exact hlt
      · exact compare_lt_trans hlt (hfirst other hother)
    · exact h
    · rename_i hgt
      refine List.pairwise_cons.2 ⟨fun other hother => ?_, ih hrest⟩
      rcases mem_insertSorted.1 hother with rfl | hother
      · exact compare_eq_lt_iff.2 (compare_eq_gt_iff.1 hgt)
      · exact hfirst other hother

theorem ascending_sort (paths : List TreePath) : Ascending (sort paths) := by
  induction paths with
  | nil => exact List.Pairwise.nil
  | cons path rest ih => exact ascending_insertSorted path ih

/-- Ascending paths are told by which they are. -/
theorem Ascending.eq {paths others : List TreePath} (h : Ascending paths) (h' : Ascending others)
    (hmem : ∀ path, path ∈ paths ↔ path ∈ others) : paths = others := by
  have hnodup {paths : List TreePath} (h : Ascending paths) : paths.Nodup :=
    h.imp fun hlt hsame => by
      rw [hsame] at hlt
      exact compare_lt_asymm hlt hlt
  refine List.Perm.eq_of_pairwise (fun p q _ _ hpq hqp => ?_) h h'
    ((List.perm_ext_iff_of_nodup (hnodup h) (hnodup h')).2 hmem)
  exact absurd hqp (compare_lt_asymm hpq)

/-! ## Children -/

theorem parent?_eq_some_iff {child path : TreePath} :
    child.parent? = some path ↔ child ≠ root ∧ child.up = path := by
  unfold parent?
  simp only [isRoot_iff]
  split <;> simp_all

/-- What lies within a child lies strictly within the directory, and leads there over the child. -/
theorem isWithin_child_iff {child path : TreePath} (h : child.parent? = some path) (inner : TreePath) :
    inner.isWithin child = true ↔
      (inner ≠ path ∧ inner.isWithin path = true) ∧ inner.take (path.segments.length + 1) = child := by
  obtain ⟨hroot, rfl⟩ := parent?_eq_some_iff.1 h
  have hlength := length_segments_of_ne_root hroot
  constructor
  · intro hwithin
    obtain ⟨rest, rfl⟩ := isWithin_iff_append.1 hwithin
    refine ⟨⟨fun hsame => ?_, isWithin_trans hwithin child.isWithin_up⟩, ext_segments ?_⟩
    · have hshort := congrArg (fun p => p.segments.length) hsame
      rw [segments_append, List.length_append] at hshort
      omega
    · rw [segments_take, segments_append, List.take_left' hlength]
  · rintro ⟨-, htake⟩
    rw [← htake]
    exact isWithin_iff.2 (List.take_prefix _ _)

/-- What lies strictly within a directory leads there over a child. -/
theorem parent?_take {inner path : TreePath} (hne : inner ≠ path) (hwithin : inner.isWithin path = true) :
    (inner.take (path.segments.length + 1)).parent? = some path := by
  refine parent?_eq_some_iff.2 ⟨fun hroot => ?_, up_take hwithin hne⟩
  have hnone : inner.segments = [] := by
    simpa using congrArg segments hroot
  have hstart := isWithin_iff.1 hwithin
  rw [hnone, List.prefix_nil] at hstart
  exact hne (ext_segments (hnone.trans hstart.symm))

/-- The first of several segments is what stands before the first slash. -/
theorem takeWhile_joinSegments {name : String} (h : IsSegment name) (more : List String) :
    (joinSegments (name :: more)).toList.takeWhile (· ≠ '/') = name.toList := by
  have hname : ∀ c ∈ name.toList, decide (c ≠ '/') = true := fun c hc => decide_eq_true (h.2.2.2 c hc).1
  rw [joinSegments, String.toList_ofList]
  cases more with
  | nil => exact List.takeWhile_eq_self_iff.2 hname
  | cons next others =>
    change (name.toList ++ '/' :: _).takeWhile _ = _
    rw [List.takeWhile_append_of_pos hname, List.takeWhile_cons_of_neg (by simp), List.append_nil]

theorem joinSegments_cons_ne {name : String} (h : IsSegment name) (more : List String) :
    joinSegments (name :: more) ≠ "" := by
  intro hnothing
  have hname := takeWhile_joinSegments h more
  rw [hnothing] at hname
  exact h.1 (String.toList_inj.1 hname.symm)

end TreePath

namespace Repository

variable {repository : Repository} {path : TreePath}

/-- The children of a directory are the paths right beneath it at which or beneath which there is a node. -/
theorem mem_children {child : TreePath} : child ∈ repository.children path ↔
    child.parent? = some path ∧ ∃ entry ∈ repository.nodes, entry.1.isWithin child = true := by
  unfold children
  simp only [TreePath.mem_sort, List.mem_map, List.mem_filter, Bool.and_eq_true, bne_iff_ne]
  constructor
  · rintro ⟨entry, ⟨hentry, hne, hwithin⟩, rfl⟩
    have hparent := TreePath.parent?_take hne hwithin
    exact ⟨hparent, entry, hentry, (TreePath.isWithin_child_iff hparent _).2 ⟨⟨hne, hwithin⟩, rfl⟩⟩
  · rintro ⟨hparent, entry, hentry, hwithin⟩
    obtain ⟨⟨hne, hpath⟩, hchild⟩ := (TreePath.isWithin_child_iff hparent _).1 hwithin
    exact ⟨entry, ⟨hentry, hne, hpath⟩, hchild⟩

/-! ## Listing by a scan of the nodes -/

/-- Enter an entry among entries that ascend by their paths, unless there is one of its path. -/
def enterAbsent (entry : Entry) : List Entry → List Entry
  | [] => [entry]
  | first :: rest =>
    match compare entry.path first.path with
    | .lt => entry :: first :: rest
    | .eq => first :: rest
    | .gt => first :: enterAbsent entry rest

/-- Show a node among the children of a directory that it lies beneath: as itself when it is a child,
and otherwise as a directory at the first segment that leads to it. -/
def showNode (path : TreePath) (shown : List Entry) (item : TreePath × Node) : List Entry :=
  match item.1.beneath? path with
  | none => shown
  | some rest =>
    if rest = "" then shown
    else
      let child := path.join (String.ofList (rest.toList.takeWhile (· ≠ '/')))
      enterAbsent (if child = item.1 then item.2.entry item.1 else .ofDirectory child) shown

/-- The nodes of a repository in ascending order of their paths. -/
def sortedNodes (repository : Repository) : List (TreePath × Node) :=
  (TreePath.sort (repository.nodes.map Prod.fst)).filterMap fun path =>
    (repository.node? path).map (path, ·)

/-- The children of a directory, shown by all nodes one after the other. -/
def scan (repository : Repository) (path : TreePath) : List Entry :=
  repository.sortedNodes.foldl (showNode path) []

theorem map_path_enterAbsent (entry : Entry) (shown : List Entry) :
    (enterAbsent entry shown).map Entry.path = TreePath.insertSorted entry.path (shown.map Entry.path) := by
  induction shown with
  | nil => rfl
  | cons first rest ih =>
    rw [List.map_cons, enterAbsent, TreePath.insertSorted]
    cases compare entry.path first.path with
    | lt => rfl
    | eq => rfl
    | gt => rw [← ih]; rfl

/-- What is shown afterwards was shown before, or is the entry, of whose path there was none. -/
theorem mem_of_enterAbsent {entry other : Entry} {shown : List Entry}
    (hascending : TreePath.Ascending (shown.map Entry.path)) (h : other ∈ enterAbsent entry shown) :
    other ∈ shown ∨ other = entry ∧ entry.path ∉ shown.map Entry.path := by
  induction shown with
  | nil => exact .inr ⟨List.mem_singleton.1 h, List.not_mem_nil⟩
  | cons first rest ih =>
    obtain ⟨hfirst, hrest⟩ := List.pairwise_cons.1 hascending
    unfold enterAbsent at h
    split at h
    · rename_i hlt
      rcases List.mem_cons.1 h with rfl | h
      · refine .inr ⟨rfl, fun hmem => ?_⟩
        rcases List.mem_cons.1 hmem with hsame | hmem
        · rw [hsame] at hlt
          exact TreePath.compare_lt_asymm hlt hlt
        · exact TreePath.compare_lt_asymm hlt (hfirst _ hmem)
      · exact .inl h
    · exact .inl h
    · rename_i hgt
      rcases List.mem_cons.1 h with rfl | h
      · exact .inl List.mem_cons_self
      · rcases ih hrest h with h | ⟨rfl, habsent⟩
        · exact .inl (List.mem_cons_of_mem _ h)
        · refine .inr ⟨rfl, fun hmem => ?_⟩
          rcases List.mem_cons.1 hmem with hsame | hmem
          · rw [TreePath.compare_eq_gt_iff, hsame] at hgt
            exact lt_irrefl _ hgt
          · exact habsent hmem

/-- A node is shown where the segment behind the directory leads. -/
theorem showNode_eq (path : TreePath) (shown : List Entry) (item : TreePath × Node) :
    showNode path shown item =
      if item.1 ≠ path ∧ item.1.isWithin path = true then
        enterAbsent (if item.1.take (path.segments.length + 1) = item.1 then item.2.entry item.1
          else .ofDirectory (item.1.take (path.segments.length + 1))) shown
      else shown := by
  obtain ⟨inner, node⟩ := item
  rw [showNode, TreePath.beneath?_eq]
  by_cases hwithin : inner.isWithin path = true
  · obtain ⟨rest, rfl⟩ := TreePath.isWithin_iff_append.1 hwithin
    rw [if_pos hwithin, TreePath.segments_append, List.drop_left]
    dsimp only
    cases hrest : rest.segments with
    | nil =>
      have hself : path ++ rest = path := TreePath.ext_segments (by simp [hrest])
      have hnothing : TreePath.joinSegments [] = "" := rfl
      rw [if_pos hnothing, if_neg (by simp [hself])]
    | cons name more =>
      have hname : IsSegment name := rest.clean name (by simp [hrest])
      have hbeneath : path ++ rest ≠ path ∧ (path ++ rest).isWithin path = true := by
        refine ⟨fun hself => ?_, hwithin⟩
        have hlength := congrArg (fun p => p.segments.length) hself
        simp [hrest] at hlength
      have hchild : path.push name hname = (path ++ rest).take (path.segments.length + 1) :=
        TreePath.ext_segments (by simp [hrest, List.take_length_add_append])
      rw [if_neg (TreePath.joinSegments_cons_ne hname more), TreePath.takeWhile_joinSegments hname,
        String.ofList_toList, TreePath.join_of_isSegment path hname, hchild, if_pos hbeneath]
  · rw [if_neg hwithin, if_neg (by simp [hwithin])]

/-- After a part of the nodes, exactly the children that one of them is or lies beneath are shown, each
as the repository shows it. -/
structure ScannedUpTo (repository : Repository) (path : TreePath) (done : List (TreePath × Node))
    (shown : List Entry) : Prop where
  ascending : TreePath.Ascending (shown.map Entry.path)
  mem_iff : ∀ child, child ∈ shown.map Entry.path ↔
    child.parent? = some path ∧ ∃ item ∈ done, item.1.isWithin child = true
  kinds : ∀ entry ∈ shown, entry = repository.childEntry entry.path

section Step

variable {done : List (TreePath × Node)} {shown : List Entry} {item : TreePath × Node}
  (h : repository.ScannedUpTo path done shown) (hone : repository.OneNodePerPath)
  (hitem : item ∈ repository.nodes)
  (hbefore : ∀ other ∈ repository.nodes, compare other.1 item.1 = .lt → other ∈ done)

include h hone hitem hbefore

/-- A child that is not shown yet has no node of its own, unless it is the next one: that sorts before
all that lies beneath the child, and would have been shown. -/
theorem ScannedUpTo.entry_eq {child : TreePath} (hparent : child.parent? = some path)
    (hwithin : item.1.isWithin child = true) (habsent : child ∉ shown.map Entry.path) :
    (if child = item.1 then item.2.entry item.1 else .ofDirectory child) = repository.childEntry child := by
  split
  · rename_i hself
    rw [childEntry, hself, hone.node?_eq (show (item.1, item.2) ∈ repository.nodes from hitem)]
  · rename_i hself
    cases hnode : repository.node? child with
    | none => rw [childEntry, hnode]
    | some node =>
      have hlt := TreePath.compare_lt_of_isWithin hwithin hself
      have hdone : (child, node) ∈ done := hbefore _ (mem_of_lookup hnode) hlt
      exact absurd ((h.mem_iff child).2 ⟨hparent, _, hdone, TreePath.isWithin_refl child⟩) habsent

/-- One more node is shown rightly when all nodes before it have been. -/
theorem ScannedUpTo.step : repository.ScannedUpTo path (done ++ [item]) (showNode path shown item) := by
  have hexists (child : TreePath) : (∃ other ∈ done ++ [item], other.1.isWithin child = true) ↔
      (∃ other ∈ done, other.1.isWithin child = true) ∨ item.1.isWithin child = true := by
    simp [or_and_right, exists_or]
  rw [showNode_eq]
  split
  · rename_i hbeneath
    have hparent := TreePath.parent?_take hbeneath.1 hbeneath.2
    have hleads {child : TreePath} (hchild : child.parent? = some path) : item.1.isWithin child = true ↔
        item.1.take (path.segments.length + 1) = child :=
      (TreePath.isWithin_child_iff hchild item.1).trans (and_iff_right hbeneath)
    generalize item.1.take (path.segments.length + 1) = child at hparent hleads
    have hwithin : item.1.isWithin child = true := (hleads hparent).2 rfl
    have hpath : (if child = item.1 then item.2.entry item.1 else Entry.ofDirectory child).path = child := by
      split
      · rw [Node.path_entry, ‹child = item.1›]
      · rfl
    refine ⟨?_, fun other => ?_, fun entry hentry => ?_⟩
    · rw [map_path_enterAbsent, hpath]
      exact TreePath.ascending_insertSorted child h.ascending
    · rw [map_path_enterAbsent, TreePath.mem_insertSorted, hpath, h.mem_iff, hexists, and_or_left, or_comm]
      refine or_congr_right ⟨?_, fun hother => ((hleads hother.1).1 hother.2).symm⟩
      rintro rfl
      exact ⟨hparent, hwithin⟩
    · rcases mem_of_enterAbsent h.ascending hentry with hentry | ⟨rfl, habsent⟩
      · exact h.kinds entry hentry
      · rw [hpath] at habsent ⊢
        exact h.entry_eq hone hitem hbefore hparent hwithin habsent
  · rename_i hbeneath
    refine ⟨h.ascending, fun child => ?_, h.kinds⟩
    rw [h.mem_iff, hexists]
    refine and_congr_right fun hparent => (or_iff_left fun hwithin => hbeneath ?_).symm
    exact ((TreePath.isWithin_child_iff hparent _).1 hwithin).1

end Step

theorem mem_sortedNodes (hone : repository.OneNodePerPath) {item : TreePath × Node} :
    item ∈ repository.sortedNodes ↔ item ∈ repository.nodes := by
  obtain ⟨inner, node⟩ := item
  simp only [sortedNodes, List.mem_filterMap, TreePath.mem_sort, List.mem_map, Option.map_eq_some_iff,
    Prod.mk.injEq]
  constructor
  · rintro ⟨_, -, _, hnode, rfl, rfl⟩
    exact mem_of_lookup hnode
  · intro hitem
    exact ⟨inner, ⟨_, hitem, rfl⟩, node, hone.node?_eq hitem, rfl, rfl⟩

theorem pairwise_sortedNodes (repository : Repository) :
    repository.sortedNodes.Pairwise fun item other => compare item.1 other.1 = .lt := by
  refine List.pairwise_filterMap.2 ((TreePath.ascending_sort _).imp fun hlt item hitem other hother => ?_)
  obtain ⟨-, -, rfl⟩ := Option.map_eq_some_iff.1 hitem
  obtain ⟨-, -, rfl⟩ := Option.map_eq_some_iff.1 hother
  exact hlt

/-- A scan of all nodes in ascending order shows the children of a directory as the repository does. -/
theorem OneNodePerPath.scan_eq (hone : repository.OneNodePerPath) (path : TreePath) :
    repository.scan path = (repository.children path).map repository.childEntry := by
  have hscan (rest done : List (TreePath × Node)) (shown : List Entry)
      (hsorted : done ++ rest = repository.sortedNodes) (h : repository.ScannedUpTo path done shown) :
      repository.ScannedUpTo path repository.sortedNodes (rest.foldl (showNode path) shown) := by
    induction rest generalizing done shown with
    | nil => rwa [← hsorted, List.append_nil]
    | cons item rest ih =>
      have hpairwise := repository.pairwise_sortedNodes
      rw [← hsorted] at hpairwise
      obtain ⟨hafter, -⟩ := List.pairwise_cons.1 (List.pairwise_append.1 hpairwise).2.1
      refine ih (done ++ [item]) _ (by rw [← hsorted, List.append_assoc]; rfl) (h.step hone ?_ ?_)
      · rw [← mem_sortedNodes hone, ← hsorted]
        simp
      · intro other hother hlt
        rw [← mem_sortedNodes hone, ← hsorted, List.mem_append, List.mem_cons] at hother
        rcases hother with hother | rfl | hother
        · exact hother
        · exact absurd hlt (TreePath.compare_lt_asymm hlt)
        · exact absurd hlt (TreePath.compare_lt_asymm (hafter other hother))
  have hdone := hscan repository.sortedNodes [] [] rfl
    ⟨List.Pairwise.nil, fun child => by simp, fun entry hentry => by cases hentry⟩
  have hpaths : (repository.scan path).map Entry.path = repository.children path := by
    refine hdone.ascending.eq (TreePath.ascending_sort _) fun child => ?_
    rw [hdone.mem_iff, mem_children]
    simp only [mem_sortedNodes hone]
  rw [← hpaths, List.map_map]
  exact (List.map_id'' (fun _ => rfl) _).symm.trans (List.map_congr_left fun entry hentry =>
    hdone.kinds entry hentry)

end Repository

end DependencyFiles
