import DependencyFiles.Proofs.Trees

/-!
# Directories of a repository

A directory of a repository is what lists its children and not itself. Where each path has at
most one node, a node is told by its path, and what a submodule hides is told by the submodule.
-/

namespace DependencyFiles

/-- What is there under a key is found under it when no key is there twice. -/
theorem lookup_of_mem {κ β : Type} [BEq κ] [LawfulBEq κ] {entries : List (κ × β)} {key : κ} {value : β}
    (hkeys : (entries.map Prod.fst).Nodup) (h : (key, value) ∈ entries) :
    List.lookup key entries = some value := by
  induction entries with
  | nil => cases h
  | cons first rest ih =>
    rw [List.map_cons, List.nodup_cons] at hkeys
    rcases List.mem_cons.1 h with rfl | h
    · exact List.lookup_cons_self
    · have hne : key ≠ first.1 := fun hsame => hkeys.1 (hsame ▸ List.mem_map_of_mem h)
      rw [List.lookup_cons, beq_false_of_ne hne]
      exact ih hkeys.2 h

namespace Repository

/-- Each path has at most one node. -/
def OneNodePerPath (repository : Repository) : Prop := (repository.nodes.map Prod.fst).Nodup

instance (repository : Repository) : Decidable repository.OneNodePerPath :=
  inferInstanceAs (Decidable (List.Nodup _))

/-- The repository as a whole is a directory. -/
def RootIsDirectory (repository : Repository) : Prop :=
  ∀ node ∈ repository.node? .root, node = .directory

instance (repository : Repository) : Decidable repository.RootIsDirectory :=
  inferInstanceAs (Decidable (∀ node ∈ repository.node? .root, node = .directory))

/-- The repository itself has a directory at the path, and no submodule at the path or above. -/
def HasDirectory (repository : Repository) (path : TreePath) : Prop :=
  repository.isHidden path = false ∧ repository.isDirectory path = true ∧
    ∀ node ∈ repository.node? path, node = .directory

variable {repository : Repository} {path : TreePath}

/-- What a directory lists is not a single entry of its own path. -/
theorem single?_children :
    Entry.single? ((repository.children path).map repository.childEntry) path = none := by
  refine Option.eq_none_iff_forall_not_mem.2 fun entry hentry => ?_
  obtain ⟨hentries, hpath⟩ := Entry.eq_of_single? hentry
  have hmem : entry ∈ (repository.children path).map repository.childEntry := by
    rw [hentries]
    exact List.mem_singleton.2 rfl
  obtain ⟨child, hchild, rfl⟩ := List.mem_map.1 hmem
  obtain ⟨⟨inner, node⟩, hinner, rfl⟩ := List.mem_map.1 (TreePath.mem_sort.1 hchild)
  obtain ⟨-, hinner⟩ := List.mem_filter.1 hinner
  simp only [Bool.and_eq_true, bne_iff_ne] at hinner
  rw [path_childEntry] at hpath
  -- A child is one segment longer than the path.
  have hbeneath := List.isPrefixOf_iff_prefix.1 hinner.2
  have hlength := hbeneath.length_le
  have hne : path.segments.length ≠ inner.segments.length := fun hsame =>
    hinner.1 (TreePath.ext_segments (hbeneath.eq_of_length hsame).symm)
  have hlonger : (inner.take (path.segments.length + 1)).segments.length = path.segments.length :=
    congrArg (fun p => p.segments.length) hpath
  rw [TreePath.segments_take, List.length_take] at hlonger
  omega

/-- A directory of the repository lists its children. -/
theorem HasDirectory.list_eq (h : repository.HasDirectory path) :
    repository.list path = .ok ((repository.children path).map repository.childEntry) := by
  obtain ⟨hvisible, hdirectory, hnode⟩ := h
  unfold list
  rw [hvisible, if_neg (by simp), hdirectory, if_pos rfl]
  split
  · cases hnode _ ‹_›
  · cases hnode _ ‹_›
  · cases hnode _ ‹_›
  · rfl

/-- A node that is no directory lists as its own entry when it is not hidden. -/
theorem list_of_node {node : Node} (hnode : repository.node? path = some node) (hkind : node ≠ .directory)
    (hvisible : repository.isHidden path = false) : repository.list path = .ok [node.entry path] := by
  unfold list
  rw [hvisible, if_neg (by simp), hnode]
  cases node with
  | directory => exact absurd rfl hkind
  | _ => rfl

/-- What lists more than an entry of its own path is a directory of the repository. -/
theorem hasDirectory_of_list {entries : List Entry} (h : repository.list path = .ok entries)
    (hmany : Entry.single? entries path = none) : repository.HasDirectory path := by
  obtain ⟨hvisible, ⟨node, -, rfl⟩ | ⟨hdirectory, rfl⟩⟩ := list_cases h
  · simp [Entry.single?] at hmany
  · refine ⟨hvisible, hdirectory, fun node hnode => ?_⟩
    refine Decidable.byContradiction fun hkind => ?_
    rw [Except.ok.inj (h.symm.trans (list_of_node hnode hkind hvisible))] at hmany
    simp [Entry.single?] at hmany

/-- The root of a repository is hidden by nothing. -/
theorem isHidden_root : repository.isHidden .root = false := by
  refine List.any_eq_false.2 fun entry _ hhides => ?_
  simp only [Bool.and_eq_true, bne_iff_ne] at hhides
  exact hhides.1.2 (TreePath.ext_segments
    (List.prefix_nil.1 (List.isPrefixOf_iff_prefix.1 hhides.2)))

/-- A repository that is a directory as a whole has it at its root. -/
theorem RootIsDirectory.hasDirectory (h : repository.RootIsDirectory) :
    repository.HasDirectory .root :=
  ⟨isHidden_root, rfl, h⟩

/-- The only node of a path is found there. -/
theorem OneNodePerPath.node?_eq (h : repository.OneNodePerPath) {node : Node}
    (hnode : (path, node) ∈ repository.nodes) : repository.node? path = some node :=
  lookup_of_mem h hnode

/-- What lies beneath a submodule is all that is hidden. -/
theorem OneNodePerPath.isHidden_iff (h : repository.OneNodePerPath) :
    repository.isHidden path = true ↔ ∃ mount target,
      repository.node? mount = some (.submodule target) ∧ path.isWithin mount = true ∧ mount ≠ path := by
  constructor
  · intro hhidden
    obtain ⟨⟨mount, node⟩, hmem, hhides⟩ := List.any_eq_true.1 hhidden
    simp only [Bool.and_eq_true, bne_iff_ne] at hhides
    obtain ⟨⟨hkind, hne⟩, hwithin⟩ := hhides
    cases node with
    | submodule target => exact ⟨mount, target, h.node?_eq hmem, hwithin, hne⟩
    | _ => cases hkind
  · rintro ⟨mount, target, hnode, hwithin, hne⟩
    exact isHidden_of_submodule hnode hwithin hne

/-- A submodule that a listing shows is not hidden. -/
theorem OneNodePerPath.isHidden_of_list (h : repository.OneNodePerPath) {entries : List Entry}
    {entry : Entry} (hlist : repository.list path = .ok entries) (hentry : entry ∈ entries) :
    repository.isHidden entry.path = false := by
  rw [← Bool.not_eq_true, h.isHidden_iff]
  rintro ⟨mount, target, hnode, hwithin, hne⟩
  exact hne (eq_of_isWithin_submodule hnode hlist hentry hwithin).symm

end Repository

end DependencyFiles
