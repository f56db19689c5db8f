import DependencyFiles.Proofs.Paths
import DependencyFiles.Provider.Forge

/-!
# What a forge shows of its repositories

A forge answers about a path when the path is not made to fail and the repository is there
at the commit. A file can be read when it is a node that no submodule hides. A listing is
the one entry of the listed path itself or shows paths right beneath it.
-/

namespace DependencyFiles

/-- What is found under a key is there under this key. -/
theorem mem_of_lookup {κ β : Type} [BEq κ] [LawfulBEq κ] {entries : List (κ × β)} {key : κ} {value : β}
    (h : List.lookup key entries = some value) : (key, value) ∈ entries := by
  obtain ⟨before, after, rfl, -⟩ := List.lookup_eq_some_iff.1 h
  simp

namespace Entry

variable {entries : List Entry} {path : TreePath} {entry : Entry}

/-- The one entry of something that is no directory is all that the listing has. -/
theorem eq_of_single? (h : single? entries path = some entry) :
    entries = [entry] ∧ entry.path = path := by
  unfold single? at h
  split at h
  · split at h
    · cases h
      exact ⟨rfl, ‹_›⟩
    · cases h
  · cases h

/-- The one entry of something that is no directory is in the listing. -/
theorem mem_of_single? (h : single? entries path = some entry) : entry ∈ entries := by
  rw [(eq_of_single? h).1]
  exact List.mem_singleton.2 rfl

end Entry

/-- The entry of a node has the node's path. -/
@[simp] theorem Node.path_entry (path : TreePath) (node : Node) : (node.entry path).path = path := by
  cases node <;> rfl

namespace Repository

variable {repository : Repository} {path : TreePath}

/-- A file can be read exactly when it is a node that no submodule hides. -/
theorem read_eq_ok_iff {content : Bytes} :
    repository.read path = .ok content ↔
      repository.isHidden path = false ∧ repository.node? path = some (.file content) := by
  unfold read
  cases hhidden : repository.isHidden path
  · cases hnode : repository.node? path with
    | none => simp
    | some node => cases node <;> simp
  · simp

/-- Nothing lies beneath the path in the repository. -/
def IsLeaf (repository : Repository) (path : TreePath) : Prop :=
  ∀ inner ∈ repository.nodes, inner.1.isWithin path = true → inner.1 = path

/-- Nothing lies beneath a file of the repository, whether it can be read or not. -/
def FilesAreLeaves (repository : Repository) : Prop :=
  ∀ file ∈ repository.nodes, (file.2.entry file.1).isFile = true → repository.IsLeaf file.1

instance (repository : Repository) : Decidable repository.FilesAreLeaves :=
  inferInstanceAs (Decidable (∀ file ∈ _, _ → ∀ inner ∈ _, _ → _))

/-- The entry of a child has the child's path. -/
@[simp] theorem path_childEntry : (repository.childEntry path).path = path := by
  unfold childEntry
  split
  · exact Node.path_entry _ _
  · rfl

/-- A listing is the entry of the listed node itself, or shows the children of a directory. -/
theorem list_cases {entries : List Entry} (h : repository.list path = .ok entries) :
    repository.isHidden path = false ∧
      ((∃ node, repository.node? path = some node ∧ entries = [node.entry path]) ∨
        repository.isDirectory path = true ∧
          entries = (repository.children path).map repository.childEntry) := by
  unfold list at h
  split at h
  · cases h
  · rename_i hvisible
    refine ⟨Bool.not_eq_true _ ▸ hvisible, ?_⟩
    split at h
    · exact .inl ⟨_, ‹_›, (Except.ok.inj h).symm⟩
    · exact .inl ⟨_, ‹_›, (Except.ok.inj h).symm⟩
    · exact .inl ⟨_, ‹_›, (Except.ok.inj h).symm⟩
    · split at h
      · exact .inr ⟨‹_›, (Except.ok.inj h).symm⟩
      · cases h

/-- A listing is the entry of the listed path itself, or shows paths right beneath it. -/
theorem mem_of_list {entries : List Entry} {entry : Entry} (h : repository.list path = .ok entries)
    (hentry : entry ∈ entries) :
    Entry.single? entries path = some entry ∨ entry.path.up = path := by
  rcases (list_cases h).2 with ⟨node, -, rfl⟩ | ⟨-, rfl⟩
  · rw [List.mem_singleton.1 hentry]
    exact .inl (if_pos (Node.path_entry _ _))
  · obtain ⟨child, hchild, rfl⟩ := List.mem_map.1 hentry
    obtain ⟨⟨inner, node⟩, hinner, rfl⟩ := List.mem_map.1 (TreePath.mem_sort.1 hchild)
    obtain ⟨-, hinner⟩ := List.mem_filter.1 hinner
    simp only [Bool.and_eq_true, bne_iff_ne] at hinner
    rw [path_childEntry]
    exact .inr (TreePath.up_take hinner.2 hinner.1)

/-- A listing shows nodes as they are, and directories that need no node. -/
theorem eq_of_mem_list {entries : List Entry} {entry : Entry} (h : repository.list path = .ok entries)
    (hentry : entry ∈ entries) :
    (∃ node, repository.node? entry.path = some node ∧ entry = node.entry entry.path) ∨
      entry = .ofDirectory entry.path := by
  rcases (list_cases h).2 with ⟨node, hnode, rfl⟩ | ⟨-, rfl⟩
  · rw [List.mem_singleton.1 hentry, Node.path_entry]
    exact .inl ⟨node, hnode, rfl⟩
  · obtain ⟨child, -, rfl⟩ := List.mem_map.1 hentry
    rw [path_childEntry]
    unfold childEntry
    split
    · exact .inl ⟨_, ‹_›, rfl⟩
    · exact .inr rfl

/-- A listing shows paths under their own names. -/
theorem name_of_mem_list {entries : List Entry} {entry : Entry} (h : repository.list path = .ok entries)
    (hentry : entry ∈ entries) : entry.name = entry.path.name?.getD "" := by
  rcases eq_of_mem_list h hentry with ⟨node, -, hnode⟩ | hdirectory
  · rw [hnode, Node.path_entry]
    cases node <;> rfl
  · rw [hdirectory]
    rfl

/-- A submodule that a listing shows is a node. -/
theorem node?_of_isSubmodule {entries : List Entry} {entry : Entry}
    (h : repository.list path = .ok entries) (hentry : entry ∈ entries)
    (hkind : entry.isSubmodule = true) :
    ∃ target, repository.node? entry.path = some (.submodule target) := by
  rcases eq_of_mem_list h hentry with ⟨node, hnode, hthis⟩ | hdirectory
  · cases node with
    | submodule target => exact ⟨target, hnode⟩
    | file content =>
      rw [hthis] at hkind
      cases hkind
    | unreadable =>
      rw [hthis] at hkind
      cases hkind
    | directory =>
      rw [hthis] at hkind
      cases hkind
  · rw [hdirectory] at hkind
    cases hkind

/-- A submodule that a listing shows carries its target. -/
theorem isSome_submodule {entries : List Entry} {entry : Entry}
    (h : repository.list path = .ok entries) (hentry : entry ∈ entries)
    (hkind : entry.isSubmodule = true) : entry.submodule.isSome = true := by
  rcases eq_of_mem_list h hentry with ⟨node, -, hthis⟩ | hdirectory
  · rw [hthis] at hkind ⊢
    cases node <;> first | rfl | cases hkind
  · rw [hdirectory] at hkind
    cases hkind

/-- What lies beneath a submodule is hidden. -/
theorem isHidden_of_submodule {mount : TreePath} {target : RepoRef}
    (hnode : repository.node? mount = some (.submodule target)) (hwithin : path.isWithin mount = true)
    (hne : mount ≠ path) : repository.isHidden path = true := by
  refine List.any_eq_true.2 ⟨_, mem_of_lookup hnode, ?_⟩
  simp only [Bool.and_eq_true, bne_iff_ne]
  exact ⟨⟨rfl, hne⟩, hwithin⟩

/-- What lies beneath a submodule cannot be listed. -/
theorem list_beneath_submodule {mount : TreePath} {target : RepoRef}
    (hnode : repository.node? mount = some (.submodule target)) (hwithin : path.isWithin mount = true)
    (hne : mount ≠ path) (entries : List Entry) : repository.list path ≠ .ok entries := by
  have hhidden := isHidden_of_submodule hnode hwithin hne
  intro h
  rw [(list_cases h).1] at hhidden
  cases hhidden

/-- A listed submodule is told by its path. -/
theorem submodule_eq_of_path {path' : TreePath} {entries entries' : List Entry} {entry entry' : Entry}
    (h : repository.list path = .ok entries) (hentry : entry ∈ entries)
    (hkind : entry.isSubmodule = true) (h' : repository.list path' = .ok entries')
    (hentry' : entry' ∈ entries') (hkind' : entry'.isSubmodule = true)
    (hsame : entry.path = entry'.path) : entry = entry' := by
  rcases eq_of_mem_list h hentry with ⟨node, hnode, hthis⟩ | hdirectory
  · rcases eq_of_mem_list h' hentry' with ⟨node', hnode', hthis'⟩ | hdirectory
    · rw [hsame, hnode', Option.some_inj] at hnode
      rw [hthis, hthis', hsame, hnode]
    · rw [hdirectory] at hkind'
      cases hkind'
  · rw [hdirectory] at hkind
    cases hkind

/-- A listing shows nothing beneath a submodule. -/
theorem eq_of_isWithin_submodule {mount : TreePath} {target : RepoRef}
    (hnode : repository.node? mount = some (.submodule target)) {entries : List Entry} {entry : Entry}
    (h : repository.list path = .ok entries) (hentry : entry ∈ entries)
    (hwithin : entry.path.isWithin mount = true) : entry.path = mount := by
  refine Decidable.byContradiction fun hne => ?_
  rcases mem_of_list h hentry with hone | hup
  · rw [(Entry.eq_of_single? hone).2] at hwithin hne
    exact list_beneath_submodule hnode hwithin (Ne.symm hne) _ h
  · have hlisted := TreePath.isWithin_of_up hwithin hne
    rw [hup] at hlisted
    by_cases hsame : mount = path
    · subst hsame
      have hself : repository.list mount = .ok [(Node.submodule target).entry mount] := by
        unfold list
        rw [if_neg (by simp [(list_cases h).1]), hnode]
      obtain rfl := Except.ok.inj (h.symm.trans hself)
      exact hne (by rw [List.mem_singleton.1 hentry, Node.path_entry])
    · exact list_beneath_submodule hnode hlisted hsame _ h

/-- What would lie beneath a leaf cannot be listed. -/
theorem list_beneath_leaf {leaf : TreePath} (hleaf : repository.IsLeaf leaf)
    (hwithin : path.isWithin leaf = true) (hne : path ≠ leaf) (entries : List Entry) :
    repository.list path ≠ .ok entries := by
  have hnothing (inner : TreePath × Node) (hinner : inner ∈ repository.nodes)
      (hbeneath : inner.1.isWithin path = true) : False := by
    have hsame := hleaf inner hinner (TreePath.isWithin_trans hbeneath hwithin)
    rw [hsame] at hbeneath
    exact hne (TreePath.isWithin_antisymm hwithin hbeneath)
  have hrefl : path.isWithin path = true := List.isPrefixOf_iff_prefix.2 (List.prefix_refl _)
  have hbare : repository.node? path = none := by
    cases hthis : repository.node? path with
    | none => rfl
    | some node => exact (hnothing _ (mem_of_lookup hthis) hrefl).elim
  have hroot : path.isRoot = false := by
    cases hthis : path.isRoot with
    | false => rfl
    | true =>
      have hnone : path.segments = [] := List.isEmpty_iff.1 hthis
      have hprefix := List.isPrefixOf_iff_prefix.1 hwithin
      rw [hnone, List.prefix_nil] at hprefix
      exact absurd (TreePath.ext_segments (hnone.trans hprefix.symm)) hne
  have hdirectory : repository.isDirectory path = false := by
    rw [isDirectory, hroot, hbare, ← Bool.not_eq_true]
    simp only [Bool.false_or, decide_false, reduceCtorEq, List.any_eq_true, Bool.and_eq_true]
    intro h
    obtain ⟨inner, hinner, -, hbeneath⟩ := h
    exact hnothing inner hinner hbeneath
  intro h
  rcases (list_cases h).2 with ⟨node, hnode, -⟩ | ⟨hthis, -⟩
  · rw [hbare] at hnode
    cases hnode
  · rw [hdirectory] at hthis
    cases hthis

/-- What lies beneath a directory lies beneath all that the directory lies beneath. -/
theorem isHidden_of_up (h : repository.isHidden path.up = true) (hne : path.up ≠ path) :
    repository.isHidden path = true := by
  obtain ⟨⟨mount, node⟩, hmount, hhides⟩ := List.any_eq_true.1 h
  simp only [Bool.and_eq_true, bne_iff_ne] at hhides
  obtain ⟨⟨hkind, -⟩, hwithin⟩ := hhides
  have hup := path.isWithin_up
  refine List.any_eq_true.2 ⟨⟨mount, node⟩, hmount, ?_⟩
  simp only [Bool.and_eq_true, bne_iff_ne]
  refine ⟨⟨hkind, ?_⟩, TreePath.isWithin_trans hup hwithin⟩
  intro hthis
  obtain rfl := hthis
  exact hne (TreePath.isWithin_antisymm hwithin hup)

/-- Where files are leaves, the directory of a file that can be read lists it. -/
theorem list_of_read (hleaves : repository.FilesAreLeaves) {content : Bytes}
    (h : repository.read path = .ok content) :
    ∃ entries, repository.list path.up = .ok entries ∧
      ∃ entry ∈ entries, entry.isFile = true ∧ entry.path = path := by
  obtain ⟨hvisible, hnode⟩ := read_eq_ok_iff.1 h
  have hmem : (path, Node.file content) ∈ repository.nodes := mem_of_lookup hnode
  by_cases hroot : path.up = path
  · refine ⟨[(Node.file content).entry path], ?_, _, List.mem_singleton.2 rfl, rfl, rfl⟩
    rw [hroot, list, hvisible, hnode]
    rfl
  · have hup : path.isWithin path.up = true := path.isWithin_up
    have hvisible' : repository.isHidden path.up = false := by
      rw [← Bool.not_eq_true]
      exact fun hhidden => absurd (isHidden_of_up hhidden hroot) (by simp [hvisible])
    have hdirectory : repository.isDirectory path.up = true := by
      simp only [isDirectory, Bool.or_eq_true, List.any_eq_true, Bool.and_eq_true, bne_iff_ne]
      exact .inr ⟨_, hmem, Ne.symm hroot, hup⟩
    have hlist : repository.list path.up =
        .ok ((repository.children path.up).map repository.childEntry) := by
      have hfile (node : Node) (hnode : repository.node? path.up = some node) :
          (node.entry path.up).isFile = false := by
        rw [← Bool.not_eq_true]
        exact fun hkind => hroot (hleaves _ (mem_of_lookup hnode) hkind _ hmem hup).symm
      unfold list
      rw [hvisible', if_neg (by simp)]
      split
      · exact absurd (hfile _ ‹_›) (by simp [Node.entry, Entry.ofFile, Entry.named, Entry.isFile])
      · exact absurd (hfile _ ‹_›) (by simp [Node.entry, Entry.ofFile, Entry.named, Entry.isFile])
      · rename_i target hsubmodule
        have hhidden : repository.isHidden path = true := by
          refine List.any_eq_true.2 ⟨_, mem_of_lookup hsubmodule, ?_⟩
          simp only [Bool.and_eq_true, bne_iff_ne]
          exact ⟨⟨rfl, hroot⟩, hup⟩
        exact absurd hhidden (by simp [hvisible])
      · rw [if_pos hdirectory]
    refine ⟨_, hlist, repository.childEntry path, List.mem_map_of_mem (TreePath.mem_sort.2 ?_), ?_, ?_⟩
    · refine List.mem_map.2 ⟨_, List.mem_filter.2 ⟨hmem, ?_⟩, TreePath.take_up hroot⟩
      simp only [Bool.and_eq_true, bne_iff_ne]
      exact ⟨Ne.symm hroot, hup⟩
    · rw [childEntry, hnode]
      rfl
    · exact path_childEntry

end Repository

namespace Forge

/-- Nothing lies beneath a file of the forge's repositories. -/
def FilesAreLeaves (forge : Forge) : Prop :=
  ∀ repository ∈ forge.repositories, repository.FilesAreLeaves

instance (forge : Forge) : Decidable forge.FilesAreLeaves :=
  inferInstanceAs (Decidable (∀ repository ∈ _, Repository.FilesAreLeaves repository))

/-- A forge answers about a path when the path is not made to fail and the repository is there at
the commit and answers. -/
theorem inspect_eq_ok_iff {α : Type} {forge : Forge} {repo : String} {commit : CommitId}
    {path : TreePath} {answer : Repository → Answer α} {a : α} :
    forge.inspect repo commit path answer = .ok a ↔ forge.failures.lookup path = none ∧
      ∃ repository, forge.repository? repo = some repository ∧ repository.commit = commit ∧
        answer repository = .ok a := by
  unfold inspect
  cases forge.failures.lookup path with
  | some error => simp
  | none =>
    cases forge.repository? repo with
    | none => simp
    | some repository => by_cases hcommit : repository.commit = commit <;> simp [Option.filter, hcommit]

/-- The forge has a repository at the commit with this file in it. -/
def Holds (forge : Forge) (repo : String) (commit : CommitId) (path : TreePath) (content : Bytes) :
    Prop :=
  ∃ repository, forge.repository? repo = some repository ∧ repository.commit = commit ∧
    repository.node? path = some (.file content)

/-- What the forge reads it holds. -/
theorem holds_of_read {forge : Forge} {repo : String} {commit : CommitId} {path : TreePath}
    {content : Bytes} (h : forge.read repo commit path = .ok content) :
    forge.Holds repo commit path content := by
  obtain ⟨-, repository, hfound, hcommit, hread⟩ := inspect_eq_ok_iff.1 h
  exact ⟨repository, hfound, hcommit, (Repository.read_eq_ok_iff.1 hread).2⟩

end Forge

end DependencyFiles
