import DependencyFiles.Proofs.Children
import Mathlib.Data.List.Induction

/-!
# Listings of a repository

A repository is built by calls that each put a node at a written path. What it lists is told by
the last call for each path, whatever the order of the calls: the entry of a node that is no
directory, or the children of a directory in ascending order, where a directory needs no call of
its own. Each listed entry answers as its kind says when it is asked for in turn.
-/

namespace DependencyFiles.Repository

variable {repository : Repository} {path : TreePath}

/-- A listed entry is what its own path is shown as. -/
theorem childEntry_of_mem_list {entries : List Entry} {entry : Entry}
    (h : repository.list path = .ok entries) (hentry : entry ∈ entries) :
    repository.childEntry entry.path = entry := by
  rcases (list_cases h).2 with ⟨node, hnode, rfl⟩ | ⟨-, rfl⟩
  · rw [List.mem_singleton.1 hentry, Node.path_entry, childEntry, hnode]
  · obtain ⟨child, -, rfl⟩ := List.mem_map.1 hentry
    rw [path_childEntry]

/-- What is hidden can be neither listed nor read. -/
theorem notFound_of_isHidden (h : repository.isHidden path = true) :
    repository.list path = .error (.notFound path.toString) ∧
      repository.read path = .error (.notFound path.toString) :=
  ⟨if_pos h, if_pos h⟩

/-- Nothing is found at a path, or a node that is no directory, or a directory. -/
theorem list_outcome (repository : Repository) (path : TreePath) :
    repository.list path = .error (.notFound path.toString) ∨
      (∃ node, repository.node? path = some node ∧ node ≠ .directory ∧ repository.isHidden path = false) ∨
      repository.HasDirectory path := by
  cases hhidden : repository.isHidden path with
  | true => exact .inl (notFound_of_isHidden hhidden).1
  | false =>
    by_cases hnode : ∃ node, repository.node? path = some node ∧ node ≠ .directory
    · obtain ⟨node, hnode, hkind⟩ := hnode
      exact .inr (.inl ⟨node, hnode, hkind, rfl⟩)
    · have hbare : ∀ node ∈ repository.node? path, node = .directory := fun node hthis =>
        Decidable.byContradiction fun hkind => hnode ⟨node, hthis, hkind⟩
      cases hdirectory : repository.isDirectory path with
      | true => exact .inr (.inr ⟨hhidden, hdirectory, hbare⟩)
      | false =>
        refine .inl ?_
        unfold list
        rw [hhidden, hdirectory]
        split
        · contradiction
        · split
          · cases hbare _ ‹_›
          · cases hbare _ ‹_›
          · cases hbare _ ‹_›
          · rfl

/-- An entry of its own path is what a node lists as that is no directory and is not hidden. -/
theorem lists_own_entry_iff : (∃ entry, repository.list path = .ok [entry] ∧ entry.path = path) ↔
    repository.isHidden path = false ∧ ∃ node, repository.node? path = some node ∧ node ≠ .directory := by
  constructor
  · rintro ⟨entry, hlist, hpath⟩
    rcases repository.list_outcome path with hnone | ⟨node, hnode, hkind, hvisible⟩ | hdirectory
    · cases hnone.symm.trans hlist
    · exact ⟨hvisible, node, hnode, hkind⟩
    · have hsingle : Entry.single? [entry] path = some entry := if_pos hpath
      rw [← Except.ok.inj (hdirectory.list_eq.symm.trans hlist), single?_children] at hsingle
      cases hsingle
  · rintro ⟨hvisible, node, hnode, hkind⟩
    exact ⟨_, list_of_node hnode hkind hvisible, Node.path_entry _ _⟩

/-- What is neither the root nor has a node at or beneath it is not found, nor is what is hidden. -/
theorem OneNodePerPath.notFound_iff (h : repository.OneNodePerPath) (path : TreePath) :
    repository.list path = .error (.notFound path.toString) ↔ repository.isHidden path = true ∨
      path ≠ .root ∧ ∀ entry ∈ repository.nodes, ¬entry.1.isWithin path = true := by
  constructor
  · intro hnone
    refine or_iff_not_imp_left.2 fun hvisible => ?_
    rw [Bool.not_eq_true] at hvisible
    have hbare : ∀ node ∈ repository.node? path, node = .directory := fun node hnode =>
      Decidable.byContradiction fun hkind => by cases hnone.symm.trans (list_of_node hnode hkind hvisible)
    have hdirectory : ¬repository.isDirectory path = true := fun hdirectory => by
      cases hnone.symm.trans (HasDirectory.list_eq ⟨hvisible, hdirectory, hbare⟩)
    simp only [isDirectory, Bool.or_eq_true, TreePath.isRoot_iff, List.any_eq_true, Bool.and_eq_true,
      bne_iff_ne, not_or, not_exists, not_and] at hdirectory
    obtain ⟨⟨hroot, hnode⟩, hbeneath⟩ := hdirectory
    refine ⟨hroot, fun entry hentry hwithin => ?_⟩
    by_cases hself : entry.1 = path
    · have hthis := h.node?_eq (show (entry.1, entry.2) ∈ repository.nodes from hentry)
      rw [hself] at hthis
      simp [hthis, hbare _ hthis] at hnode
    · exact hbeneath entry hentry hself hwithin
  · rintro (hhidden | ⟨hroot, hnothing⟩)
    · exact (notFound_of_isHidden hhidden).1
    · have hnone : repository.node? path = none := Option.eq_none_iff_forall_not_mem.2 fun node hnode =>
        hnothing _ (mem_of_lookup hnode) (TreePath.isWithin_refl path)
      rcases repository.list_outcome path with hlist | ⟨node, hnode, -⟩ | ⟨-, hdirectory, -⟩
      · exact hlist
      · rw [hnone] at hnode
        cases hnode
      · simp only [isDirectory, Bool.or_eq_true, TreePath.isRoot_iff, hnone, List.any_eq_true,
          Bool.and_eq_true] at hdirectory
        obtain (hdirectory | hdirectory) | ⟨entry, hentry, -, hwithin⟩ := hdirectory
        · exact absurd hdirectory hroot
        · simp at hdirectory
        · exact absurd hwithin (hnothing entry hentry)

/-- What a listing shows is a directory when it is not a node of another kind. -/
theorem OneNodePerPath.hasDirectory_of_mem_list (h : repository.OneNodePerPath) {entries : List Entry}
    {entry : Entry} (hlist : repository.list path = .ok entries) (hentry : entry ∈ entries)
    (hkind : entry.isDirectory = true) : repository.HasDirectory entry.path := by
  have hvisible := h.isHidden_of_list hlist hentry
  have hshown := childEntry_of_mem_list hlist hentry
  have hbare : ∀ node ∈ repository.node? entry.path, node = .directory := by
    intro node hnode
    rw [childEntry, Option.mem_def.1 hnode] at hshown
    rw [← hshown] at hkind
    cases node with
    | directory => rfl
    | _ => cases hkind
  refine ⟨hvisible, ?_, hbare⟩
  cases hnode : repository.node? entry.path with
  | some node => simp [isDirectory, hnode, hbare node hnode]
  | none =>
    -- Without a node of its own it is listed for something beneath it.
    rcases (list_cases hlist).2 with ⟨node, hthis, rfl⟩ | ⟨-, rfl⟩
    · rw [List.mem_singleton.1 hentry, Node.path_entry, hthis] at hnode
      cases hnode
    · obtain ⟨child, hchild, rfl⟩ := List.mem_map.1 hentry
      rw [path_childEntry] at hnode ⊢
      obtain ⟨-, inner, hinner, hwithin⟩ := mem_children.1 hchild
      have hne : inner.1 ≠ child := by
        rintro rfl
        rw [h.node?_eq hinner] at hnode
        cases hnode
      simp only [isDirectory, Bool.or_eq_true, List.any_eq_true, Bool.and_eq_true, bne_iff_ne]
      exact .inr ⟨inner, hinner, hne, hwithin⟩

/-! ## Repositories that calls build -/

/-- The repository that calls build, each of which puts a node at a written path. -/
def build (name : String) (commit : CommitId) (references : List String)
    (calls : List (String × Node)) : Repository :=
  calls.foldl (fun built call => built.put (.ofString call.1) call.2) { name, commit, references }

/-- The node that the last call for a path has put there. -/
def lastPut (calls : List (String × Node)) (path : TreePath) : Option Node :=
  (calls.reverse.find? fun call => TreePath.ofString call.1 = path).map Prod.snd

theorem lastPut_concat (calls : List (String × Node)) (call : String × Node) (path : TreePath) :
    lastPut (calls ++ [call]) path =
      if TreePath.ofString call.1 = path then some call.2 else lastPut calls path := by
  rw [lastPut, List.reverse_concat, List.find?_cons]
  by_cases hpath : TreePath.ofString call.1 = path <;> simp [hpath, lastPut]

/-- There is a call for a path exactly when there is a last one. -/
theorem isSome_lastPut {calls : List (String × Node)} :
    (lastPut calls path).isSome = true ↔ ∃ call ∈ calls, TreePath.ofString call.1 = path := by
  simp [lastPut]

/-- A path has the node that is put there, and all others have theirs. -/
theorem node?_put (repository : Repository) (path : TreePath) (node : Node) (other : TreePath) :
    (repository.put path node).node? other = if path = other then some node else repository.node? other := by
  have hothers (entries : List (TreePath × Node)) (hne : path ≠ other) :
      (entries.filter (·.1 ≠ path)).lookup other = entries.lookup other := by
    induction entries with
    | nil => rfl
    | cons entry rest ih =>
      rw [List.filter_cons, List.lookup_cons]
      split
      · rw [List.lookup_cons, ih]
      · rename_i hentry
        have hpath : entry.1 = path := by simpa using hentry
        rw [ih, hpath, beq_false_of_ne hne.symm]
  rw [node?, put, List.lookup_cons]
  by_cases hpath : path = other
  · rw [if_pos hpath, hpath, beq_self_eq_true]
  · rw [if_neg hpath, beq_false_of_ne (Ne.symm hpath)]
    exact hothers _ hpath

theorem OneNodePerPath.put (h : repository.OneNodePerPath) (path : TreePath) (node : Node) :
    (repository.put path node).OneNodePerPath := by
  refine List.nodup_cons.2 ⟨fun hmem => ?_, h.sublist (List.filter_sublist.map Prod.fst)⟩
  obtain ⟨entry, hentry, hpath⟩ := List.mem_map.1 hmem
  simpa [hpath] using (List.mem_filter.1 hentry).2

section Build

variable (name : String) (commit : CommitId) (references : List String) (calls : List (String × Node))

theorem build_concat (call : String × Node) : build name commit references (calls ++ [call]) =
    (build name commit references calls).put (.ofString call.1) call.2 :=
  List.foldl_concat ..

/-- A built repository has at most one node at each path. -/
theorem oneNodePerPath_build : (build name commit references calls).OneNodePerPath := by
  induction calls using List.reverseRecOn with
  | nil => exact List.nodup_nil
  | append_singleton calls call ih =>
    rw [build_concat]
    exact ih.put _ _

/-- A built repository has at each path what the last call has put there. -/
theorem node?_build (path : TreePath) :
    (build name commit references calls).node? path = lastPut calls path := by
  induction calls using List.reverseRecOn with
  | nil => rfl
  | append_singleton calls call ih => rw [build_concat, node?_put, ih, lastPut_concat]

/-- The nodes of a built repository are at the paths that there are calls for. -/
theorem exists_node_build_iff (p : TreePath → Prop) :
    (∃ entry ∈ (build name commit references calls).nodes, p entry.1) ↔
      ∃ call ∈ calls, p (.ofString call.1) := by
  constructor
  · rintro ⟨⟨path, node⟩, hentry, hp⟩
    have hnode := (oneNodePerPath_build name commit references calls).node?_eq hentry
    rw [node?_build] at hnode
    obtain ⟨call, hcall, hpath⟩ := isSome_lastPut.1 (Option.isSome_of_eq_some hnode)
    exact ⟨call, hcall, hpath ▸ hp⟩
  · rintro ⟨call, hcall, hp⟩
    obtain ⟨node, hnode⟩ := Option.isSome_iff_exists.1 (isSome_lastPut.2 ⟨call, hcall, rfl⟩)
    rw [← node?_build name commit references] at hnode
    exact ⟨_, mem_of_lookup hnode, hp⟩

end Build

/-! ## What a built repository lists -/

/-- No submodule has been put above a path. -/
def IsVisible (calls : List (String × Node)) (path : TreePath) : Prop :=
  ∀ mount target, lastPut calls mount = some (.submodule target) → path.isWithin mount = true →
    mount = path

/-- The entry of the node that the last call for a path has put there, or else of a directory. -/
def shownAs (calls : List (String × Node)) (path : TreePath) : Entry :=
  match lastPut calls path with
  | some node => node.entry path
  | none => .ofDirectory path

/-- The listing of a directory after some calls: its children in ascending order, each of them at or
beneath which a call has put something, as what the last call has made of it. -/
structure ShowsDirectory (calls : List (String × Node)) (path : TreePath) (entries : List Entry) :
    Prop where
  ascending : TreePath.Ascending (entries.map Entry.path)
  children : ∀ entry ∈ entries, entry.path.parent? = some path
  shown : ∀ child : TreePath, child.parent? = some path →
    ((∃ entry ∈ entries, entry.path = child) ↔
      ∃ call ∈ calls, (TreePath.ofString call.1).isWithin child = true)
  kinds : ∀ entry ∈ entries, entry = shownAs calls entry.path

section Build

variable {name : String} {commit : CommitId} {references : List String} {calls : List (String × Node)}

theorem isHidden_build_iff :
    (build name commit references calls).isHidden path = false ↔ IsVisible calls path := by
  rw [← Bool.not_eq_true, (oneNodePerPath_build name commit references calls).isHidden_iff]
  simp only [node?_build, IsVisible, not_exists, not_and, not_not]

/-- What is shown at a path is told by the last call for it. -/
theorem childEntry_build (path : TreePath) :
    (build name commit references calls).childEntry path = shownAs calls path := by
  rw [childEntry, node?_build]
  rfl

/-- The paths that a directory lists are its children. -/
theorem map_path_childEntry (paths : List TreePath) :
    (paths.map repository.childEntry).map Entry.path = paths := by
  rw [List.map_map]
  exact List.map_id'' (fun _ => path_childEntry) paths

theorem showsDirectory_build (path : TreePath) : ShowsDirectory calls path
    (((build name commit references calls).children path).map
      (build name commit references calls).childEntry) where
  ascending := by
    rw [map_path_childEntry]
    exact TreePath.ascending_sort _
  children entry hentry := by
    obtain ⟨child, hchild, rfl⟩ := List.mem_map.1 hentry
    rw [path_childEntry]
    exact (mem_children.1 hchild).1
  shown child hparent := by
    rw [← exists_node_build_iff name commit references calls fun inner => inner.isWithin child = true]
    have hmem : child ∈ (build name commit references calls).children path ↔
        ∃ entry ∈ (build name commit references calls).nodes, entry.1.isWithin child = true :=
      mem_children.trans (and_iff_right hparent)
    rw [← hmem]
    constructor
    · rintro ⟨entry, hentry, rfl⟩
      obtain ⟨child, hchild, rfl⟩ := List.mem_map.1 hentry
      rwa [path_childEntry]
    · intro hchild
      exact ⟨_, List.mem_map_of_mem hchild, path_childEntry⟩
  kinds entry hentry := by
    obtain ⟨child, -, rfl⟩ := List.mem_map.1 hentry
    rw [path_childEntry]
    exact childEntry_build child

/-- A built directory lists its children. -/
theorem HasDirectory.shows (h : (build name commit references calls).HasDirectory path) :
    ∃ entries, (build name commit references calls).list path = .ok entries ∧
      ShowsDirectory calls path entries :=
  ⟨_, h.list_eq, showsDirectory_build path⟩

/-- An entry of a listing answers as its kind says: a file that can be read has the content of the
last call, a directory can be listed, and a submodule lists as itself and hides what is beneath it. -/
def Answers (repository : Repository) (calls : List (String × Node)) (entry : Entry) : Prop :=
  match entry.kind with
  | .file => lastPut calls entry.path = some .unreadable ∨ ∃ content,
      lastPut calls entry.path = some (.file content) ∧ repository.read entry.path = .ok content
  | .directory => ∃ entries, repository.list entry.path = .ok entries ∧
      ShowsDirectory calls entry.path entries
  | .submodule => repository.list entry.path = .ok [entry] ∧
      ∀ inner : TreePath, inner.isWithin entry.path = true → inner ≠ entry.path →
        repository.list inner = .error (.notFound inner.toString) ∧
          repository.read inner = .error (.notFound inner.toString)

theorem answers_of_mem_list {entries : List Entry} {entry : Entry}
    (hlist : (build name commit references calls).list path = .ok entries) (hentry : entry ∈ entries) :
    (build name commit references calls).Answers calls entry := by
  have hone := oneNodePerPath_build name commit references calls
  have hvisible := hone.isHidden_of_list hlist hentry
  have hshown := childEntry_of_mem_list hlist hentry
  have hput := node?_build name commit references calls entry.path
  unfold Answers
  cases hkind : entry.kind with
  | file =>
    cases hnode : (build name commit references calls).node? entry.path with
    | none =>
      rw [childEntry, hnode] at hshown
      rw [← hshown] at hkind
      cases hkind
    | some node =>
      rw [childEntry, hnode] at hshown
      rw [hnode] at hput
      cases node with
      | file content => exact .inr ⟨content, hput.symm, read_eq_ok_iff.2 ⟨hvisible, hnode⟩⟩
      | unreadable => exact .inl hput.symm
      | _ =>
        rw [← hshown] at hkind
        cases hkind
  | directory =>
    have hdirectory : entry.isDirectory = true := by rw [Entry.isDirectory, hkind]; rfl
    exact (hone.hasDirectory_of_mem_list hlist hentry hdirectory).shows
  | submodule =>
    obtain ⟨target, hnode⟩ := node?_of_isSubmodule hlist hentry (by rw [Entry.isSubmodule, hkind]; rfl)
    rw [childEntry, hnode] at hshown
    refine ⟨?_, fun inner hwithin hne => ?_⟩
    · rw [list_of_node hnode (by simp) hvisible]
      exact congrArg (fun e => Except.ok [e]) hshown
    · exact notFound_of_isHidden (isHidden_of_submodule hnode hwithin (Ne.symm hne))

end Build

/-- **Listings are coherent.** Whatever calls have built a repository, a path lists as the one entry of
its own node, exactly when that is no directory and no submodule is above it, or as a directory, or is
not found, exactly when a submodule is above it or no call was for it or anything beneath it. The scan
that shows node after node gives the listing of a directory. A listed file that has not been declared
unreadable can be read and has the content of the last call for it, a listed directory can be listed
as one, and a listed submodule lists as itself, with nothing found beneath it. -/
theorem listings_coherent (name : String) (commit : CommitId) (references : List String)
    (calls : List (String × Node)) (path : TreePath) :
    ((build name commit references calls).list path = .error (.notFound path.toString) ∨
        (∃ node, lastPut calls path = some node ∧
          (build name commit references calls).list path = .ok [node.entry path]) ∨
        ∃ entries, (build name commit references calls).list path = .ok entries ∧
          entries = (build name commit references calls).scan path ∧ ShowsDirectory calls path entries) ∧
      ((∃ entry, (build name commit references calls).list path = .ok [entry] ∧ entry.path = path) ↔
        IsVisible calls path ∧ ∃ node, lastPut calls path = some node ∧ node ≠ .directory) ∧
      ((build name commit references calls).list path = .error (.notFound path.toString) ↔
        ¬IsVisible calls path ∨
          path ≠ .root ∧ ∀ call ∈ calls, ¬(TreePath.ofString call.1).isWithin path = true) ∧
      ∀ entries, (build name commit references calls).list path = .ok entries →
        ∀ entry ∈ entries, (build name commit references calls).Answers calls entry := by
  have hone := oneNodePerPath_build name commit references calls
  have hput := node?_build name commit references calls path
  have hvisible : (build name commit references calls).isHidden path = false ↔ IsVisible calls path :=
    isHidden_build_iff
  refine ⟨?_, ?_, ?_, fun entries hlist entry hentry => answers_of_mem_list hlist hentry⟩
  · rcases (build name commit references calls).list_outcome path with
      hnone | ⟨node, hnode, hkind, hvisible⟩ | hdirectory
    · exact .inl hnone
    · exact .inr (.inl ⟨node, hput.symm.trans hnode, list_of_node hnode hkind hvisible⟩)
    · exact .inr (.inr ⟨_, hdirectory.list_eq, (hone.scan_eq path).symm, showsDirectory_build path⟩)
  · rw [lists_own_entry_iff, hvisible, hput]
  · have hnothing := exists_node_build_iff name commit references calls fun inner =>
      inner.isWithin path = true
    rw [hone.notFound_iff path, ← hvisible, Bool.not_eq_false]
    refine or_congr_right (and_congr_right fun _ => ?_)
    simpa only [not_exists, not_and] using not_congr hnothing

/-- Calls for a directory with a sibling whose name extends its own, a file with a path beneath it, and a
submodule with a path beneath it that is declared before it. -/
def workbenchCalls : List (String × Node) :=
  [("vendor/core/hidden", .file []), ("lib/tool/tool.gemspec", .unreadable), ("lib-old", .file []),
    ("lib", .directory), ("./lib-old/note", .file []), ("vendor\\core", .submodule ⟨"org/core", "main"⟩),
    ("/lib-old", .file [103])]

/-- The repository of these calls. -/
def workbench : Repository := build "org/app" ⟨"sha"⟩ [] workbenchCalls

theorem listings_coherent_workbench :
    workbench.list .root = .ok [.ofDirectory (.ofString "lib"), .ofFile (.ofString "lib-old"),
        .ofDirectory (.ofString "vendor")] ∧
      workbench.Answers workbenchCalls (.ofFile (.ofString "lib-old")) ∧
      workbench.list (.ofString "vendor") =
        .ok [.ofSubmodule (.ofString "vendor/core") ⟨"org/core", "main"⟩] ∧
      workbench.Answers workbenchCalls (.ofSubmodule (.ofString "vendor/core") ⟨"org/core", "main"⟩) := by
  have hroot : workbench.list .root = .ok [.ofDirectory (.ofString "lib"), .ofFile (.ofString "lib-old"),
      .ofDirectory (.ofString "vendor")] := by decide +kernel
  have hvendor : workbench.list (.ofString "vendor") =
      .ok [.ofSubmodule (.ofString "vendor/core") ⟨"org/core", "main"⟩] := by decide +kernel
  have hcoherent (path : TreePath) := listings_coherent "org/app" ⟨"sha"⟩ [] workbenchCalls path
  exact ⟨hroot, (hcoherent .root).2.2.2 _ hroot _ (by simp), hvendor,
    (hcoherent (.ofString "vendor")).2.2.2 _ hvendor _ (by simp)⟩

end DependencyFiles.Repository
