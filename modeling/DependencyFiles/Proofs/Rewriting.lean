import DependencyFiles.Proofs.Asking

/-!
# Rewriting one file

A forge in which one file has another content lists everything as before and lets the same
files be read. When the references in the new content are the old ones in another order, the
two forges are alike.
-/

namespace DependencyFiles

/-- A file with another content; other nodes stay as they are. -/
def Node.rewrite (content : Bytes) : Node → Node
  | file _ => file content
  | node => node

/-- The repository in which the file at the path has another content. -/
def Repository.rewrite (repository : Repository) (path : TreePath) (content : Bytes) : Repository :=
  { repository with
    nodes := repository.nodes.map fun entry =>
      (entry.1, if entry.1 = path then entry.2.rewrite content else entry.2) }

/-- The forge in which the file has another content. -/
def Forge.rewrite (forge : Forge) (file : Key) (content : Bytes) : Forge :=
  { forge with
    repositories := forge.repositories.map fun repository =>
      if repository.name = file.1.repo then repository.rewrite file.2 content else repository }

/-- What is found in a list whose values are changed key by key. -/
theorem lookup_map {κ β γ : Type} [BEq κ] [LawfulBEq κ] (f : κ → β → γ) (entries : List (κ × β))
    (key : κ) :
    (entries.map fun entry => (entry.1, f entry.1 entry.2)).lookup key =
      (entries.lookup key).map (f key) := by
  induction entries with
  | nil => rfl
  | cons entry rest ih =>
    rw [List.map_cons, List.lookup_cons, List.lookup_cons]
    by_cases hkey : key = entry.1
    · subst hkey
      simp
    · simp [beq_eq_false_iff_ne.2 hkey, ih]

/-- A rewritten node is listed as before. -/
@[simp] theorem Node.entry_rewrite (path : TreePath) (content : Bytes) (node : Node) :
    (node.rewrite content).entry path = node.entry path := by
  cases node <;> rfl

/-- A rewritten node is a submodule when it was one. -/
@[simp] theorem Node.isSubmodule_rewrite (content : Bytes) (node : Node) :
    (node.rewrite content).isSubmodule = node.isSubmodule := by
  cases node <;> rfl

namespace Repository

variable (repository : Repository) (path : TreePath) (content : Bytes)

/-- Nodes are rewritten at the path alone. -/
theorem node?_rewrite (other : TreePath) : (repository.rewrite path content).node? other =
    (repository.node? other).map fun node => if other = path then node.rewrite content else node :=
  lookup_map (fun other (node : Node) => if other = path then node.rewrite content else node) _ _

/-- The same paths are hidden. -/
@[simp] theorem isHidden_rewrite (other : TreePath) :
    (repository.rewrite path content).isHidden other = repository.isHidden other := by
  unfold isHidden rewrite
  rw [List.any_map]
  congr 1
  funext entry
  dsimp only [Function.comp_apply]
  split <;> simp

/-- The same paths are directories. -/
@[simp] theorem isDirectory_rewrite (other : TreePath) :
    (repository.rewrite path content).isDirectory other = repository.isDirectory other := by
  have hnode : ((repository.rewrite path content).node? other = some .directory) =
      (repository.node? other = some .directory) := by
    rw [node?_rewrite]
    cases repository.node? other with
    | none => simp
    | some node =>
      by_cases hpath : other = path
      · cases node <;> simp [hpath, Node.rewrite]
      · simp [hpath]
  unfold isDirectory
  simp only [hnode]
  congr 1
  unfold rewrite
  rw [List.any_map]
  rfl

/-- Directories have the same children. -/
@[simp] theorem children_rewrite (other : TreePath) :
    (repository.rewrite path content).children other = repository.children other := by
  unfold children rewrite
  rw [List.filter_map, List.map_map]
  rfl

/-- Children are listed as before. -/
@[simp] theorem childEntry_rewrite (other : TreePath) :
    (repository.rewrite path content).childEntry other = repository.childEntry other := by
  unfold childEntry
  rw [node?_rewrite]
  cases repository.node? other with
  | none => rfl
  | some node =>
    dsimp only [Option.map_some]
    split <;> simp

/-- Everything is listed as before. -/
@[simp] theorem list_rewrite (other : TreePath) :
    (repository.rewrite path content).list other = repository.list other := by
  have hentry : (repository.rewrite path content).childEntry = repository.childEntry :=
    funext fun other => repository.childEntry_rewrite path content other
  unfold list
  rw [isHidden_rewrite, isDirectory_rewrite, children_rewrite, node?_rewrite, hentry]
  cases repository.node? other with
  | none => rfl
  | some node =>
    dsimp only [Option.map_some]
    split
    · rfl
    · by_cases hpath : other = path
      · rw [if_pos hpath]
        cases node <;> rfl
      · rw [if_neg hpath]

/-- What can be read at the path has the new content, and everything else the old one. -/
theorem read_rewrite (other : TreePath) :
    ((repository.rewrite path content).read other).toOption =
      (repository.read other).toOption.map fun old => if other = path then content else old := by
  unfold read
  rw [isHidden_rewrite, node?_rewrite]
  split
  · rfl
  · cases repository.node? other with
    | none => rfl
    | some node =>
      by_cases hpath : other = path
      · cases node <;> simp [hpath, Node.rewrite, Except.toOption]
      · cases node <;> simp [hpath, Except.toOption]

/-- What is a leaf is one as before. -/
theorem isLeaf_rewrite {leaf : TreePath} (h : repository.IsLeaf leaf) :
    (repository.rewrite path content).IsLeaf leaf := by
  intro inner hinner hwithin
  obtain ⟨beneath, hbeneath, rfl⟩ := List.mem_map.1 hinner
  exact h beneath hbeneath hwithin

end Repository

namespace Forge

variable {forge : Forge} {file : Key} {content : Bytes}

/-- The repository of a name is rewritten when it is the one of the file. -/
theorem repository?_rewrite (repo : String) : (forge.rewrite file content).repository? repo =
    (forge.repository? repo).map fun repository =>
      if repo = file.1.repo then repository.rewrite file.2 content else repository := by
  have hname (repository : Repository) : (if repository.name = file.1.repo then
      repository.rewrite file.2 content else repository).name = repository.name := by
    split <;> rfl
  unfold repository? rewrite
  rw [List.find?_map]
  simp only [Function.comp_def, hname]
  cases hfind : forge.repositories.find? fun repository => decide (repository.name = repo) with
  | none => rfl
  | some repository =>
    have hrepo : repository.name = repo := by simpa using List.find?_some hfind
    rw [Option.map_some, Option.map_some, hrepo]

/-- Repositories answer about a path as they do when the file is not rewritten, up to what a rewritten
repository answers otherwise. -/
theorem inspect_rewrite {α : Type} {repo : String} {commit : CommitId} {path : TreePath}
    {answer : Repository → Answer α} {f : α → α}
    (hanswer : ∀ repository : Repository, (answer (if repo = file.1.repo then
      repository.rewrite file.2 content else repository)).toOption = (answer repository).toOption.map f) :
    ((forge.rewrite file content).inspect repo commit path answer).toOption =
      (forge.inspect repo commit path answer).toOption.map f := by
  have hcommit (repository : Repository) : (if repo = file.1.repo then
      repository.rewrite file.2 content else repository).commit = repository.commit := by
    split <;> rfl
  have hfailures : (forge.rewrite file content).failures = forge.failures := rfl
  unfold inspect
  rw [hfailures]
  cases forge.failures.lookup path with
  | some error => rfl
  | none =>
    dsimp only
    rw [repository?_rewrite]
    cases forge.repository? repo with
    | none => rfl
    | some repository =>
      simp only [Option.map_some, Option.filter, hcommit]
      by_cases hthis : repository.commit = commit
      · simp only [hthis, decide_true, if_true]
        exact hanswer repository
      · simp only [hthis, decide_false, Bool.false_eq_true, if_false]
        rfl

/-- References lead to the same checkouts. -/
theorem checkout?_rewrite (target : RepoRef) :
    (forge.rewrite file content).checkout? target = forge.checkout? target := by
  unfold checkout? resolve
  rw [repository?_rewrite]
  cases forge.repository? target.repo with
  | none => rfl
  | some repository =>
    have hknows : (if target.repo = file.1.repo then repository.rewrite file.2 content
        else repository).knows target.reference = repository.knows target.reference := by
      split <;> rfl
    have hcommit : (if target.repo = file.1.repo then repository.rewrite file.2 content
        else repository).commit = repository.commit := by
      split <;> rfl
    simp only [Option.map_some, Option.filter, hknows]
    by_cases hthis : repository.knows target.reference = true
    · simp only [hthis, if_true, hcommit]
      rfl
    · simp only [hthis, if_false, Bool.false_eq_true]
      rfl

/-- Everything is listed as before. -/
theorem listing?_rewrite (key : Key) :
    (forge.rewrite file content).listing? key = forge.listing? key := by
  unfold listing? list
  rw [inspect_rewrite (f := id) fun repository => ?_, Option.map_id_fun, id]
  split
  · rw [Repository.list_rewrite, Option.map_id_fun, id]
  · rw [Option.map_id_fun, id]

/-- The file has the new content, and every other one its old content. -/
theorem content?_rewrite (key : Key) : (forge.rewrite file content).content? key =
    (forge.content? key).map fun old =>
      if key.1.repo = file.1.repo ∧ key.2 = file.2 then content else old := by
  unfold content? read
  refine inspect_rewrite fun repository => ?_
  by_cases hrepo : key.1.repo = file.1.repo
  · simp only [hrepo, if_true, true_and]
    exact repository.read_rewrite _ _ _
  · simp only [hrepo, if_false, false_and]
    rw [Option.map_id_fun']
    rfl

/-- What is a leaf is one as before. -/
theorem isLeaf_rewrite {leaf : Key} (h : forge.IsLeaf leaf) :
    (forge.rewrite file content).IsLeaf leaf := by
  intro repository hrepository
  rw [repository?_rewrite] at hrepository
  obtain ⟨old, hold, rfl⟩ := Option.map_eq_some_iff.1 hrepository
  split
  · exact old.isLeaf_rewrite _ _ (h old hold)
  · exact h old hold

/-- A file has one content in whatever checkout of its repository it is read. -/
theorem content?_unique {key : Key} {old old' : Bytes} (hrepo : key.1.repo = file.1.repo)
    (hpath : key.2 = file.2) (h : forge.content? key = some old) (h' : forge.content? file = some old') :
    old = old' := by
  obtain ⟨-, repository, hrepository, -, hread⟩ := content?_eq_some.1 h
  obtain ⟨-, other, hother, -, hread'⟩ := content?_eq_some.1 h'
  rw [hrepo, hother, Option.some_inj] at hrepository
  subst hrepository
  rw [hpath, hread'] at hread
  exact (Except.ok.inj hread).symm

/-- A file whose references come in another order makes no difference to the rest. -/
theorem alike_rewrite {ecosystem : Ecosystem} {old : Bytes} (hold : forge.content? file = some old)
    {references references' : List Reference}
    (hscan : ecosystem.references (Text.decodeLossy old) (file.2.name?.getD "") = .ok references)
    (hscan' : ecosystem.references (Text.decodeLossy content) (file.2.name?.getD "") = .ok references')
    (horder : references.Perm references') : forge.Alike ecosystem (forge.rewrite file content) where
  listing key := (listing?_rewrite key).symm
  checkouts target := (checkout?_rewrite target).symm
  readable key := by rw [content?_rewrite, Option.isSome_map]
  refers key reference := by
    unfold Refers
    rw [content?_rewrite]
    by_cases hthis : key.1.repo = file.1.repo ∧ key.2 = file.2
    · simp only [hthis, and_self, if_true]
      cases hread : forge.content? key with
      | none => simp
      | some first =>
        obtain rfl := content?_unique hthis.1 hthis.2 hread hold
        simp only [Option.map_some, Option.some.injEq]
        constructor
        · intro hrefers
          obtain ⟨_, found, rfl, hfound, hmem⟩ := hrefers
          rw [hscan, Except.ok.injEq] at hfound
          subst hfound
          exact ⟨content, references', rfl, hscan', horder.mem_iff.1 hmem⟩
        · intro hrefers
          obtain ⟨_, found, rfl, hfound, hmem⟩ := hrefers
          rw [hscan', Except.ok.injEq] at hfound
          subst hfound
          exact ⟨first, references, rfl, hscan, horder.mem_iff.2 hmem⟩
    · simp only [hthis, if_false, Option.map_id_fun']
      exact Iff.rfl

end Forge

end DependencyFiles
