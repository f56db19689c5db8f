import DependencyFiles.Proofs.Keeping
import DependencyFiles.Proofs.Trees
import DependencyFiles.Provider.Forge

/-!
# What a forge answers

A forge gives the same answer whenever it is asked the same, so what it answers can be
spoken of without its request log and without the cache in front of it. In every state of
a collection the kept answers are the forge's own, and the collected files hold what the
forge reads.
-/

namespace DependencyFiles

/-- A path in a checkout, wherever the checkout is mounted. -/
abbrev Key := Checkout × TreePath

namespace Kept

variable {κ α σ : Type} [BEq κ] [LawfulBEq κ]

/-- Every kept answer is the answer to its key. -/
def Agrees (kept : Kept κ α) (answer : κ → Answer α) : Prop := ∀ entry ∈ kept, entry.2 = answer entry.1

omit [BEq κ] [LawfulBEq κ] in
/-- Nothing kept agrees with everything. -/
theorem agrees_nil (answer : κ → Answer α) : Agrees [] answer := by simp [Agrees]

variable {kept : Kept κ α} {answer : κ → Answer α} {key : κ} {query : Query σ α}

/-- With agreeing kept answers a question gets the answer to its key. -/
theorem ask_fst (h : kept.Agrees answer) (hquery : ∀ inner, (query inner).1 = answer key) (inner : σ) :
    (kept.ask key query inner).1 = answer key := by
  unfold ask
  split
  · exact h _ (mem_of_lookup ‹_›)
  · exact hquery inner

omit [LawfulBEq κ] in
/-- Kept answers agree after a question when they did before. -/
theorem agrees_ask (h : kept.Agrees answer) (hquery : ∀ inner, (query inner).1 = answer key)
    (inner : σ) : (kept.ask key query inner).2.1.Agrees answer := by
  unfold ask
  split
  · exact h
  · intro entry hentry
    rcases List.mem_append.1 hentry with hentry | hentry
    · exact h entry hentry
    · rw [List.mem_singleton.1 hentry]
      exact hquery inner

end Kept

namespace Forge

/-- The listing of a path in a checkout, when there is one. -/
def listing? (forge : Forge) (key : Key) : Option (List Entry) :=
  (forge.list key.1.repo key.1.commit key.2).toOption

/-- The content of a file in a checkout, when it can be read. -/
def content? (forge : Forge) (key : Key) : Option Bytes :=
  (forge.read key.1.repo key.1.commit key.2).toOption

/-- The checkout that a reference of a repository leads to, when there is one. -/
def checkout? (forge : Forge) (target : RepoRef) : Option Checkout :=
  (forge.resolve target.repo target.reference).toOption.map (⟨forge.name, target.repo, ·⟩)

/-- The checkout that a submodule leads to, when there is one. -/
def inside? (forge : Forge) (entry : Entry) : Option Checkout := entry.submodule.bind forge.checkout?

/-- The collector of an ecosystem's files from the forge. -/
def collector (forge : Forge) (ecosystem : Ecosystem) (settings : Settings) (extent : Extent) :
    Collector (List Request) := ⟨forge.provider, ecosystem, settings, extent⟩

/-- The kept answers are the forge's, and the collected files hold what it reads. -/
structure Truthful (forge : Forge) (p : Progress (List Request)) : Prop where
  commits : p.cached.commits.Agrees fun key => forge.resolve key.1 key.2
  listings : p.cached.listings.Agrees fun key => forge.list key.1.repo key.1.commit key.2
  contents : p.cached.contents.Agrees fun key => forge.read key.1.repo key.1.commit key.2
  files : ∀ file ∈ p.files,
    forge.read file.checkout.repo file.checkout.commit file.repoPath = .ok file.content

variable {forge : Forge} {s : Progress (List Request)}

/-- What is answered about a path without an error comes from the repository of its checkout. -/
theorem toOption_inspect_eq_some {α : Type} {key : Key} {answer : Repository → Answer α} {a : α} :
    (forge.inspect key.1.repo key.1.commit key.2 answer).toOption = some a ↔
      forge.failures.lookup key.2 = none ∧ ∃ repository, forge.repository? key.1.repo = some repository ∧
        repository.commit = key.1.commit ∧ answer repository = .ok a := by
  rw [← inspect_eq_ok_iff]
  cases forge.inspect key.1.repo key.1.commit key.2 answer <;> simp [Except.toOption]

/-- What a path is listed as comes from the repository of its checkout. -/
theorem listing?_eq_some {key : Key} {entries : List Entry} :
    forge.listing? key = some entries ↔ forge.failures.lookup key.2 = none ∧
      ∃ repository, forge.repository? key.1.repo = some repository ∧
        repository.commit = key.1.commit ∧ repository.list key.2 = .ok entries :=
  toOption_inspect_eq_some

/-- What is read at a path comes from the repository of its checkout. -/
theorem content?_eq_some {key : Key} {content : Bytes} :
    forge.content? key = some content ↔ forge.failures.lookup key.2 = none ∧
      ∃ repository, forge.repository? key.1.repo = some repository ∧
        repository.commit = key.1.commit ∧ repository.read key.2 = .ok content :=
  toOption_inspect_eq_some

/-- Nothing lies beneath the path in its repository. -/
def IsLeaf (forge : Forge) (file : Key) : Prop :=
  ∀ repository, forge.repository? file.1.repo = some repository → repository.IsLeaf file.2

/-- Where files are leaves, a file that can be read is one. -/
theorem isLeaf_of_filesAreLeaves (hleaves : forge.FilesAreLeaves) {file : Key}
    (hread : (forge.content? file).isSome = true) : forge.IsLeaf file := by
  intro repository hrepository
  obtain ⟨content, hcontent⟩ := Option.isSome_iff_exists.1 hread
  obtain ⟨-, other, hother, -, hfile⟩ := content?_eq_some.1 hcontent
  rw [hrepository, Option.some_inj] at hother
  subst hother
  exact hleaves repository (List.mem_of_find?_eq_some hrepository) _
    (mem_of_lookup (Repository.read_eq_ok_iff.1 hfile).2) rfl

/-- A collection starts with nothing kept and nothing collected. -/
theorem truthful_initial (forge : Forge) (log : List Request) :
    forge.Truthful { cached := { inner := log } } :=
  ⟨Kept.agrees_nil _, Kept.agrees_nil _, Kept.agrees_nil _, by simp⟩

/-- The content of a collected file is the forge's. -/
theorem Truthful.content?_eq (h : forge.Truthful s) {file : DependencyFile} (hfile : file ∈ s.files) :
    forge.content? file.key = some file.content := by
  simp [content?, DependencyFile.key, h.files file hfile, Except.toOption]

/-- Opening a checkout gives the forge's answer. -/
theorem Truthful.openCheckout_fst (h : forge.Truthful s) (repo reference : String) :
    (Cached.openCheckout forge.provider repo reference s.cached).1 =
      (forge.resolve repo reference).map (⟨forge.name, repo, ·⟩) := by
  simp only [Cached.openCheckout, Cached.resolve]
  rw [Kept.ask_fst h.commits fun inner => rfl]
  rfl

/-- Listing a path gives the forge's answer. -/
theorem Truthful.list_fst (h : forge.Truthful s) (checkout : Checkout) (path : TreePath) :
    (Cached.list forge.provider checkout path s.cached).1 =
      forge.list checkout.repo checkout.commit path := by
  simp only [Cached.list]
  rw [Kept.ask_fst h.listings fun inner => rfl]

/-- Reading a file gives the forge's answer. -/
theorem Truthful.read_fst (h : forge.Truthful s) (checkout : Checkout) (path : TreePath) :
    (Cached.read forge.provider checkout path s.cached).1 =
      forge.read checkout.repo checkout.commit path := by
  simp only [Cached.read]
  rw [Kept.ask_fst h.contents fun inner => rfl]

end Forge

namespace Walk

variable {σ : Type} {s : Progress σ}

/-- The state with one more file, unless it is collected already. -/
def collecting (s : Progress σ) (job : Job σ) (place : Place) (role : DependencyFile.Role)
    (content : Bytes) : Progress σ :=
  if s.files.any fun file => file.key = place.key then s
  else { s with files := s.files ++ [place.toFile job.base role content] }

/-- A file whose key is collected is not collected again. -/
theorem collecting_of_mem {job : Job σ} {place : Place} {role : DependencyFile.Role}
    {content : Bytes} (h : place.key ∈ s.files.map DependencyFile.key) :
    collecting s job place role content = s := by
  obtain ⟨file, hfile, hkey⟩ := List.mem_map.1 h
  exact if_pos (List.any_eq_true.2 ⟨file, hfile, decide_eq_true hkey⟩)

/-- A file whose key is not collected is added at the end. -/
theorem collecting_of_not_mem {job : Job σ} {place : Place} {role : DependencyFile.Role}
    {content : Bytes} (h : place.key ∉ s.files.map DependencyFile.key) :
    collecting s job place role content =
      { s with files := s.files ++ [place.toFile job.base role content] } := by
  refine if_neg fun hany => h ?_
  obtain ⟨file, hfile, hkey⟩ := List.any_eq_true.1 hany
  exact List.mem_map.2 ⟨file, hfile, of_decide_eq_true hkey⟩

/-- The keys of the collected files are those before and the key of the file. -/
theorem mem_keys_collecting {job : Job σ} {place : Place} {role : DependencyFile.Role}
    {content : Bytes} {key : Key} :
    key ∈ (collecting s job place role content).files.map DependencyFile.key ↔
      key ∈ s.files.map DependencyFile.key ∨ key = place.key := by
  by_cases h : place.key ∈ s.files.map DependencyFile.key
  · rw [collecting_of_mem h]
    exact ⟨.inl, fun hkey => hkey.elim id fun hkey => hkey ▸ h⟩
  · rw [collecting_of_not_mem h, List.map_append, List.mem_append]
    exact or_congr_right List.mem_singleton

/-- The question for the content of a place. -/
def contentOf (job : Job σ) (place : Place) : Query (Cached σ) Bytes :=
  Cached.read job.provider place.mount.checkout place.path

/-- Reading a file asks for its content and collects what there is. -/
theorem gives_readCollecting {job : Job σ} {place : Place} {role : DependencyFile.Role}
    {result : Answer Bytes → Progress σ → Prop} {halt : Halt → Progress σ → Prop} :
    Gives (readCollecting job place role) s result halt ↔
      match (contentOf job place s.cached).1 with
      | .ok content =>
        result (.ok content) (collecting (s.asked (contentOf job place)) job place role content)
      | .error error => result (.error error) (s.asked (contentOf job place)) := by
  simp only [readCollecting, gives_bind]
  change Gives (match (contentOf job place s.cached).1 with
    | .ok content => do collect job place role content; return .ok content
    | .error error => return .error error) (s.asked (contentOf job place)) result halt ↔ _
  cases (contentOf job place s.cached).1 with
  | ok content =>
    simp only [gives_bind, collect, gives_isCollected, collecting]
    split <;> rfl
  | error error => rfl

/-- The outcomes of searches stay as they are when files are read. -/
theorem keptByReading_searched (job : Job σ) (searched : List (Key × SearchOutcome)) :
    KeptByReading job fun s => s.searched = searched where
  resolve _ _ _ hs := hs
  list _ _ _ hs := hs
  target _ _ hs := hs
  read place role s hs := by
    rw [gives_readCollecting]
    split
    · unfold collecting
      split <;> exact hs
    · exact hs

/-- Reading a file gives the answer, and collects the file when there is one. -/
theorem readCollecting_eq (job : Job σ) (place : Place) (role : DependencyFile.Role) (s : Progress σ) :
    readCollecting job place role s = .ok (contentOf job place s.cached).1
      (match (contentOf job place s.cached).1 with
        | .ok content => collecting (s.asked (contentOf job place)) job place role content
        | .error _ => s.asked (contentOf job place)) := by
  have hgives : Gives (readCollecting job place role) s
      (fun answer t => readCollecting job place role s = .ok answer t)
      (fun halt t => readCollecting job place role s = .error halt t) := by
    unfold Gives
    cases readCollecting job place role s <;> rfl
  rw [gives_readCollecting] at hgives
  cases hanswer : (contentOf job place s.cached).1 with
  | ok content =>
    rw [hanswer] at hgives
    exact hgives
  | error error =>
    rw [hanswer] at hgives
    exact hgives

end Walk

namespace Forge

variable {forge : Forge} {job : Job (List Request)}

/-- Truth is kept by all steps of a collection from the forge. -/
theorem truthful_keptByAll (hjob : job.provider = forge.provider) :
    Walk.KeptByAll job forge.Truthful where
  resolve repo reference s hs := by
    rw [hjob, Walk.gives_ask]
    exact ⟨Kept.agrees_ask hs.commits (fun _ => rfl) _, hs.listings, hs.contents, hs.files⟩
  list checkout path s hs := by
    rw [hjob, Walk.gives_ask]
    exact ⟨hs.commits, Kept.agrees_ask hs.listings (fun _ => rfl) _, hs.contents, hs.files⟩
  target entry s hs := ⟨hs.commits, hs.listings, hs.contents, hs.files⟩
  read place role s hs := by
    have hread := hs.read_fst place.mount.checkout place.path
    have hasked : forge.Truthful (s.asked (Walk.contentOf job place)) := by
      unfold Walk.contentOf
      rw [hjob]
      exact ⟨hs.commits, hs.listings, Kept.agrees_ask hs.contents (fun _ => rfl) _, hs.files⟩
    rw [← hjob] at hread
    rw [Walk.gives_readCollecting]
    cases hanswer : (Walk.contentOf job place s.cached).1 with
    | error error => exact hasked
    | ok content =>
      dsimp only [Walk.collecting]
      split
      · exact hasked
      · refine ⟨hasked.commits, hasked.listings, hasked.contents, fun file hfile => ?_⟩
        rcases List.mem_append.1 hfile with hfile | hfile
        · exact hasked.files file hfile
        · rw [List.mem_singleton.1 hfile]
          exact hread.symm.trans hanswer
  note name reason s hs := by
    unfold Walk.markUnreachable
    rw [Walk.gives_modify]
    split
    · exact hs
    · exact ⟨hs.commits, hs.listings, hs.contents, hs.files⟩
  keep key outcome s hs := ⟨hs.commits, hs.listings, hs.contents, hs.files⟩

end Forge

end DependencyFiles
