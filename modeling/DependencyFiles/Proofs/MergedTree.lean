import DependencyFiles.Proofs.Bounds
import DependencyFiles.Proofs.Directories
import DependencyFiles.Proofs.Halting

/-!
# Directories of the merged tree

With the trees of their repositories in place of all submodules, a forge has one tree beneath
each checkout. Locating a place finds the directory that its path names in this tree, in the
innermost repository that the path leads into. A path that names a file, nothing, or something
in a repository that cannot be opened leads nowhere, and locating it comes to no halt.
-/

namespace DependencyFiles

namespace Forge

variable (forge : Forge)

/-- The repository that a checkout is of, when the forge has it at the commit. -/
def at? (checkout : Checkout) : Option Repository :=
  (forge.repository? checkout.repo).filter (·.commit = checkout.commit)

/-- A path names a directory in the tree of a checkout with all submodules in their places: a directory
of the checkout's repository itself, or one inside a submodule that is not hidden and whose reference
leads to a checkout. The directory is told by its own checkout and its path there. -/
inductive MergedDirectory : Key → Key → Prop
  | own {key : Key} {repository : Repository} (hrepository : forge.at? key.1 = some repository)
      (hdirectory : repository.HasDirectory key.2) : MergedDirectory key key
  | inside {key directory : Key} {repository : Repository} {mount rest : TreePath} {target : RepoRef}
      {checkout : Checkout} (hrepository : forge.at? key.1 = some repository)
      (hnode : repository.node? mount = some (.submodule target))
      (hvisible : repository.isHidden mount = false) (hcheckout : forge.checkout? target = some checkout)
      (hpath : key.2 = mount ++ rest) (hrest : MergedDirectory (checkout, rest) directory) :
      MergedDirectory key directory

/-- Each path of each repository has at most one node. -/
def OneNodePerPath : Prop := ∀ repository ∈ forge.repositories, repository.OneNodePerPath

instance : Decidable forge.OneNodePerPath :=
  inferInstanceAs (Decidable (∀ repository ∈ _, Repository.OneNodePerPath repository))

/-- Every repository is a directory as a whole. -/
def RootsAreDirectories : Prop := ∀ repository ∈ forge.repositories, repository.RootIsDirectory

instance : Decidable forge.RootsAreDirectories :=
  inferInstanceAs (Decidable (∀ repository ∈ _, Repository.RootIsDirectory repository))

variable {forge}

/-- The repository of a checkout is one of the forge's. -/
theorem mem_of_at? {checkout : Checkout} {repository : Repository}
    (h : forge.at? checkout = some repository) : repository ∈ forge.repositories :=
  List.mem_of_find?_eq_some (Option.filter_eq_some_iff.1 h).1

/-- Without failures a path is listed as its repository lists it. -/
theorem listing?_iff (hfailures : forge.failures = []) {key : Key} {entries : List Entry} :
    forge.listing? key = some entries ↔
      ∃ repository, forge.at? key.1 = some repository ∧ repository.list key.2 = .ok entries := by
  simp only [listing?_eq_some, hfailures, List.lookup_nil, true_and, at?, Option.filter_eq_some_iff,
    decide_eq_true_eq, and_assoc]

/-- What a reference leads to is a checkout of some repository of the forge. -/
theorem at?_of_checkout? {target : RepoRef} {checkout : Checkout}
    (h : forge.checkout? target = some checkout) :
    ∃ repository, forge.at? checkout = some repository := by
  obtain ⟨commit, hresolve, rfl⟩ := Option.map_eq_some_iff.1 h
  unfold resolve at hresolve
  cases hfound : (forge.repository? target.repo).filter (·.knows target.reference) with
  | none => simp [hfound, Except.toOption] at hresolve
  | some repository =>
    obtain rfl : repository.commit = commit := by simpa [hfound, Except.toOption] using hresolve
    exact ⟨repository, Option.filter_eq_some_iff.2
      ⟨(Option.filter_eq_some_iff.1 hfound).1, decide_eq_true rfl⟩⟩

/-- The submodule around a path holds the path. -/
theorem isWithin_of_around? {checkout : Checkout} {path : TreePath} {ancestors : List TreePath}
    {entry : Entry} (h : forge.around? checkout path ancestors = some entry) :
    path.isWithin entry.path = true := by
  induction ancestors with
  | nil => cases h
  | cons ancestor rest ih =>
    unfold around? at h
    split at h
    · exact ih h
    · have hentry := List.find?_some h
      exact (Bool.and_eq_true_iff.1 hentry).2

/-- When all that lies strictly between a path and a submodule is hidden, and the submodule is not, it
is the one around the path. -/
theorem around?_eq {checkout : Checkout} {path mount : TreePath} {target : RepoRef} {n : Nat}
    (hlist : forge.listing? (checkout, mount) = some [(Node.submodule target).entry mount])
    (hhidden : ∀ inner : TreePath, inner.isWithin mount = true → inner ≠ mount →
      forge.listing? (checkout, inner) = none)
    (hwithin : path.isWithin mount = true) (hbelow : mount.segments.length < n)
    (hn : n ≤ path.segments.length) :
    forge.around? checkout path ((List.range n).reverse.map path.take) =
      some ((Node.submodule target).entry mount) := by
  have hbeneath := List.isPrefixOf_iff_prefix.1 hwithin
  induction n with
  | zero => cases hbelow
  | succ n ih =>
    rw [List.range_succ, List.reverse_append, List.map_append]
    change around? forge checkout path (path.take n :: (List.range n).reverse.map path.take) = _
    unfold around?
    by_cases hsame : mount.segments.length = n
    · have hmount : path.take n = mount := TreePath.ext_segments <| by
        rw [TreePath.segments_take, ← hsame]
        exact (List.prefix_iff_eq_take.1 hbeneath).symm
      have hentry : ((Node.submodule target).entry mount).isSubmodule = true := rfl
      rw [hmount, hlist]
      simp [hentry, hwithin]
    · have hinner : (path.take n).isWithin mount = true :=
        List.isPrefixOf_iff_prefix.2 <| List.prefix_of_prefix_length_le hbeneath
          (List.take_prefix n path.segments) (by rw [TreePath.segments_take, List.length_take]; omega)
      have hne : path.take n ≠ mount := fun hthis => hsame <| by
        rw [← hthis, TreePath.segments_take, List.length_take]
        omega
      rw [hhidden _ hinner hne]
      exact ih (by omega) (by omega)

section Merged

/-- The root of a checkout that a reference leads to is a directory of its repository. -/
theorem RootsAreDirectories.hasDirectory (hroots : forge.RootsAreDirectories) {target : RepoRef}
    {checkout : Checkout} (h : forge.checkout? target = some checkout) :
    ∃ repository, forge.at? checkout = some repository ∧ repository.HasDirectory .root := by
  obtain ⟨repository, hrepository⟩ := at?_of_checkout? h
  exact ⟨repository, hrepository, (hroots repository (mem_of_at? hrepository)).hasDirectory⟩

variable (hfailures : forge.failures = []) {settings : Settings}

include hfailures

/-- A directory of a repository itself leads to itself alone. -/
theorem leads_iff_own {key directory : Key} {repository : Repository}
    (hrepository : forge.at? key.1 = some repository) (hdirectory : repository.HasDirectory key.2) :
    forge.Leads settings key directory ↔ key = directory :=
  leads_iff_here ((listing?_iff hfailures).2 ⟨repository, hrepository, hdirectory.list_eq⟩)
    Repository.single?_children

variable (hnodes : forge.OneNodePerPath)

include hnodes

/-- A listed submodule around a path leads to what the rest of the path names inside. -/
theorem mergedDirectory_of_entry {key directory : Key} {path rest : TreePath} {entries : List Entry}
    {entry : Entry} {checkout : Checkout} (hlist : forge.listing? (key.1, path) = some entries)
    (hentry : entry ∈ entries) (hkind : entry.isSubmodule = true)
    (hinside : forge.inside? entry = some checkout) (hpath : key.2 = entry.path ++ rest)
    (hrest : forge.MergedDirectory (checkout, rest) directory) : forge.MergedDirectory key directory := by
  obtain ⟨repository, hrepository, hlisted⟩ := (listing?_iff hfailures).1 hlist
  have hvisible := (hnodes repository (mem_of_at? hrepository)).isHidden_of_list hlisted hentry
  rcases Repository.eq_of_mem_list hlisted hentry with ⟨node, hnode, hthis⟩ | hdirectory
  · obtain ⟨target, htarget, hcheckout⟩ := Option.bind_eq_some_iff.1 hinside
    cases node with
    | submodule target' =>
      obtain rfl : target' = target := by
        rw [hthis] at htarget
        exact Option.some_inj.1 htarget
      exact .inside hrepository hnode hvisible hcheckout hpath hrest
    | _ =>
      rw [hthis] at hkind
      cases hkind
  · rw [hdirectory] at hkind
    cases hkind

variable (hroots : forge.RootsAreDirectories) (hfollow : settings.followSubmodules = true)

include hroots hfollow

/-- A path leads to the directory that it names in the merged tree. -/
theorem leads_iff_mergedDirectory {key directory : Key} :
    forge.Leads settings key directory ↔ forge.MergedDirectory key directory := by
  constructor
  · intro h
    induction h with
    | here hlist hmany =>
      obtain ⟨repository, hrepository, hlisted⟩ := (listing?_iff hfailures).1 hlist
      exact .own hrepository (Repository.hasDirectory_of_list hlisted hmany)
    | @enter key entries entry checkout hlist hone hkind _ hinside =>
      obtain ⟨target, -, hcheckout⟩ := Option.bind_eq_some_iff.1 hinside
      obtain ⟨repository, hrepository, hroot⟩ := hroots.hasDirectory hcheckout
      have hpath : key.2 = entry.path ++ TreePath.root := by
        rw [(Entry.eq_of_single? hone).2]
        exact (TreePath.ext_segments (List.append_nil _)).symm
      exact mergedDirectory_of_entry hfailures hnodes hlist (Entry.mem_of_single? hone) hkind hinside
        hpath (.own hrepository hroot)
    | @through key directory entry checkout _ _ haround hinside _ ih =>
      obtain ⟨hkind, ancestor, entries, hlist, hentry⟩ := mem_of_around? haround
      refine mergedDirectory_of_entry hfailures hnodes hlist hentry hkind hinside ?_ ih
      apply TreePath.ext_segments
      obtain ⟨rest, hrest⟩ := List.isPrefixOf_iff_prefix.1 (isWithin_of_around? haround)
      rw [TreePath.segments_append, TreePath.segments_drop, ← hrest, List.drop_left]
  · intro h
    induction h with
    | own hrepository hdirectory =>
      exact (leads_iff_own hfailures hrepository hdirectory).2 rfl
    | @inside key directory repository mount rest target checkout hrepository hnode hvisible hcheckout
        hpath hrest ih =>
      have hlist : forge.listing? (key.1, mount) = some [(Node.submodule target).entry mount] :=
        (listing?_iff hfailures).2 ⟨repository, hrepository,
          Repository.list_of_node hnode (by simp) hvisible⟩
      have hinside : forge.inside? ((Node.submodule target).entry mount) = some checkout := hcheckout
      have hhidden (inner : TreePath) (hwithin : inner.isWithin mount = true) (hne : inner ≠ mount) :
          forge.listing? (key.1, inner) = none := by
        refine Option.eq_none_iff_forall_not_mem.2 fun entries hentries => ?_
        obtain ⟨other, hother, hlisted⟩ := (listing?_iff hfailures).1 hentries
        obtain rfl := Option.some_inj.1 (hrepository.symm.trans hother)
        exact Repository.list_beneath_submodule hnode hwithin hne.symm entries hlisted
      by_cases hroot : rest = .root
      · -- The path is the submodule's own, and all of its repository is meant.
        obtain ⟨inner, hinner, hdirectory⟩ := hroots.hasDirectory hcheckout
        subst hroot
        obtain rfl := (leads_iff_own hfailures hinner hdirectory).1 ih
        have hsame : key.2 = mount := hpath.trans (TreePath.ext_segments (List.append_nil _))
        rw [← hsame] at hlist hinside
        exact .enter hlist (if_pos (Node.path_entry _ _)) rfl hfollow hinside
      · have hne : key.2 ≠ mount := fun hsame => hroot <| TreePath.ext_segments <|
          List.append_right_eq_self.1 (congrArg TreePath.segments (hpath.symm.trans hsame))
        have hwithin : key.2.isWithin mount = true := hpath ▸ TreePath.isWithin_append mount rest
        have hlonger : mount.segments.length < key.2.segments.length := by
          have hsome : rest.segments ≠ [] := fun hnone => hroot (TreePath.ext_segments hnone)
          have hpositive := List.length_pos_iff.2 hsome
          rw [hpath, TreePath.segments_append, List.length_append]
          omega
        refine .through (hhidden _ hwithin hne) hfollow
          (around?_eq hlist hhidden hwithin hlonger (Nat.le_refl _)) hinside ?_
        have hdrop : key.2.drop mount.segments.length = rest := TreePath.ext_segments <| by
          rw [TreePath.segments_drop, hpath, TreePath.segments_append, List.drop_left]
        rwa [Node.path_entry, hdrop]

end Merged

end Forge

/-- A repository that is a directory as a whole is not a submodule. -/
theorem Forge.RootsAreDirectories.noRootSubmodules {forge : Forge} (h : forge.RootsAreDirectories) :
    forge.NoRootSubmodules := by
  intro repository hrepository
  cases hnode : repository.node? .root with
  | none => rfl
  | some node =>
    rw [h repository hrepository node hnode]
    rfl

namespace Walk

variable {forge : Forge} {job : Job (List Request)}

/-- A located directory has the place that was asked for in the tree of the root repository. -/
theorem tells_locateWithin_rootPath (hjob : job.provider = forge.provider) (fuel : Nat) (place : Place) :
    Tells forge (locateWithin job fuel place) fun found =>
      ∀ directory ∈ found, directory.rootPath = place.rootPath := by
  induction fuel generalizing place with
  | zero => exact fun _ _ => trivial
  | succ fuel ih =>
    refine (tells_list? hjob place).bind fun entries _ => ?_
    cases entries with
    | some entries =>
      dsimp only
      cases hsingle : Entry.single? entries place.path with
      | none => exact .pure fun directory hdirectory => by rw [Option.mem_some_iff.1 hdirectory]
      | some entry =>
        refine .ite (fun _ => (tells_enter? hjob _ _).imp ?_) fun _ => .pure nofun
        intro found hfound directory hdirectory
        rw [hfound] at hdirectory
        obtain ⟨checkout, -, rfl⟩ := Option.map_eq_some_iff.1 hdirectory
        apply TreePath.ext_segments
        simp [Place.rootPath, (Entry.eq_of_single? hsingle).2]
    | none =>
      refine .ite (fun _ => ?_) fun _ => .pure nofun
      refine (tells_throughSubmodule? hjob place _).bind fun inner hinner => ?_
      cases inner with
      | none => exact .pure nofun
      | some inner =>
        refine (ih inner).imp fun found hfound directory hdirectory => ?_
        obtain ⟨entry, haround, hinside⟩ := Option.bind_eq_some_iff.1 hinner.symm
        obtain ⟨checkout, -, rfl⟩ := Option.map_eq_some_iff.1 hinside
        obtain ⟨rest, hrest⟩ := List.isPrefixOf_iff_prefix.1 (Forge.isWithin_of_around? haround)
        rw [hfound directory hdirectory]
        apply TreePath.ext_segments
        simp [Place.rootPath, ← hrest]

/-- Locating a place reaches no bound where no repository is a submodule as a whole. -/
theorem not_exhausted_locate (hjob : job.provider = forge.provider) (hroots : forge.NoRootSubmodules)
    (place : Place) {s t : Progress (List Request)} (hs : forge.Truthful s) :
    locate job place s ≠ .error .exhausted t := by
  intro hhalt
  have henough : place.path.segments.length <
      (place.path.segments.length + 1) * (job.extent.checkouts + 1) :=
    Nat.lt_of_lt_of_le (Nat.lt_succ_self _) (Nat.le_mul_of_pos_right _ (Nat.succ_pos _))
  have hsame : SameEnd (sameBond forge.Truthful) (locate job place s)
      (locate (job.over job.provider job.extent) place s) :=
    agree_locateWithin hjob hroots henough henough s s ⟨rfl, hs⟩
  rw [hhalt] at hsame
  generalize locate (job.over job.provider job.extent) place s = result at hsame
  cases hsame with
  | error h => exact h.2 rfl

/-- Whatever has been asked before, locating a place in a forge without failures comes to its end. It
finds a directory exactly when the path names one in the merged tree: the directory in the innermost
repository that the path leads into, which has the place's own path in the tree of the root
repository. -/
theorem locate_follows_mergedTree (forge : Forge) (job : Job (List Request)) (place : Place)
    (s : Progress (List Request)) (hjob : job.provider = forge.provider)
    (hfollow : job.settings.followSubmodules = true) (hfailures : forge.failures = [])
    (hnodes : forge.OneNodePerPath) (hroots : forge.RootsAreDirectories) (hs : forge.Truthful s) :
    ∃ found t, locate job place s = .ok found t ∧
      (∀ directory, forge.MergedDirectory place.key directory ↔
        found.map Place.key = some directory) ∧
      ∀ directory ∈ found, directory.rootPath = place.rootPath := by
  cases hrun : locate job place s with
  | error halt t =>
    rcases stops_locateWithin hjob _ hs halt t hrun with hbalks | rfl
    · exact absurd hbalks (Forge.not_balks hfailures halt)
    · exact absurd hrun (not_exhausted_locate hjob hroots.noRootSubmodules place hs)
  | ok found t =>
    obtain ⟨hlocated, -⟩ := (tells_locate hjob place s hs).of_ok hrun
    obtain ⟨hpath, -⟩ := (tells_locateWithin_rootPath hjob _ place s hs).of_ok hrun
    refine ⟨found, t, rfl, fun directory => ?_, hpath⟩
    rw [← hlocated.leads, Forge.leads_iff_mergedDirectory hfailures hnodes hroots hfollow]

/-- A package in a submodule of a submodule, as the application sees it. -/
def harborPackage : Place := ⟨⟨⟨"forge", "org/app", ⟨"c1"⟩⟩, .root⟩, .ofString "libs/ruby/a"⟩

/-- A directory in a submodule of a submodule is located in the innermost repository. -/
theorem locate_follows_mergedTree_harbor :
    Forge.harbor.failures = [] ∧ Forge.harbor.OneNodePerPath ∧ Forge.harbor.RootsAreDirectories ∧
      ∃ directory t, locate ((Forge.harbor.collector .bundler {} Forge.harbor.extent).job
          ⟨"forge", "org/app", none, .root⟩) harborPackage { cached := { inner := [] } } =
            .ok (some directory) t ∧
        directory.key = (⟨"forge", "org/ruby", ⟨"c3"⟩⟩, .ofString "a") ∧
        Forge.harbor.MergedDirectory harborPackage.key directory.key ∧
        directory.rootPath = harborPackage.rootPath := by
  have hfailures : Forge.harbor.failures = [] := rfl
  have hnodes : Forge.harbor.OneNodePerPath := by decide
  have hroots : Forge.harbor.RootsAreDirectories := by decide
  obtain ⟨found, t, hrun, hmerged, hpath⟩ := locate_follows_mergedTree Forge.harbor
    ((Forge.harbor.collector .bundler {} Forge.harbor.extent).job ⟨"forge", "org/app", none, .root⟩)
    harborPackage { cached := { inner := [] } } rfl rfl hfailures hnodes hroots
    (Forge.truthful_initial _ _)
  have hkey : (match locate ((Forge.harbor.collector .bundler {} Forge.harbor.extent).job
        ⟨"forge", "org/app", none, .root⟩) harborPackage { cached := { inner := [] } } with
      | .ok found _ => found.map Place.key
      | .error _ _ => none) = some (⟨"forge", "org/ruby", ⟨"c3"⟩⟩, .ofString "a") := by
    decide +kernel
  rw [hrun] at hkey
  obtain ⟨directory, rfl, hinner⟩ := Option.map_eq_some_iff.1 hkey
  exact ⟨hfailures, hnodes, hroots, directory, t, hrun, hinner, (hmerged _).2 rfl,
    hpath directory rfl⟩

end Walk

end DependencyFiles
