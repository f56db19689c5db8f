import DependencyFiles.Proofs.Abreast
import DependencyFiles.Proofs.Positions
import Mathlib.Data.List.Perm.Subperm

/-!
# Bounds that are never reached

A collection is bounded by how much its forge has. When no repository is a submodule as a
whole, a path gets shorter each time it leads through a submodule, and each lead that gives
new leads collects a file that was not collected before. So the bounds are never reached,
and larger ones make no difference.
-/

namespace DependencyFiles

namespace Forge

/-- No repository is a submodule as a whole. -/
def NoRootSubmodules (forge : Forge) : Prop :=
  ∀ repository ∈ forge.repositories, (repository.node? .root).any Node.isSubmodule = false

instance (forge : Forge) : Decidable forge.NoRootSubmodules :=
  inferInstanceAs (Decidable (∀ repository ∈ _, _ = false))

/-- Where the nodes of all repositories are. -/
def nodeKeys (forge : Forge) : List Key :=
  forge.repositories.flatMap fun repository =>
    repository.nodes.map fun node => (⟨forge.name, repository.name, repository.commit⟩, node.1)

variable {forge : Forge}

/-- There are as many places of nodes as the forge's extent says. -/
theorem length_nodeKeys (forge : Forge) : forge.nodeKeys.length = forge.extent.files := by
  simp [nodeKeys, extent, List.length_flatMap]

/-- A file that can be read in a checkout of the forge is a node. -/
theorem mem_nodeKeys {key : Key} (hprovider : key.1.provider = forge.name)
    (hcontent : (forge.content? key).isSome = true) : key ∈ forge.nodeKeys := by
  obtain ⟨content, hcontent⟩ := Option.isSome_iff_exists.1 hcontent
  obtain ⟨-, repository, hrepository, hcommit, hread⟩ := content?_eq_some.1 hcontent
  have hnode := mem_of_lookup (Repository.read_eq_ok_iff.1 hread).2
  refine List.mem_flatMap.2 ⟨repository, List.mem_of_find?_eq_some hrepository, ?_⟩
  refine List.mem_map.2 ⟨_, hnode, ?_⟩
  have hname : repository.name = key.1.repo := by simpa using List.find?_some hrepository
  obtain ⟨⟨provider, repo, commit⟩, path⟩ := key
  dsimp only at hprovider hcommit hname ⊢
  rw [hprovider, hcommit, hname]

/-- Checkouts are of the forge that they are asked from. -/
theorem provider_of_checkout? {target : RepoRef} {checkout : Checkout}
    (h : forge.checkout? target = some checkout) : checkout.provider = forge.name := by
  obtain ⟨commit, -, rfl⟩ := Option.map_eq_some_iff.1 h
  rfl

/-- All mounted checkouts are of the forge when the root's is. -/
theorem Mounted.provider_eq {root mount : Mount} (hroot : root.checkout.provider = forge.name)
    (h : forge.Mounted root mount) : mount.checkout.provider = forge.name := by
  cases h with
  | root => exact hroot
  | enter _ _ _ _ hinside =>
    obtain ⟨target, -, hcheckout⟩ := Option.bind_eq_some_iff.1 hinside
    exact provider_of_checkout? hcheckout

/-- A submodule that is listed has a path of its own. -/
theorem NoRootSubmodules.submodule_ne_root (hroots : forge.NoRootSubmodules) {key : Key}
    {entries : List Entry} {entry : Entry} (hlist : forge.listing? key = some entries)
    (hentry : entry ∈ entries) (hkind : entry.isSubmodule = true) : entry.path ≠ .root := by
  obtain ⟨-, repository, hrepository, -, hlisted⟩ := listing?_eq_some.1 hlist
  obtain ⟨target, hnode⟩ := Repository.node?_of_isSubmodule hlisted hentry hkind
  have hroot := hroots repository (List.mem_of_find?_eq_some hrepository)
  intro hthis
  rw [hthis] at hnode
  simp [hnode, Node.isSubmodule] at hroot

/-- What is left of a path inside the submodule around it is shorter. -/
theorem NoRootSubmodules.length_drop_lt (hroots : forge.NoRootSubmodules) {checkout : Checkout}
    {path : TreePath} {entry : Entry}
    (haround : forge.around? checkout path path.ancestors = some entry) :
    (path.drop entry.path.segments.length).segments.length < path.segments.length := by
  obtain ⟨hkind, ancestor, entries, hlist, hentry⟩ := mem_of_around? haround
  have hentered : 0 < entry.path.segments.length := List.length_pos_iff.2 fun hnone =>
    hroots.submodule_ne_root hlist hentry hkind (TreePath.ext_segments hnone)
  have hpath : 0 < path.segments.length := List.length_pos_iff.2 fun hnone => by
    have hbare : path.ancestors = [] := by simp [TreePath.ancestors, hnone]
    rw [hbare] at haround
    cases haround
  rw [TreePath.segments_drop, List.length_drop]
  omega

end Forge

namespace Walk

section Same

variable {σ α : Type} {job : Job σ} {I : Progress σ → Prop} {extent : Extent}

/-- Two collections are in the same state, which has the invariant, and reach no bound. -/
def sameBond (I : Progress σ → Prop) : Bond σ σ where
  going s t := s = t ∧ I s
  halted halt s t := s = t ∧ halt ≠ .exhausted

/-- A question agrees with itself when it keeps the invariant. -/
theorem agreeOnAnswer_same {x : Walk σ (Answer α)} (hx : Keeps I x)
    (hanswers : ∀ s, ∃ answer t, x s = .ok answer t) : AgreeOnAnswer (sameBond I) x x := by
  rintro s _ ⟨rfl, hs⟩
  obtain ⟨answer, t, hrun⟩ := hanswers s
  have ht : I t := (hx s hs).of_ok hrun
  refine ⟨answer, t, t, hrun, hrun, ?_⟩
  cases answer with
  | ok a => exact ⟨rfl, ht⟩
  | error error =>
    dsimp only
    split
    · exact ⟨rfl, ht⟩
    · exact ⟨rfl, nofun⟩

/-- Questions agree with themselves. -/
theorem abreastInAsking_same (h : KeptByAsking job I) :
    AbreastInAsking (sameBond I) job job.provider where
  files s t hgoing := by rw [hgoing.1]
  fail failure s t _ hgoing := ⟨hgoing.1, nofun⟩
  resolve repo reference := agreeOnAnswer_same (h.resolve repo reference) fun s => ⟨_, _, rfl⟩
  list checkout path := agreeOnAnswer_same (h.list checkout path) fun s => ⟨_, _, rfl⟩
  target entry := agreeOnAnswer_same (h.target entry) fun s => ⟨_, _, rfl⟩

/-- Two collections with different bounds agree when they locate directories alike. -/
theorem abreast_same (h : KeptByAll job I)
    (hlocate : ∀ place, Agree (sameBond I) (locate job place)
      (locate (job.over job.provider extent) place)) :
    Abreast (sameBond I) job job.provider extent where
  toAbreastInAsking := abreastInAsking_same h.toKeptByAsking
  same s t hgoing := by
    rw [hgoing.1]
    exact ⟨rfl, rfl⟩
  read place role :=
    agreeOnAnswer_same (h.read place role) fun s => ⟨_, _, readCollecting_eq job place role s⟩
  keep key outcome := by
    rintro s _ ⟨rfl, hs⟩
    exact .ok ⟨rfl, h.keep key outcome s hs⟩
  note name reason := by
    rintro s _ ⟨rfl, hs⟩
    exact .ok ⟨rfl, h.note name reason s hs⟩
  locate := hlocate

end Same

variable {forge : Forge} {job : Job (List Request)} {extent : Extent}

/-- Bounds above the length of a path are never reached when it is located. -/
theorem agree_locateWithin (hjob : job.provider = forge.provider) (hroots : forge.NoRootSubmodules)
    {fuel fuel' : Nat} {place : Place} (hfuel : place.path.segments.length < fuel)
    (hfuel' : place.path.segments.length < fuel') :
    Agree (sameBond forge.Truthful) (locateWithin job fuel place)
      (locateWithin (job.over job.provider extent) fuel' place) := by
  have hasking := abreastInAsking_same (Forge.truthful_keptByAll hjob).toKeptByAsking
  induction fuel generalizing fuel' place with
  | zero => exact absurd hfuel (Nat.not_lt_zero _)
  | succ fuel ih =>
    obtain ⟨fuel', rfl⟩ := Nat.exists_eq_add_one_of_ne_zero (Nat.ne_zero_of_lt hfuel')
    refine (hasking.list? extent place).bind fun entries => ?_
    cases entries with
    | some entries =>
      dsimp only
      cases Entry.single? entries place.path with
      | none => exact .pure _
      | some entry => exact .ite (hasking.enter? extent _ _) (.pure none)
    | none =>
      refine .ite (fun s t hgoing => ?_) (.pure none)
      refine (hasking.throughSubmodule? extent place place.path.ancestors s t hgoing).bind
        fun inner s' t' hrun hgoing' => ?_
      obtain ⟨hinner, -⟩ := (tells_throughSubmodule? hjob place place.path.ancestors s hgoing.2).of_ok hrun
      cases inner with
      | none => exact .ok hgoing'
      | some inner =>
        obtain ⟨entry, haround, hinside⟩ := Option.bind_eq_some_iff.1 hinner.symm
        obtain ⟨checkout, -, rfl⟩ := Option.map_eq_some_iff.1 hinside
        have hshorter := hroots.length_drop_lt haround
        exact ih (by dsimp only; omega) (by dsimp only; omega) _ _ hgoing'

/-- Collections with different bounds agree in all their steps. -/
theorem abreast_bounds (hjob : job.provider = forge.provider) (hroots : forge.NoRootSubmodules) :
    Abreast (sameBond forge.Truthful) job job.provider extent := by
  have henough (length checkouts : Nat) : length < (length + 1) * (checkouts + 1) :=
    Nat.lt_of_lt_of_le (Nat.lt_succ_self _) (Nat.le_mul_of_pos_right _ (Nat.succ_pos _))
  exact abreast_same (Forge.truthful_keptByAll hjob) fun place =>
    agree_locateWithin hjob hroots (henough _ _) (henough _ _)

variable {s t : Progress (List Request)} {log : List Request} {root : Mount} {base : Place}
  {authoritative : Bool}

/-- The collected files are from mounted checkouts, each collected once, and so are those that the
leads on the stack stand in. -/
structure Within (forge : Forge) (job : Job (List Request)) (log : List Request) (root : Mount)
    (stack : List Lead) (s : Progress (List Request)) : Prop where
  sound : Sound forge job s
  logged : forge.Logged log s
  placed : Placed forge job root s
  mounted : ∀ lead ∈ stack, forge.Mounted root lead.origin.mount

/-- There are at most as many collected files as nodes in the forge. -/
theorem Within.length_files (hroot : root.checkout.provider = forge.name) {stack : List Lead}
    (h : Within forge job log root stack s) : s.files.length ≤ forge.extent.files := by
  have hknown : s.files.map DependencyFile.key ⊆ forge.nodeKeys := by
    intro key hkey
    have hread := isSome_content? h.sound.toTruthful hkey
    obtain ⟨file, hfile, rfl⟩ := List.mem_map.1 hkey
    obtain ⟨place, role, content, rfl, hmounted⟩ := h.placed file hfile
    exact Forge.mem_nodeKeys (hmounted.provider_eq hroot) hread
  have hlength := (List.Nodup.subperm h.logged.nodup hknown).length_le
  rwa [List.length_map, Forge.length_nodeKeys] at hlength

/-- Leads come from files, so that a lead that gives new leads collects a file. -/
theorem VisitFinding.length_files {lead : Lead} {found : List Lead}
    (h : VisitFinding forge job root base.key authoritative lead s found t) :
    s.files.length ≤ t.files.length ∧ (found ≠ [] → s.files.length < t.files.length) := by
  obtain ⟨role, files, others, hfiles, hscanned, -⟩ := h.gathers
  rw [hfiles]
  simp only [List.length_append]
  refine ⟨by omega, fun hfound => ?_⟩
  cases hscanned with
  | nil => exact absurd rfl hfound
  | cons => simp only [List.length_cons]; omega

/-- Leads are followed until one gives new leads, and these from then on, as the bound allows. -/
theorem followAll_eq {σ : Type} (visit : Lead → Walk σ (List Lead)) (fuel : Nat) (stack : List Lead) :
    followAll visit fuel stack = (do
      match ← Walk.advance visit stack, fuel with
      | [], _ => return
      | _, 0 => throw .exhausted
      | stack, fuel + 1 => followAll visit fuel stack) := by
  cases fuel with
  | zero =>
    rw [followAll]
    exact bind_congr fun next => by cases next <;> rfl
  | succ fuel =>
    rw [followAll]
    exact bind_congr fun next => by cases next <;> rfl

/-- The lead on top of the stack is followed, and what it gives before the rest, as the bound allows. -/
theorem followAll_cons {σ : Type} (visit : Lead → Walk σ (List Lead)) (fuel : Nat) (lead : Lead)
    (rest : List Lead) : followAll visit fuel (lead :: rest) = (do
      match ← visit lead, fuel with
      | [], fuel => followAll visit fuel rest
      | _, 0 => throw .exhausted
      | found, fuel + 1 => followAll visit fuel (found ++ rest)) := by
  rw [followAll_eq, advance, bind_assoc]
  refine bind_congr fun found => ?_
  cases found with
  | nil => exact (followAll_eq visit fuel rest).symm
  | cons first found => cases fuel <;> rfl

section Runs

variable (hjob : job.provider = forge.provider) (hmounted : forge.Mounted root base.mount)
  (hshows : ∀ path, forge.Shows base.key path → forge.showsFile (base.key.1, path) = true)

include hjob hmounted hshows

/-- Following a lead keeps the collection within the forge. -/
theorem Within.step {lead : Lead} {rest found : List Lead}
    (h : Within forge job log root (lead :: rest) s)
    (hvisit : visit job base authoritative lead s = .ok found t) :
    Within forge job log root (found ++ rest) t ∧ s.files.length ≤ t.files.length ∧
      (found ≠ [] → s.files.length < t.files.length) := by
  have hroot := h.mounted lead List.mem_cons_self
  have hfinding := (gives_visit hjob hmounted hshows hroot h.sound).of_ok hvisit
  have hlogged := (((Forge.logged_keptByAll hjob log).visit base authoritative lead) s h.logged).of_ok hvisit
  refine ⟨⟨hfinding.sound, hlogged, hfinding.placed h.placed, fun other hother => ?_⟩,
    hfinding.length_files⟩
  rcases List.mem_append.1 hother with hother | hother
  · exact hfinding.mounted other hother
  · exact h.mounted other (List.mem_cons_of_mem _ hother)

/-- Until new leads come up the collection stays within the forge, and when they do there are more
files. -/
theorem Within.advance {stack next : List Lead} (h : Within forge job log root stack s)
    (hadvance : Walk.advance (visit job base authoritative) stack s = .ok next t) :
    Within forge job log root next t ∧ s.files.length ≤ t.files.length ∧
      (next ≠ [] → s.files.length < t.files.length) := by
  induction stack generalizing s with
  | nil =>
    cases hadvance
    exact ⟨h, Nat.le_refl _, fun hsome => absurd rfl hsome⟩
  | cons lead rest ih =>
    obtain ⟨found, r, hvisit, hnext⟩ := bind_eq_ok.1 hadvance
    obtain ⟨hwithin, hle, hlt⟩ := h.step hjob hmounted hshows hvisit
    cases found with
    | nil =>
      obtain ⟨hend, hle', hlt'⟩ := ih hwithin hnext
      exact ⟨hend, Nat.le_trans hle hle', fun hsome => Nat.lt_of_le_of_lt hle (hlt' hsome)⟩
    | cons first found =>
      cases hnext
      exact ⟨hwithin, hle, fun _ => hlt (List.cons_ne_nil _ _)⟩

/-- With room for all files that the forge has, all leads are followed. -/
theorem sameEnd_followAll (hroots : forge.NoRootSubmodules)
    (hroot : root.checkout.provider = forge.name) {fuel fuel' : Nat} {stack : List Lead}
    (h : Within forge job log root stack s) (hfuel : forge.extent.files ≤ s.files.length + fuel)
    (hfuel' : forge.extent.files ≤ s.files.length + fuel') :
    SameEnd (sameBond forge.Truthful) (followAll (visit job base authoritative) fuel stack s)
      (followAll (visit (job.over job.provider extent) base authoritative) fuel' stack s) := by
  have habreast : Abreast (sameBond forge.Truthful) job job.provider extent := abreast_bounds hjob hroots
  induction hleft : forge.extent.files - s.files.length using Nat.strongRecOn
    generalizing fuel fuel' stack s with
  | _ left ih =>
    rw [followAll_eq, followAll_eq]
    refine (Agree.advance (habreast.visit base authoritative) stack s s ⟨rfl, h.sound.toTruthful⟩).bind
      fun next t t' hadvance hgoing => ?_
    obtain ⟨hwithin, -, hmore⟩ := h.advance hjob hmounted hshows hadvance
    cases next with
    | nil => exact .ok hgoing
    | cons lead next =>
      -- The new leads come from a new file, so that there was room for it.
      have hlength := hwithin.length_files hroot
      have hgrows := hmore (List.cons_ne_nil _ _)
      obtain ⟨fuel, rfl⟩ := Nat.exists_eq_add_one_of_ne_zero (n := fuel) (by omega)
      obtain ⟨fuel', rfl⟩ := Nat.exists_eq_add_one_of_ne_zero (n := fuel') (by omega)
      obtain ⟨rfl, -⟩ := hgoing
      exact ih _ (by omega) hwithin (by omega) (by omega) rfl

end Runs

/-- A collection that begins to follow leads is within the forge. -/
theorem Beginning.within {checkout : Checkout} {first : Start} (h : Beginning forge job checkout first t)
    (hlogged : forge.Logged log t) : Within forge job log ⟨checkout, .root⟩ first.leads t :=
  ⟨h.sound, hlogged, h.placed, h.following.mounted⟩

/-- Whole collections with room for all files of the forge end in the same way, and not at a bound. -/
theorem sameEnd_of_room (hjob : job.provider = forge.provider) (hroots : forge.NoRootSubmodules)
    (hroom : forge.extent.files ≤ job.extent.files) (hroom' : forge.extent.files ≤ extent.files)
    (repo reference : String) (log : List Request) :
    SameEnd (sameBond forge.Truthful)
      (collectSource job repo reference { cached := { inner := log } })
      (collectSource (job.over job.provider extent) repo reference { cached := { inner := log } }) := by
  have habreast : Abreast (sameBond forge.Truthful) job job.provider extent := abreast_bounds hjob hroots
  have hlogged := Forge.logged_keptByAll hjob log
  have hopen : Agree (sameBond forge.Truthful)
      (askOr (Cached.openCheckout job.provider repo reference) .provider)
      (askOr (Cached.openCheckout job.provider repo reference) .provider) :=
    (habreast.resolve repo reference).askOr fun _ _ _ hgoing => ⟨hgoing.1, nofun⟩
  refine (hopen _ _ ⟨rfl, Forge.truthful_initial forge log⟩).bind fun checkout opened _ hopened hgoing => ?_
  obtain ⟨rfl, htruthful⟩ := hgoing
  have hopenlog : forge.Logged log opened :=
    (Keeps.askOr (hlogged.resolve repo reference) (fun _ => rfl) _ (Forge.logged_initial forge log)).of_ok
      hopened
  have hcollect : SameEnd (sameBond forge.Truthful) (collectFrom job ⟨checkout, .root⟩ opened)
      (collectFrom (job.over job.provider extent) ⟨checkout, .root⟩ opened) := by
    refine (habreast.start ⟨checkout, .root⟩ opened opened ⟨rfl, htruthful⟩).bind
      fun first started _ hstart hgoing => ?_
    obtain ⟨rfl, -⟩ := hgoing
    have hstartlog := ((hlogged.start ⟨checkout, .root⟩) opened hopenlog).of_ok hstart
    obtain ⟨hcheckout, hbeginning⟩ := beginning_of_ok hjob hopened hstart
    exact sameEnd_followAll hjob hbeginning.mounted
      (fun path hshows => Forge.showsFile_of_base hbeginning.base hshows) hroots
      (Forge.provider_of_checkout? hcheckout) (hbeginning.within hstartlog)
      (Nat.le_add_left_of_le hroom) (Nat.le_add_left_of_le hroom')
  exact hcollect.bind fun _ s t _ hgoing => habreast.handOut s t hgoing

end Walk

/-- Every collection from a forge without a repository that is a submodule as a whole comes to an end,
and never because of its bounds: the forge's own extent suffices, and any other that has room for as
many files gives the same result with the same requests. -/
theorem Collector.bounds_never_reached (forge : Forge) (ecosystem : Ecosystem) (settings : Settings)
    (source : Source) (log : List Request) (hroots : forge.NoRootSubmodules) :
    ((forge.collector ecosystem settings forge.extent).run source log).1 ≠ .error .exhausted ∧
      ∀ extent : Extent, forge.extent.files ≤ extent.files →
        (forge.collector ecosystem settings extent).run source log =
          (forge.collector ecosystem settings forge.extent).run source log := by
  have hends (extent : Extent) (hroom : forge.extent.files ≤ extent.files) :
      Walk.SameEnd (Walk.sameBond forge.Truthful)
        (Walk.collectSource ((forge.collector ecosystem settings forge.extent).job source) source.repo
          ((forge.collector ecosystem settings forge.extent).reference source)
          { cached := { inner := log } })
        (Walk.collectSource ((forge.collector ecosystem settings extent).job source) source.repo
          ((forge.collector ecosystem settings extent).reference source)
          { cached := { inner := log } }) :=
    Walk.sameEnd_of_room rfl hroots (Nat.le_refl _) hroom _ _ log
  constructor
  · have hends := hends forge.extent (Nat.le_refl _)
    unfold run
    generalize Walk.collectSource ((forge.collector ecosystem settings forge.extent).job source) _ _ _ =
      result at hends ⊢
    cases hends with
    | ok => exact nofun
    | error h => exact fun hthis => h.2 (Except.error.inj hthis)
  · intro extent hroom
    have hends := hends extent hroom
    unfold run
    generalize Walk.collectSource ((forge.collector ecosystem settings forge.extent).job source) _ _ _ =
      result at hends ⊢
    generalize Walk.collectSource ((forge.collector ecosystem settings extent).job source) _ _ _ =
      result' at hends ⊢
    cases hends with
    | ok h => rw [h.1]
    | error h => rw [h.1]

/-- A forge whose manifests include each other and whose submodules lead back to it. -/
def Forge.maze : Forge where
  name := "forge"
  repositories :=
    [{ name := "org/app", commit := ⟨"c1"⟩
       nodes :=
         [(.ofString "Gemfile", .file
            "eval_gemfile 'more/Gemfile'\ngem 'a', path: 'back/back/lib'".toUTF8.toList),
          (.ofString "more/Gemfile", .file "eval_gemfile '../Gemfile'".toUTF8.toList),
          (.ofString "back", .submodule ⟨"org/app", "HEAD"⟩),
          (.ofString "lib/again", .submodule ⟨"org/app", "HEAD"⟩)] }]

/-- Collecting from this forge ends, whatever its bounds are as long as there is room for ten files. -/
theorem Collector.bounds_never_reached_maze :
    Forge.maze.NoRootSubmodules ∧
      ((Forge.maze.collector .bundler {} Forge.maze.extent).run ⟨"forge", "org/app", none, .root⟩ []).1 ≠
        .error .exhausted ∧
      (Forge.maze.collector .bundler {} ⟨0, 10⟩).run ⟨"forge", "org/app", none, .root⟩ [] =
        (Forge.maze.collector .bundler {} Forge.maze.extent).run ⟨"forge", "org/app", none, .root⟩ [] := by
  have hroots : Forge.maze.NoRootSubmodules := by decide
  have hroom : Forge.maze.extent.files ≤ 10 := by decide
  obtain ⟨hends, hsame⟩ :=
    bounds_never_reached Forge.maze .bundler {} ⟨"forge", "org/app", none, .root⟩ [] hroots
  exact ⟨hroots, hends, hsame ⟨0, 10⟩ hroom⟩

end DependencyFiles
