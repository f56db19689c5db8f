import DependencyFiles.Proofs.Closure
import DependencyFiles.Proofs.RequestLog

/-!
# Where collected files are in the tree of the root repository

Each file is collected from a checkout that is mounted in the tree of the root repository,
and its path tells its place there, as seen from the requested directory. Submodules hide
all that their own repository has beneath them, so that a place in the tree is that of one
file at most, and different files have different paths.
-/

namespace DependencyFiles

namespace Forge

/-- A path in the tree of a checkout stands for the file, which may be inside submodules of it. -/
inductive Occupies (forge : Forge) : Checkout → TreePath → Key → Prop
  | here (checkout : Checkout) (path : TreePath) : Occupies forge checkout path (checkout, path)
  | enter {checkout inner : Checkout} {path rest : TreePath} {entries : List Entry} {entry : Entry}
      {file : Key} (hlist : forge.listing? (checkout, path) = some entries) (hentry : entry ∈ entries)
      (hkind : entry.isSubmodule = true) (hinside : forge.inside? entry = some inner)
      (hrest : Occupies forge inner rest file) : Occupies forge checkout (entry.path ++ rest) file

variable {forge : Forge} {checkout : Checkout}

/-- What stands for a file in a mounted checkout stands for it in the tree of the root, too. -/
theorem Mounted.occupies {mount : Mount} (h : forge.Mounted ⟨checkout, .root⟩ mount) {path : TreePath}
    {file : Key} (hfile : forge.Occupies mount.checkout path file) :
    forge.Occupies checkout (mount.position ++ path) file := by
  induction h generalizing path with
  | root => rwa [TreePath.root_append]
  | enter _ hlist hentry hkind hinside ih =>
    rw [TreePath.append_assoc]
    exact ih (.enter hlist hentry hkind hinside hfile)

section Unique

variable {path : TreePath} {entries : List Entry} {entry : Entry}
  (hlist : forge.listing? (checkout, path) = some entries) (hentry : entry ∈ entries)
  (hkind : entry.isSubmodule = true)

include hlist hentry hkind

/-- A file that can be read does not lie within a submodule. -/
theorem not_isWithin_submodule {file : TreePath}
    (hcontent : (forge.content? (checkout, file)).isSome = true) :
    file.isWithin entry.path = false := by
  obtain ⟨content, hcontent⟩ := Option.isSome_iff_exists.1 hcontent
  obtain ⟨-, repository, hrepository, -, hlisted⟩ := listing?_eq_some.1 hlist
  obtain ⟨-, other, hother, -, hread⟩ := content?_eq_some.1 hcontent
  obtain rfl : repository = other := Option.some_inj.1 (hrepository.symm.trans hother)
  obtain ⟨target, hnode⟩ := Repository.node?_of_isSubmodule hlisted hentry hkind
  obtain ⟨hvisible, hfile⟩ := Repository.read_eq_ok_iff.1 hread
  rw [← Bool.not_eq_true]
  intro hwithin
  by_cases hsame : entry.path = file
  · rw [hsame] at hnode
    cases hnode.symm.trans hfile
  · exact absurd (Repository.isHidden_of_submodule hnode hwithin hsame) (by simp [hvisible])

/-- Around a path there is at most one submodule that is listed. -/
theorem submodule_unique {path' : TreePath} {entries' : List Entry} {entry' : Entry}
    (hlist' : forge.listing? (checkout, path') = some entries') (hentry' : entry' ∈ entries')
    (hkind' : entry'.isSubmodule = true) {rest rest' : TreePath}
    (hsame : entry.path ++ rest = entry'.path ++ rest') : entry = entry' := by
  obtain ⟨-, repository, hrepository, -, hlisted⟩ := listing?_eq_some.1 hlist
  obtain ⟨-, other, hother, -, hlisted'⟩ := listing?_eq_some.1 hlist'
  obtain rfl : repository = other := Option.some_inj.1 (hrepository.symm.trans hother)
  obtain ⟨target, hnode⟩ := Repository.node?_of_isSubmodule hlisted hentry hkind
  obtain ⟨target', hnode'⟩ := Repository.node?_of_isSubmodule hlisted' hentry' hkind'
  have hwithin := entry.path.isWithin_append rest
  have hwithin' := entry'.path.isWithin_append rest'
  rw [← hsame] at hwithin'
  have hpaths : entry.path = entry'.path := by
    rcases TreePath.isWithin_total hwithin hwithin' with hinner | hinner
    · exact Repository.eq_of_isWithin_submodule hnode' hlisted hentry hinner
    · exact (Repository.eq_of_isWithin_submodule hnode hlisted' hentry' hinner).symm
  exact Repository.submodule_eq_of_path hlisted hentry hkind hlisted' hentry' hkind' hpaths

end Unique

/-- A path stands for at most one file that can be read. -/
theorem Occupies.unique {path : TreePath} {file other : Key} (h : forge.Occupies checkout path file)
    (hother : forge.Occupies checkout path other) (hcontent : (forge.content? file).isSome = true)
    (hcontent' : (forge.content? other).isSome = true) : file = other := by
  induction h generalizing other with
  | here checkout path =>
    cases hother with
    | here => rfl
    | @enter _ _ _ rest _ entry _ hlist hentry hkind _ _ =>
      have houtside := not_isWithin_submodule hlist hentry hkind hcontent
      rw [entry.path.isWithin_append rest] at houtside
      cases houtside
  | @enter checkout inner _ rest entries entry file hlist hentry hkind hinside hrest ih =>
    generalize hpath : entry.path ++ rest = path at hother
    cases hother with
    | here =>
      have houtside := not_isWithin_submodule hlist hentry hkind hcontent'
      rw [← hpath, entry.path.isWithin_append rest] at houtside
      cases houtside
    | enter hlist' hentry' hkind' hinside' hrest' =>
      obtain rfl := submodule_unique hlist hentry hkind hlist' hentry' hkind' hpath
      obtain rfl := Option.some_inj.1 (hinside.symm.trans hinside')
      obtain rfl := TreePath.append_left_cancel hpath
      exact ih hrest' hcontent hcontent'

end Forge

namespace Walk

variable {forge : Forge} {job : Job (List Request)} {s t : Progress (List Request)} {root : Mount}
  {base : Key} {authoritative : Bool}

/-- All files were collected from mounted checkouts. -/
def Placed (forge : Forge) (job : Job (List Request)) (root : Mount) (s : Progress (List Request)) :
    Prop :=
  ∀ file ∈ s.files, ∃ place role content,
    file = Place.toFile place job.base role content ∧ forge.Mounted root place.mount

/-- Following a lead collects files from mounted checkouts. -/
theorem VisitFinding.placed {lead : Lead} {leads : List Lead}
    (h : VisitFinding forge job root base authoritative lead s leads t) (hs : Placed forge job root s) :
    Placed forge job root t := by
  obtain ⟨role, files, others, hfiles, hscanned, hothers⟩ := h.gathers
  intro file hfile
  rw [hfiles] at hfile
  rcases List.mem_append.1 hfile with hfile | hfile
  · exact hs file hfile
  · rcases List.mem_append.1 hfile with hfile | hfile
    · obtain ⟨place, -, hplace, hkind, -⟩ := hscanned.announced hfile
      exact ⟨place, role, _, hplace, hkind.1⟩
    · obtain ⟨place, role, content, hplace, hmounted, -⟩ := hothers file hfile
      exact ⟨place, role, content, hplace, hmounted⟩

/-- A collection begins with files from the checkout of the base directory. -/
theorem Beginning.placed {start : Start} {checkout : Checkout}
    (h : Beginning forge job checkout start t) : Placed forge job ⟨checkout, .root⟩ t := by
  obtain ⟨manifest, content, lockfiles, beside, declared, described, -, -, hfiles, -, hlocks,
    hdescribed, -⟩ := h.gathers
  intro file hfile
  rw [hfiles] at hfile
  rcases List.mem_cons.1 hfile with rfl | hfile
  · exact ⟨_, _, content, rfl, h.mounted⟩
  · rcases List.mem_append.1 hfile with hfile | hfile
    · obtain ⟨read, content, hscan, rfl⟩ := hlocks file hfile
      refine ⟨_, _, content, rfl, ?_⟩
      rw [mount_of_lockScan? hscan]
      exact h.mounted
    · obtain ⟨place, -, hplace, hbeside, -⟩ := hdescribed.announced hfile
      refine ⟨place, _, _, hplace, ?_⟩
      rw [hbeside.1]
      exact h.mounted

end Walk

/-- Whenever a collection from a forge comes to its end, the path of each file leads from the requested
directory to the file's place in the tree of the root repository: the position where the file's
checkout is mounted, and the path in its repository from there. No two files have the same path. -/
theorem Collector.paths_lead_to_places (forge : Forge) (ecosystem : Ecosystem) (settings : Settings)
    (extent : Extent) (source : Source) (log : List Request) (files : List DependencyFile)
    (unreachable : List Unreachable)
    (hrun : harvest? ((forge.collector ecosystem settings extent).run source log).1 =
      some (files, unreachable)) :
    ∃ checkout,
      forge.checkout? ⟨source.repo, (forge.collector ecosystem settings extent).reference source⟩ =
        some checkout ∧
      (∀ file ∈ files, ∃ mount, forge.Mounted ⟨checkout, .root⟩ mount ∧
        mount.checkout = file.checkout ∧
        source.directory.join file.path = mount.position ++ file.repoPath) ∧
      (files.map DependencyFile.path).Nodup := by
  obtain ⟨course, rfl, rfl, -⟩ := exists_course hrun
  have hjob : ((forge.collector ecosystem settings extent).job source).provider = forge.provider := rfl
  obtain ⟨hcheckout, hbeginning⟩ := course.beginning hjob
  have hplaced : Walk.Placed forge _ ⟨course.checkout, .root⟩ course.final :=
    course.final_of_step (I := fun _ => Walk.Placed forge _ _) hjob hbeginning.placed
      fun hvisit hs => hvisit.placed hs
  have hlogged : forge.Logged log course.final :=
    course.final_of_keptByAll (Forge.logged_keptByAll rfl log) (Forge.logged_initial forge log)
  have hpaths (file : DependencyFile) (hfile : file ∈ course.final.files) :
      ∃ mount, forge.Mounted ⟨course.checkout, .root⟩ mount ∧ mount.checkout = file.checkout ∧
        source.directory.join file.path = mount.position ++ file.repoPath := by
    obtain ⟨place, role, content, rfl, hmounted⟩ := hplaced file hfile
    exact ⟨place.mount, hmounted, rfl, TreePath.join_relativeTo _ _⟩
  refine ⟨course.checkout, hcheckout, hpaths, List.pairwise_map.2 ?_⟩
  refine (List.pairwise_map.1 hlogged.nodup).imp_of_mem fun {file other} hfile hother hne hsame => hne ?_
  obtain ⟨mount, hmounted, hcontext, hplace⟩ := hpaths file hfile
  obtain ⟨mount', hmounted', hcontext', hplace'⟩ := hpaths other hother
  have hoccupies := hmounted.occupies (.here mount.checkout file.repoPath)
  have hoccupies' := hmounted'.occupies (.here mount'.checkout other.repoPath)
  rw [← hplace, hsame, hcontext] at hoccupies
  rw [← hplace', hcontext'] at hoccupies'
  have hread (file : DependencyFile) (hfile : file ∈ course.final.files) :
      (forge.content? file.key).isSome = true :=
    Walk.isSome_content? hlogged.toTruthful (List.mem_map_of_mem hfile)
  exact hoccupies.unique hoccupies' (hread file hfile) (hread other hother)

/-- A forge whose application names a package in a submodule of a submodule. -/
def Forge.harbor : Forge where
  name := "forge"
  repositories :=
    [{ name := "org/app", commit := ⟨"c1"⟩
       nodes :=
         [(.ofString "apps/web/Gemfile", .file "gem 'a', path: '../../libs/ruby/a'".toUTF8.toList),
          (.ofString "libs", .submodule ⟨"org/libs", "HEAD"⟩)] },
     { name := "org/libs", commit := ⟨"c2"⟩
       nodes := [(.ofString "ruby", .submodule ⟨"org/ruby", "HEAD"⟩)] },
     { name := "org/ruby", commit := ⟨"c3"⟩, nodes := [(.ofString "a/a.gemspec", .file [])] }]

/-- Both files that are collected from this forge have paths to their places. -/
theorem Collector.paths_lead_to_places_harbor :
    ∃ (files : List DependencyFile) (unreachable : List Unreachable) (checkout : Checkout),
      harvest? ((Forge.harbor.collector .bundler {} Forge.harbor.extent).run
        ⟨"forge", "org/app", none, .ofString "apps/web"⟩ []).1 = some (files, unreachable) ∧
      files.map DependencyFile.path = ["Gemfile", "../../libs/ruby/a/a.gemspec"] ∧
      ∀ file ∈ files, ∃ mount, Forge.harbor.Mounted ⟨checkout, .root⟩ mount ∧
        mount.checkout = file.checkout ∧
        (TreePath.ofString "apps/web").join file.path = mount.position ++ file.repoPath := by
  have hends : (harvest? ((Forge.harbor.collector .bundler {} Forge.harbor.extent).run
      ⟨"forge", "org/app", none, .ofString "apps/web"⟩ []).1).map
        (fun harvest => harvest.1.map DependencyFile.path) =
          some ["Gemfile", "../../libs/ruby/a/a.gemspec"] := by
    decide +kernel
  obtain ⟨⟨files, unreachable⟩, hrun, hpaths⟩ := Option.map_eq_some_iff.1 hends
  obtain ⟨checkout, -, hplaces, -⟩ := paths_lead_to_places _ _ _ _ _ _ files unreachable hrun
  exact ⟨files, unreachable, checkout, hrun, hpaths, hplaces⟩

end DependencyFiles
