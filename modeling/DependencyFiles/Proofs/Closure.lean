import DependencyFiles.Bundler.Basic
import DependencyFiles.Proofs.Beginnings
import DependencyFiles.Proofs.Course
import DependencyFiles.Proofs.Visits

/-!
# No reference is dropped

While references are followed, those of every scanned file are either followed already or
wait on the stack, and a followed reference is answered from then on. When the stack is
empty, every reference of every scanned file has been answered.
-/

namespace DependencyFiles

/-- The path is that of a marker file of some directory. -/
def IsMarkerPath (marker : String) (path : TreePath) : Prop :=
  ∃ directory : TreePath, directory.join marker = path

/-- A path is that of a marker file when its last segment is the marker's name. -/
theorem isMarkerPath_iff {marker : String} (hmarker : IsSegment marker) {path : TreePath} :
    IsMarkerPath marker path ↔ path.name? = some marker := by
  constructor
  · intro hthis
    obtain ⟨directory, rfl⟩ := hthis
    rw [directory.join_of_isSegment hmarker, TreePath.name?, TreePath.segments_push]
    exact List.getLast?_concat
  · intro hname
    obtain ⟨segments, hsegments⟩ := List.getLast?_eq_some_iff.1 hname
    refine ⟨path.up, TreePath.ext_segments ?_⟩
    rw [path.up.join_of_isSegment hmarker, TreePath.segments_push, TreePath.segments_up, hsegments,
      List.dropLast_concat]

/-- Files are scanned for references when they are manifests or specifications. A marker that
stands for a specification is not scanned, and neither are lock files and supporting files here. -/
def IsScanned (ecosystem : Ecosystem) (file : DependencyFile) : Prop :=
  match file.role with
  | .manifest => True
  | .childManifest => True
  | .specification => ¬ IsMarkerPath ecosystem.marker file.repoPath
  | .lockfile => False
  | .support => False

namespace Walk

variable {forge : Forge} {job : Job (List Request)} {s t u : Progress (List Request)} {root : Mount}
  {base : Place} {authoritative : Bool}

/-- The references of every scanned file are among the leads. -/
def Announced (job : Job (List Request)) (leads : List Lead) (s : Progress (List Request)) : Prop :=
  ∀ file ∈ s.files, IsScanned job.ecosystem file →
    ∃ references, job.ecosystem.references file.text file.path = .ok references ∧
      ∀ reference ∈ references, ∃ lead ∈ leads,
        lead.reference = reference ∧ lead.origin.key = file.key ∧ lead.fromLockfile = false

/-- More leads announce at least the same references. -/
theorem Announced.mono {leads more : List Lead} (hsubset : leads ⊆ more)
    (h : Announced job leads s) : Announced job more s := by
  intro file hfile hscanned
  obtain ⟨references, hreferences, hleads⟩ := h file hfile hscanned
  refine ⟨references, hreferences, fun reference hreference => ?_⟩
  obtain ⟨lead, hlead, hthis⟩ := hleads reference hreference
  exact ⟨lead, hsubset hlead, hthis⟩

/-- Scanned files are announced by the leads that they give. -/
theorem Scanned.isAnnounced {role : DependencyFile.Role} {P : Place → Prop}
    {files : List DependencyFile} {leads : List Lead} (h : Scanned job role P files leads)
    (hfiles : s.files = files) : Announced job leads s := by
  intro file hfile _
  rw [hfiles] at hfile
  obtain ⟨place, references, hplace, -, hreferences, hleads⟩ := h.announced hfile
  exact ⟨references, hreferences, fun reference hreference =>
    ⟨_, hleads reference hreference, rfl, by rw [hplace]; rfl, rfl⟩⟩

/-- What is announced before and what new files give is announced together. -/
theorem Announced.append {leads more : List Lead} (h : Announced job leads s)
    (hmore : Announced job more u) (hfiles : t.files = s.files ++ u.files) :
    Announced job (leads ++ more) t := by
  intro file hfile hscanned
  rw [hfiles] at hfile
  rcases List.mem_append.1 hfile with hfile | hfile
  · exact h.mono (List.subset_append_left _ _) file hfile hscanned
  · exact hmore.mono (List.subset_append_right _ _) file hfile hscanned

/-- Files that are not scanned need not be announced. -/
theorem announced_of_not_scanned {leads : List Lead}
    (h : ∀ file ∈ s.files, ¬ IsScanned job.ecosystem file) : Announced job leads s :=
  fun file hfile hscanned => absurd hscanned (h file hfile)

/-- A file that is taken along by a reference is not scanned. -/
theorem not_isScanned_of_takes {origin : Key} {reference : Reference} {place : Place}
    {role : DependencyFile.Role} {content : Bytes}
    (h : forge.Takes job.ecosystem job.settings base.key origin reference place.key role) :
    ¬ IsScanned job.ecosystem (place.toFile job.base role content) := by
  unfold Forge.Takes at h
  split at h
  · exact h.elim
  · obtain ⟨rfl, -⟩ := h
    exact id
  · obtain ⟨rfl, directory, -, -, -, hmarker⟩ := h
    exact fun hscanned => hscanned ⟨directory.2, (congrArg Prod.snd hmarker).symm⟩

/-- Following a lead announces the references in the files that it collects. -/
theorem VisitFinding.announced {lead : Lead} {leads known : List Lead}
    (h : VisitFinding forge job root base.key authoritative lead s leads t)
    (hknown : Announced job known s) : Announced job (known ++ leads) t := by
  obtain ⟨role, files, others, hfiles, hscanned, hothers⟩ := h.gathers
  have hfound : Announced job leads { s with files := files } := hscanned.isAnnounced rfl
  have htaken : Announced job [] { s with files := others } := by
    refine announced_of_not_scanned fun file hfile => ?_
    obtain ⟨place, role, content, rfl, -, -, htakes⟩ := hothers file hfile
    exact not_isScanned_of_takes htakes
  have hboth : Announced job (leads ++ []) { s with files := files ++ others } :=
    hfound.append htaken rfl
  rw [List.append_nil] at hboth
  exact hknown.append hboth hfiles

/-- The leads that a followed lead gives stand in mounted checkouts. -/
theorem VisitFinding.mounted {lead : Lead} {leads : List Lead}
    (h : VisitFinding forge job root base.key authoritative lead s leads t) :
    ∀ found ∈ leads, forge.Mounted root found.origin.mount := by
  obtain ⟨role, files, others, -, hscanned, -⟩ := h.gathers
  exact fun found hfound => (hscanned.origin hfound).1.1

/-- The references in a state are answered or wait on the stack. -/
structure Following (forge : Forge) (job : Job (List Request)) (root : Mount) (base : Key)
    (authoritative : Bool) (followed stack : List Lead) (s : Progress (List Request)) : Prop where
  sound : Sound forge job s
  mounted : ∀ lead ∈ stack, forge.Mounted root lead.origin.mount
  announced : Announced job (followed ++ stack) s
  answered : ∀ lead ∈ followed, isCounted authoritative lead = true →
    forge.Answered job.ecosystem job.settings base lead.origin.key lead.reference s.keys
      s.unreachableNames

/-- Following the lead on top of the stack keeps what is said of the references. -/
theorem Following.step {followed rest found : List Lead} {lead : Lead}
    (h : Following forge job root base.key authoritative followed (lead :: rest) s)
    (hvisit : VisitFinding forge job root base.key authoritative lead s found t) :
    Following forge job root base.key authoritative (followed ++ [lead]) (found ++ rest) t := by
  have hkeys : s.keys ⊆ t.keys := hvisit.gathers.choose_spec.keys_subset
  refine ⟨hvisit.sound, fun other hother => ?_, ?_, fun other hother hcounted => ?_⟩
  · rcases List.mem_append.1 hother with hother | hother
    · exact hvisit.mounted other hother
    · exact h.mounted other (List.mem_cons_of_mem _ hother)
  · refine (hvisit.announced h.announced).mono fun other hother => ?_
    simp only [List.mem_append, List.mem_cons] at hother
    rcases hother with (hother | hother | hother) | hother <;> simp [hother]
  · rcases List.mem_append.1 hother with hother | hother
    · exact (h.answered other hother hcounted).mono hkeys hvisit.unreachable
    · obtain rfl := List.mem_singleton.1 hother
      exact hvisit.answered hcounted

/-- When no lead is left, all leads that were on the stack or came up have been followed, and files
that were collected are collected still. -/
theorem Following.follows (hjob : job.provider = forge.provider)
    (hmounted : forge.Mounted root base.mount)
    (hbase : ∀ path, forge.Shows base.key path → forge.showsFile (base.key.1, path) = true)
    {stack followed : List Lead} {visited : List (Visited (List Request))}
    (hfollows : Follows (visit job base authoritative) stack s visited u)
    (h : Following forge job root base.key authoritative followed stack s) :
    Following forge job root base.key authoritative (followed ++ visited.map (·.lead)) [] u ∧
      stack ⊆ visited.map (·.lead) ∧ s.keys ⊆ u.keys := by
  induction hfollows generalizing followed with
  | done s => exact ⟨by simpa using h, fun _ h => h, fun _ h => h⟩
  | @step v rest visited u hvisit hrest ih =>
    have hroot := h.mounted v.lead List.mem_cons_self
    have hthis := (gives_visit hjob hmounted hbase hroot h.sound).of_ok hvisit
    obtain ⟨hend, hsubset, hkeys⟩ := ih (h.step hthis)
    refine ⟨by simpa using hend, ?_, fun key hkey => hkeys ?_⟩
    · simp only [List.map_cons, List.cons_subset, List.mem_cons, true_or, true_and]
      exact fun lead hlead => List.mem_cons_of_mem _ (hsubset (List.mem_append_right _ hlead))
    · exact hthis.gathers.choose_spec.keys_subset hkey

/-- Every lead was followed from a sound state, and stands in a mounted checkout. -/
theorem Following.visited (hjob : job.provider = forge.provider)
    (hmounted : forge.Mounted root base.mount)
    (hbase : ∀ path, forge.Shows base.key path → forge.showsFile (base.key.1, path) = true)
    {stack followed : List Lead} {visited : List (Visited (List Request))}
    (hfollows : Follows (visit job base authoritative) stack s visited u)
    (h : Following forge job root base.key authoritative followed stack s) :
    ∀ v ∈ visited, visit job base authoritative v.lead v.before = .ok v.found v.after ∧
      Sound forge job v.before ∧ forge.Mounted root v.lead.origin.mount := by
  induction hfollows generalizing followed with
  | done s => simp
  | @step v rest visited u hvisit hrest ih =>
    have hroot := h.mounted v.lead List.mem_cons_self
    have hthis := (gives_visit hjob hmounted hbase hroot h.sound).of_ok hvisit
    intro w hw
    rcases List.mem_cons.1 hw with rfl | hw
    · exact ⟨hvisit, h.sound, hroot⟩
    · exact ih (h.step hthis) w hw

/-- What every visit preserves holds when no lead is left. -/
theorem Following.holds (hjob : job.provider = forge.provider)
    (hmounted : forge.Mounted root base.mount)
    (hbase : ∀ path, forge.Shows base.key path → forge.showsFile (base.key.1, path) = true)
    {I : List Lead → Progress (List Request) → Prop}
    (hstep : ∀ {lead rest found s t}, VisitFinding forge job root base.key authoritative lead s found t →
      I (lead :: rest) s → I (found ++ rest) t)
    {stack followed : List Lead} {visited : List (Visited (List Request))}
    (hfollows : Follows (visit job base authoritative) stack s visited u)
    (h : Following forge job root base.key authoritative followed stack s) (hs : I stack s) : I [] u := by
  induction hfollows generalizing followed with
  | done s => exact hs
  | @step v rest visited u hvisit hrest ih =>
    have hroot := h.mounted v.lead List.mem_cons_self
    have hthis := (gives_visit hjob hmounted hbase hroot h.sound).of_ok hvisit
    exact ih (h.step hthis) (hstep hthis hs)

/-- The lock file stands in the checkout of the base directory. -/
theorem mount_of_lockScan? {requested : TreePath} {read : Place × LockScan}
    (h : forge.lockScan? job.ecosystem base requested = some read) : read.1.mount = base.mount := by
  obtain ⟨name, content, -, hread, -⟩ := Forge.exists_of_lockScan? h
  rw [hread]
  rfl

/-- A collection begins with the leads of all scanned files on the stack. -/
theorem Beginning.following {checkout : Checkout} {start : Start}
    (h : Beginning forge job checkout start t) :
    Following forge job ⟨checkout, .root⟩ start.directory.key start.authoritative [] start.leads t := by
  obtain ⟨manifest, content, lockfiles, beside, declared, described, -, -, hfiles, hdeclared, hlocks,
    hdescribed, hleads⟩ := h.gathers
  refine ⟨h.sound, fun lead hlead => ?_, ?_, by simp⟩
  · have hmount : lead.origin.mount = start.directory.mount := by
      rw [hleads] at hlead
      rcases List.mem_append.1 hlead with hlead | hlead
      · rcases List.mem_append.1 hlead with hlead | hlead
        · rw [(hdeclared.origin hlead).1]
          rfl
        · cases hscan : forge.lockScan? job.ecosystem start.directory job.base with
          | none => simp [hscan, Forge.lockLeads] at hlead
          | some read =>
            rw [hscan] at hlead
            obtain ⟨reference, -, rfl⟩ := List.mem_map.1 hlead
            exact mount_of_lockScan? hscan
      · exact (hdescribed.origin hlead).1.1
    rw [hmount]
    exact h.mounted
  · have hmanifest : Announced job declared { t with files := [_] } := hdeclared.isAnnounced rfl
    have hlocked : Announced job
        (Forge.lockLeads (forge.lockScan? job.ecosystem start.directory job.base))
        { t with files := lockfiles } := by
      refine announced_of_not_scanned fun file hfile => ?_
      obtain ⟨read, content, -, rfl⟩ := hlocks file hfile
      exact id
    have hbeside : Announced job described { t with files := beside } := hdescribed.isAnnounced rfl
    rw [List.nil_append, hleads]
    exact (hmanifest.append (t := { t with files := _ :: lockfiles }) hlocked rfl).append hbeside
      (by simpa using hfiles)

/-- The checkout that is asked for is the forge's, and when it is opened nothing is collected yet. -/
theorem opening_of_ok (hjob : job.provider = forge.provider) {repo reference : String}
    {log : List Request} {checkout : Checkout} {opened : Progress (List Request)}
    (hopen : askOr (Cached.openCheckout job.provider repo reference) .provider
      { cached := { inner := log } } = .ok checkout opened) :
    forge.checkout? ⟨repo, reference⟩ = some checkout ∧ Sound forge job opened ∧
      opened.files = [] ∧ opened.unreachable = [] := by
  have hinitial := sound_initial forge job log
  obtain ⟨hcheckout, hopened, cached, rfl⟩ :=
    ((tells_askCheckout hjob repo reference).askOr _ hinitial.toTruthful).of_ok hopen
  refine ⟨?_, hinitial.asked hopened, rfl, rfl⟩
  rw [← hcheckout, Forge.checkout?]
  cases forge.resolve repo reference <;> rfl

/-- A collection begins with the files of the base directory in the checkout that is asked for. -/
theorem beginning_of_ok (hjob : job.provider = forge.provider) {repo reference : String}
    {log : List Request} {checkout : Checkout} {opened started : Progress (List Request)} {first : Start}
    (hopen : askOr (Cached.openCheckout job.provider repo reference) .provider
      { cached := { inner := log } } = .ok checkout opened)
    (hstart : start job ⟨checkout, .root⟩ opened = .ok first started) :
    forge.checkout? ⟨repo, reference⟩ = some checkout ∧ Beginning forge job checkout first started := by
  obtain ⟨hcheckout, hsound, hfiles, hunreachable⟩ := opening_of_ok hjob hopen
  exact ⟨hcheckout, (gives_start hjob checkout hsound hfiles hunreachable).of_ok hstart⟩

namespace Course

variable {repo reference : String} {log : List Request}
  (course : Course job repo reference { cached := { inner := log } })
  (hjob : job.provider = forge.provider)

include hjob

/-- A course begins with the files of the base directory in the checkout that is asked for. -/
theorem beginning : forge.checkout? ⟨repo, reference⟩ = some course.checkout ∧
    Beginning forge job course.checkout course.start course.started :=
  beginning_of_ok hjob course.open_eq course.start_eq

/-- In the end of a course all its leads have been followed, and the files of the base directory are
collected still. -/
theorem following :
    Following forge job ⟨course.checkout, .root⟩ course.start.directory.key
      course.start.authoritative (course.visited.map (·.lead)) [] course.final ∧
    course.start.leads ⊆ course.visited.map (·.lead) ∧ course.started.keys ⊆ course.final.keys := by
  have hbeginning := (course.beginning hjob).2
  exact hbeginning.following.follows hjob hbeginning.mounted
    (fun path hshows => Forge.showsFile_of_base hbeginning.base hshows) course.follows

/-- What holds when a course begins to follow leads, and is preserved by every visit, holds in the
end. -/
theorem final_of_step {I : List Lead → Progress (List Request) → Prop}
    (hstart : I course.start.leads course.started)
    (hstep : ∀ {lead rest found s t}, VisitFinding forge job ⟨course.checkout, .root⟩
      course.start.directory.key course.start.authoritative lead s found t →
      I (lead :: rest) s → I (found ++ rest) t) : I [] course.final := by
  have hbeginning := (course.beginning hjob).2
  exact hbeginning.following.holds hjob hbeginning.mounted
    (fun path hshows => Forge.showsFile_of_base hbeginning.base hshows) hstep course.follows hstart

/-- In a course every lead was followed from a sound state, and stands in a mounted checkout. -/
theorem visited_sound : ∀ v ∈ course.visited,
    visit job course.start.directory course.start.authoritative v.lead v.before =
      .ok v.found v.after ∧
    Sound forge job v.before ∧ forge.Mounted ⟨course.checkout, .root⟩ v.lead.origin.mount := by
  have hbeginning := (course.beginning hjob).2
  exact hbeginning.following.visited hjob hbeginning.mounted
    (fun path hshows => Forge.showsFile_of_base hbeginning.base hshows) course.follows

end Course

end Walk

/-- Whenever a collection from a forge comes to its end, no reference has been dropped. Every
scanned file has been understood, and each of its references is answered by the files and the
unreachable packages, unless it is one to a package and an authoritative lock file is there. So is
every reference in the lock file, which is one of the files. -/
theorem Collector.references_answered (forge : Forge) (ecosystem : Ecosystem) (settings : Settings)
    (extent : Extent) (source : Source) (log : List Request) (files : List DependencyFile)
    (unreachable : List Unreachable)
    (hrun : harvest? ((forge.collector ecosystem settings extent).run source log).1 =
      some (files, unreachable)) :
    ∃ checkout base,
      forge.checkout? ⟨source.repo, (forge.collector ecosystem settings extent).reference source⟩ =
        some checkout ∧
      forge.base? settings checkout source.directory = some base ∧
      (∀ file ∈ files, IsScanned ecosystem file →
        ∃ references, ecosystem.references file.text file.path = .ok references ∧
          ∀ reference ∈ references,
            (reference.isPathDependency = true ∧
              (forge.lockScan? ecosystem base source.directory).any (·.2.authoritative) = true) ∨
            forge.Answered ecosystem settings base.key file.key reference
              (files.map DependencyFile.key) (unreachable.map Unreachable.name)) ∧
      ∀ lock scan, forge.lockScan? ecosystem base source.directory = some (lock, scan) →
        lock.key ∈ files.map DependencyFile.key ∧
          ∀ reference ∈ scan.references,
            forge.Answered ecosystem settings base.key lock.key reference
              (files.map DependencyFile.key) (unreachable.map Unreachable.name) := by
  obtain ⟨course, rfl, rfl, -⟩ := exists_course hrun
  have hjob : ((forge.collector ecosystem settings extent).job source).provider = forge.provider := rfl
  obtain ⟨hcheckout, hbeginning⟩ := course.beginning hjob
  obtain ⟨hfollowing, hsubset, hkeys⟩ := course.following hjob
  refine ⟨course.checkout, course.start.directory, hcheckout, hbeginning.base, ?_, ?_⟩
  · intro file hfile hscanned
    obtain ⟨references, hreferences, hleads⟩ := hfollowing.announced file hfile hscanned
    refine ⟨references, hreferences, fun reference hreference => ?_⟩
    obtain ⟨lead, hlead, rfl, horigin, hlocked⟩ := hleads reference hreference
    cases hcounted : Walk.isCounted course.start.authoritative lead with
    | true =>
      rw [List.append_nil] at hlead
      rw [← horigin]
      exact .inr (hfollowing.answered lead hlead hcounted)
    | false =>
      simp only [Walk.isCounted, hlocked, Bool.not_false, Bool.and_true, Bool.not_eq_false',
        Bool.and_eq_true, hbeginning.authoritative] at hcounted
      exact .inl hcounted
  · intro lock scan hscan
    refine ⟨hkeys (hbeginning.locked _ hscan), fun reference hreference => ?_⟩
    have hlead : ⟨reference, lock, true⟩ ∈ course.start.leads := by
      obtain ⟨_, _, _, _, declared, described, -, -, -, -, -, -, hleads⟩ := hbeginning.gathers
      rw [hleads]
      refine List.mem_append_left _ (List.mem_append_right _ ?_)
      change _ ∈ Forge.lockLeads (forge.lockScan? ecosystem course.start.directory source.directory)
      rw [hscan]
      exact List.mem_map_of_mem hreference
    exact hfollowing.answered _ (hsubset hlead) (by simp [Walk.isCounted])

/-- A forge with references of all kinds: to a child manifest, to a version file, and to packages
with a specification, with a marker and with neither. -/
def Forge.depot : Forge where
  name := "forge"
  repositories :=
    [{ name := "org/app", commit := ⟨"c1"⟩
       nodes :=
         [(.ofString "Gemfile", .file
            "eval_gemfile 'more/Gemfile'\ngem 'a', path: 'a'\nruby file: '.ruby-version'".toUTF8.toList),
          (.ofString "more/Gemfile", .file "gem 'b', path: '../b'\ngem 'c', path: 'c'".toUTF8.toList),
          (.ofString ".ruby-version", .file "3.3".toUTF8.toList),
          (.ofString "a/a.gemspec", .file "require_relative 'version'".toUTF8.toList),
          (.ofString "a/version.rb", .file []),
          (.ofString "b/.specification", .file [])] }]

/-- A collection from this forge comes to six files and one missing package. -/
theorem Collector.harvest_depot :
    ∃ (files : List DependencyFile) (unreachable : List Unreachable),
      harvest? ((Forge.depot.collector .bundler {} Forge.depot.extent).run
        ⟨"forge", "org/app", none, .root⟩ []).1 = some (files, unreachable) ∧
      files.map (·.role) =
        [.manifest, .childManifest, .specification, .specification, .childManifest, .support] ∧
      unreachable.map Unreachable.name = ["c"] := by
  have hends : (harvest? ((Forge.depot.collector .bundler {} Forge.depot.extent).run
      ⟨"forge", "org/app", none, .root⟩ []).1).map
        (fun harvest => (harvest.1.map (·.role), harvest.2.map Unreachable.name)) =
          some ([.manifest, .childManifest, .specification, .specification, .childManifest, .support],
            ["c"]) := by
    decide +kernel
  obtain ⟨⟨files, unreachable⟩, hrun, hharvest⟩ := Option.map_eq_some_iff.1 hends
  exact ⟨files, unreachable, hrun, Prod.mk.inj hharvest⟩

/-- Every reference in the six files that are collected from this forge has been answered. -/
theorem Collector.references_answered_depot :
    ∃ (files : List DependencyFile) (unreachable : List Unreachable) (base : Place),
      harvest? ((Forge.depot.collector .bundler {} Forge.depot.extent).run
        ⟨"forge", "org/app", none, .root⟩ []).1 = some (files, unreachable) ∧
      files.length = 6 ∧ unreachable.map Unreachable.name = ["c"] ∧
      ∀ file ∈ files, IsScanned .bundler file →
        ∃ references, Ecosystem.bundler.references file.text file.path = .ok references ∧
          ∀ reference ∈ references,
            (reference.isPathDependency = true ∧
              (Forge.depot.lockScan? .bundler base .root).any (·.2.authoritative) = true) ∨
            Forge.depot.Answered .bundler {} base.key file.key reference
              (files.map DependencyFile.key) (unreachable.map Unreachable.name) := by
  obtain ⟨files, unreachable, hrun, hroles, hunreachable⟩ := harvest_depot
  have hfiles : files.length = 6 := by
    rw [← List.length_map (·.role), hroles]
    rfl
  obtain ⟨checkout, base, -, -, hanswered, -⟩ :=
    references_answered _ _ _ _ _ _ files unreachable hrun
  exact ⟨files, unreachable, base, hrun, hfiles, hunreachable, hanswered⟩

end DependencyFiles
