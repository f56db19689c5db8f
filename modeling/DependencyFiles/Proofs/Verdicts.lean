import DependencyFiles.Proofs.Closure

/-!
# Packages are unreachable when they are missing

Whether a package is noted as unreachable depends on the forge, and on what was searched or
collected before in one respect only: a marker that was collected counts as found, although the
listing of its directory may not show it. Where files are leaves there is no such marker. The
packages that are reported are those noted, each name once, in the order in which they were
first noted.
-/

namespace DependencyFiles

namespace Forge

variable {forge : Forge} {ecosystem : Ecosystem} {settings : Settings}

/-- Where files are leaves, a file that can be read is shown by the listing of its directory. -/
theorem showsFile_of_content? (hfailures : forge.failures = []) (hleaves : forge.FilesAreLeaves)
    {file : Key} (hcontent : (forge.content? file).isSome = true) : forge.showsFile file = true := by
  obtain ⟨content, hcontent⟩ := Option.isSome_iff_exists.1 hcontent
  obtain ⟨-, repository, hrepository, hcommit, hread⟩ := content?_eq_some.1 hcontent
  have hmem : repository ∈ forge.repositories := List.mem_of_find?_eq_some hrepository
  obtain ⟨entries, hlist, hentry⟩ := Repository.list_of_read (hleaves repository hmem) hread
  rw [showsFile_iff]
  refine ⟨entries, listing?_eq_some.2 ⟨?_, repository, hrepository, hcommit, hlist⟩, hentry⟩
  rw [hfailures]
  rfl

/-- Where files are leaves, directories show their markers. -/
theorem showsMarker_of_filesAreLeaves (hfailures : forge.failures = [])
    (hleaves : forge.FilesAreLeaves) (directory : Key) : forge.ShowsMarker ecosystem directory :=
  showsFile_of_content? hfailures hleaves

end Forge

namespace Walk

variable {σ : Type}

/-- The package that following a lead notes as unreachable, for whatever reason. -/
def noted? (job : Job σ) (authoritative : Bool) (visited : Visited σ) : Option String :=
  match visited.lead.reference.kind with
  | .pathDependency name =>
    if isCounted authoritative visited.lead then
      match findPackage job (visited.lead.origin.resolve visited.lead.reference.path) visited.before with
      | .ok (some _, _) _ => some name
      | _ => none
    else none
  | _ => none

/-- A package is noted when it was looked for and not found. -/
theorem noted?_eq_some {job : Job σ} {authoritative : Bool} {v : Visited σ} {name : String}
    (h : noted? job authoritative v = some name) :
    v.lead.reference.kind = .pathDependency name ∧ isCounted authoritative v.lead = true ∧
      ∃ reason leads t, findPackage job (v.lead.origin.resolve v.lead.reference.path) v.before =
        .ok (some reason, leads) t := by
  unfold noted? at h
  cases hkind : v.lead.reference.kind with
  | childManifest => simp [hkind] at h
  | supportFile => simp [hkind] at h
  | pathDependency other =>
    rw [hkind] at h
    dsimp only at h
    cases hcounted : isCounted authoritative v.lead with
    | false => simp [hcounted] at h
    | true =>
      rw [hcounted, if_pos rfl] at h
      split at h
      · rename_i reason leads t hfind
        obtain rfl := Option.some_inj.1 h
        exact ⟨rfl, rfl, reason, leads, t, hfind⟩
      · cases h

/-- Noting a package adds its name to those noted, unless it is there already. -/
theorem unreachableNames_markUnreachable (name reason : String) {s t : Progress σ} {u : Unit}
    (h : markUnreachable name reason s = .ok u t) :
    t.unreachableNames =
      if name ∈ s.unreachableNames then s.unreachableNames else s.unreachableNames ++ [name] := by
  cases h
  have hany : (s.unreachable.any (·.name = name)) = true ↔ name ∈ s.unreachableNames := by
    simp [Progress.unreachableNames]
  by_cases hname : name ∈ s.unreachableNames
  · rw [if_pos hname]
    exact congrArg Progress.unreachableNames (if_pos (hany.2 hname))
  · rw [if_neg hname]
    refine (congrArg Progress.unreachableNames (if_neg (mt hany.1 hname))).trans ?_
    rw [Progress.unreachableNames, List.map_append]
    rfl

/-- The packages noted before stay as they are when packages are looked for or files are read. -/
theorem keptBySearching_unreachable (job : Job σ) (unreachable : List Unreachable) :
    KeptBySearching job fun s => s.unreachable = unreachable where
  resolve _ _ _ hs := hs
  list _ _ _ hs := hs
  target _ _ hs := hs
  read place role s hs := by
    rw [gives_readCollecting]
    split
    · unfold collecting
      split <;> exact hs
    · exact hs
  keep _ _ _ hs := hs

/-- Following a lead adds the name of the package that it notes. -/
theorem unreachableNames_visit {job : Job σ} {base : Place} {authoritative : Bool}
    {visited : Visited σ} (h : visit job base authoritative visited.lead visited.before =
      .ok visited.found visited.after) :
    visited.after.unreachableNames = match noted? job authoritative visited with
      | some name => if name ∈ visited.before.unreachableNames then visited.before.unreachableNames
        else visited.before.unreachableNames ++ [name]
      | none => visited.before.unreachableNames := by
  have hkept := keptBySearching_unreachable job visited.before.unreachable
  cases hkind : visited.lead.reference.kind with
  | pathDependency name =>
    unfold visit at h
    unfold noted?
    rw [hkind] at h ⊢
    dsimp only at h ⊢
    rw [isCounted_of_package hkind]
    cases hignored : authoritative && !visited.lead.fromLockfile with
    | true =>
      rw [hignored, if_pos rfl] at h
      exact congrArg Progress.unreachableNames (EStateM.Result.ok.inj h).2.symm
    | false =>
      rw [hignored, if_neg (by simp)] at h
      obtain ⟨⟨reason, leads⟩, t, hfind, hnote⟩ := bind_eq_ok.1 h
      rw [hfind]
      have hunreachable : t.unreachable = visited.before.unreachable :=
        (hkept.findPackage _ _ rfl).of_ok hfind
      have hnames : t.unreachableNames = visited.before.unreachableNames := by
        rw [Progress.unreachableNames, hunreachable, ← Progress.unreachableNames]
      cases reason with
      | none =>
        cases hnote
        exact hnames
      | some reason =>
        obtain ⟨u, t', hmark, hend⟩ := bind_eq_ok.1 hnote
        cases hend
        rw [← hnames]
        exact unreachableNames_markUnreachable name reason hmark
  | childManifest =>
    have hfile : visited.lead.reference.isPathDependency = false := by
      simp [Reference.isPathDependency, hkind]
    unfold noted?
    rw [hkind]
    exact congrArg (List.map Unreachable.name)
      ((hkept.visitFile base authoritative hfile _ rfl).of_ok h)
  | supportFile =>
    have hfile : visited.lead.reference.isPathDependency = false := by
      simp [Reference.isPathDependency, hkind]
    unfold noted?
    rw [hkind]
    exact congrArg (List.map Unreachable.name)
      ((hkept.visitFile base authoritative hfile _ rfl).of_ok h)

/-- The packages noted are those that following the leads notes, each once. -/
theorem unreachableNames_follows {job : Job σ} {base : Place} {authoritative : Bool}
    {stack : List Lead} {visited : List (Visited σ)} {s u : Progress σ}
    (hfollows : Follows (visit job base authoritative) stack s visited u) {names : List String}
    (hs : s.unreachableNames = names.eraseDups) :
    u.unreachableNames = (names ++ visited.filterMap (noted? job authoritative)).eraseDups := by
  induction hfollows generalizing names with
  | done s => simpa using hs
  | @step v rest visited u hvisit hrest ih =>
    have hafter := unreachableNames_visit hvisit
    cases hnoted : noted? job authoritative v with
    | none =>
      rw [hnoted] at hafter
      rw [List.filterMap_cons_none hnoted]
      exact ih (hafter.trans hs)
    | some name =>
      rw [hnoted] at hafter
      rw [List.filterMap_cons_some hnoted, List.append_cons]
      refine ih (hafter.trans ?_)
      rw [List.eraseDups_append, hs]
      by_cases hname : name ∈ names <;> simp [hname, List.removeAll, List.eraseDups_cons]

variable {forge : Forge} {job : Job (List Request)} {root : Mount}

/-- In the end of a course the packages noted are those that following its leads noted. -/
theorem Course.unreachableNames_final {repo reference : String} {log : List Request}
    (course : Course job repo reference { cached := { inner := log } })
    (hjob : job.provider = forge.provider) : course.final.unreachableNames =
      (course.visited.filterMap (noted? job course.start.authoritative)).eraseDups := by
  have hstarted : course.started.unreachableNames = ([] : List String).eraseDups := by
    rw [Progress.unreachableNames, (course.beginning hjob).2.unreachable]
    rfl
  exact unreachableNames_follows course.follows hstarted

/-- A package is noted as unreachable exactly when it is missing and its marker was not collected
before, whatever else was collected and searched. -/
theorem noted?_iff (hjob : job.provider = forge.provider) {base : Place} {authoritative : Bool}
    {visited : Visited (List Request)} {name : String}
    (hvisit : visit job base authoritative visited.lead visited.before =
      .ok visited.found visited.after)
    (hs : Sound forge job visited.before) (hroot : forge.Mounted root visited.lead.origin.mount)
    (hkind : visited.lead.reference.kind = .pathDependency name)
    (hcounted : isCounted authoritative visited.lead = true) :
    noted? job authoritative visited = some name ↔
      forge.Missing job.ecosystem job.settings
        (Forge.targetOf visited.lead.origin.key visited.lead.reference) ∧
      ¬ forge.MarkerIn job.ecosystem job.settings visited.before.keys
        (Forge.targetOf visited.lead.origin.key visited.lead.reference) := by
  unfold visit at hvisit
  unfold noted?
  rw [hkind] at hvisit ⊢
  dsimp only at hvisit ⊢
  have hfollowed : ¬ (authoritative && !visited.lead.fromLockfile) = true := by
    rw [isCounted_of_package hkind, Bool.not_eq_true'] at hcounted
    simp [hcounted]
  rw [if_neg hfollowed] at hvisit
  obtain ⟨⟨reason, leads⟩, t, hfind, -⟩ := bind_eq_ok.1 hvisit
  have hfinding := (gives_findPackage hjob (visited.lead.origin.resolve _) hroot hs).of_ok hfind
  rw [if_pos hcounted, hfind]
  refine Iff.trans ?_ hfinding.isSome_iff
  cases reason <;> simp

end Walk

/-- A collection that comes to its end has noted the packages that are missing. Following a reference
to a package notes it exactly when its path leads to no directory, or to one without a specification
within reach and without a marker, unless the directory's marker has been collected before; and such
a marker makes no difference where the directory would show its marker. The packages that are
reported are those noted, each name once and in the order of the first time, and the collection fails
exactly when there are any. -/
theorem Collector.noted_iff_missing (forge : Forge) (ecosystem : Ecosystem) (settings : Settings)
    (extent : Extent) (source : Source) (log : List Request) (files : List DependencyFile)
    (unreachable : List Unreachable)
    (hrun : harvest? ((forge.collector ecosystem settings extent).run source log).1 =
      some (files, unreachable)) :
    ∃ course : Walk.Course ((forge.collector ecosystem settings extent).job source) source.repo
        ((forge.collector ecosystem settings extent).reference source) { cached := { inner := log } },
      (∀ visited ∈ course.visited, ∀ name,
        visited.lead.reference.kind = .pathDependency name →
        Walk.isCounted course.start.authoritative visited.lead = true →
        (Walk.noted? ((forge.collector ecosystem settings extent).job source)
            course.start.authoritative visited = some name ↔
          forge.Missing ecosystem settings
            (Forge.targetOf visited.lead.origin.key visited.lead.reference) ∧
          ¬ forge.MarkerIn ecosystem settings visited.before.keys
            (Forge.targetOf visited.lead.origin.key visited.lead.reference)) ∧
        ((∀ directory, forge.Leads settings
            (Forge.targetOf visited.lead.origin.key visited.lead.reference) directory →
              forge.ShowsMarker ecosystem directory) →
          (Walk.noted? ((forge.collector ecosystem settings extent).job source)
              course.start.authoritative visited = some name ↔
            forge.Missing ecosystem settings
              (Forge.targetOf visited.lead.origin.key visited.lead.reference)))) ∧
      unreachable.map Unreachable.name = (course.visited.filterMap
        (Walk.noted? ((forge.collector ecosystem settings extent).job source)
          course.start.authoritative)).eraseDups ∧
      ((forge.collector ecosystem settings extent).run source log).1 =
        if unreachable = [] then .ok files else .error (.failed (.unreachable unreachable files)) := by
  obtain ⟨course, rfl, rfl, hend⟩ := exists_course hrun
  have hjob : ((forge.collector ecosystem settings extent).job source).provider = forge.provider := rfl
  refine ⟨course, fun visited hvisited name hkind hcounted => ?_, ?_, by rw [hend]⟩
  · obtain ⟨hvisit, hsound, hroot⟩ := course.visited_sound hjob visited hvisited
    have hverdict := Walk.noted?_iff hjob hvisit hsound hroot hkind hcounted
    refine ⟨hverdict, fun hmarkers => hverdict.trans (and_iff_left_of_imp fun hmissing => ?_)⟩
    exact hmissing.not_markerIn hmarkers fun file hfile => Walk.isSome_content? hsound.toTruthful hfile
  · exact course.unreachableNames_final hjob

/-- All directories of this forge would show their markers, so that the packages that are noted are those
that are missing. There is one. -/
theorem Collector.noted_iff_missing_depot :
    (∀ directory, Forge.depot.ShowsMarker .bundler directory) ∧
    ∃ (files : List DependencyFile) (unreachable : List Unreachable) (course : Walk.Course
        ((Forge.depot.collector .bundler {} Forge.depot.extent).job ⟨"forge", "org/app", none, .root⟩)
        "org/app" "HEAD" { cached := { inner := [] } }),
      harvest? ((Forge.depot.collector .bundler {} Forge.depot.extent).run
        ⟨"forge", "org/app", none, .root⟩ []).1 = some (files, unreachable) ∧
      (∀ visited ∈ course.visited, ∀ name, visited.lead.reference.kind = .pathDependency name →
        Walk.isCounted course.start.authoritative visited.lead = true →
        (Walk.noted? ((Forge.depot.collector .bundler {} Forge.depot.extent).job
            ⟨"forge", "org/app", none, .root⟩) course.start.authoritative visited = some name ↔
          Forge.depot.Missing .bundler {}
            (Forge.targetOf visited.lead.origin.key visited.lead.reference))) ∧
      (∃ visited ∈ course.visited, visited.lead.reference.kind = .pathDependency "c" ∧
        Walk.isCounted course.start.authoritative visited.lead = true ∧
        Forge.depot.Missing .bundler {}
          (Forge.targetOf visited.lead.origin.key visited.lead.reference)) ∧
      unreachable.map Unreachable.name = ["c"] ∧
      ((Forge.depot.collector .bundler {} Forge.depot.extent).run ⟨"forge", "org/app", none, .root⟩ []).1 =
        .error (.failed (.unreachable unreachable files)) := by
  have hleaves : Forge.depot.FilesAreLeaves := by decide
  have hmarkers (directory : Key) : Forge.depot.ShowsMarker .bundler directory :=
    Forge.showsMarker_of_filesAreLeaves rfl hleaves directory
  obtain ⟨files, unreachable, hrun, -, hnames⟩ := harvest_depot
  obtain ⟨course, hverdicts, hnoted, hresult⟩ := noted_iff_missing _ _ _ _ _ _ files unreachable hrun
  refine ⟨hmarkers, files, unreachable, course, hrun, fun visited hvisited name hkind hcounted => ?_, ?_,
    hnames, ?_⟩
  · exact (hverdicts visited hvisited name hkind hcounted).2 fun directory _ => hmarkers directory
  · have hmem : "c" ∈ course.visited.filterMap (Walk.noted? ((Forge.depot.collector .bundler {}
        Forge.depot.extent).job ⟨"forge", "org/app", none, .root⟩) course.start.authoritative) := by
      rw [← List.mem_eraseDups, ← hnoted, hnames]
      exact List.mem_cons_self
    obtain ⟨visited, hvisited, hthis⟩ := List.mem_filterMap.1 hmem
    obtain ⟨hkind, hcounted, -⟩ := Walk.noted?_eq_some hthis
    have hmissing := ((hverdicts visited hvisited "c" hkind hcounted).1.1 hthis).1
    exact ⟨visited, hvisited, hkind, hcounted, hmissing⟩
  · have hsome : unreachable ≠ [] := by
      rintro rfl
      cases hnames
    rw [if_neg hsome] at hresult
    exact hresult

/-- A forge with a repository whose root is a file although other files lie beneath it. The root is
listed as one file, so that the listing does not show the marker. -/
def Forge.burrow : Forge where
  name := "forge"
  repositories :=
    [{ name := "org/app", commit := ⟨"c1"⟩
       nodes :=
         [(.ofString "Gemfile", .file
            "gem 'inner', path: 'sub/dir'\ngem 'outer', path: 'sub'".toUTF8.toList),
          (.ofString "sub", .submodule ⟨"org/lib", "c2"⟩)] },
     { name := "org/lib", commit := ⟨"c2"⟩
       nodes :=
         [(.root, .file []), (.ofString ".specification", .file []),
          (.ofString "dir/inner.gemspec", .file "require_relative '../.specification'".toUTF8.toList)] }]

/-- The second reference in the Gemfile. -/
def Forge.burrowOuter : Reference := ⟨.pathDependency "outer", "sub", "Gemfile"⟩

/-- The Gemfile. -/
def Forge.burrowManifest : Key := (⟨"forge", "org/app", ⟨"c1"⟩⟩, .ofString "Gemfile")

/-- The second package is missing. -/
theorem Forge.missing_burrowOuter :
    burrow.Missing .bundler {} (targetOf burrowManifest burrowOuter) := by
  have hlist : burrow.listing? (targetOf burrowManifest burrowOuter) =
      some [.ofSubmodule (.ofString "sub") ⟨"org/lib", "c2"⟩] := by decide
  have hone : Entry.single? [.ofSubmodule (.ofString "sub") ⟨"org/lib", "c2"⟩]
      (targetOf burrowManifest burrowOuter).2 =
        some (.ofSubmodule (.ofString "sub") ⟨"org/lib", "c2"⟩) := by decide
  have hinside : (burrow.inside? (.ofSubmodule (.ofString "sub") ⟨"org/lib", "c2"⟩)).map (·, .root) =
      some ((⟨"forge", "org/lib", ⟨"c2"⟩⟩, .root) : Key) := by decide
  have hroot : burrow.listing? (⟨"forge", "org/lib", ⟨"c2"⟩⟩, .root) = some [.ofFile .root] := by
    decide
  intro directory hleads
  obtain ⟨-, -, hdirectory⟩ := (leads_iff_enter hlist hone).1 hleads
  rw [hinside, Option.some_inj] at hdirectory
  subst hdirectory
  constructor
  · intro hthis
    obtain ⟨n, -, hspecified⟩ := hthis
    cases n with
    | zero => exact specifiedAt_zero.1 hspecified (by decide)
    | succ n =>
      obtain ⟨inner, ⟨entries, hentries, entry, hentry, hkind, -⟩, -⟩ := specifiedAt_succ.1 hspecified
      rw [hroot, Option.some_inj] at hentries
      subst hentries
      rw [List.mem_singleton.1 hentry] at hkind
      exact absurd hkind (by decide)
  · exact fun hmarked => absurd hmarked.1 (by decide)

/-- Where files are not leaves, a package that is missing may not be noted: its marker has been
collected as a child manifest before, and then counts as found. -/
theorem Collector.missing_not_noted :
    Forge.burrow.failures = [] ∧
    ∃ (files : List DependencyFile) (course : Walk.Course
        ((Forge.burrow.collector .bundler {} Forge.burrow.extent).job ⟨"forge", "org/app", none, .root⟩)
        "org/app" "HEAD" { cached := { inner := [] } }),
      ((Forge.burrow.collector .bundler {} Forge.burrow.extent).run
        ⟨"forge", "org/app", none, .root⟩ []).1 = .ok files ∧
      ∃ visited ∈ course.visited, visited.lead.reference.kind = .pathDependency "outer" ∧
        Walk.isCounted course.start.authoritative visited.lead = true ∧
        Walk.noted? ((Forge.burrow.collector .bundler {} Forge.burrow.extent).job
          ⟨"forge", "org/app", none, .root⟩) course.start.authoritative visited = none ∧
        Forge.burrow.Missing .bundler {}
          (Forge.targetOf visited.lead.origin.key visited.lead.reference) := by
  have hends : ((harvest? ((Forge.burrow.collector .bundler {} Forge.burrow.extent).run
      ⟨"forge", "org/app", none, .root⟩ []).1).any fun harvest => harvest.2.isEmpty &&
        harvest.1.any fun file => file.role = .manifest && file.key = Forge.burrowManifest &&
          (Ecosystem.bundler.references file.text file.path).toOption.any
            (·.contains Forge.burrowOuter)) = true := by
    decide +kernel
  obtain ⟨⟨files, unreachable⟩, hrun, hharvest⟩ := (Option.any_eq_true _ _).1 hends
  obtain ⟨hnone, hmanifest⟩ := Bool.and_eq_true_iff.1 hharvest
  obtain rfl : unreachable = [] := List.isEmpty_iff.1 hnone
  obtain ⟨file, hfile, hthis⟩ := List.any_eq_true.1 hmanifest
  simp only [Bool.and_eq_true, decide_eq_true_eq] at hthis
  obtain ⟨⟨hrole, hkey⟩, hreferences⟩ := hthis
  obtain ⟨course, rfl, hunreachable, hresult⟩ := exists_course hrun
  have hjob : ((Forge.burrow.collector .bundler {} Forge.burrow.extent).job
    ⟨"forge", "org/app", none, .root⟩).provider = Forge.burrow.provider := rfl
  obtain ⟨hcheckout, hbeginning⟩ := course.beginning hjob
  -- The Gemfile has been scanned, so that the reference in it has been followed.
  obtain ⟨references, hscan, hleads⟩ := (course.following hjob).1.announced file hfile (by
    rw [IsScanned, hrole]
    trivial)
  have houter : Forge.burrowOuter ∈ references := by
    rw [show Ecosystem.bundler.references file.text file.path = .ok references from hscan]
      at hreferences
    simpa [Except.toOption] using hreferences
  obtain ⟨lead, hlead, hreference, horigin, -⟩ := hleads _ houter
  rw [List.append_nil] at hlead
  obtain ⟨visited, hvisited, rfl⟩ := List.mem_map.1 hlead
  have hauthoritative : course.start.authoritative = false := by
    have hopened : (⟨"forge", "org/app", ⟨"c1"⟩⟩ : Checkout) = course.checkout :=
      Option.some_inj.1 (Eq.trans (by decide) hcheckout)
    have hbase := hbeginning.base
    rw [← hopened] at hbase
    have hdirectory : (⟨⟨⟨"forge", "org/app", ⟨"c1"⟩⟩, .root⟩, .root⟩ : Place) =
        course.start.directory := Option.some_inj.1 (Eq.trans (by decide) hbase)
    rw [hbeginning.authoritative, ← hdirectory]
    decide
  refine ⟨rfl, course.final.files, course, ?_, visited, hvisited, ?_, ?_, ?_, ?_⟩
  · rw [hresult]
    rfl
  · rw [hreference]
    rfl
  · rw [hauthoritative]
    simp [Walk.isCounted]
  · have hnames := course.unreachableNames_final hjob
    rw [Progress.unreachableNames, hunreachable] at hnames
    cases hnoted : Walk.noted? _ course.start.authoritative visited with
    | none => rfl
    | some name =>
      have hname : name ∈ ([] : List String) := by
        rw [show [] = _ from hnames, List.mem_eraseDups]
        exact List.mem_filterMap.2 ⟨visited, hvisited, hnoted⟩
      cases hname
  · rw [hreference, horigin, hkey]
    exact Forge.missing_burrowOuter

end DependencyFiles
