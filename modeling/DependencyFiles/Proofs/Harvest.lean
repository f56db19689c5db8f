import DependencyFiles.Proofs.Asking
import DependencyFiles.Proofs.Closure
import DependencyFiles.Proofs.Coverage

/-!
# What a collection comes to

In a steady forge a collection without a lock file comes to the files that it is asked for,
and to the packages that it is asked for and that are missing. While references are
followed, the collected files are among those asked for, and whatever a followed reference
asks for has been collected.
-/

namespace DependencyFiles

/-- References that ask for the same differ in the file that they stand in. -/
theorem Reference.exists_origin {reference other : Reference} (h : reference.aim = other.aim) :
    ∃ origin, reference = { other with origin } := by
  obtain ⟨kind, path, origin⟩ := reference
  obtain ⟨kind', path', origin'⟩ := other
  obtain ⟨rfl, rfl⟩ : kind = kind' ∧ path = path' := Prod.mk.inj h
  exact ⟨origin, rfl⟩

namespace Forge

variable (forge : Forge) (ecosystem : Ecosystem) (settings : Settings)

/-- What decides what a collection from the base directory comes to is the same in whatever order
references are followed: nothing lies beneath the files that are asked for to be scanned, directories
that are sought show their markers, no file with references is asked for both to be scanned and to be
taken along, and the directories that are sought stand apart. -/
structure Steady (base : Key) : Prop where
  leaves : forge.AsksForLeaves ecosystem settings base
  markers : ∀ directory, forge.Sought ecosystem settings base directory →
    forge.ShowsMarker ecosystem directory
  distinct : ∀ file reference, forge.Asked ecosystem settings base true file →
    forge.Asked ecosystem settings base false file → ¬ forge.Refers ecosystem file reference
  apart : forge.Apart ecosystem settings (forge.Sought ecosystem settings base)

variable {forge ecosystem settings}

/-- Where nothing lies beneath the files that are asked for, a scanned file that is asked for has the
references that were found in it, wherever it was reached. -/
theorem refers_of_scan (hnames : ecosystem.GoesByName) {checkout : Checkout} {requested : TreePath}
    {base : Place} (hleaves : forge.AsksForLeaves ecosystem settings base.key)
    (hbase : forge.base? settings checkout requested = some base) {place : Place}
    (hroot : forge.Mounted ⟨checkout, .root⟩ place.mount)
    (hasked : forge.Asked ecosystem settings base.key true place.key) {content : Bytes}
    (hcontent : forge.content? place.key = some content) {references : List Reference}
    (hscan : ecosystem.references (Text.decodeLossy content) (place.rootPath.relativeTo requested) =
      .ok references) :
    (∀ reference, forge.Refers ecosystem place.key reference →
      ∃ other ∈ references, reference.aim = other.aim) ∧
    ∀ other ∈ references, ∃ reference, forge.Refers ecosystem place.key reference ∧
      reference.aim = other.aim := by
  obtain ⟨name, hname⟩ : ∃ name, place.path.name? = some name := by
    have hpath : place.path ≠ .root := hasked.ne_root hnames hleaves hcontent
    unfold TreePath.name?
    cases hlast : place.path.segments.getLast? with
    | some name => exact ⟨name, rfl⟩
    | none => exact absurd (TreePath.ext_segments (List.getLast?_eq_none_iff.1 hlast)) hpath
  have hleaf : forge.IsLeaf place.key := hleaves _ hasked (by rw [hcontent]; rfl)
  have haims := hnames.aims? (Text.decodeLossy content) _ _
    (basename_of_mounted hbase hleaf hroot hcontent hname)
  unfold Ecosystem.aims? at haims
  rw [hscan] at haims
  obtain ⟨own, hown, hsame⟩ : ∃ own, ecosystem.references (Text.decodeLossy content) name = .ok own ∧
      own.map Reference.aim = references.map Reference.aim := by
    cases hown : ecosystem.references (Text.decodeLossy content) name with
    | error error =>
      rw [hown] at haims
      cases haims
    | ok own =>
      rw [hown] at haims
      exact ⟨own, rfl, (Option.some_inj.1 haims).symm⟩
  have hfile : place.key.2.name?.getD "" = name := by
    change place.path.name?.getD "" = name
    rw [hname]
    rfl
  constructor
  · intro reference hrefers
    obtain ⟨content', references', hread, hscan', hmem⟩ := hrefers
    rw [hcontent, Option.some_inj] at hread
    subst hread
    rw [hfile, hown, Except.ok.injEq] at hscan'
    subst hscan'
    have hthis := List.mem_map_of_mem (f := Reference.aim) hmem
    rw [hsame] at hthis
    obtain ⟨other, hother, haim⟩ := List.mem_map.1 hthis
    exact ⟨other, hother, haim.symm⟩
  · intro other hother
    have hthis := List.mem_map_of_mem (f := Reference.aim) hother
    rw [← hsame] at hthis
    obtain ⟨reference, hmem, haim⟩ := List.mem_map.1 hthis
    exact ⟨reference, ⟨content, own, hcontent, by rw [hfile, hown], hmem⟩, haim⟩

end Forge

namespace Walk

variable {forge : Forge} {job : Job (List Request)} {s t u : Progress (List Request)}
  {checkout : Checkout} {base : Place} {authoritative : Bool}

/-- The lead is a reference in a file that is asked for. -/
structure Stands (forge : Forge) (job : Job (List Request)) (base : Key) (lead : Lead) : Prop where
  asked : forge.Asked job.ecosystem job.settings base true lead.origin.key
  refers : ∃ reference, forge.Refers job.ecosystem lead.origin.key reference ∧
    reference.aim = lead.reference.aim

/-- What the references of the file ask for is what some of the leads ask for. -/
def Voiced (forge : Forge) (job : Job (List Request)) (leads : List Lead) (file : Key) : Prop :=
  ∀ reference, forge.Refers job.ecosystem file reference →
    ∃ lead ∈ leads, lead.origin.key = file ∧ reference.aim = lead.reference.aim

/-- All that the lead asks for has been collected, or else its package is noted. -/
structure Served (forge : Forge) (job : Job (List Request)) (base : Key) (lead : Lead)
    (s : Progress (List Request)) : Prop where
  fetched : ∀ file role, forge.Fetches job.ecosystem job.settings lead.origin.key lead.reference
    file role → file ∈ s.keys
  taken : ∀ file role, forge.Takes job.ecosystem job.settings base lead.origin.key lead.reference
    file role → file ∈ s.keys
  noted : ∀ name, lead.reference.kind = .pathDependency name →
    forge.Missing job.ecosystem job.settings (Forge.targetOf lead.origin.key lead.reference) →
    name ∈ s.unreachableNames

/-- What is collected is asked for, and what is asked for is collected or waits on the stack. -/
structure Serving (forge : Forge) (job : Job (List Request)) (checkout : Checkout) (base : Key)
    (followed stack : List Lead) (s : Progress (List Request)) : Prop where
  sound : Sound forge job s
  covering : Covering forge job (forge.Sought job.ecosystem job.settings base) s
  mounted : ∀ lead ∈ stack, forge.Mounted ⟨checkout, .root⟩ lead.origin.mount
  stands : ∀ lead ∈ stack, Stands forge job base lead
  files : ∀ file ∈ s.keys, forge.Asked job.ecosystem job.settings base false file ∨
    forge.Asked job.ecosystem job.settings base true file ∧ Voiced forge job (followed ++ stack) file
  served : ∀ lead ∈ followed, Served forge job base lead s
  lacking : ∀ name ∈ s.unreachableNames, forge.Lacks job.ecosystem job.settings base name

/-- More leads ask for at least the same. -/
theorem Voiced.mono {leads more : List Lead} {file : Key} (hsubset : leads ⊆ more)
    (h : Voiced forge job leads file) : Voiced forge job more file := by
  intro reference hrefers
  obtain ⟨lead, hlead, hthis⟩ := h reference hrefers
  exact ⟨lead, hsubset hlead, hthis⟩

/-- A lead that has been served stays so. -/
theorem Served.mono {base : Key} {lead : Lead} (hkeys : s.keys ⊆ t.keys)
    (hnames : s.unreachableNames ⊆ t.unreachableNames) (h : Served forge job base lead s) :
    Served forge job base lead t :=
  ⟨fun file role hfetches => hkeys (h.fetched file role hfetches),
    fun file role htakes => hkeys (h.taken file role htakes),
    fun name hkind hmissing => hnames (h.noted name hkind hmissing)⟩

namespace Stands

variable {base : Key} {lead : Lead}

/-- What a lead asks for to be scanned is asked for. -/
theorem fetched (h : Stands forge job base lead) {file : Key} {role : DependencyFile.Role}
    (hfetches : forge.Fetches job.ecosystem job.settings lead.origin.key lead.reference file role) :
    forge.Asked job.ecosystem job.settings base true file := by
  obtain ⟨reference, hrefers, haim⟩ := h.refers
  obtain ⟨origin, rfl⟩ := Reference.exists_origin haim
  exact .fetched h.asked hrefers hfetches

/-- What a lead asks for to be taken along is asked for. -/
theorem taken (h : Stands forge job base lead) {file : Key} {role : DependencyFile.Role}
    (htakes : forge.Takes job.ecosystem job.settings base lead.origin.key lead.reference file role) :
    forge.Asked job.ecosystem job.settings base false file := by
  obtain ⟨reference, hrefers, haim⟩ := h.refers
  obtain ⟨origin, rfl⟩ := Reference.exists_origin haim
  exact .taken h.asked hrefers htakes

/-- Where a lead to a package leads is sought. -/
theorem sought (h : Stands forge job base lead) {name : String} {directory : Key}
    (hkind : lead.reference.kind = .pathDependency name)
    (hleads : forge.Leads job.settings (Forge.targetOf lead.origin.key lead.reference) directory) :
    forge.Sought job.ecosystem job.settings base directory := by
  obtain ⟨reference, hrefers, haim⟩ := h.refers
  obtain ⟨origin, rfl⟩ := Reference.exists_origin haim
  exact ⟨_, _, name, h.asked, hrefers, hkind, hleads⟩

/-- A missing package that a lead asks for is lacking. -/
theorem lacks (h : Stands forge job base lead) {name : String}
    (hkind : lead.reference.kind = .pathDependency name)
    (hmissing : forge.Missing job.ecosystem job.settings
      (Forge.targetOf lead.origin.key lead.reference)) :
    forge.Lacks job.ecosystem job.settings base name := by
  obtain ⟨reference, hrefers, haim⟩ := h.refers
  obtain ⟨origin, rfl⟩ := Reference.exists_origin haim
  exact ⟨_, _, h.asked, hrefers, hkind, hmissing⟩

end Stands

section Scans

variable (hnames : job.ecosystem.GoesByName)
  (hleaves : forge.AsksForLeaves job.ecosystem job.settings base.key)
  (hbase : forge.base? job.settings checkout job.base = some base)

include hnames hleaves hbase

/-- The leads that scanned files give are references in files that are asked for. -/
theorem Scanned.stands {role : DependencyFile.Role} {P : Place → Prop} {files : List DependencyFile}
    {leads : List Lead} (h : Scanned job role P files leads)
    (hP : ∀ place, P place → forge.Mounted ⟨checkout, .root⟩ place.mount ∧
      forge.Asked job.ecosystem job.settings base.key true place.key)
    (hfiles : ∀ file ∈ files, forge.content? file.key = some file.content) :
    ∀ lead ∈ leads, Stands forge job base.key lead := by
  intro lead hlead
  obtain ⟨horigin, -, content, references, hfile, hscan, hmem⟩ := h.origin hlead
  obtain ⟨hmounted, hasked⟩ := hP _ horigin
  have hrefers := Forge.refers_of_scan hnames hleaves hbase hmounted hasked (hfiles _ hfile) hscan
  obtain ⟨reference, hthis, haim⟩ := hrefers.2 _ hmem
  exact ⟨hasked, reference, hthis, haim⟩

/-- Scanned files are asked for, and their leads ask for what their references do. -/
theorem Scanned.voiced {role : DependencyFile.Role} {P : Place → Prop} {files : List DependencyFile}
    {leads : List Lead} (h : Scanned job role P files leads)
    (hP : ∀ place, P place → forge.Mounted ⟨checkout, .root⟩ place.mount ∧
      forge.Asked job.ecosystem job.settings base.key true place.key)
    (hfiles : ∀ file ∈ files, forge.content? file.key = some file.content) :
    ∀ file ∈ files, forge.Asked job.ecosystem job.settings base.key true file.key ∧
      Voiced forge job leads file.key := by
  intro file hfile
  obtain ⟨place, references, hplace, hkind, hscan, hleads⟩ := h.announced hfile
  obtain ⟨hmounted, hasked⟩ := hP _ hkind
  have hkey : file.key = place.key := by
    rw [hplace]
    rfl
  have hpath : file.path = place.rootPath.relativeTo job.base := by
    rw [hplace]
    rfl
  have hcontent := hfiles file hfile
  rw [hkey] at hcontent ⊢
  rw [hpath] at hscan
  have hrefers := Forge.refers_of_scan hnames hleaves hbase hmounted hasked hcontent hscan
  refine ⟨hasked, fun reference hthis => ?_⟩
  obtain ⟨other, hother, haim⟩ := hrefers.1 reference hthis
  exact ⟨_, hleads other hother, rfl, haim⟩

end Scans

section Runs

variable (hjob : job.provider = forge.provider) (hnames : job.ecosystem.GoesByName)
  (hsteady : forge.Steady job.ecosystem job.settings base.key)
  (hbase : forge.base? job.settings checkout job.base = some base)

/-- A package that was answered and is missing has been noted. -/
theorem noted_of_answered {base : Key} {lead : Lead}
    (hmarkers : ∀ directory, forge.Leads job.settings
      (Forge.targetOf lead.origin.key lead.reference) directory → forge.ShowsMarker job.ecosystem directory)
    (ht : forge.Truthful t) (h : forge.Answered job.ecosystem job.settings base lead.origin.key
      lead.reference t.keys t.unreachableNames) {name : String}
    (hkind : lead.reference.kind = .pathDependency name)
    (hmissing : forge.Missing job.ecosystem job.settings
      (Forge.targetOf lead.origin.key lead.reference)) : name ∈ t.unreachableNames := by
  rcases (Forge.answered_package hkind).1 h with hname | hsupplied
  · exact hname
  · have hread : ∀ file ∈ t.keys, (forge.content? file).isSome = true :=
      fun file hfile => isSome_content? ht hfile
    exact absurd (hsupplied.markerIn hmissing) (hmissing.not_markerIn hmarkers hread)

include hjob hnames hsteady hbase

/-- Following the lead on top of the stack serves it. -/
theorem Serving.step {followed rest found : List Lead} {lead : Lead}
    (h : Serving forge job checkout base.key followed (lead :: rest) s)
    (hcounted : isCounted authoritative lead = true)
    (hvisit : visit job base authoritative lead s = .ok found t)
    (hfinding : VisitFinding forge job ⟨checkout, .root⟩ base.key authoritative lead s found t) :
    Serving forge job checkout base.key (followed ++ [lead]) (found ++ rest) t := by
  have hstands : Stands forge job base.key lead := h.stands lead List.mem_cons_self
  have hroot := h.mounted lead List.mem_cons_self
  have hkeys : s.keys ⊆ t.keys := hfinding.gathers.choose_spec.keys_subset
  obtain ⟨hcovering, hfetched⟩ := covers_visit hjob hsteady.apart hcounted
    (fun name directory hkind hleads => hstands.sought hkind hleads) hroot h.sound h.covering hvisit
    hfinding
  obtain ⟨role, files, others, hfiles, hscanned, hothers⟩ := hfinding.gathers
  have hnew (place : Place) (hplace : forge.Mounted ⟨checkout, .root⟩ place.mount ∧
      isCounted authoritative lead = true ∧ forge.Fetches job.ecosystem job.settings lead.origin.key
        lead.reference place.key role) : forge.Mounted ⟨checkout, .root⟩ place.mount ∧
      forge.Asked job.ecosystem job.settings base.key true place.key :=
    ⟨hplace.1, hstands.fetched hplace.2.2⟩
  have hread (file : DependencyFile) (hfile : file ∈ files) :
      forge.content? file.key = some file.content := by
    apply hfinding.sound.toTruthful.content?_eq
    rw [hfiles]
    simp [hfile]
  have hsubset : followed ++ lead :: rest ⊆ (followed ++ [lead]) ++ (found ++ rest) := by
    intro other hother
    simp only [List.mem_append, List.mem_cons] at hother ⊢
    rcases hother with hother | hother | hother <;> simp [hother]
  refine ⟨hfinding.sound, hcovering, fun other hother => ?_, fun other hother => ?_,
    fun file hfile => ?_, fun other hother => ?_, fun name hname => ?_⟩
  · rcases List.mem_append.1 hother with hother | hother
    · exact hfinding.mounted other hother
    · exact h.mounted other (List.mem_cons_of_mem _ hother)
  · rcases List.mem_append.1 hother with hother | hother
    · exact hscanned.stands hnames hsteady.leaves hbase hnew hread other hother
    · exact h.stands other (List.mem_cons_of_mem _ hother)
  · rw [Progress.keys, hfiles, List.map_append, List.map_append] at hfile
    rcases List.mem_append.1 hfile with hfile | hfile
    · exact (h.files file hfile).imp id fun hold => ⟨hold.1, hold.2.mono hsubset⟩
    · rcases List.mem_append.1 hfile with hfile | hfile
      · obtain ⟨gained, hgained, rfl⟩ := List.mem_map.1 hfile
        obtain ⟨hasked, hvoiced⟩ := hscanned.voiced hnames hsteady.leaves hbase hnew hread gained
          hgained
        refine .inr ⟨hasked, hvoiced.mono fun other hother => ?_⟩
        simp [hother]
      · obtain ⟨gained, hgained, rfl⟩ := List.mem_map.1 hfile
        obtain ⟨place, role, content, rfl, -, -, htakes⟩ := hothers gained hgained
        exact .inl (hstands.taken htakes)
  · rcases List.mem_append.1 hother with hother | hother
    · exact (h.served other hother).mono hkeys hfinding.unreachable
    · rw [List.mem_singleton.1 hother]
      refine ⟨hfetched, hfinding.taken hcounted, fun name hkind hmissing => ?_⟩
      exact noted_of_answered (fun directory hleads => hsteady.markers _ (hstands.sought hkind hleads))
        hfinding.sound.toTruthful (hfinding.answered hcounted) hkind hmissing
  · rcases hfinding.noted name hname with hold | ⟨hkind, hmissing⟩
    · exact h.lacking name hold
    · exact hstands.lacks hkind hmissing

/-- When no lead is left, all leads have been served. -/
theorem Serving.follows (hmounted : forge.Mounted ⟨checkout, .root⟩ base.mount)
    (hshows : ∀ path, forge.Shows base.key path → forge.showsFile (base.key.1, path) = true)
    {stack followed : List Lead} {visited : List (Visited (List Request))}
    (hfollows : Follows (visit job base false) stack s visited u)
    (h : Serving forge job checkout base.key followed stack s) :
    Serving forge job checkout base.key (followed ++ visited.map (·.lead)) [] u := by
  induction hfollows generalizing followed with
  | done s => simpa using h
  | @step v rest visited u hvisit hrest ih =>
    have hcounted : isCounted false v.lead = true := by simp [isCounted]
    have hroot := h.mounted v.lead List.mem_cons_self
    have hthis := (gives_visit hjob hmounted hshows hroot h.sound).of_ok hvisit
    have hend := ih (h.step hjob hnames hsteady hbase hcounted hvisit hthis)
    rwa [List.append_assoc] at hend

omit hjob in
/-- A collection without a lock file begins with what it is asked for. -/
theorem Beginning.serving {start : Start} (h : Beginning forge job checkout start t)
    (hlock : forge.lockfile? job.ecosystem base.key = none) (hsearched : t.searched = []) :
    start.directory = base ∧ start.authoritative = false ∧
      Serving forge job checkout base.key [] start.leads t := by
  obtain rfl : start.directory = base := Option.some_inj.1 (h.base.symm.trans hbase)
  have hnolock : forge.lockScan? job.ecosystem start.directory job.base = none := by
    simp [Forge.lockScan?, hlock]
  have hauthoritative : start.authoritative = false := by
    rw [h.authoritative, hnolock]
    rfl
  refine ⟨rfl, hauthoritative, ?_⟩
  obtain ⟨manifest, content, lockfiles, beside, declared, described, hmanifest, hcontent, hfiles,
    hdeclared, hlocks, hdescribed, hleads⟩ := h.gathers
  obtain rfl : lockfiles = [] := by
    cases lockfiles with
    | nil => rfl
    | cons file rest =>
      obtain ⟨read, -, hread, -⟩ := hlocks file List.mem_cons_self
      rw [hnolock] at hread
      cases hread
  rw [hnolock, Forge.lockLeads, List.append_nil] at hleads
  have hmain (place : Place) (hplace : place = start.directory.child manifest) :
      forge.Mounted ⟨checkout, .root⟩ place.mount ∧
        forge.Asked job.ecosystem job.settings start.directory.key true place.key := by
    rw [hplace]
    exact ⟨h.mounted, .manifest hmanifest⟩
  have hside (place : Place) (hplace : place.mount = start.directory.mount ∧
      forge.Beside job.ecosystem start.directory.key place.key) :
      forge.Mounted ⟨checkout, .root⟩ place.mount ∧
        forge.Asked job.ecosystem job.settings start.directory.key true place.key := by
    rw [hplace.1]
    exact ⟨h.mounted, .beside hplace.2⟩
  have hread (file : DependencyFile) (hfile : file ∈ t.files) :
      forge.content? file.key = some file.content := h.sound.toTruthful.content?_eq hfile
  rw [hfiles, List.nil_append] at hread
  have hmainread (file : DependencyFile) (hfile : file ∈ [_]) :=
    hread file (List.mem_cons.2 (.inl (List.mem_singleton.1 hfile)))
  have hsideread (file : DependencyFile) (hfile : file ∈ beside) :=
    hread file (List.mem_cons_of_mem _ hfile)
  have hleaves := hsteady.leaves
  have hstands : ∀ lead ∈ start.leads, Stands forge job start.directory.key lead := by
    intro lead hlead
    rw [hleads] at hlead
    rcases List.mem_append.1 hlead with hlead | hlead
    · exact hdeclared.stands hnames hleaves hbase hmain hmainread lead hlead
    · exact hdescribed.stands hnames hleaves hbase hside hsideread lead hlead
  refine ⟨h.sound, ?_, h.following.mounted, hstands, fun file hfile => .inr ?_, by simp, ?_⟩
  · intro kept hkept
    rw [hsearched] at hkept
    cases hkept
  · rw [Progress.keys, hfiles, List.nil_append, List.map_cons] at hfile
    rw [List.nil_append, hleads]
    rcases List.mem_cons.1 hfile with rfl | hfile
    · obtain ⟨hasked, hvoiced⟩ := hdeclared.voiced hnames hleaves hbase hmain hmainread _
        (List.mem_singleton.2 rfl)
      exact ⟨hasked, hvoiced.mono (List.subset_append_left _ _)⟩
    · obtain ⟨gained, hgained, rfl⟩ := List.mem_map.1 hfile
      obtain ⟨hasked, hvoiced⟩ := hdescribed.voiced hnames hleaves hbase hside hsideread _ hgained
      exact ⟨hasked, hvoiced.mono (List.subset_append_right _ _)⟩
  · rw [Progress.unreachableNames, h.unreachable]
    simp

namespace Course

variable {repo reference : String} {log : List Request}
  (course : Course job repo reference { cached := { inner := log } })
  (hcheckout : forge.checkout? ⟨repo, reference⟩ = some checkout)
  (hlock : forge.lockfile? job.ecosystem base.key = none)

include hcheckout hlock

/-- A course without a lock file begins at the base directory with what it is asked for. -/
theorem begins : course.start.directory = base ∧ course.start.authoritative = false ∧
    Serving forge job checkout base.key [] course.start.leads course.started := by
  obtain ⟨hopened, hbeginning⟩ := course.beginning hjob
  obtain rfl : course.checkout = checkout := Option.some_inj.1 (hopened.symm.trans hcheckout)
  exact hbeginning.serving hnames hsteady hbase hlock
    (course.started_of_keptByReading (keptByReading_searched job []) rfl)

/-- In the end of a course all its leads have been served. -/
theorem serving : Serving forge job checkout base.key (course.visited.map (·.lead)) [] course.final := by
  obtain ⟨hdirectory, hauthoritative, hserving⟩ :=
    course.begins hjob hnames hsteady hbase hcheckout hlock
  obtain ⟨hopened, hbeginning⟩ := course.beginning hjob
  have hmounted := hbeginning.mounted
  rw [hdirectory, ← Option.some_inj.1 (hcheckout.symm.trans hopened)] at hmounted
  have hfollows := course.follows
  rw [hdirectory, hauthoritative] at hfollows
  exact hserving.follows hjob hnames hsteady hbase hmounted
    (fun path hshows => Forge.showsFile_of_base hbase hshows) hfollows

/-- In the end of a course the references of what is asked for to be scanned have been followed. -/
theorem voiced {file : Key} (hfile : file ∈ course.final.keys)
    (hasked : forge.Asked job.ecosystem job.settings base.key true file) :
    Voiced forge job (course.visited.map (·.lead)) file := by
  have hserving := course.serving hjob hnames hsteady hbase hcheckout hlock
  rcases hserving.files file hfile with htaken | ⟨-, hvoiced⟩
  · exact fun reference hrefers => absurd hrefers (hsteady.distinct file reference hasked htaken)
  · rwa [List.append_nil] at hvoiced

/-- In the end of a course what is asked for has been collected. -/
theorem mem_keys_of_asked {scanned : Bool} {file : Key}
    (hasked : forge.Asked job.ecosystem job.settings base.key scanned file) :
    file ∈ course.final.keys := by
  have hserving := course.serving hjob hnames hsteady hbase hcheckout hlock
  have hvoiced {origin : Key} (hasked : forge.Asked job.ecosystem job.settings base.key true origin)
      (horigin : origin ∈ course.final.keys) :=
    course.voiced hjob hnames hsteady hbase hcheckout hlock horigin hasked
  obtain ⟨hdirectory, -, -⟩ := course.begins hjob hnames hsteady hbase hcheckout hlock
  have hbeginning := (course.beginning hjob).2
  have hkeys := (course.following hjob).2.2
  induction hasked with
  | @manifest name hmanifest =>
    obtain ⟨manifest, content, lockfiles, beside, -, -, hname, -, hfiles, -⟩ := hbeginning.gathers
    rw [hdirectory, hmanifest, Option.some_inj] at hname
    apply hkeys
    rw [Progress.keys, hfiles, hdirectory, ← hname]
    exact List.mem_cons_self
  | beside hbeside =>
    apply hkeys
    apply hbeginning.beside
    rwa [hdirectory]
  | fetched horigin hrefers hfetches ih =>
    obtain ⟨lead, hlead, rfl, haim⟩ := hvoiced horigin ih _ hrefers
    obtain ⟨text, rfl⟩ := Reference.exists_origin haim
    exact (hserving.served lead hlead).fetched _ _ hfetches
  | taken horigin hrefers htakes ih =>
    obtain ⟨lead, hlead, rfl, haim⟩ := hvoiced horigin ih _ hrefers
    obtain ⟨text, rfl⟩ := Reference.exists_origin haim
    exact (hserving.served lead hlead).taken _ _ htakes

/-- In the end of a course the collected files are those that it is asked for. -/
theorem mem_keys_iff {file : Key} : file ∈ course.final.keys ↔
    ∃ scanned, forge.Asked job.ecosystem job.settings base.key scanned file := by
  constructor
  · intro hfile
    have hserving := course.serving hjob hnames hsteady hbase hcheckout hlock
    rcases hserving.files file hfile with htaken | ⟨hasked, -⟩
    · exact ⟨false, htaken⟩
    · exact ⟨true, hasked⟩
  · intro hasked
    obtain ⟨scanned, hasked⟩ := hasked
    exact course.mem_keys_of_asked hjob hnames hsteady hbase hcheckout hlock hasked

/-- In the end of a course the packages noted are those that are asked for and missing. -/
theorem mem_unreachableNames_iff {name : String} : name ∈ course.final.unreachableNames ↔
    forge.Lacks job.ecosystem job.settings base.key name := by
  have hserving := course.serving hjob hnames hsteady hbase hcheckout hlock
  constructor
  · exact hserving.lacking name
  · intro hlacks
    obtain ⟨origin, reference, hasked, hrefers, hkind, hmissing⟩ := hlacks
    have hfile := course.mem_keys_of_asked hjob hnames hsteady hbase hcheckout hlock hasked
    obtain ⟨lead, hlead, rfl, haim⟩ :=
      course.voiced hjob hnames hsteady hbase hcheckout hlock hfile hasked _ hrefers
    obtain ⟨text, rfl⟩ := Reference.exists_origin haim
    exact (hserving.served lead hlead).noted name hkind hmissing

end Course

end Runs

end Walk

end DependencyFiles
