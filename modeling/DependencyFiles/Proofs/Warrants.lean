import DependencyFiles.Proofs.Closure

/-!
# Nothing is collected without need

Every collected file has a warrant: it belongs to the base directory as its manifest, its
lock file or a specification beside the manifest, or else a reference that counts asks for
it, and the reference stands in a file that was collected before.
-/

namespace DependencyFiles

/-- The references in files of the role are followed. -/
def DependencyFile.Role.isScanned : DependencyFile.Role → Bool
  | manifest => true
  | childManifest => true
  | specification => true
  | lockfile => false
  | support => false

namespace Forge

variable (forge : Forge) (ecosystem : Ecosystem) (settings : Settings) (base : Place)
  (requested : TreePath)

/-- The reference stands in one of the files, which is the lock file of the base directory or a file
whose own references are followed. -/
inductive Cited (files : List DependencyFile) : (fromLockfile : Bool) → Key → Reference → Prop
  | declared {file : DependencyFile} {references : List Reference} {reference : Reference}
      (hfile : file ∈ files) (hrole : file.role.isScanned = true)
      (hscan : ecosystem.references file.text file.path = .ok references)
      (hmem : reference ∈ references) : Cited files false file.key reference
  | locked {lock : Place} {scan : LockScan} {reference : Reference}
      (hlock : lock.key ∈ files.map DependencyFile.key)
      (hscan : forge.lockScan? ecosystem base requested = some (lock, scan))
      (hmem : reference ∈ scan.references) : Cited files true lock.key reference

/-- There is a reason to collect the file after the earlier ones. -/
inductive Warranted (earlier : List DependencyFile) (file : DependencyFile) : Prop
  | manifest {name : String} (hrole : file.role = .manifest)
      (hname : forge.manifest? ecosystem base.key = some name)
      (hkey : file.key = (base.child name).key)
  | lockfile {name : String} (hrole : file.role = .lockfile)
      (hname : forge.lockfile? ecosystem base.key = some name)
      (hkey : file.key = (base.child name).key)
  | beside (hrole : file.role = .specification)
      (hbeside : forge.Beside ecosystem base.key file.key)
  | asked {fromLockfile : Bool} {origin : Key} {reference : Reference}
      (hcited : forge.Cited ecosystem base requested earlier fromLockfile origin reference)
      (hcounts : reference.isPathDependency = true →
        (forge.lockScan? ecosystem base requested).any (·.2.authoritative) = true →
        fromLockfile = true)
      (hasks : forge.Fetches ecosystem settings origin reference file.key file.role ∨
        forge.Takes ecosystem settings base.key origin reference file.key file.role)

variable {forge ecosystem settings base requested}

/-- What stands in some files stands in more files. -/
theorem Cited.mono {files more : List DependencyFile} (hsubset : files ⊆ more) {fromLockfile : Bool}
    {origin : Key} {reference : Reference}
    (h : forge.Cited ecosystem base requested files fromLockfile origin reference) :
    forge.Cited ecosystem base requested more fromLockfile origin reference := by
  cases h with
  | declared hfile hrole hscan hmem => exact .declared (hsubset hfile) hrole hscan hmem
  | locked hlock hscan hmem => exact .locked (List.map_subset _ hsubset hlock) hscan hmem

/-- A warrant lasts when more files come earlier. -/
theorem Warranted.mono {earlier more : List DependencyFile} (hsubset : earlier ⊆ more)
    {file : DependencyFile}
    (h : forge.Warranted ecosystem settings base requested earlier file) :
    forge.Warranted ecosystem settings base requested more file := by
  cases h with
  | manifest hrole hname hkey => exact .manifest hrole hname hkey
  | lockfile hrole hname hkey => exact .lockfile hrole hname hkey
  | beside hrole hbeside => exact .beside hrole hbeside
  | asked hcited hcounts hasks => exact .asked (hcited.mono hsubset) hcounts hasks

/-- A lock file that says something is the one that goes with the manifest. -/
theorem lockfile?_of_lockScan? {read : Place × LockScan}
    (h : forge.lockScan? ecosystem base requested = some read) :
    ∃ name, forge.lockfile? ecosystem base.key = some name ∧ read.1 = base.child name := by
  obtain ⟨name, content, hname, hread, -⟩ := exists_of_lockScan? h
  exact ⟨name, hname, hread⟩

/-- A file that a reference asks for to be scanned has a role of scanned files. -/
theorem isScanned_of_fetches {origin file : Key} {reference : Reference} {role : DependencyFile.Role}
    (h : forge.Fetches ecosystem settings origin reference file role) : role.isScanned = true := by
  unfold Fetches at h
  split at h
  · rw [h.1]
    rfl
  · exact h.elim
  · rw [h.1]
    rfl

end Forge

namespace Walk

variable {forge : Forge} {job : Job (List Request)} {s t : Progress (List Request)} {root : Mount}
  {base : Place} {authoritative : Bool}

/-- All collected files are warranted by the files before them, and all leads on the stack stand in
collected files. -/
structure Warranting (forge : Forge) (job : Job (List Request)) (base : Place) (stack : List Lead)
    (s : Progress (List Request)) : Prop where
  files : ∀ earlier file later, s.files = earlier ++ file :: later →
    forge.Warranted job.ecosystem job.settings base job.base earlier file
  cited : ∀ lead ∈ stack, forge.Cited job.ecosystem base job.base s.files lead.fromLockfile
    lead.origin.key lead.reference

/-- The leads that scanned files gave stand in these files. -/
theorem Scanned.cited {role : DependencyFile.Role} {P : Place → Prop} {files more : List DependencyFile}
    {leads : List Lead} (h : Scanned job role P files leads) (hsubset : files ⊆ more)
    (hrole : ∀ place, P place → role.isScanned = true) {lead : Lead} (hlead : lead ∈ leads) :
    forge.Cited job.ecosystem base job.base more lead.fromLockfile lead.origin.key lead.reference := by
  obtain ⟨horigin, hfrom, content, references, hfile, hscan, hmem⟩ := h.origin hlead
  have hcited : forge.Cited job.ecosystem base job.base more false lead.origin.key lead.reference :=
    .declared (hsubset hfile) (hrole _ horigin) hscan hmem
  rwa [hfrom]

/-- New files that are warranted by the files before them all may be added. -/
theorem Warranting.more {files : List DependencyFile} {stack found rest : List Lead}
    (h : Warranting forge job base stack s) (hfiles : t.files = s.files ++ files)
    (hnew : ∀ file ∈ files, forge.Warranted job.ecosystem job.settings base job.base s.files file)
    (hrest : rest ⊆ stack)
    (hfound : ∀ lead ∈ found, forge.Cited job.ecosystem base job.base t.files lead.fromLockfile
      lead.origin.key lead.reference) : Warranting forge job base (found ++ rest) t := by
  refine ⟨fun earlier file later hsplit => ?_, fun lead hlead => ?_⟩
  · rw [hfiles] at hsplit
    rcases List.append_eq_append_iff.1 hsplit with ⟨between, rfl, hnews⟩ | ⟨between, hold, hnews⟩
    · have hfile : file ∈ files := by simp [hnews]
      exact (hnew file hfile).mono (List.subset_append_left _ _)
    · cases between with
      | nil =>
        have hfile : file ∈ files := by simp [← show _ = files from hnews]
        rw [List.append_nil] at hold
        rw [← hold]
        exact hnew file hfile
      | cons first between =>
        obtain ⟨rfl, rfl⟩ := List.cons.inj hnews
        exact h.files earlier file between hold
  · rcases List.mem_append.1 hlead with hlead | hlead
    · exact hfound lead hlead
    · rw [hfiles]
      exact (h.cited lead (hrest hlead)).mono (List.subset_append_left _ _)

/-- What following a lead collects is warranted by its reference. -/
theorem Warranting.step
    (hauthoritative : authoritative =
      (forge.lockScan? job.ecosystem base job.base).any (·.2.authoritative))
    {lead : Lead} {rest found : List Lead} (h : Warranting forge job base (lead :: rest) s)
    (hvisit : VisitFinding forge job root base.key authoritative lead s found t) :
    Warranting forge job base (found ++ rest) t := by
  obtain ⟨role, files, others, hfiles, hscanned, hothers⟩ := hvisit.gathers
  have hwarranted {file : DependencyFile} (hcounted : isCounted authoritative lead = true)
      (hasks : forge.Fetches job.ecosystem job.settings lead.origin.key lead.reference file.key file.role ∨
        forge.Takes job.ecosystem job.settings base.key lead.origin.key lead.reference file.key
          file.role) :
      forge.Warranted job.ecosystem job.settings base job.base s.files file := by
    refine .asked (h.cited lead List.mem_cons_self) (fun hpackage hlock => ?_) hasks
    rw [← hauthoritative] at hlock
    simpa [isCounted, hpackage, hlock] using hcounted
  refine h.more hfiles (fun file hfile => ?_) (List.subset_cons_self _ _) fun other hother => ?_
  · rcases List.mem_append.1 hfile with hfile | hfile
    · obtain ⟨place, -, hplace, ⟨-, hcounted, hfetches⟩, -⟩ := hscanned.announced hfile
      rw [hplace]
      exact hwarranted hcounted (.inl hfetches)
    · obtain ⟨place, role, content, rfl, -, hcounted, htakes⟩ := hothers file hfile
      exact hwarranted hcounted (.inr htakes)
  · refine hscanned.cited (fun file hfile => ?_)
      (fun place hplace => Forge.isScanned_of_fetches hplace.2.2) hother
    simp [hfiles, hfile]

/-- A collection begins with warranted files. -/
theorem Beginning.warranting {checkout : Checkout} {start : Start}
    (h : Beginning forge job checkout start t) :
    Warranting forge job start.directory start.leads t := by
  obtain ⟨manifest, content, lockfiles, beside, declared, described, hmanifest, -, hfiles, hdeclared,
    hlocks, hdescribed, hleads⟩ := h.gathers
  have hnothing : Warranting forge job start.directory [] { t with files := [] } := ⟨by simp, by simp⟩
  have hall : Warranting forge job start.directory (start.leads ++ []) t := by
    refine hnothing.more (List.nil_append _).symm (fun file hfile => ?_) (fun _ h => h) fun lead hlead => ?_
    · simp only [hfiles, List.mem_cons, List.mem_append] at hfile
      rcases hfile with rfl | hfile | hfile
      · exact .manifest rfl hmanifest rfl
      · obtain ⟨read, content, hscan, rfl⟩ := hlocks file hfile
        obtain ⟨name, hname, hread⟩ := Forge.lockfile?_of_lockScan? hscan
        exact .lockfile rfl hname (congrArg Place.key hread)
      · obtain ⟨place, -, hplace, ⟨-, hbeside⟩, -⟩ := hdescribed.announced hfile
        rw [hplace]
        exact .beside rfl hbeside
    · simp only [hleads, List.mem_append] at hlead
      rcases hlead with (hlead | hlead) | hlead
      · refine hdeclared.cited (fun file hfile => ?_) (fun _ _ => rfl) hlead
        rw [hfiles, List.mem_singleton.1 hfile]
        exact List.mem_cons_self
      · cases hscan : forge.lockScan? job.ecosystem start.directory job.base with
        | none => simp [hscan, Forge.lockLeads] at hlead
        | some read =>
          rw [hscan] at hlead
          obtain ⟨reference, hreference, rfl⟩ := List.mem_map.1 hlead
          exact .locked (h.locked read hscan) hscan hreference
      · refine hdescribed.cited (fun file hfile => ?_) (fun _ _ => rfl) hlead
        simp [hfiles, hfile]
  rwa [List.append_nil] at hall

end Walk

/-- Whenever a collection from a forge comes to its end, every file has a warrant: it is the manifest of
the base directory, its lock file or a specification beside it, or a reference asks for it that counts
and that stands in an earlier file. -/
theorem Collector.files_warranted (forge : Forge) (ecosystem : Ecosystem) (settings : Settings)
    (extent : Extent) (source : Source) (log : List Request) (files : List DependencyFile)
    (unreachable : List Unreachable)
    (hrun : harvest? ((forge.collector ecosystem settings extent).run source log).1 =
      some (files, unreachable)) :
    ∃ checkout base,
      forge.checkout? ⟨source.repo, (forge.collector ecosystem settings extent).reference source⟩ =
        some checkout ∧
      forge.base? settings checkout source.directory = some base ∧
      ∀ earlier file later, files = earlier ++ file :: later →
        forge.Warranted ecosystem settings base source.directory earlier file := by
  obtain ⟨course, rfl, rfl, -⟩ := exists_course hrun
  have hjob : ((forge.collector ecosystem settings extent).job source).provider = forge.provider := rfl
  obtain ⟨hcheckout, hbeginning⟩ := course.beginning hjob
  have hwarranting : Walk.Warranting forge _ course.start.directory [] course.final :=
    course.final_of_step hjob hbeginning.warranting fun hvisit h =>
      h.step hbeginning.authoritative hvisit
  exact ⟨course.checkout, course.start.directory, hcheckout, hbeginning.base, hwarranting.files⟩

/-- Each of the six files that are collected from this forge has a warrant. -/
theorem Collector.files_warranted_depot :
    ∃ (files : List DependencyFile) (unreachable : List Unreachable) (base : Place),
      harvest? ((Forge.depot.collector .bundler {} Forge.depot.extent).run
        ⟨"forge", "org/app", none, .root⟩ []).1 = some (files, unreachable) ∧
      files.map (·.role) =
        [.manifest, .childManifest, .specification, .specification, .childManifest, .support] ∧
      ∀ earlier file later, files = earlier ++ file :: later →
        Forge.depot.Warranted .bundler {} base .root earlier file := by
  obtain ⟨files, unreachable, hrun, hroles, -⟩ := harvest_depot
  obtain ⟨checkout, base, -, -, hwarranted⟩ := files_warranted _ _ _ _ _ _ files unreachable hrun
  exact ⟨files, unreachable, base, hrun, hroles, hwarranted⟩

end DependencyFiles
