import DependencyFiles.Proofs.Packages

/-!
# What becomes of references

A reference that is followed has been answered from then on: the file that it asks for is
collected, or its package has been supplied or noted as unreachable. The files collected on
its behalf are files that it asks for.
-/

namespace DependencyFiles

namespace Forge

variable (forge : Forge) (ecosystem : Ecosystem) (settings : Settings)

/-- The path that a reference in a file leads to. -/
def targetOf (origin : Key) (reference : Reference) : Key :=
  (origin.1, origin.2.up.join reference.path)

/-- The file that a reference to a supporting file asks for, wherever the reference stands. -/
def supportOf (base : Key) (reference : Reference) : Key := (base.1, base.2.join reference.path)

/-- A reference asks for the file, which is to be scanned in its role. -/
def Fetches (origin : Key) (reference : Reference) (file : Key) (role : DependencyFile.Role) : Prop :=
  match reference.kind with
  | .childManifest => role = .childManifest ∧ file = targetOf origin reference
  | .supportFile => False
  | .pathDependency _ =>
    role = .specification ∧ forge.Specifies ecosystem settings (targetOf origin reference) file

/-- A reference asks for the file, which is not scanned. -/
def Takes (base origin : Key) (reference : Reference) (file : Key) (role : DependencyFile.Role) :
    Prop :=
  match reference.kind with
  | .childManifest => False
  | .supportFile => role = .support ∧ file = supportOf base reference ∧
    forge.showsFile file = true ∧ (forge.content? file).isSome = true
  | .pathDependency _ =>
    role = .specification ∧ forge.Marks ecosystem settings (targetOf origin reference) file

/-- What a reference asks for is among the files, or else its package is unreachable. -/
def Answered (base origin : Key) (reference : Reference) (files : List Key)
    (unreachable : List String) : Prop :=
  match reference.kind with
  | .childManifest => targetOf origin reference ∈ files
  | .supportFile => forge.Shows base (supportOf base reference).2 →
    (forge.content? (supportOf base reference)).isSome = true → supportOf base reference ∈ files
  | .pathDependency name => name ∈ unreachable ∨
    forge.Supplied ecosystem settings files (targetOf origin reference)

variable {forge ecosystem settings}

section Kinds

variable {base origin file : Key} {reference : Reference} {role : DependencyFile.Role}
  {files more : List Key} {unreachable others : List String} {name : String}

/-- A reference to a child manifest asks for it to be scanned. -/
theorem fetches_child (hkind : reference.kind = .childManifest) :
    forge.Fetches ecosystem settings origin reference file role ↔
      role = .childManifest ∧ file = targetOf origin reference := by
  rw [Fetches, hkind]

/-- A reference to a supporting file asks for nothing to be scanned. -/
theorem not_fetches_support (hkind : reference.kind = .supportFile) :
    ¬ forge.Fetches ecosystem settings origin reference file role := by
  rw [Fetches, hkind]
  exact id

/-- A reference to a package asks for its specifications to be scanned. -/
theorem fetches_package (hkind : reference.kind = .pathDependency name) :
    forge.Fetches ecosystem settings origin reference file role ↔
      role = .specification ∧ forge.Specifies ecosystem settings (targetOf origin reference) file := by
  rw [Fetches, hkind]

/-- A reference to a child manifest asks for nothing to be taken along. -/
theorem not_takes_child (hkind : reference.kind = .childManifest) :
    ¬ forge.Takes ecosystem settings base origin reference file role := by
  rw [Takes, hkind]
  exact id

/-- A reference to a supporting file asks for it to be taken along when it is shown. -/
theorem takes_support (hkind : reference.kind = .supportFile) :
    forge.Takes ecosystem settings base origin reference file role ↔
      role = .support ∧ file = supportOf base reference ∧ forge.showsFile file = true ∧
        (forge.content? file).isSome = true := by
  rw [Takes, hkind]

/-- A reference to a package asks for its marker to be taken along. -/
theorem takes_package (hkind : reference.kind = .pathDependency name) :
    forge.Takes ecosystem settings base origin reference file role ↔
      role = .specification ∧ forge.Marks ecosystem settings (targetOf origin reference) file := by
  rw [Takes, hkind]

/-- A reference to a child manifest is answered by the manifest. -/
theorem answered_child (hkind : reference.kind = .childManifest) :
    forge.Answered ecosystem settings base origin reference files unreachable ↔
      targetOf origin reference ∈ files := by
  rw [Answered, hkind]

/-- A reference to a supporting file is answered by the file when it is shown. -/
theorem answered_support (hkind : reference.kind = .supportFile) :
    forge.Answered ecosystem settings base origin reference files unreachable ↔
      (forge.Shows base (supportOf base reference).2 →
        (forge.content? (supportOf base reference)).isSome = true →
          supportOf base reference ∈ files) := by
  rw [Answered, hkind]

/-- A reference to a package is answered by noting the package or by supplying it. -/
theorem answered_package (hkind : reference.kind = .pathDependency name) :
    forge.Answered ecosystem settings base origin reference files unreachable ↔
      name ∈ unreachable ∨ forge.Supplied ecosystem settings files (targetOf origin reference) := by
  rw [Answered, hkind]

/-- An answered reference stays answered. -/
theorem Answered.mono (hfiles : files ⊆ more) (hunreachable : unreachable ⊆ others)
    (h : forge.Answered ecosystem settings base origin reference files unreachable) :
    forge.Answered ecosystem settings base origin reference more others := by
  cases hkind : reference.kind with
  | childManifest =>
    rw [answered_child hkind] at h ⊢
    exact hfiles h
  | supportFile =>
    rw [answered_support hkind] at h ⊢
    exact fun hshows hread => hfiles (h hshows hread)
  | pathDependency name =>
    rw [answered_package hkind] at h ⊢
    exact h.imp (fun hname => hunreachable hname) fun hsupplied => hsupplied.mono hfiles

end Kinds

end Forge

/-- The names of the packages noted as unreachable. -/
def Progress.unreachableNames {σ : Type} (s : Progress σ) : List String :=
  s.unreachable.map Unreachable.name

namespace Walk

variable {forge : Forge} {job : Job (List Request)} {s t : Progress (List Request)} {root : Mount}

/-- Whether a lead is to be followed: with an authoritative lock file only its own references to
packages count. -/
def isCounted (authoritative : Bool) (lead : Lead) : Bool :=
  !(lead.reference.isPathDependency && authoritative && !lead.fromLockfile)

/-- A lead to a package counts unless an authoritative lock file is there that it is not from. -/
theorem isCounted_of_package {authoritative : Bool} {lead : Lead} {name : String}
    (hkind : lead.reference.kind = .pathDependency name) :
    isCounted authoritative lead = !(authoritative && !lead.fromLockfile) := by
  simp [isCounted, Reference.isPathDependency, hkind]

/-- A lead that does not count is passed over. -/
theorem visit_of_not_counted {σ : Type} {job : Job σ} {base : Place} {authoritative : Bool} {lead : Lead}
    (h : isCounted authoritative lead = false) :
    visit job base authoritative lead = (return []) := by
  unfold visit
  cases hkind : lead.reference.kind with
  | childManifest => simp [isCounted, Reference.isPathDependency, hkind] at h
  | supportFile => simp [isCounted, Reference.isPathDependency, hkind] at h
  | pathDependency name =>
    rw [isCounted_of_package hkind, Bool.not_eq_false'] at h
    exact if_pos h

/-- A lead to a package that counts is followed to the package. -/
theorem visit_of_counted {σ : Type} {job : Job σ} {base : Place} {authoritative : Bool} {lead : Lead}
    {name : String} (hkind : lead.reference.kind = .pathDependency name)
    (h : isCounted authoritative lead = true) : visit job base authoritative lead =
      visitPackage job name (lead.origin.resolve lead.reference.path) := by
  unfold visit
  rw [isCounted_of_package hkind, Bool.not_eq_true'] at h
  rw [hkind]
  exact if_neg (by simp [h])

/-- What following a lead comes to: its reference is answered, when it counts, the files collected are
asked for by it, and a package that is noted is missing. -/
structure VisitFinding (forge : Forge) (job : Job (List Request)) (root : Mount) (base : Key)
    (authoritative : Bool) (lead : Lead) (s : Progress (List Request)) (leads : List Lead)
    (t : Progress (List Request)) : Prop where
  sound : Sound forge job t
  answered : isCounted authoritative lead = true → forge.Answered job.ecosystem job.settings base
    lead.origin.key lead.reference t.keys t.unreachableNames
  taken : isCounted authoritative lead = true → ∀ file role, forge.Takes job.ecosystem job.settings base
    lead.origin.key lead.reference file role → file ∈ t.keys
  unreachable : s.unreachableNames ⊆ t.unreachableNames
  noted : ∀ name ∈ t.unreachableNames, name ∈ s.unreachableNames ∨
    lead.reference.kind = .pathDependency name ∧ forge.Missing job.ecosystem job.settings
      (Forge.targetOf lead.origin.key lead.reference)
  gathers : ∃ role, Gathers job role
    (fun file => forge.Mounted root file.mount ∧ isCounted authoritative lead = true ∧
      forge.Fetches job.ecosystem job.settings lead.origin.key lead.reference file.key role)
    (fun file role => forge.Mounted root file.mount ∧ isCounted authoritative lead = true ∧
      forge.Takes job.ecosystem job.settings base lead.origin.key lead.reference file.key role)
    leads s t

/-- The names noted are told by the packages noted. -/
theorem unreachableNames_eq (h : t.unreachable = s.unreachable) :
    t.unreachableNames = s.unreachableNames := congrArg (List.map Unreachable.name) h

/-- Following a lead that notes no package comes to what it collects. -/
theorem VisitFinding.of_same_names {base : Key} {authoritative : Bool} {lead : Lead}
    {leads : List Lead} (hnames : t.unreachableNames = s.unreachableNames) (hsound : Sound forge job t)
    (hanswered : isCounted authoritative lead = true → forge.Answered job.ecosystem job.settings base
      lead.origin.key lead.reference t.keys t.unreachableNames)
    (htaken : isCounted authoritative lead = true → ∀ file role, forge.Takes job.ecosystem
      job.settings base lead.origin.key lead.reference file role → file ∈ t.keys)
    (hgathers : ∃ role, Gathers job role
      (fun file => forge.Mounted root file.mount ∧ isCounted authoritative lead = true ∧
        forge.Fetches job.ecosystem job.settings lead.origin.key lead.reference file.key role)
      (fun file role => forge.Mounted root file.mount ∧ isCounted authoritative lead = true ∧
        forge.Takes job.ecosystem job.settings base lead.origin.key lead.reference file.key role)
      leads s t) : VisitFinding forge job root base authoritative lead s leads t where
  sound := hsound
  answered := hanswered
  taken := htaken
  unreachable name hname := by rwa [hnames]
  noted name hname := .inl (by rwa [hnames] at hname)
  gathers := hgathers

/-- A lead that nothing is done for leaves all as it is. -/
theorem gathers_nothing {role : DependencyFile.Role} {P : Place → Prop}
    {Q : Place → DependencyFile.Role → Prop} (hfiles : t.files = s.files) :
    Gathers job role P Q [] s t :=
  ⟨[], [], by simpa using hfiles, .nil, by simp⟩

/-- Noting a package adds its name. -/
theorem gives_markUnreachable (name reason : String) (hs : Sound forge job s) :
    Gives (markUnreachable name reason) s (fun _ t => Sound forge job t ∧ t.files = s.files ∧
      s.unreachableNames ⊆ t.unreachableNames ∧ name ∈ t.unreachableNames ∧
      ∀ other ∈ t.unreachableNames, other ∈ s.unreachableNames ∨ other = name) fun _ _ => True := by
  unfold markUnreachable
  rw [gives_modify]
  split
  · refine ⟨hs, rfl, fun _ h => h, ?_, fun _ h => .inl h⟩
    obtain ⟨package, hpackage, hname⟩ := List.any_eq_true.1 ‹_›
    exact List.mem_map.2 ⟨package, hpackage, of_decide_eq_true hname⟩
  · refine ⟨⟨⟨hs.commits, hs.listings, hs.contents, hs.files⟩, hs.least, hs.has⟩, rfl, ?_, ?_, ?_⟩
    · exact List.map_subset _ (List.subset_append_left _ _)
    · simp [Progress.unreachableNames]
    · simp [Progress.unreachableNames]

variable (hjob : job.provider = forge.provider)

include hjob

/-- Following a reference to a child manifest collects and scans it. -/
theorem gives_visitChild {base : Place} {authoritative : Bool} {lead : Lead}
    (hkind : lead.reference.kind = .childManifest) (hroot : forge.Mounted root lead.origin.mount)
    (hs : Sound forge job s) : Gives (visit job base authoritative lead) s
      (VisitFinding forge job root base.key authoritative lead s) fun _ _ => True := by
  have hcounted : isCounted authoritative lead = true := by
    simp [isCounted, Reference.isPathDependency, hkind]
  have htaken (files : List Key) (file : Key) (role : DependencyFile.Role)
      (htakes : forge.Takes job.ecosystem job.settings base.key lead.origin.key lead.reference file
        role) : file ∈ files := absurd htakes (Forge.not_takes_child hkind)
  unfold visit
  rw [hkind]
  dsimp only
  rw [gives_bind, gives_isCollected]
  split
  · have hmem := isCollected_iff.1 ‹_›
    exact .of_same_names rfl hs (fun _ => (Forge.answered_child hkind).2 hmem) (fun _ => htaken _)
      ⟨.childManifest, gathers_nothing rfl⟩
  · have hnew : (lead.origin.resolve lead.reference.path).key ∉ s.keys :=
      fun hkey => absurd (isCollected_iff.2 hkey) ‹_›
    rw [gives_bind]
    apply (gives_readRequired hjob hs.toTruthful _ _).mono
    intro text t hafter
    obtain ⟨htext, hread⟩ := hafter
    obtain ⟨content, hcontent, rfl⟩ := Option.map_eq_some_iff.1 htext
    have hmem : (lead.origin.resolve lead.reference.path).key ∈ t.keys :=
      hread.mem_keys.2 (.inr ⟨rfl, by rw [hcontent]; rfl⟩)
    apply (gives_scan _ _).mono
    intro leads _ hafter
    obtain ⟨rfl, references, hscan, rfl⟩ := hafter
    have hfetches : forge.Fetches job.ecosystem job.settings lead.origin.key lead.reference
        (lead.origin.resolve lead.reference.path).key .childManifest :=
      (Forge.fetches_child hkind).2 ⟨rfl, rfl⟩
    refine .of_same_names (unreachableNames_eq hread.searched_eq.2) (hs.read hread)
      (fun _ => (Forge.answered_child hkind).2 hmem) (fun _ => htaken _)
      ⟨.childManifest, ?_⟩
    refine ⟨_, [], by simpa using hread.files_of_some hnew hcontent, ?_, by simp⟩
    simpa using Scanned.cons ⟨hroot, hcounted, hfetches⟩ hscan .nil

/-- Following a reference to a supporting file collects it when it is listed and can be read. -/
theorem gives_visitSupport {base : Place} {authoritative : Bool} {lead : Lead}
    (hkind : lead.reference.kind = .supportFile) (hroot : forge.Mounted root base.mount)
    (hbase : ∀ path, forge.Shows base.key path → forge.showsFile (base.key.1, path) = true)
    (hs : Sound forge job s) : Gives (visit job base authoritative lead) s
      (VisitFinding forge job root base.key authoritative lead s) fun _ _ => True := by
  have hkey : (base.child lead.reference.path).key = Forge.supportOf base.key lead.reference := rfl
  have hcounted : isCounted authoritative lead = true := by
    simp [isCounted, Reference.isPathDependency, hkind]
  -- Whether the file is collected, hidden or read, it is there when it is shown and can be read.
  have hfinding {t : Progress (List Request)} (hnames : t.unreachableNames = s.unreachableNames)
      (ht : Sound forge job t)
      (hmem : forge.showsFile (Forge.supportOf base.key lead.reference) = true →
        (forge.content? (Forge.supportOf base.key lead.reference)).isSome = true →
        Forge.supportOf base.key lead.reference ∈ t.keys)
      (hgathers : Gathers job .support (fun file => forge.Mounted root file.mount ∧
          isCounted authoritative lead = true ∧
          forge.Fetches job.ecosystem job.settings lead.origin.key lead.reference file.key .support)
        (fun file role => forge.Mounted root file.mount ∧ isCounted authoritative lead = true ∧
          forge.Takes job.ecosystem job.settings base.key lead.origin.key lead.reference file.key role)
        [] s t) : VisitFinding forge job root base.key authoritative lead s [] t := by
    refine .of_same_names hnames ht (fun _ => ?_) (fun _ file role htakes => ?_) ⟨.support, hgathers⟩
    · rw [Forge.answered_support hkind]
      exact fun hshows => hmem (hbase _ hshows)
    · obtain ⟨-, rfl, hshows, hcontent⟩ := (Forge.takes_support hkind).1 htakes
      exact hmem hshows hcontent
  unfold visit
  rw [hkind]
  dsimp only
  rw [gives_bind, gives_isCollected]
  split
  · have hmem := isCollected_iff.1 ‹_›
    exact hfinding rfl hs (fun _ _ => hmem) (gathers_nothing rfl)
  · have hnew : Forge.supportOf base.key lead.reference ∉ s.keys :=
      fun hkey => absurd (isCollected_iff.2 hkey) ‹_›
    rw [gives_bind]
    apply (tells_isListedFile hjob _ s hs.toTruthful).mono
    intro _ _ hafter
    obtain ⟨rfl, ht, cached, rfl⟩ := hafter
    have hasked := hs.asked ht
    rw [hkey]
    cases hshows : forge.showsFile (Forge.supportOf base.key lead.reference) with
    | false => exact hfinding rfl hasked (by simp [hshows]) (gathers_nothing rfl)
    | true =>
      rw [if_pos rfl, gives_bind]
      apply (gives_readOptional hjob hasked.toTruthful _ _).mono
      intro text t hafter
      obtain ⟨-, hread⟩ := hafter
      apply hfinding (unreachableNames_eq hread.searched_eq.2) (hasked.read hread)
      · exact fun _ hcontent => hread.mem_keys.2 (.inr ⟨rfl, hcontent⟩)
      · cases hcontent : forge.content? (Forge.supportOf base.key lead.reference) with
        | none => exact gathers_nothing (hread.files_of_none hcontent)
        | some content =>
          have htakes : forge.Takes job.ecosystem job.settings base.key lead.origin.key
              lead.reference (base.child lead.reference.path).key .support :=
            (Forge.takes_support hkind).2 ⟨rfl, rfl, hshows, by rw [hkey, hcontent]; rfl⟩
          refine ⟨[], _, hread.files_of_some hnew hcontent, .nil, fun file hfile => ?_⟩
          exact ⟨_, _, content, List.mem_singleton.1 hfile, hroot, hcounted, htakes⟩

/-- Following a reference to a package supplies the package or notes it as unreachable. -/
theorem gives_visitPackage {base : Place} {authoritative : Bool} {lead : Lead} {name : String}
    (hkind : lead.reference.kind = .pathDependency name)
    (hroot : forge.Mounted root lead.origin.mount) (hs : Sound forge job s) :
    Gives (visit job base authoritative lead) s
      (VisitFinding forge job root base.key authoritative lead s) fun _ _ => True := by
  unfold visit
  rw [hkind]
  dsimp only
  split
  · have hignored : isCounted authoritative lead = false := by
      rw [isCounted_of_package hkind]
      simp_all
    exact ⟨hs, by simp [hignored], by simp [hignored], fun _ h => h, fun _ h => .inl h, .specification,
      gathers_nothing rfl⟩
  · have hcounted : isCounted authoritative lead = true := by
      rw [isCounted_of_package hkind, Bool.not_eq_true']
      simp_all
    unfold visitPackage
    rw [gives_bind]
    apply (gives_findPackage hjob (lead.origin.resolve lead.reference.path) hroot hs).mono
    intro result t hfinding
    obtain ⟨reason, leads⟩ := result
    have hgathers : ∃ role, Gathers job role
        (fun file => forge.Mounted root file.mount ∧ isCounted authoritative lead = true ∧
          forge.Fetches job.ecosystem job.settings lead.origin.key lead.reference file.key role)
        (fun file role => forge.Mounted root file.mount ∧ isCounted authoritative lead = true ∧
          forge.Takes job.ecosystem job.settings base.key lead.origin.key lead.reference file.key role)
        leads s t := by
      obtain ⟨files, others, hfiles, hscanned, hothers⟩ := hfinding.gathers
      refine ⟨_, files, others, hfiles, hscanned.imp fun file hfile => ?_, fun file hfile => ?_⟩
      · exact ⟨hfile.1, hcounted, (Forge.fetches_package hkind).2 ⟨rfl, hfile.2⟩⟩
      · obtain ⟨place, role, content, hplace, hmarks⟩ := hothers file hfile
        exact ⟨place, role, content, hplace, hmarks.1, hcounted, (Forge.takes_package hkind).2 hmarks.2⟩
    have hmarked (file : Key) (role : DependencyFile.Role)
        (htakes : forge.Takes job.ecosystem job.settings base.key lead.origin.key lead.reference file
          role) : file ∈ t.keys :=
      hfinding.marked file ((Forge.takes_package hkind).1 htakes).2
    have hsame := unreachableNames_eq hfinding.unreachable
    cases reason with
    | none =>
      exact .of_same_names hsame hfinding.sound
        (fun _ => (Forge.answered_package hkind).2 (.inr (hfinding.supplied rfl))) (fun _ => hmarked)
        hgathers
    | some reason =>
      dsimp only
      rw [gives_bind]
      apply (gives_markUnreachable name reason hfinding.sound).mono
      intro hnone u hafter
      cases hnone
      obtain ⟨hu, hfiles, hnames, hname, honly⟩ := hafter
      refine ⟨hu, fun _ => (Forge.answered_package hkind).2 (.inl hname),
        fun _ file role htakes => ?_, ?_, fun other hother => ?_, ?_⟩
      · rw [Progress.keys, hfiles]
        exact hmarked file role htakes
      · rwa [← hsame]
      · rcases honly other hother with hother | rfl
        · rw [hsame] at hother
          exact .inl hother
        · exact .inr ⟨hkind, hfinding.missing rfl⟩
      · obtain ⟨role, files, others, hgathered, hscanned, hothers⟩ := hgathers
        exact ⟨role, files, others, hfiles.trans hgathered, hscanned, hothers⟩

/-- Following a lead answers its reference. -/
theorem gives_visit {base : Place} {authoritative : Bool} {lead : Lead}
    (hmounted : forge.Mounted root base.mount)
    (hbase : ∀ path, forge.Shows base.key path → forge.showsFile (base.key.1, path) = true)
    (hroot : forge.Mounted root lead.origin.mount) (hs : Sound forge job s) :
    Gives (visit job base authoritative lead) s
      (VisitFinding forge job root base.key authoritative lead s) fun _ _ => True := by
  cases hkind : lead.reference.kind with
  | childManifest => exact gives_visitChild hjob hkind hroot hs
  | supportFile => exact gives_visitSupport hjob hkind hmounted hbase hs
  | pathDependency name => exact gives_visitPackage hjob hkind hroot hs

end Walk

end DependencyFiles
