import DependencyFiles.Proofs.Readings
import DependencyFiles.Proofs.Findings
import DependencyFiles.Proofs.Trees

/-!
# How collections begin

Before any reference is followed a collection has opened the requested directory, collected
the manifest, its lock file and the specifications beside it, and scanned them. What the
directory, the manifest and the lock file are is told by the forge alone.
-/

namespace DependencyFiles

namespace Forge

variable (forge : Forge) (ecosystem : Ecosystem) (settings : Settings)

/-- The requested directory; a submodule stands for the root of its repository. -/
def base? (checkout : Checkout) (requested : TreePath) : Option Place :=
  match forge.listing? (checkout, requested) with
  | none => none
  | some entries =>
    match Entry.single? entries requested with
    | none => some ⟨⟨checkout, .root⟩, requested⟩
    | some entry =>
      if entry.isSubmodule && settings.followSubmodules then
        (forge.inside? entry).map fun inner => ⟨⟨inner, .root ++ entry.path⟩, .root⟩
      else none

/-- The name of the manifest of a directory. -/
def manifest? (base : Key) : Option String :=
  (forge.listing? base).bind fun entries => ecosystem.manifests.find? (Walk.listsFile entries)

/-- The name of the lock file of a directory, when the directory lists one that goes with its
manifest. -/
def lockfile? (base : Key) : Option String :=
  ((forge.manifest? ecosystem base).bind ecosystem.lockfileOf).filter fun name =>
    (forge.listing? base).any fun entries => Walk.listsFile entries name

/-- The lock file of a directory and what it says, when it can be read. -/
def lockScan? (base : Place) (requested : TreePath) : Option (Place × LockScan) := do
  let lock := base.child (← forge.lockfile? ecosystem base.key)
  let content ← forge.content? lock.key
  let scan ← (ecosystem.scanLockfile (Text.decodeLossy content)
    (lock.rootPath.relativeTo requested)).toOption
  return (lock, scan)

/-- What a lock file refers to, as leads. -/
def lockLeads : Option (Place × LockScan) → List Lead
  | some (lock, scan) => scan.references.map (⟨·, lock, true⟩)
  | none => []

/-- The file is a specification that a directory lists beside its manifest. -/
def Beside (base file : Key) : Prop :=
  (∃ entries, forge.listing? base = some entries ∧ ∃ entry ∈ entries,
    (entry.isFile && ecosystem.isBesideManifest entry.name) = true ∧ (base.1, entry.path) = file) ∧
  (forge.content? file).isSome = true

variable {forge ecosystem settings}

/-- What a lock file says is told from the text of the one that the directory has. -/
theorem exists_of_lockScan? {base : Place} {requested : TreePath} {read : Place × LockScan}
    (h : forge.lockScan? ecosystem base requested = some read) :
    ∃ name content, forge.lockfile? ecosystem base.key = some name ∧ read.1 = base.child name ∧
      forge.content? read.1.key = some content ∧
      ecosystem.scanLockfile (Text.decodeLossy content) (read.1.rootPath.relativeTo requested) =
        .ok read.2 := by
  simp only [lockScan?, Option.bind_eq_bind, Option.bind_eq_some_iff] at h
  obtain ⟨name, hname, content, hcontent, scan, hscan, hread⟩ := h
  cases hread
  refine ⟨name, content, hname, rfl, hcontent, ?_⟩
  cases hresult : ecosystem.scanLockfile (Text.decodeLossy content)
      ((base.child name).rootPath.relativeTo requested) with
  | error error => simp [hresult, Except.toOption] at hscan
  | ok other => simpa [hresult, Except.toOption] using hscan

/-- A file that the base directory shows is shown by the listing of its own directory. -/
theorem showsFile_of_base {checkout : Checkout} {requested : TreePath} {base : Place}
    (hbase : forge.base? settings checkout requested = some base) {path : TreePath}
    (hshows : forge.Shows base.key path) : forge.showsFile (base.key.1, path) = true := by
  obtain ⟨entries, hlist, entry, hentry, hfile, rfl⟩ := hshows
  have hup : entry.path.up = base.key.2 := by
    obtain ⟨-, repository, -, -, hrepository⟩ := listing?_eq_some.1 hlist
    rcases Repository.mem_of_list hrepository hentry with hone | hup
    · unfold base? at hbase
      split at hbase
      · cases hbase
      · rename_i listed hlisted
        split at hbase
        · cases hbase
          rw [Place.key] at hlist hone
          rw [hlisted, Option.some_inj] at hlist
          simp_all
        · split at hbase
          · obtain ⟨inner, -, rfl⟩ := Option.map_eq_some_iff.1 hbase
            have hroot : entry.path = .root := (Entry.eq_of_single? hone).2
            rw [hroot]
            rfl
          · cases hbase
    · exact hup
  rw [showsFile_iff, hup]
  exact ⟨entries, hlist, entry, hentry, hfile, rfl⟩

end Forge

namespace Walk

variable {forge : Forge} {job : Job (List Request)} {s t : Progress (List Request)}
  (hjob : job.provider = forge.provider)

include hjob

/-- Opening the requested directory gets the base directory with its listing. -/
theorem tells_openBase (checkout : Checkout) :
    Tells forge (openBase job ⟨checkout, .root⟩) fun opened =>
      forge.base? job.settings checkout job.base = some opened.1 ∧
      forge.listing? opened.1.key = some opened.2 ∧
      forge.Mounted ⟨checkout, .root⟩ opened.1.mount := by
  unfold openBase
  refine (tells_askList hjob (checkout, job.base)).askOr.bind fun entries hlist => ?_
  change forge.listing? (checkout, job.base) = some entries at hlist
  unfold Forge.base?
  rw [hlist]
  dsimp only
  cases hone : Entry.single? entries job.base with
  | none => exact .pure ⟨rfl, hlist, .root⟩
  | some entry =>
    refine .ite (fun hfollow => ?_) fun _ => .fail _
    refine (tells_enter? hjob _ entry).bind ?_
    intro _ hthis
    obtain rfl := hthis
    cases hinside : forge.inside? entry with
    | none => exact .fail _
    | some inner =>
      refine (tells_askList hjob (inner, .root)).askOr.bind fun listed hlisted => .pure ⟨?_, hlisted, ?_⟩
      · exact (if_pos hfollow).trans (by rw [hinside]; rfl)
      · exact .enter .root hlist (Entry.mem_of_single? hone) (Bool.and_eq_true_iff.1 hfollow).1 hinside

omit hjob

/-- What reading the specifications beside the manifest comes to: those that can be read are collected,
and the new ones are handed on with their texts. -/
structure BesideFinding (forge : Forge) (job : Job (List Request)) (places : List Place)
    (s : Progress (List Request)) (texts : List (Place × String)) (t : Progress (List Request)) :
    Prop where
  sound : Sound forge job t
  unreachable : t.unreachable = s.unreachable
  collected : ∀ place ∈ places, (forge.content? place.key).isSome = true → place.key ∈ t.keys
  gathers : ∃ contents : List (Place × Bytes),
    texts = contents.map (fun read => (read.1, Text.decodeLossy read.2)) ∧
    t.files = s.files ++ contents.map (fun read => read.1.toFile job.base .specification read.2) ∧
    ∀ read ∈ contents, read.1 ∈ places ∧ (forge.content? read.1.key).isSome = true

/-- A specification that gives no new file may come first. -/
theorem BesideFinding.skip {u : Progress (List Request)} {place : Place} {rest : List Place}
    {texts : List (Place × String)} (h : BesideFinding forge job rest t texts u)
    (hfiles : t.files = s.files) (hunreachable : t.unreachable = s.unreachable)
    (hplace : (forge.content? place.key).isSome = true → place.key ∈ s.keys) :
    BesideFinding forge job (place :: rest) s texts u := by
  obtain ⟨contents, htexts, hcontents, hplaces⟩ := h.gathers
  rw [hfiles] at hcontents
  refine ⟨h.sound, h.unreachable.trans hunreachable, ?_, contents, htexts, hcontents, fun read hread => ?_⟩
  · simp only [List.mem_cons, forall_eq_or_imp]
    refine ⟨fun hsome => ?_, h.collected⟩
    exact Progress.keys_subset_of_files hcontents (hplace hsome)
  · exact ⟨List.mem_cons_of_mem _ (hplaces read hread).1, (hplaces read hread).2⟩

/-- A new specification may come first. -/
theorem BesideFinding.cons {u : Progress (List Request)} {place : Place} {rest : List Place}
    {texts : List (Place × String)} {content : Bytes} (h : BesideFinding forge job rest t texts u)
    (hfiles : t.files = s.files ++ [place.toFile job.base .specification content])
    (hunreachable : t.unreachable = s.unreachable)
    (hcontent : forge.content? place.key = some content) :
    BesideFinding forge job (place :: rest) s ((place, Text.decodeLossy content) :: texts) u := by
  obtain ⟨contents, htexts, hcontents, hplaces⟩ := h.gathers
  rw [hfiles, List.append_assoc] at hcontents
  refine ⟨h.sound, h.unreachable.trans hunreachable, ?_, (place, content) :: contents, by rw [htexts]; rfl,
    hcontents, fun read hread => ?_⟩
  · simp only [List.mem_cons, forall_eq_or_imp]
    refine ⟨fun _ => ?_, h.collected⟩
    rw [Progress.keys, hcontents]
    exact List.mem_map.2 ⟨place.toFile job.base .specification content, by simp, rfl⟩
  · rcases List.mem_cons.1 hread with rfl | hread
    · exact ⟨List.mem_cons_self, by simp [hcontent]⟩
    · exact ⟨List.mem_cons_of_mem _ (hplaces read hread).1, (hplaces read hread).2⟩

include hjob

/-- Reading the specifications beside the manifest collects those that can be read and are new. -/
theorem gives_readBeside (places : List Place) (hs : Sound forge job s) :
    Gives (readBeside job places) s (BesideFinding forge job places s) fun _ _ => True := by
  induction places generalizing s with
  | nil => exact ⟨hs, rfl, by simp, [], rfl, by simp, by simp⟩
  | cons place rest ih =>
    unfold readBeside
    rw [gives_bind, gives_isCollected]
    split
    · have hkey := isCollected_iff.1 ‹_›
      apply (ih hs).mono
      intro texts t hrest
      exact hrest.skip rfl rfl fun _ => hkey
    · have hnew : place.key ∉ s.keys := fun hkey => absurd (isCollected_iff.2 hkey) ‹_›
      rw [gives_bind]
      apply (gives_readOptional hjob hs.toTruthful place .specification).mono
      intro text t hafter
      obtain ⟨rfl, hread⟩ := hafter
      cases hcontent : forge.content? place.key with
      | none =>
        apply (ih (hs.read hread)).mono
        intro texts u hrest
        exact hrest.skip (hread.files_of_none hcontent) hread.searched_eq.2 (by simp [hcontent])
      | some content =>
        simp only [Option.map_some, gives_bind]
        apply (ih (hs.read hread)).mono
        intro texts u hrest
        exact hrest.cons (hread.files_of_some hnew hcontent) hread.searched_eq.2 hcontent

omit hjob

/-- Scanning several files gives the leads of all of them. -/
theorem gives_scanAll (role : DependencyFile.Role) (P : Place → Prop)
    (contents : List (Place × Bytes)) (hplaces : ∀ read ∈ contents, P read.1) :
    Gives (scanAll job (contents.map fun read => (read.1, Text.decodeLossy read.2))) s
      (fun leads t => t = s ∧ Scanned job role P
        (contents.map fun read => read.1.toFile job.base role read.2) leads) fun _ _ => True := by
  induction contents with
  | nil => exact ⟨rfl, .nil⟩
  | cons read rest ih =>
    simp only [List.map_cons, scanAll, gives_bind]
    apply (gives_scan _ _).mono
    intro leads _ hafter
    obtain ⟨rfl, references, hscan, rfl⟩ := hafter
    apply (ih fun other hother => hplaces other (List.mem_cons_of_mem _ hother)).mono
    intro more _ hafter
    obtain ⟨rfl, hrest⟩ := hafter
    exact ⟨rfl, .cons (hplaces read List.mem_cons_self) hscan hrest⟩

include hjob

omit hjob

/-- What reading the lock file comes to: the lock file that the base directory has is collected, and
the result is what it says. -/
structure LockFinding (forge : Forge) (job : Job (List Request)) (base : Place)
    (s : Progress (List Request)) (result : List Lead × Bool) (t : Progress (List Request)) :
    Prop where
  sound : Sound forge job t
  unreachable : t.unreachable = s.unreachable
  result_eq : result = (Forge.lockLeads (forge.lockScan? job.ecosystem base job.base),
    (forge.lockScan? job.ecosystem base job.base).any (·.2.authoritative))
  collected : ∀ read, forge.lockScan? job.ecosystem base job.base = some read → read.1.key ∈ t.keys
  gathers : ∃ lockfiles, t.files = s.files ++ lockfiles ∧ ∀ file ∈ lockfiles, ∃ read content,
    forge.lockScan? job.ecosystem base job.base = some read ∧
    file = read.1.toFile job.base .lockfile content

/-- Without a lock file that says anything nothing is collected. -/
theorem LockFinding.none {base : Place} (hscan : forge.lockScan? job.ecosystem base job.base = none)
    (ht : Sound forge job t) (hfiles : t.files = s.files) (hunreachable : t.unreachable = s.unreachable) :
    LockFinding forge job base s ([], false) t := by
  exact ⟨ht, hunreachable, by rw [hscan]; rfl, by simp [hscan], [], by simpa using hfiles, by simp⟩

include hjob

/-- Reading the lock file collects and scans the one that the base directory has. -/
theorem gives_readLockfile {base : Place} {entries : List Entry} {manifest : String} (text : String)
    (hlist : forge.listing? base.key = some entries)
    (hmanifest : forge.manifest? job.ecosystem base.key = some manifest) (hs : Sound forge job s) :
    Gives (readLockfile job base entries manifest text) s (LockFinding forge job base s)
      fun _ _ => True := by
  unfold readLockfile
  cases hname : job.ecosystem.lockfileOf manifest with
  | none =>
    have hlockfile : forge.lockfile? job.ecosystem base.key = none := by
      simp [Forge.lockfile?, hmanifest, hname]
    exact .none (by simp [Forge.lockScan?, hlockfile]) hs rfl rfl
  | some name =>
    dsimp only
    rw [gives_bind]
    unfold readListed
    cases hlisted : listsFile entries name with
    | false =>
      have hlockfile : forge.lockfile? job.ecosystem base.key = none := by
        simp [Forge.lockfile?, hmanifest, hname, hlist, hlisted]
      simp only [Bool.false_eq_true, if_false, gives_pure]
      split
      · trivial
      · exact .none (by simp [Forge.lockScan?, hlockfile]) hs rfl rfl
    | true =>
      have hlockfile : forge.lockfile? job.ecosystem base.key = some name := by
        simp [Forge.lockfile?, hmanifest, hname, hlist, hlisted]
      rw [if_pos rfl]
      apply (gives_readOptional hjob hs.toTruthful _ _).mono
      intro text' t hafter
      obtain ⟨rfl, hread⟩ := hafter
      cases hcontent : forge.content? (base.child name).key with
      | none =>
        dsimp only [Option.map_none]
        split
        · trivial
        · exact .none (by simp [Forge.lockScan?, hlockfile, hcontent]) (hs.read hread)
            (hread.files_of_none hcontent) hread.searched_eq.2
      | some content =>
        dsimp only [Option.map_some]
        cases hresult : job.ecosystem.scanLockfile (Text.decodeLossy content)
            ((base.child name).rootPath.relativeTo job.base) with
        | error error => trivial
        | ok result =>
          have hscan : forge.lockScan? job.ecosystem base job.base = some (base.child name, result) := by
            simp [Forge.lockScan?, hlockfile, hcontent, hresult, Except.toOption]
          refine ⟨hs.read hread, hread.searched_eq.2, by simp [Forge.lockLeads, hscan], ?_, ?_⟩
          · intro read hsome
            obtain rfl := Option.some_inj.1 (hscan.symm.trans hsome)
            exact hread.mem_keys.2 (.inr ⟨rfl, by simp [hcontent]⟩)
          · by_cases hmem : (base.child name).key ∈ s.keys
            · exact ⟨[], by simpa using hread.files_of_mem hmem, by simp⟩
            · refine ⟨_, hread.files_of_some hmem hcontent, fun file hfile => ?_⟩
              exact ⟨_, content, hscan, List.mem_singleton.1 hfile⟩

omit hjob

/-- What a collection has when it begins to follow references: the files of the base directory, and
the references in them as leads. -/
structure Beginning (forge : Forge) (job : Job (List Request)) (checkout : Checkout) (start : Start)
    (t : Progress (List Request)) : Prop where
  sound : Sound forge job t
  unreachable : t.unreachable = []
  base : forge.base? job.settings checkout job.base = some start.directory
  mounted : forge.Mounted ⟨checkout, .root⟩ start.directory.mount
  authoritative : start.authoritative =
    (forge.lockScan? job.ecosystem start.directory job.base).any (·.2.authoritative)
  locked : ∀ read, forge.lockScan? job.ecosystem start.directory job.base = some read →
    read.1.key ∈ t.keys
  beside : ∀ file, forge.Beside job.ecosystem start.directory.key file → file ∈ t.keys
  gathers : ∃ manifest content lockfiles beside declared described,
    forge.manifest? job.ecosystem start.directory.key = some manifest ∧
    forge.content? (start.directory.child manifest).key = some content ∧
    t.files = (start.directory.child manifest).toFile job.base .manifest content ::
      (lockfiles ++ beside) ∧
    Scanned job .manifest (· = start.directory.child manifest)
      [(start.directory.child manifest).toFile job.base .manifest content] declared ∧
    (∀ file ∈ lockfiles, ∃ read content,
      forge.lockScan? job.ecosystem start.directory job.base = some read ∧
      file = read.1.toFile job.base .lockfile content) ∧
    Scanned job .specification (fun file => file.mount = start.directory.mount ∧
      forge.Beside job.ecosystem start.directory.key file.key) beside described ∧
    start.leads = declared ++
      Forge.lockLeads (forge.lockScan? job.ecosystem start.directory job.base) ++ described

include hjob

/-- A collection begins with the files of the base directory. -/
theorem gives_start (checkout : Checkout) (hs : Sound forge job s) (hfiles : s.files = [])
    (hunreachable : s.unreachable = []) :
    Gives (start job ⟨checkout, .root⟩) s (Beginning forge job checkout) fun _ _ => True := by
  unfold start
  rw [gives_bind]
  apply (tells_openBase hjob checkout s hs.toTruthful).mono
  intro result _ hafter
  obtain ⟨base, entries⟩ := result
  obtain ⟨⟨hbase, hlist, hmounted⟩, ht, cached, rfl⟩ := hafter
  have hasked := hs.asked ht
  dsimp only at hbase hlist hmounted ⊢
  rw [gives_bind]
  unfold chooseManifest
  cases hfind : job.ecosystem.manifests.find? (listsFile entries) with
  | none => trivial
  | some manifest =>
    have hmanifest : forge.manifest? job.ecosystem base.key = some manifest := by
      rw [Forge.manifest?, hlist]
      exact hfind
    rw [gives_pure, gives_bind]
    apply (gives_readRequired hjob hasked.toTruthful (base.child manifest) .manifest).mono
    intro text t hafter
    obtain ⟨htext, hread⟩ := hafter
    obtain ⟨content, hcontent, rfl⟩ := Option.map_eq_some_iff.1 htext
    have hfirst := hread.files_of_some (by simp [Progress.keys, hfiles]) hcontent
    rw [gives_bind]
    apply (gives_readLockfile hjob _ hlist hmanifest (hasked.read hread)).mono
    intro _ u hafter
    obtain ⟨hu, hunreachable', rfl, hlocked, lockfiles, hlockfiles, hlocks⟩ := hafter
    dsimp only
    rw [gives_bind]
    apply (gives_readBeside hjob _ hu).mono
    intro texts v hafter
    obtain ⟨hv, hunreachable'', hall, contents, rfl, hcontents, hplaces⟩ := hafter
    rw [gives_bind]
    apply (gives_scan _ _).mono
    intro declared _ hafter
    obtain ⟨rfl, references, hscan, rfl⟩ := hafter
    rw [gives_bind]
    have hbeside (read : Place × Bytes) (hmem : read ∈ contents) : read.1.mount = base.mount ∧
        forge.Beside job.ecosystem base.key read.1.key := by
      obtain ⟨hplace, hread⟩ := hplaces read hmem
      obtain ⟨entry, hentry, hpath⟩ := List.mem_map.1 hplace
      obtain ⟨hentry, hkind⟩ := List.mem_filter.1 hentry
      rw [← hpath] at hread ⊢
      exact ⟨rfl, ⟨entries, hlist, entry, hentry, hkind, rfl⟩, hread⟩
    apply (gives_scanAll .specification (fun file => file.mount = base.mount ∧
      forge.Beside job.ecosystem base.key file.key) contents hbeside).mono
    intro described _ hafter
    obtain ⟨rfl, hdescribed⟩ := hafter
    refine ⟨hv, ?_, hbase, hmounted, rfl, fun read hsome => ?_, ?_, manifest, content, lockfiles, _,
      _, described, hmanifest, hcontent, ?_, ?_, hlocks, hdescribed, rfl⟩
    · rw [hunreachable'', hunreachable', hread.searched_eq.2, hunreachable]
    · exact Progress.keys_subset_of_files hcontents (hlocked read hsome)
    · intro file hafter
      obtain ⟨⟨listed, hlisted, entry, hentry, hkind, rfl⟩, hsome⟩ := hafter
      obtain rfl : listed = entries := by simpa [hlist] using hlisted.symm
      refine hall (base.moveTo entry.path) (List.mem_map.2 ⟨entry, ?_, rfl⟩) hsome
      exact List.mem_filter.2 ⟨hentry, hkind⟩
    · rw [hcontents, hlockfiles, hfirst, hfiles]
      simp
    · rw [← List.append_nil (references.map _)]
      exact .cons rfl hscan .nil

end Walk

end DependencyFiles
