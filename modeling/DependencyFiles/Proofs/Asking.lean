import DependencyFiles.Proofs.Naming
import DependencyFiles.Proofs.Visits

/-!
# What a collection asks for

The files that a collection without a lock file is asked for are told by the forge alone: the
manifest, the specifications beside it, and whatever references in such files ask for, as
references go by the names of the files that they stand in. Forges that list and refer alike
ask for the same files.
-/

namespace DependencyFiles

namespace Forge

variable (forge : Forge) (ecosystem : Ecosystem) (settings : Settings)

/-- A file has the reference in its text, as the text is understood under the file's name. -/
def Refers (file : Key) (reference : Reference) : Prop :=
  ∃ content references, forge.content? file = some content ∧
    ecosystem.references (Text.decodeLossy content) (file.2.name?.getD "") = .ok references ∧
    reference ∈ references

/-- A collection from the base directory asks for the file, to be scanned or just taken along. -/
inductive Asked (base : Key) : (scanned : Bool) → Key → Prop
  | manifest {name : String} (hmanifest : forge.manifest? ecosystem base = some name) :
      Asked base true (base.1, base.2.join name)
  | beside {file : Key} (hbeside : forge.Beside ecosystem base file) : Asked base true file
  | fetched {origin file : Key} {reference : Reference} {role : DependencyFile.Role}
      (horigin : Asked base true origin) (hrefers : forge.Refers ecosystem origin reference)
      (hfetches : forge.Fetches ecosystem settings origin reference file role) : Asked base true file
  | taken {origin file : Key} {reference : Reference} {role : DependencyFile.Role}
      (horigin : Asked base true origin) (hrefers : forge.Refers ecosystem origin reference)
      (htakes : forge.Takes ecosystem settings base origin reference file role) :
      Asked base false file

/-- A package that is asked for leads to the directory. -/
def Sought (base directory : Key) : Prop :=
  ∃ origin reference name, forge.Asked ecosystem settings base true origin ∧
    forge.Refers ecosystem origin reference ∧ reference.kind = .pathDependency name ∧
    forge.Leads settings (targetOf origin reference) directory

/-- A package of the name is asked for and missing. -/
def Lacks (base : Key) (name : String) : Prop :=
  ∃ origin reference, forge.Asked ecosystem settings base true origin ∧
    forge.Refers ecosystem origin reference ∧ reference.kind = .pathDependency name ∧
    forge.Missing ecosystem settings (targetOf origin reference)

/-- Nothing lies beneath a file that is asked for to be scanned and can be read. -/
def AsksForLeaves (base : Key) : Prop :=
  ∀ file, forge.Asked ecosystem settings base true file → (forge.content? file).isSome = true →
    forge.IsLeaf file

/-- Two forges list the same, lead to the same checkouts, let the same files be read, and their files
have the same references. -/
structure Alike (other : Forge) : Prop where
  listing : ∀ key, forge.listing? key = other.listing? key
  checkouts : ∀ target, forge.checkout? target = other.checkout? target
  readable : ∀ file, (forge.content? file).isSome = (other.content? file).isSome
  refers : ∀ file reference, forge.Refers ecosystem file reference ↔
    other.Refers ecosystem file reference

namespace Alike

variable {forge ecosystem settings} {other : Forge} (h : forge.Alike ecosystem other)

include h

/-- Being alike goes both ways. -/
theorem symm : other.Alike ecosystem forge :=
  ⟨fun key => (h.listing key).symm, fun target => (h.checkouts target).symm,
    fun file => (h.readable file).symm, fun file reference => (h.refers file reference).symm⟩

/-- Submodules lead to the same checkouts. -/
theorem inside (entry : Entry) : forge.inside? entry = other.inside? entry := by
  unfold inside?
  rw [funext h.checkouts]

/-- Directories have the same specifications. -/
theorem specifications (key : Key) :
    forge.specifications ecosystem key = other.specifications ecosystem key := by
  unfold Forge.specifications
  rw [h.listing, funext h.readable]

/-- The same directories lie below a directory. -/
theorem below {key inner : Key} (hbelow : forge.Below settings key inner) :
    other.Below settings key inner := by
  obtain ⟨entries, hlist, entry, hentry, hkind, hinto⟩ := hbelow
  refine ⟨entries, by rw [← h.listing, hlist], entry, hentry, hkind, ?_⟩
  unfold into? at hinto ⊢
  rw [← h.inside]
  exact hinto

/-- The same directories lie as many levels below a directory. -/
theorem levels {n : Nat} {key target : Key} (hlevels : forge.Levels settings n key target) :
    other.Levels settings n key target := by
  induction hlevels with
  | here key => exact .here key
  | down hbelow _ ih => exact .down (h.below hbelow) ih

/-- The same directories are exposed below a directory. -/
theorem exposes {n : Nat} {key target : Key} (hexposes : forge.Exposes ecosystem settings n key target) :
    other.Exposes ecosystem settings n key target := by
  induction hexposes with
  | here key => exact .here key
  | down hbare hbelow _ ih => exact .down (by rw [← h.specifications, hbare]) (h.below hbelow) ih

/-- The same submodule is around a path. -/
theorem around (checkout : Checkout) (path : TreePath) (ancestors : List TreePath) :
    forge.around? checkout path ancestors = other.around? checkout path ancestors := by
  induction ancestors with
  | nil => rfl
  | cons ancestor rest ih =>
    unfold around?
    rw [h.listing, ih]

/-- Paths lead to the same directories. -/
theorem leads {key directory : Key} (hleads : forge.Leads settings key directory) :
    other.Leads settings key directory := by
  induction hleads with
  | here hlist hmany => exact .here (by rw [← h.listing, hlist]) hmany
  | enter hlist hone hkind hfollow hinside =>
    exact .enter (by rw [← h.listing, hlist]) hone hkind hfollow (by rw [← h.inside, hinside])
  | through hmissing hfollow haround hinside _ ih =>
    exact .through (by rw [← h.listing, hmissing]) hfollow (by rw [← h.around, haround])
      (by rw [← h.inside, hinside]) ih

/-- The same directories are specified at a level. -/
theorem specifiedAt {key : Key} {n : Nat} (hspecified : forge.SpecifiedAt ecosystem settings key n) :
    other.SpecifiedAt ecosystem settings key n := by
  obtain ⟨inner, hlevels, hsome⟩ := hspecified
  exact ⟨inner, h.levels hlevels, by rwa [← h.specifications]⟩

/-- The same directories are specified within reach. -/
theorem specified {directory : Key} (hspecified : forge.Specified ecosystem settings directory) :
    other.Specified ecosystem settings directory := by
  obtain ⟨n, hn, hspecified⟩ := hspecified
  exact ⟨n, hn, h.specifiedAt hspecified⟩

/-- The same files are listed. -/
theorem showsFile (file : Key) : forge.showsFile file = other.showsFile file := by
  unfold Forge.showsFile
  rw [h.listing]

/-- The same directories are marked. -/
theorem marked {directory : Key} (hmarked : forge.Marked ecosystem directory) :
    other.Marked ecosystem directory := by
  unfold Marked at *
  rw [← h.showsFile, ← h.readable]
  exact hmarked

/-- The same paths are missing. -/
theorem missing {key : Key} (hmissing : forge.Missing ecosystem settings key) :
    other.Missing ecosystem settings key := by
  intro directory hleads
  obtain ⟨hbare, hunmarked⟩ := hmissing directory (h.symm.leads hleads)
  exact ⟨fun hspecified => hbare (h.symm.specified hspecified),
    fun hmarked => hunmarked (h.symm.marked hmarked)⟩

/-- References ask for the same files to be scanned. -/
theorem fetches {origin file : Key} {reference : Reference} {role : DependencyFile.Role}
    (hfetches : forge.Fetches ecosystem settings origin reference file role) :
    other.Fetches ecosystem settings origin reference file role := by
  unfold Fetches at *
  split at hfetches
  · exact hfetches
  · exact hfetches
  · obtain ⟨hrole, directory, hleads, n, hn, target, hexposes, hfile⟩ := hfetches
    rw [h.specifications] at hfile
    exact ⟨hrole, directory, h.leads hleads, n, hn, target, h.exposes hexposes, hfile⟩

/-- References ask for the same files to be taken along. -/
theorem takes {base origin file : Key} {reference : Reference} {role : DependencyFile.Role}
    (htakes : forge.Takes ecosystem settings base origin reference file role) :
    other.Takes ecosystem settings base origin reference file role := by
  unfold Takes at *
  split at htakes
  · exact htakes
  · rwa [← h.showsFile, ← h.readable]
  · obtain ⟨hrole, directory, hleads, hbare, hmarked, hfile⟩ := htakes
    exact ⟨hrole, directory, h.leads hleads,
      fun hspecified => hbare (h.symm.specified hspecified), h.marked hmarked, hfile⟩

/-- The same files are asked for. -/
theorem asked {base file : Key} {scanned : Bool}
    (hasked : forge.Asked ecosystem settings base scanned file) :
    other.Asked ecosystem settings base scanned file := by
  induction hasked with
  | manifest hmanifest =>
    unfold manifest? at hmanifest
    rw [h.listing] at hmanifest
    exact .manifest hmanifest
  | beside hbeside =>
    unfold Beside at hbeside
    rw [h.listing, h.readable] at hbeside
    exact .beside hbeside
  | fetched _ hrefers hfetches ih => exact .fetched ih ((h.refers _ _).1 hrefers) (h.fetches hfetches)
  | taken _ hrefers htakes ih => exact .taken ih ((h.refers _ _).1 hrefers) (h.takes htakes)

/-- The same packages are asked for and missing. -/
theorem lacks {base : Key} {name : String} (hlacks : forge.Lacks ecosystem settings base name) :
    other.Lacks ecosystem settings base name := by
  obtain ⟨origin, reference, hasked, hrefers, hkind, hmissing⟩ := hlacks
  exact ⟨origin, reference, h.asked hasked, (h.refers _ _).1 hrefers, hkind, h.missing hmissing⟩

/-- The same directories are sought. -/
theorem sought {base directory : Key} (hsought : forge.Sought ecosystem settings base directory) :
    other.Sought ecosystem settings base directory := by
  obtain ⟨origin, reference, name, hasked, hrefers, hkind, hleads⟩ := hsought
  exact ⟨origin, reference, name, h.asked hasked, (h.refers _ _).1 hrefers, hkind, h.leads hleads⟩

end Alike

variable {forge ecosystem settings}

/-- A listed entry that has a name is not the root. -/
theorem path_ne_root {key : Key} {entries : List Entry} {entry : Entry}
    (hlist : forge.listing? key = some entries) (hentry : entry ∈ entries) (hname : entry.name ≠ "") :
    entry.path ≠ .root := by
  obtain ⟨-, repository, -, -, hlisted⟩ := listing?_eq_some.1 hlist
  intro hroot
  rw [Repository.name_of_mem_list hlisted hentry, hroot] at hname
  exact hname rfl

/-- No file can be read in a repository that nothing lies beneath the root of, but for the root. -/
theorem path_eq_root {root file : Key} (hleaf : forge.IsLeaf root) (hsame : file.1 = root.1)
    (hroot : root.2 = .root) {content : Bytes} (hread : forge.content? file = some content) :
    file.2 = .root := by
  obtain ⟨-, repository, hrepository, -, hfile⟩ := content?_eq_some.1 hread
  rw [hsame] at hrepository
  have hnode := (Repository.read_eq_ok_iff.1 hfile).2
  have hwithin : file.2.isWithin root.2 = true := by
    rw [hroot]
    exact List.isPrefixOf_iff_prefix.2 List.nil_prefix
  exact (hleaf repository hrepository _ (mem_of_lookup hnode) hwithin).trans hroot

/-- A file that is asked for to be scanned and can be read is not the root of its repository, when
nothing lies beneath such files. -/
theorem Asked.ne_root (hnames : ecosystem.GoesByName) {base file : Key}
    (hleaves : forge.AsksForLeaves ecosystem settings base) (hasked : forge.Asked ecosystem settings base true file) {content : Bytes}
    (hcontent : forge.content? file = some content) : file.2 ≠ .root := by
  have hmain {scanned : Bool} {file : Key} (hasked : forge.Asked ecosystem settings base scanned file)
      (hscanned : scanned = true) {content : Bytes} (hcontent : forge.content? file = some content) :
      file.2 ≠ .root := by
    induction hasked generalizing content with
    | @manifest name hmanifest =>
      obtain ⟨entries, -, hfind⟩ := Option.bind_eq_some_iff.1 hmanifest
      have hsegment := hnames.isSegment name (List.mem_of_find?_eq_some hfind)
      rw [base.2.join_of_isSegment hsegment]
      intro hroot
      have hsegments := congrArg TreePath.segments hroot
      simp at hsegments
    | beside hbeside =>
      obtain ⟨⟨entries, hlist, entry, hentry, hkind, rfl⟩, -⟩ := hbeside
      refine path_ne_root hlist hentry fun hname => ?_
      rw [hname, hnames.isBesideManifest] at hkind
      simp at hkind
    | @fetched origin file reference role horigin hrefers hfetches ih =>
      have hthis : forge.Asked ecosystem settings base true file := .fetched horigin hrefers hfetches
      unfold Fetches at hfetches
      split at hfetches
      · obtain ⟨-, rfl⟩ := hfetches
        obtain ⟨content', references, hread, -, -⟩ := hrefers
        have hsame : origin.1 = (targetOf origin reference).1 := rfl
        have hleaf : forge.IsLeaf (targetOf origin reference) := hleaves _ hthis (by rw [hcontent]; rfl)
        intro hroot
        exact ih rfl hread (path_eq_root hleaf hsame hroot hread)
      · exact hfetches.elim
      · obtain ⟨-, directory, -, n, -, target, -, hfile⟩ := hfetches
        cases hlist : forge.listing? target with
        | none => simp [specifications, hlist] at hfile
        | some entries =>
          obtain ⟨⟨entry, hentry, hkind, rfl⟩, -⟩ := (mem_specifications hlist).1 hfile
          refine path_ne_root hlist hentry fun hname => ?_
          rw [hname, hnames.isSpecification] at hkind
          simp at hkind
    | taken => cases hscanned
  exact hmain hasked rfl hcontent

end Forge

end DependencyFiles
