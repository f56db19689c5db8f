import DependencyFiles.Proofs.Beginnings
import DependencyFiles.Proofs.RequestLog

/-!
# What failures are about

A collection fails about a directory, a file or the text of a file, and each of these failures has
few possible causes in the forge. Causes that concern files are established by evidence: that a file
was read with a content, or that a reading was answered with nothing found. The evidence of a
collection is in its request log.
-/

namespace DependencyFiles

namespace Forge

variable (forge : Forge) (ecosystem : Ecosystem) (settings : Settings) (checkout : Checkout)
  (requested : TreePath)

/-- The checkout that an entry is entered into, when it is a submodule that is followed and can be
opened. -/
def entered? (entry : Entry) : Option Checkout :=
  if entry.isSubmodule && settings.followSubmodules then forge.inside? entry else none

/-- The requested directory is not there: nothing is found at the path, or something that is neither a
directory nor a submodule that can be entered, or a submodule with nothing at its root. -/
inductive NoDirectory : Prop
  | unlisted {error : ProviderError}
      (hlist : forge.list checkout.repo checkout.commit requested = .error error)
      (hkind : error.isNotFound = true)
  | closed {entries : List Entry} {entry : Entry}
      (hlist : forge.list checkout.repo checkout.commit requested = .ok entries)
      (hone : Entry.single? entries requested = some entry)
      (hclosed : forge.entered? settings entry = none)
  | unlistedInside {entries : List Entry} {entry : Entry} {inner : Checkout} {error : ProviderError}
      (hlist : forge.list checkout.repo checkout.commit requested = .ok entries)
      (hone : Entry.single? entries requested = some entry)
      (hinside : forge.entered? settings entry = some inner)
      (hinner : forge.list inner.repo inner.commit .root = .error error)
      (hkind : error.isNotFound = true)

/-- The text of a file refers to something, be it the lock file of the base directory or another
file. -/
inductive Mentions (base file : Place) (text : String) (reference : Reference) : Prop
  | declared {references : List Reference}
      (hscan : ecosystem.references text (file.rootPath.relativeTo requested) = .ok references)
      (hmem : reference ∈ references)
  | locked {name : String} {scan : LockScan}
      (hname : forge.lockfile? ecosystem base.key = some name) (hfile : file = base.child name)
      (hscan : ecosystem.scanLockfile text (file.rootPath.relativeTo requested) = .ok scan)
      (hmem : reference ∈ scan.references)

/-- There is a cause for the failure in the forge and in what is established about its files: which
were read with which content, and for which nothing was found. -/
inductive Fault (read : Place → Bytes → Prop) (nothing : Place → Prop) : Failure → Prop
  | injected {error : ProviderError} {path : TreePath} (hkind : error.isNotFound = false)
      (hpath : forge.failures.lookup path = some error) : Fault read nothing (.provider error)
  | directory (hdirectory : forge.NoDirectory settings checkout requested) :
      Fault read nothing (.directoryNotFound requested.toString)
  | noManifest {base : Place} {entries : List Entry}
      (hbase : forge.base? settings checkout requested = some base)
      (hlist : forge.listing? base.key = some entries)
      (hnone : ∀ name ∈ ecosystem.manifests, Walk.listsFile entries name = false) :
      Fault read nothing
        (.fileNotFound (base.child (ecosystem.manifests.head?.getD "")).rootPath.toString)
  | manifest {base : Place} {name : String}
      (hbase : forge.base? settings checkout requested = some base)
      (hname : forge.manifest? ecosystem base.key = some name) (hnothing : nothing (base.child name)) :
      Fault read nothing (.fileNotFound (base.child name).rootPath.toString)
  | childManifest {base origin : Place} {content : Bytes} {reference : Reference}
      (hbase : forge.base? settings checkout requested = some base)
      (hmounted : forge.Mounted ⟨checkout, .root⟩ origin.mount) (hread : read origin content)
      (hmentions : forge.Mentions ecosystem requested base origin (Text.decodeLossy content) reference)
      (hkind : reference.kind = .childManifest) (hnothing : nothing (origin.resolve reference.path)) :
      Fault read nothing (.fileNotFound (origin.resolve reference.path).rootPath.toString)
  | lockfile {base : Place} {manifest name : String} {content : Bytes}
      (hbase : forge.base? settings checkout requested = some base)
      (hmanifest : forge.manifest? ecosystem base.key = some manifest)
      (hname : ecosystem.lockfileOf manifest = some name) (hread : read (base.child manifest) content)
      (hrequired : settings.requireLockfile = true ∨
        ecosystem.needsLockfile (Text.decodeLossy content) = true)
      (hmissing : forge.lockfile? ecosystem base.key = none ∨ nothing (base.child name)) :
      Fault read nothing (.fileNotFound (base.child name).rootPath.toString)
  | references {file : Place} {content : Bytes} {error : ScanError}
      (hmounted : forge.Mounted ⟨checkout, .root⟩ file.mount) (hread : read file content)
      (hscan : ecosystem.references (Text.decodeLossy content) (file.rootPath.relativeTo requested) =
        .error error) :
      Fault read nothing (.notParseable file.rootPath.toString error.message)
  | lockText {base : Place} {name : String} {content : Bytes} {error : ScanError}
      (hbase : forge.base? settings checkout requested = some base)
      (hname : forge.lockfile? ecosystem base.key = some name) (hread : read (base.child name) content)
      (hscan : ecosystem.scanLockfile (Text.decodeLossy content)
        ((base.child name).rootPath.relativeTo requested) = .error error) :
      Fault read nothing (.notParseable (base.child name).rootPath.toString error.message)

variable {forge ecosystem settings checkout requested}

/-- A cause remains one when more is established. -/
theorem Fault.mono {read read' : Place → Bytes → Prop} {nothing nothing' : Place → Prop}
    (hread : ∀ place content, read place content → read' place content)
    (hnothing : ∀ place, nothing place → nothing' place) {failure : Failure}
    (h : forge.Fault ecosystem settings checkout requested read nothing failure) :
    forge.Fault ecosystem settings checkout requested read' nothing' failure := by
  cases h with
  | injected hkind hpath => exact .injected hkind hpath
  | directory hdirectory => exact .directory hdirectory
  | noManifest hbase hlist hnone => exact .noManifest hbase hlist hnone
  | manifest hbase hname hthis => exact .manifest hbase hname (hnothing _ hthis)
  | childManifest hbase hmounted horigin hmentions hkind hthis =>
    exact .childManifest hbase hmounted (hread _ _ horigin) hmentions hkind (hnothing _ hthis)
  | lockfile hbase hmanifest hname hthis hrequired hmissing =>
    exact .lockfile hbase hmanifest hname (hread _ _ hthis) hrequired (hmissing.imp id (hnothing _))
  | references hmounted hthis hscan => exact .references hmounted (hread _ _ hthis) hscan
  | lockText hbase hname hthis hscan => exact .lockText hbase hname (hread _ _ hthis) hscan

/-- Only a missing directory is a cause to fail about a directory, which is the requested one. -/
theorem Fault.noDirectory {read : Place → Bytes → Prop} {nothing : Place → Prop} {directory : String}
    (h : forge.Fault ecosystem settings checkout requested read nothing (.directoryNotFound directory)) :
    directory = requested.toString ∧ forge.NoDirectory settings checkout requested := by
  cases h with
  | directory hdirectory => exact ⟨rfl, hdirectory⟩

variable (forge) (requests : List Request)

/-- One of the requests read the file with the content. -/
def ReadIn (file : Place) (content : Bytes) : Prop :=
  requestAt file ∈ requests ∧ forge.readAt file = .ok content

/-- One of the requests for the file was answered with nothing found. -/
def NothingIn (file : Place) : Prop :=
  requestAt file ∈ requests ∧ ∃ error, forge.readAt file = .error error ∧ error.isNotFound = true

end Forge

/-- The file has been collected and has the content. -/
def Progress.Holds (forge : Forge) (s : Progress (List Request)) (file : Place) (content : Bytes) :
    Prop :=
  file.key ∈ s.keys ∧ forge.content? file.key = some content

/-- A collected file stays collected when files are added. -/
theorem Progress.Holds.mono {forge : Forge} {s t : Progress (List Request)} {file : Place} {content : Bytes}
    (h : s.Holds forge file content) (hkeys : s.keys ⊆ t.keys) : t.Holds forge file content :=
  ⟨hkeys h.1, h.2⟩

/-- The kept answer about the content of a file is that nothing is found. -/
def Progress.Misses (s : Progress (List Request)) (file : Place) : Prop :=
  ∃ error, (file.key, .error error) ∈ s.cached.contents ∧ error.isNotFound = true

/-- Every kept content was requested since the log. -/
structure Requested (log : List Request) (s : Progress (List Request)) : Prop where
  requests : ∃ requests, s.cached.inner = log ++ requests ∧ ∀ kept ∈ s.cached.contents,
    Request.read kept.1.1.repo kept.1.1.commit kept.1.2 ∈ requests

namespace Requested

variable {forge : Forge} {job : Job (List Request)} {log : List Request} {s t : Progress (List Request)}

/-- A collection starts without kept contents. -/
theorem initial (log : List Request) : Requested log { cached := { inner := log } } :=
  ⟨[], (List.append_nil _).symm, by simp⟩

/-- More requests leave the kept contents requested. -/
theorem extend (h : Requested log s) (hcontents : t.cached.contents = s.cached.contents)
    {more : List Request} (hinner : t.cached.inner = s.cached.inner ++ more) : Requested log t := by
  obtain ⟨requests, hlog, hkept⟩ := h.requests
  refine ⟨requests ++ more, by rw [hinner, hlog, List.append_assoc], ?_⟩
  rw [hcontents]
  exact fun kept hmem => List.mem_append_left _ (hkept kept hmem)

/-- A file that is asked for is requested. -/
theorem contentOf (hjob : job.provider = forge.provider) (h : Requested log s) (place : Place) :
    Requested log (s.asked (Walk.contentOf job place)) := by
  unfold Progress.asked
  cases hkept : List.lookup place.key s.cached.contents with
  | some answer =>
    rw [Forge.contentOf_kept hkept]
    exact h
  | none =>
    rw [Forge.contentOf_new hjob hkept]
    obtain ⟨requests, hlog, hrequested⟩ := h.requests
    refine ⟨requests ++ [Forge.requestAt place], by simp [Forge.readAnew, hlog], fun kept hmem => ?_⟩
    rcases List.mem_append.1 hmem with hmem | hmem
    · exact List.mem_append_left _ (hrequested kept hmem)
    · rw [List.mem_singleton.1 hmem]
      exact List.mem_append_right _ (List.mem_singleton.2 rfl)

/-- All steps keep the kept contents requested. -/
theorem keptByAll (hjob : job.provider = forge.provider) (log : List Request) :
    Walk.KeptByAll job (Requested log) where
  resolve repo reference s hs := by
    rw [hjob, Walk.gives_ask]
    obtain ⟨more, hinner, -⟩ := Forge.inner_ask s.cached.commits (repo, reference)
      (forge.provider.resolve repo reference) (fun _ => rfl) s.cached.inner
    exact hs.extend rfl hinner
  list checkout path s hs := by
    rw [hjob, Walk.gives_ask]
    obtain ⟨more, hinner, -⟩ := Forge.inner_ask s.cached.listings (checkout, path)
      (forge.provider.list checkout.repo checkout.commit path) (fun _ => rfl) s.cached.inner
    exact hs.extend rfl hinner
  target entry s hs := by
    rw [hjob, Walk.gives_ask]
    exact hs.extend rfl (List.append_nil _).symm
  read place role s hs := by
    have hasked := hs.contentOf hjob place
    rw [Walk.gives_readCollecting]
    split
    · unfold Walk.collecting
      split <;> exact ⟨hasked.requests⟩
    · exact hasked
  note name reason s hs := by
    unfold Walk.markUnreachable
    rw [Walk.gives_modify]
    split <;> exact ⟨hs.requests⟩
  keep key outcome s hs := ⟨hs.requests⟩

/-- The requests show what is held and what is missed. -/
theorem evidence (h : Requested log t) (hlogged : forge.Logged log t) :
    ∃ requests, t.cached.inner = log ++ requests ∧
      (∀ place content, t.Holds forge place content → forge.ReadIn requests place content) ∧
      ∀ place, t.Misses place → forge.NothingIn requests place := by
  obtain ⟨requests, hlog, hkept⟩ := h.requests
  refine ⟨requests, hlog, fun place content hholds => ?_, fun place hmisses => ?_⟩
  · obtain ⟨other, hmem⟩ := (hlogged.mem_keys place.key).1 hholds.1
    have hread : forge.readAt place = .ok other := (hlogged.contents _ hmem).symm
    have hsame : forge.content? place.key = some other := congrArg Except.toOption hread
    obtain rfl : other = content := Option.some_inj.1 (hsame.symm.trans hholds.2)
    exact ⟨hkept _ hmem, hread⟩
  · obtain ⟨error, hmem, hkind⟩ := hmisses
    exact ⟨hkept _ hmem, error, (hlogged.contents _ hmem).symm, hkind⟩

end Requested

end DependencyFiles
