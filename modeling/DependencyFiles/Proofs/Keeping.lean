import DependencyFiles.Proofs.Guarding

/-!
# Invariants of whole collections

An invariant that the elementary steps keep is kept by every step, and so by a whole
collection. Locating a directory only asks questions, the start of a collection also reads
files, a search also keeps its outcomes, and following references also notes packages. Such
an invariant is a guard that knows every checkout and lets every submodule be entered.
-/

namespace DependencyFiles

/-- The guard of an invariant that is kept everywhere. -/
def Guard.everywhere {σ : Type} (I : Progress σ → Prop) : Guard σ := ⟨I, fun _ _ => True, True⟩

namespace Walk

variable {σ α : Type}

/-- The invariant is kept by questions about commits, listings and submodule targets. -/
structure KeptByAsking (job : Job σ) (I : Progress σ → Prop) : Prop where
  resolve : ∀ repo reference, Keeps I (ask (Cached.openCheckout job.provider repo reference))
  list : ∀ checkout path, Keeps I (ask (Cached.list job.provider checkout path))
  target : ∀ entry, Keeps I (ask (Cached.target job.provider entry))

/-- The invariant is kept by questions and by reading files. -/
structure KeptByReading (job : Job σ) (I : Progress σ → Prop) : Prop extends KeptByAsking job I where
  read : ∀ place role, Keeps I (readCollecting job place role)

/-- The invariant is kept by questions, by reading files and by keeping outcomes of searches. -/
structure KeptBySearching (job : Job σ) (I : Progress σ → Prop) : Prop extends
    KeptByReading job I where
  keep : ∀ key outcome, Keeps I (modify fun progress =>
    { progress with searched := (key, outcome) :: progress.searched })

/-- The invariant is kept by all elementary steps. -/
structure KeptByAll (job : Job σ) (I : Progress σ → Prop) : Prop extends KeptBySearching job I where
  note : ∀ name reason, Keeps I (markUnreachable name reason)

variable {job : Job σ} {I : Progress σ → Prop} {x : Walk σ α}

/-- A step that keeps an invariant respects its guard. -/
theorem Keeps.guarded (h : Keeps I x) {tells : α → Progress σ → Prop} (htells : ∀ a t, tells a t)
    (s : Progress σ) : Guarded (.everywhere I) x s tells :=
  fun hs => (h s hs).imp (fun a t ht => ⟨ht, fun _ _ => trivial, htells a t⟩) fun _ _ h => h

/-- A step that respects the guard of an invariant keeps the invariant. -/
theorem Guarded.keeps {tells : α → Progress σ → Prop}
    (h : ∀ s, Guarded (.everywhere I) x s tells) : Keeps I x :=
  fun s hs => (h s hs).imp (fun _ _ ht => ht.1) fun _ _ h => h

namespace KeptByAsking

theorem guarded (h : KeptByAsking job I) : GuardedAsking job (.everywhere I) where
  enters _ := trivial
  resolve _ repo reference := (h.resolve repo reference).guarded fun _ _ _ _ => trivial
  list checkout path s _ := (h.list checkout path).guarded (fun _ _ => trivial) s
  target entry := (h.target entry).guarded fun _ _ => trivial

theorem enter? (h : KeptByAsking job I) (mount : Mount) (entry : Entry) :
    Keeps I (Walk.enter? job mount entry) :=
  Guarded.keeps (h.guarded.enter? trivial mount entry)

theorem list? (h : KeptByAsking job I) (place : Place) : Keeps I (Walk.list? job place) :=
  Guarded.keeps fun _ => h.guarded.list? place trivial

theorem isListedFile (h : KeptByAsking job I) (place : Place) :
    Keeps I (Walk.isListedFile job place) :=
  Guarded.keeps fun _ => h.guarded.isListedFile place trivial

theorem locate (h : KeptByAsking job I) (place : Place) : Keeps I (Walk.locate job place) :=
  Guarded.keeps fun _ => h.guarded.locate place trivial

theorem openBase (h : KeptByAsking job I) (root : Mount) : Keeps I (Walk.openBase job root) :=
  Guarded.keeps fun _ => h.guarded.openBase root trivial

end KeptByAsking

namespace KeptByReading

theorem guarded (h : KeptByReading job I) : GuardedReading job (.everywhere I) where
  toGuardedAsking := h.toKeptByAsking.guarded
  read place role s _ := (h.read place role).guarded (fun _ _ => trivial) s

theorem readRequired (h : KeptByReading job I) (place : Place) (role : DependencyFile.Role) :
    Keeps I (Walk.readRequired job place role) :=
  Guarded.keeps fun _ => h.guarded.readRequired place trivial role

theorem readOptional (h : KeptByReading job I) (place : Place) (role : DependencyFile.Role) :
    Keeps I (Walk.readOptional job place role) :=
  Guarded.keeps fun _ => h.guarded.readOptional place trivial role

theorem readLockfile (h : KeptByReading job I) (directory : Place) (entries : List Entry)
    (manifest text : String) : Keeps I (Walk.readLockfile job directory entries manifest text) :=
  Guarded.keeps fun _ => h.guarded.readLockfile trivial entries manifest text

theorem readBeside (h : KeptByReading job I) (places : List Place) :
    Keeps I (Walk.readBeside job places) :=
  Guarded.keeps fun _ => h.guarded.readBeside places fun _ _ => trivial

theorem start (h : KeptByReading job I) (root : Mount) : Keeps I (Walk.start job root) :=
  Guarded.keeps fun _ => h.guarded.start root trivial

theorem readSpecifications (h : KeptByReading job I) (places : List Place) :
    Keeps I (Walk.readSpecifications job places) :=
  Guarded.keeps fun _ => h.guarded.readSpecifications places fun _ _ => trivial

theorem searchListed (h : KeptByReading job I)
    {descend : Option (Place → Walk σ (Option Nat × List Lead))}
    (hdescend : ∀ f ∈ descend, ∀ inner, Keeps I (f inner)) (place : Place) (entries : List Entry) :
    Keeps I (Walk.searchListed job descend place entries) :=
  Guarded.keeps fun _ => h.guarded.searchListed
    (fun f hf inner s _ => (hdescend f hf inner).guarded (fun _ _ _ _ => trivial) s) trivial entries

theorem takeMarker (h : KeptByReading job I) (directory : Place) :
    Keeps I (Walk.takeMarker job directory) :=
  Guarded.keeps fun _ => h.guarded.takeMarker directory trivial

theorem visitFile (h : KeptByReading job I) (directory : Place) (authoritative : Bool) {lead : Lead}
    (hlead : lead.reference.isPathDependency = false) :
    Keeps I (Walk.visit job directory authoritative lead) :=
  Guarded.keeps fun _ => h.guarded.visitFile authoritative trivial trivial hlead

end KeptByReading

namespace KeptBySearching

theorem guarded (h : KeptBySearching job I) : GuardedSearching job (.everywhere I) where
  toGuardedReading := h.toKeptByReading.guarded
  keep key outcome := (h.keep key outcome).guarded fun _ _ => trivial

theorem findPackage (h : KeptBySearching job I) (place : Place) :
    Keeps I (Walk.findPackage job place) :=
  Guarded.keeps fun _ => h.guarded.findPackage place trivial

end KeptBySearching

namespace KeptByAll

theorem guarded (h : KeptByAll job I) : GuardedAll job (.everywhere I) where
  toGuardedSearching := h.toKeptBySearching.guarded
  note name reason := (h.note name reason).guarded fun _ _ => trivial

theorem visit (h : KeptByAll job I) (directory : Place) (authoritative : Bool) (lead : Lead) :
    Keeps I (Walk.visit job directory authoritative lead) :=
  Guarded.keeps fun _ => h.guarded.visit authoritative trivial trivial

theorem collectFrom (h : KeptByAll job I) (root : Mount) : Keeps I (Walk.collectFrom job root) :=
  Guarded.keeps fun _ => h.guarded.collectFrom root trivial

end KeptByAll

end Walk

end DependencyFiles
