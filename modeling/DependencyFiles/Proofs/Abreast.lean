import DependencyFiles.Collect.Collector

/-!
# Two collections abreast

Two collections that differ only in their providers or in their bounds can be compared step
by step. When the elementary steps of both agree, every step agrees: both have the same
result, or both come to the same halt. Only errors that say "not found" let both go on.
-/

namespace DependencyFiles

/-- The job with another provider and with other bounds. -/
def Job.over {σ τ : Type} (job : Job σ) (provider : Provider τ) (extent : Extent) : Job τ :=
  ⟨provider, job.ecosystem, job.settings, extent, job.base⟩

/-- How the states of two collections stand to each other while both go on, and after a halt. -/
structure Bond (σ τ : Type) where
  going : Progress σ → Progress τ → Prop
  halted : Halt → Progress σ → Progress τ → Prop

namespace Walk

variable {σ τ α β : Type} {bond : Bond σ τ}

/-- Two steps end with the same result or with the same halt. -/
inductive SameEnd (bond : Bond σ τ) :
    EStateM.Result Halt (Progress σ) α → EStateM.Result Halt (Progress τ) α → Prop
  | ok {a : α} {s : Progress σ} {t : Progress τ} (h : bond.going s t) :
      SameEnd bond (.ok a s) (.ok a t)
  | error {halt : Halt} {s : Progress σ} {t : Progress τ} (h : bond.halted halt s t) :
      SameEnd bond (.error halt s) (.error halt t)

/-- Steps that end in the same way also do so for a weaker bond. -/
theorem SameEnd.imp {bond' : Bond σ τ} {r : EStateM.Result Halt (Progress σ) α}
    {r' : EStateM.Result Halt (Progress τ) α} (h : SameEnd bond r r')
    (hgoing : ∀ s t, bond.going s t → bond'.going s t)
    (hhalted : ∀ halt s t, bond.halted halt s t → bond'.halted halt s t) : SameEnd bond' r r' := by
  cases h with
  | ok h => exact .ok (hgoing _ _ h)
  | error h => exact .error (hhalted _ _ _ h)

/-- The second step has the result that the first one has. -/
theorem SameEnd.of_ok {r : EStateM.Result Halt (Progress σ) α} {r' : EStateM.Result Halt (Progress τ) α}
    (h : SameEnd bond r r') {a : α} {s : Progress σ} (hr : r = .ok a s) :
    ∃ t, r' = .ok a t ∧ bond.going s t := by
  cases h with
  | ok h =>
    cases hr
    exact ⟨_, rfl, h⟩
  | error h => cases hr

/-- Composed steps end in the same way when their first parts do and their second parts do after that. -/
theorem SameEnd.bind {x : Walk σ α} {y : Walk τ α} {f : α → Walk σ β} {g : α → Walk τ β}
    {s : Progress σ} {t : Progress τ} (hx : SameEnd bond (x s) (y t))
    (hf : ∀ a s' t', x s = .ok a s' → bond.going s' t' → SameEnd bond (f a s') (g a t')) :
    SameEnd bond ((x >>= f) s) ((y >>= g) t) := by
  change SameEnd bond (EStateM.bind x f s) (EStateM.bind y g t)
  unfold EStateM.bind
  generalize x s = r at hx hf ⊢
  generalize y t = r' at hx ⊢
  cases hx with
  | ok hgoing => exact hf _ _ _ rfl hgoing
  | error hhalted => exact .error hhalted

/-- From states that stand to each other as they should, two steps end in the same way. -/
def Agree (bond : Bond σ τ) (x : Walk σ α) (y : Walk τ α) : Prop :=
  ∀ s t, bond.going s t → SameEnd bond (x s) (y t)

/-- Two questions get the same answer, and both collections go on unless it is an error other than
"not found". -/
def AgreeOnAnswer (bond : Bond σ τ) (x : Walk σ (Answer α)) (y : Walk τ (Answer α)) : Prop :=
  ∀ s t, bond.going s t → ∃ answer s' t', x s = .ok answer s' ∧ y t = .ok answer t' ∧
    match answer with
    | .ok _ => bond.going s' t'
    | .error error =>
      if error.isNotFound then bond.going s' t' else bond.halted (.failed (.provider error)) s' t'

namespace Agree

theorem pure (a : α) : Agree bond (pure a : Walk σ α) (pure a) := fun _ _ h => .ok h

theorem bind {x : Walk σ α} {y : Walk τ α} {f : α → Walk σ β} {g : α → Walk τ β}
    (hx : Agree bond x y) (hf : ∀ a, Agree bond (f a) (g a)) :
    Agree bond (x >>= f) (y >>= g) :=
  fun s t h => (hx s t h).bind fun a s' t' _ hgoing => hf a s' t' hgoing

/-- Steps that read the state agree when they do in the states as they are. -/
theorem get_bind {f : Progress σ → Walk σ α} {g : Progress τ → Walk τ α}
    (h : ∀ s t, bond.going s t → SameEnd bond (f s s) (g t t)) :
    Agree bond (get >>= f) (get >>= g) := h

theorem ite {c : Bool} {x x' : Walk σ α} {y y' : Walk τ α} (hx : Agree bond x y)
    (hx' : Agree bond x' y') : Agree bond (if c then x else x') (if c then y else y') := by
  cases c
  · exact hx'
  · exact hx

end Agree

namespace AgreeOnAnswer

variable {x : Walk σ (Answer α)} {y : Walk τ (Answer α)}

/-- What follows a question agrees when it does after an answer and after "not found", and when it
passes on every other error. -/
theorem bind {f : Answer α → Walk σ β} {g : Answer α → Walk τ β} (hx : AgreeOnAnswer bond x y)
    (hanswer : ∀ a, Agree bond (f (.ok a)) (g (.ok a)))
    (hmissing : ∀ error, error.isNotFound = true → Agree bond (f (.error error)) (g (.error error)))
    (hpass : ∀ error, error.isNotFound = false → f (.error error) = fail (.provider error) ∧
      g (.error error) = fail (.provider error)) : Agree bond (x >>= f) (y >>= g) := by
  intro s t h
  obtain ⟨answer, s', t', hs, ht, hafter⟩ := hx s t h
  change SameEnd bond (EStateM.bind x f s) (EStateM.bind y g t)
  unfold EStateM.bind
  rw [hs, ht]
  cases answer with
  | ok a => exact hanswer a s' t' hafter
  | error error =>
    dsimp only at hafter ⊢
    cases hkind : error.isNotFound with
    | true =>
      rw [if_pos hkind] at hafter
      exact hmissing error hkind s' t' hafter
    | false =>
      rw [if_neg (by simp [hkind])] at hafter
      rw [(hpass error hkind).1, (hpass error hkind).2]
      exact .error hafter

/-- A question that may have no answer agrees when the question does. -/
theorem ask? {query : Query (Cached σ) α} {query' : Query (Cached τ) α}
    (h : AgreeOnAnswer bond (ask query) (ask query')) :
    Agree bond (Walk.ask? query) (Walk.ask? query') := by
  refine h.bind (fun a => .pure (some a)) (fun error hkind => ?_) fun error hkind => ?_
  · dsimp only
    rw [hkind]
    exact .pure none
  · dsimp only
    rw [hkind]
    exact ⟨rfl, rfl⟩

/-- A question whose errors are passed on agrees when the question does, and when both collections halt
alike without an answer. -/
theorem askOr {query : Query (Cached σ) α} {query' : Query (Cached τ) α}
    (h : AgreeOnAnswer bond (ask query) (ask query'))
    (hmissing : ∀ error s t, bond.going s t → bond.halted (.failed (.provider error)) s t) :
    Agree bond (Walk.askOr query .provider) (Walk.askOr query' .provider) :=
  h.bind (fun a => .pure a) (fun error _ s t hgoing => .error (hmissing error s t hgoing))
    fun _ _ => ⟨rfl, rfl⟩

end AgreeOnAnswer

/-- Two collections have the same files, halt alike with failures that are not the provider's, and agree
in their questions. -/
structure AbreastInAsking (bond : Bond σ τ) (job : Job σ) (provider : Provider τ) : Prop where
  files : ∀ s t, bond.going s t → t.files = s.files
  fail : ∀ failure s t, failure.isProviderError = false → bond.going s t →
    bond.halted (.failed failure) s t
  resolve : ∀ repo reference, AgreeOnAnswer bond
    (ask (Cached.openCheckout job.provider repo reference))
    (ask (Cached.openCheckout provider repo reference))
  list : ∀ checkout path, AgreeOnAnswer bond (ask (Cached.list job.provider checkout path))
    (ask (Cached.list provider checkout path))
  target : ∀ entry, AgreeOnAnswer bond (ask (Cached.target job.provider entry))
    (ask (Cached.target provider entry))

/-- Two collections also agree in how they read files and locate directories. -/
structure AbreastInReading (bond : Bond σ τ) (job : Job σ) (provider : Provider τ) (extent : Extent) :
    Prop extends AbreastInAsking bond job provider where
  read : ∀ place role, AgreeOnAnswer bond (readCollecting job place role)
    (readCollecting (job.over provider extent) place role)
  locate : ∀ place, Agree bond (locate job place) (locate (job.over provider extent) place)

/-- Two collections also have the same outcomes and packages, and agree in all elementary steps. -/
structure Abreast (bond : Bond σ τ) (job : Job σ) (provider : Provider τ) (extent : Extent) : Prop
    extends AbreastInReading bond job provider extent where
  same : ∀ s t, bond.going s t → t.searched = s.searched ∧ t.unreachable = s.unreachable
  keep : ∀ key outcome, Agree bond
    (modify fun progress => { progress with searched := (key, outcome) :: progress.searched })
    (modify fun progress => { progress with searched := (key, outcome) :: progress.searched })
  note : ∀ name reason, Agree bond (markUnreachable name reason) (markUnreachable name reason)

namespace AbreastInAsking

variable {job : Job σ} {provider : Provider τ} (extent : Extent)
  (h : AbreastInAsking bond job provider)

include h

/-- Failures that are not the provider's agree. -/
theorem failed {failure : Failure} (hkind : failure.isProviderError = false) :
    Agree bond (Walk.fail failure : Walk σ α) (Walk.fail failure) :=
  fun s t hgoing => .error (h.fail failure s t hkind hgoing)

/-- The same files are collected. -/
theorem isCollected (place : Place) : Agree bond (Walk.isCollected place) (Walk.isCollected place) := by
  intro s t hgoing
  have hfiles := h.files s t hgoing
  change SameEnd bond (.ok (s.files.any fun file => file.key = place.key) s)
    (.ok (t.files.any fun file => file.key = place.key) t)
  rw [hfiles]
  exact .ok hgoing

theorem enter? (mount : Mount) (entry : Entry) :
    Agree bond (Walk.enter? job mount entry) (Walk.enter? (job.over provider extent) mount entry) := by
  refine (h.target entry).ask?.bind fun target => ?_
  cases target with
  | none => exact .pure none
  | some target =>
    refine (h.resolve target.repo target.reference).ask?.bind fun checkout => ?_
    cases checkout <;> exact .pure _

theorem list? (place : Place) :
    Agree bond (Walk.list? job place) (Walk.list? (job.over provider extent) place) :=
  (h.list _ _).ask?

theorem isListedFile (place : Place) :
    Agree bond (Walk.isListedFile job place) (Walk.isListedFile (job.over provider extent) place) := by
  refine (h.list? extent _).bind fun entries => ?_
  cases entries <;> exact .pure _

theorem throughSubmodule? (place : Place) (ancestors : List TreePath) :
    Agree bond (Walk.throughSubmodule? job place ancestors)
      (Walk.throughSubmodule? (job.over provider extent) place ancestors) := by
  induction ancestors with
  | nil => exact .pure none
  | cons ancestor rest ih =>
    refine (h.list? extent _).bind fun entries => ?_
    cases entries with
    | none => exact ih
    | some entries =>
      dsimp only
      cases entries.find? fun entry => entry.isSubmodule && place.path.isWithin entry.path with
      | none => exact .pure none
      | some entry =>
        refine (h.enter? extent _ _).bind fun root => ?_
        cases root <;> exact .pure _

/-- With the same bound directories are located alike, when both collections halt there alike. -/
theorem locateWithin
    (hexhausted : Agree bond (throw .exhausted : Walk σ (Option Place)) (throw .exhausted))
    (fuel : Nat) (place : Place) : Agree bond (Walk.locateWithin job fuel place)
      (Walk.locateWithin (job.over provider extent) fuel place) := by
  induction fuel generalizing place with
  | zero => exact hexhausted
  | succ fuel ih =>
    refine (h.list? extent place).bind fun entries => ?_
    cases entries with
    | none =>
      refine .ite ((h.throughSubmodule? extent _ _).bind fun inner => ?_) (.pure none)
      cases inner with
      | none => exact .pure none
      | some inner => exact ih inner
    | some entries =>
      dsimp only
      cases Entry.single? entries place.path with
      | none => exact .pure _
      | some entry => exact .ite (h.enter? extent _ _) (.pure none)

theorem openBase (root : Mount) :
    Agree bond (Walk.openBase job root) (Walk.openBase (job.over provider extent) root) := by
  have hlisting (place : Place) : Agree bond
      (askOr (Cached.list job.provider place.mount.checkout place.path)
        fun error => .ofListing error job.base.toString)
      (askOr (Cached.list provider place.mount.checkout place.path)
        fun error => .ofListing error job.base.toString) := by
    refine (h.list _ _).bind (fun entries => .pure entries) (fun error hkind => ?_)
      fun error hkind => ?_
    · dsimp only [Failure.ofListing]
      rw [hkind]
      exact h.failed rfl
    · dsimp only [Failure.ofListing]
      rw [hkind]
      exact ⟨rfl, rfl⟩
  refine (hlisting _).bind fun entries => ?_
  dsimp only [Job.over]
  cases Entry.single? entries job.base with
  | none => exact .pure _
  | some entry =>
    refine .ite ((h.enter? extent _ _).bind fun inner => ?_) (h.failed rfl)
    cases inner with
    | none => exact h.failed rfl
    | some inner => exact (hlisting inner).bind fun entries => .pure _

end AbreastInAsking

namespace AbreastInReading

variable {job : Job σ} {provider : Provider τ} {extent : Extent}
  (h : AbreastInReading bond job provider extent)

include h

theorem scan (place : Place) (text : String) :
    Agree bond (Walk.scan job place text) (Walk.scan (job.over provider extent) place text) := by
  unfold Walk.scan
  dsimp only [Job.over]
  cases job.ecosystem.references text (place.rootPath.relativeTo job.base) with
  | ok references => exact .pure _
  | error error => exact h.failed rfl

theorem chooseManifest (directory : Place) (entries : List Entry) :
    Agree bond (Walk.chooseManifest job directory entries)
      (Walk.chooseManifest (job.over provider extent) directory entries) := by
  unfold Walk.chooseManifest
  dsimp only [Job.over]
  cases job.ecosystem.manifests.find? (listsFile entries) with
  | none => exact h.failed rfl
  | some name => exact .pure _

theorem scanAll (files : List (Place × String)) :
    Agree bond (Walk.scanAll job files) (Walk.scanAll (job.over provider extent) files) := by
  induction files with
  | nil => exact .pure _
  | cons file rest ih => exact (h.scan _ _).bind fun _ => ih.bind fun _ => .pure _

theorem readRequired (place : Place) (role : DependencyFile.Role) :
    Agree bond (Walk.readRequired job place role)
      (Walk.readRequired (job.over provider extent) place role) := by
  refine (h.read place role).bind (fun content => .pure _) (fun error hkind => ?_)
    fun error hkind => ?_
  · dsimp only [Failure.ofReading]
    rw [hkind]
    exact h.failed rfl
  · dsimp only [Failure.ofReading]
    rw [hkind]
    exact ⟨rfl, rfl⟩

theorem readOptional (place : Place) (role : DependencyFile.Role) :
    Agree bond (Walk.readOptional job place role)
      (Walk.readOptional (job.over provider extent) place role) := by
  refine (h.read place role).bind (fun content => .pure _) (fun error hkind => ?_)
    fun error hkind => ?_
  · dsimp only
    rw [hkind]
    exact .pure none
  · dsimp only
    rw [hkind]
    exact ⟨rfl, rfl⟩

theorem readLockfile (directory : Place) (entries : List Entry) (manifest text : String) :
    Agree bond (Walk.readLockfile job directory entries manifest text)
      (Walk.readLockfile (job.over provider extent) directory entries manifest text) := by
  unfold Walk.readLockfile
  dsimp only [Job.over]
  cases job.ecosystem.lockfileOf manifest with
  | none => exact .pure _
  | some name =>
    refine (Agree.ite (h.readOptional _ _) (.pure none)).bind fun content => ?_
    cases content with
    | none => exact .ite (h.failed rfl) (.pure _)
    | some content =>
      dsimp only
      cases job.ecosystem.scanLockfile content ((directory.child name).rootPath.relativeTo job.base) with
      | error error => exact h.failed rfl
      | ok result => exact .pure _

theorem readBeside (places : List Place) :
    Agree bond (Walk.readBeside job places) (Walk.readBeside (job.over provider extent) places) := by
  induction places with
  | nil => exact .pure _
  | cons place rest ih =>
    refine (h.isCollected place).bind fun collected => .ite ih ?_
    refine (h.readOptional _ _).bind fun text => ?_
    cases text with
    | none => exact ih
    | some text => exact ih.bind fun _ => .pure _

theorem start (root : Mount) :
    Agree bond (Walk.start job root) (Walk.start (job.over provider extent) root) :=
  (h.openBase extent root).bind fun _ => (h.chooseManifest _ _).bind fun _ =>
    (h.readRequired _ _).bind fun _ => (h.readLockfile _ _ _ _).bind fun _ =>
      (h.readBeside _).bind fun _ => (h.scan _ _).bind fun _ =>
        (h.scanAll _).bind fun _ => .pure _

theorem readSpecifications (places : List Place) :
    Agree bond (Walk.readSpecifications job places)
      (Walk.readSpecifications (job.over provider extent) places) := by
  induction places with
  | nil => exact .pure _
  | cons place rest ih =>
    refine (h.isCollected place).bind fun collected => .ite (ih.bind fun _ => .pure _) ?_
    refine (h.readOptional _ _).bind fun text => ?_
    cases text with
    | none => exact ih
    | some text => exact (h.scan _ _).bind fun _ => ih.bind fun _ => .pure _

theorem takeMarker (directory : Place) :
    Agree bond (Walk.takeMarker job directory) (Walk.takeMarker (job.over provider extent) directory) :=
  (h.isCollected _).bind fun _ => .ite (.pure true) <| (h.isListedFile extent _).bind fun _ =>
    .ite ((h.readOptional _ _).bind fun _ => .pure _) (.pure false)

theorem searchEntries (place : Place) {descend : Place → Walk σ (Option Nat × List Lead)}
    {descend' : Place → Walk τ (Option Nat × List Lead)}
    (hdescend : ∀ inner, Agree bond (descend inner) (descend' inner)) (entries : List Entry) :
    Agree bond (Walk.searchEntries job place descend entries)
      (Walk.searchEntries (job.over provider extent) place descend' entries) := by
  induction entries with
  | nil => exact .pure _
  | cons entry rest ih =>
    have hplace : Agree bond (entryPlace? job place entry)
        (entryPlace? (job.over provider extent) place entry) := .ite (h.enter? extent _ _) (.pure _)
    refine hplace.bind fun inner => ?_
    cases inner with
    | none => exact ih
    | some inner => exact (hdescend inner).bind fun _ => ih.bind fun _ => .pure _

/-- Searches of a listed directory agree when both may go down or neither, and when they agree further
down. -/
theorem searchListed {descend : Option (Place → Walk σ (Option Nat × List Lead))}
    {descend' : Option (Place → Walk τ (Option Nat × List Lead))}
    (hdescend : Option.Rel (fun f g => ∀ inner, Agree bond (f inner) (g inner)) descend descend')
    (place : Place) (entries : List Entry) : Agree bond (Walk.searchListed job descend place entries)
      (Walk.searchListed (job.over provider extent) descend' place entries) := by
  refine (h.readSpecifications _).bind fun found => .ite (.pure _) ?_
  cases hdescend with
  | none => exact .pure _
  | some hdescend => exact (h.searchEntries place hdescend _).bind fun _ => .pure _

/-- Packages are found alike when searches agree. -/
theorem findPackage (hsearch : ∀ directory,
      Agree bond (search job job.settings.maxSearchDepth directory)
        (search (job.over provider extent) job.settings.maxSearchDepth directory)) (place : Place) :
    Agree bond (Walk.findPackage job place) (Walk.findPackage (job.over provider extent) place) := by
  refine (h.locate place).bind fun directory => ?_
  cases directory with
  | none => exact .pure _
  | some directory =>
    exact (hsearch directory).bind fun _ => .ite (.pure _) <|
      (h.takeMarker directory).bind fun _ => .ite (.pure _) (.pure _)

/-- References to files are followed alike. -/
theorem visitFile (directory : Place) (authoritative : Bool) {lead : Lead}
    (hkind : lead.reference.isPathDependency = false) :
    Agree bond (Walk.visit job directory authoritative lead)
      (Walk.visit (job.over provider extent) directory authoritative lead) := by
  unfold Walk.visit
  cases hlead : lead.reference.kind with
  | childManifest =>
    exact (h.isCollected _).bind fun _ => .ite (.pure _) <|
      (h.readRequired _ _).bind fun _ => h.scan _ _
  | supportFile =>
    exact (h.isCollected _).bind fun _ => .ite (.pure _) <|
      (h.isListedFile extent _).bind fun _ => .ite ((h.readOptional _ _).bind fun _ => .pure _) (.pure _)
  | pathDependency name => simp [Reference.isPathDependency, hlead] at hkind

end AbreastInReading

namespace Abreast

variable {job : Job σ} {provider : Provider τ} {extent : Extent}
  (h : Abreast bond job provider extent)

include h

theorem searchKept (budget : Nat) {descend : Option (Place → Walk σ (Option Nat × List Lead))}
    {descend' : Option (Place → Walk τ (Option Nat × List Lead))}
    (hdescend : Option.Rel (fun f g => ∀ inner, Agree bond (f inner) (g inner)) descend descend')
    (place : Place) : Agree bond (Walk.searchKept job budget descend place)
      (Walk.searchKept (job.over provider extent) budget descend' place) := by
  refine .get_bind fun s t hgoing => ?_
  dsimp only
  rw [(h.same s t hgoing).1]
  cases (s.searched.lookup place.key).bind (·.answer? budget) with
  | some depth => exact .ok hgoing
  | none =>
    refine ((h.list? extent place).bind fun entries => ?_ : Agree bond _ _) s t hgoing
    cases entries with
    | none => exact .pure _
    | some entries =>
      exact (h.searchListed hdescend place entries).bind fun _ => (h.keep _ _).bind fun _ => .pure _

theorem search (budget : Nat) (place : Place) :
    Agree bond (Walk.search job budget place) (Walk.search (job.over provider extent) budget place) := by
  induction budget generalizing place with
  | zero => exact h.searchKept 0 .none place
  | succ budget ih => exact h.searchKept (budget + 1) (.some ih) place

theorem visitPackage (name : String) (place : Place) :
    Agree bond (Walk.visitPackage job name place)
      (Walk.visitPackage (job.over provider extent) name place) := by
  refine (h.findPackage (h.search _) place).bind fun (reason, leads) => ?_
  cases reason with
  | none => exact .pure _
  | some reason => exact (h.note _ _).bind fun _ => .pure _

theorem visit (directory : Place) (authoritative : Bool) (lead : Lead) :
    Agree bond (Walk.visit job directory authoritative lead)
      (Walk.visit (job.over provider extent) directory authoritative lead) := by
  cases hkind : lead.reference.kind with
  | childManifest =>
    exact h.visitFile directory authoritative (by simp [Reference.isPathDependency, hkind])
  | supportFile =>
    exact h.visitFile directory authoritative (by simp [Reference.isPathDependency, hkind])
  | pathDependency name =>
    unfold Walk.visit
    rw [hkind]
    exact .ite (.pure _) (h.visitPackage _ _)

theorem handOut : Agree bond Walk.handOut Walk.handOut := by
  refine .get_bind fun s t hgoing => ?_
  rw [h.files s t hgoing, (h.same s t hgoing).2]
  exact (Agree.ite (.pure s.files) (h.failed rfl) : Agree bond _ _) s t hgoing

end Abreast

section Bounds

variable {visit : Lead → Walk σ (List Lead)} {visit' : Lead → Walk τ (List Lead)}

theorem Agree.advance (hvisit : ∀ lead, Agree bond (visit lead) (visit' lead)) (stack : List Lead) :
    Agree bond (Walk.advance visit stack) (Walk.advance visit' stack) := by
  induction stack with
  | nil => exact .pure _
  | cons lead rest ih =>
    refine (hvisit lead).bind fun found => ?_
    cases found with
    | nil => exact ih
    | cons lead found => exact .pure _

/-- When both collections halt at their bounds alike, so do they when they follow leads. -/
theorem Agree.followAll (hexhausted : Agree bond (throw .exhausted : Walk σ Unit) (throw .exhausted))
    (hvisit : ∀ lead, Agree bond (visit lead) (visit' lead)) (fuel : Nat) (stack : List Lead) :
    Agree bond (Walk.followAll visit fuel stack) (Walk.followAll visit' fuel stack) := by
  induction fuel generalizing stack with
  | zero =>
    refine (Agree.advance hvisit stack).bind fun stack => ?_
    cases stack with
    | nil => exact .pure _
    | cons lead stack => exact hexhausted
  | succ fuel ih =>
    refine (Agree.advance hvisit stack).bind fun stack => ?_
    cases stack with
    | nil => exact .pure _
    | cons lead stack => exact ih _

end Bounds

end Walk

end DependencyFiles
