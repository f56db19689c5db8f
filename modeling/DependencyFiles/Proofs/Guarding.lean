import DependencyFiles.Proofs.Steps

/-!
# Checkouts that a collection knows

A collection may only ask about checkouts that it has come to know. What it knows grows, and
an invariant of its states is kept on the way. Places that steps hand out and leads that they
give lie in known checkouts, so the elementary steps need to keep the invariant only there,
and submodules need to be entered only where the settings say so.
-/

namespace DependencyFiles

/-- What a collection maintains. -/
structure Guard (σ : Type) where
  /-- What holds of every state. -/
  holds : Progress σ → Prop
  /-- The checkouts that may be asked about. -/
  knows : Progress σ → Checkout → Prop
  /-- Whether submodules may be entered. -/
  enters : Prop

namespace Guard

variable {σ : Type}

/-- The places in a result lie in known checkouts. -/
def KnowsPlace (G : Guard σ) (place? : Option Place) (s : Progress σ) : Prop :=
  ∀ place ∈ place?, G.knows s place.mount.checkout

/-- The files that leads stand in are in known checkouts. -/
def KnowsLeads (G : Guard σ) (leads : List Lead) (s : Progress σ) : Prop :=
  ∀ lead ∈ leads, G.knows s lead.origin.mount.checkout

end Guard

namespace Walk

variable {σ α β : Type} {G : Guard σ} {s : Progress σ}

/-- From the state, the step keeps the invariant and forgets no checkout, and its result is as told.
No halt is deferred. -/
def Guarded (G : Guard σ) (x : Walk σ α) (s : Progress σ) (tells : α → Progress σ → Prop) : Prop :=
  G.holds s → Gives x s
    (fun a t => G.holds t ∧ (∀ checkout, G.knows s checkout → G.knows t checkout) ∧ tells a t)
    fun halt t => G.holds t ∧ halt.isDeferred = false

namespace Guarded

variable {x : Walk σ α} {tells : α → Progress σ → Prop} {tells' : β → Progress σ → Prop}

theorem pure {a : α} (h : tells a s) : Guarded G (pure a) s tells :=
  fun hs => ⟨hs, fun _ => id, h⟩

theorem bind {f : α → Walk σ β} (hx : Guarded G x s tells)
    (hf : ∀ a t, (∀ checkout, G.knows s checkout → G.knows t checkout) → tells a t →
      Guarded G (f a) t tells') : Guarded G (x >>= f) s tells' := fun hs =>
  (gives_bind ..).2 <| (hx hs).imp
    (fun a t ht => (hf a t ht.2.1 ht.2.2 ht.1).imp
      (fun _ _ hu => ⟨hu.1, fun checkout hc => hu.2.1 checkout (ht.2.1 checkout hc), hu.2.2⟩)
      fun _ _ h => h)
    fun _ _ h => h

theorem mono {tells' : α → Progress σ → Prop} (h : Guarded G x s tells)
    (himp : ∀ a t, tells a t → tells' a t) : Guarded G x s tells' :=
  fun hs => (h hs).imp (fun _ _ ht => ⟨ht.1, ht.2.1, himp _ _ ht.2.2⟩) fun _ _ h => h

theorem exhausted : Guarded G (throw .exhausted : Walk σ α) s tells := fun hs => ⟨hs, rfl⟩

theorem fail {failure : Failure} (h : (Halt.failed failure).isDeferred = false) :
    Guarded G (Walk.fail failure : Walk σ α) s tells := fun hs => ⟨hs, h⟩

theorem isCollected (place : Place) : Guarded G (Walk.isCollected place) s fun _ _ => True :=
  fun hs => ⟨hs, fun _ => id, trivial⟩

theorem get : Guarded G (get : Walk σ (Progress σ)) s fun _ _ => True :=
  fun hs => ⟨hs, fun _ => id, trivial⟩

theorem ite {c : Bool} {x y : Walk σ α} (hx : c = true → Guarded G x s tells)
    (hy : Guarded G y s tells) : Guarded G (if c then x else y) s tells := by
  cases c
  · exact hy
  · exact hx rfl

/-- A question whose failures end the collection. -/
theorem askOr {query : Query (Cached σ) α} {failure : ProviderError → Failure}
    {tells : α → Progress σ → Prop}
    (h : Guarded G (ask query) s fun answer t => ∀ a, answer = .ok a → tells a t)
    (hfailure : ∀ e, (Halt.failed (failure e)).isDeferred = false) :
    Guarded G (Walk.askOr query failure) s tells :=
  h.bind fun answer _ _ ha => by
    cases answer with
    | ok a => exact .pure (ha a rfl)
    | error e => exact .fail (hfailure e)

/-- A question that may have no answer. -/
theorem ask? {query : Query (Cached σ) α} {tells : α → Progress σ → Prop}
    (h : Guarded G (ask query) s fun answer t => ∀ a, answer = .ok a → tells a t) :
    Guarded G (Walk.ask? query) s fun a? t => ∀ a ∈ a?, tells a t :=
  h.bind fun answer _ _ ha => by
    cases answer with
    | ok a => exact .pure fun _ h => Option.mem_some_iff.1 h ▸ ha a rfl
    | error e => exact .ite (fun _ => .pure nofun) (.fail rfl)

end Guarded

/-- Questions respect the guard: a checkout that is opened becomes known, and only known checkouts
are asked about. -/
structure GuardedAsking (job : Job σ) (G : Guard σ) : Prop where
  enters : job.settings.followSubmodules = true → G.enters
  resolve : G.enters → ∀ repo reference s,
    Guarded G (ask (Cached.openCheckout job.provider repo reference)) s
      fun answer t => ∀ checkout, answer = .ok checkout → G.knows t checkout
  list : ∀ checkout path s, G.knows s checkout →
    Guarded G (ask (Cached.list job.provider checkout path)) s fun _ _ => True
  target : ∀ entry s, Guarded G (ask (Cached.target job.provider entry)) s fun _ _ => True

/-- Questions and readings respect the guard. -/
structure GuardedReading (job : Job σ) (G : Guard σ) : Prop extends GuardedAsking job G where
  read : ∀ place role s, G.knows s place.mount.checkout →
    Guarded G (readCollecting job place role) s fun _ _ => True

/-- Questions, readings and keeping outcomes of searches respect the guard. -/
structure GuardedSearching (job : Job σ) (G : Guard σ) : Prop extends GuardedReading job G where
  keep : ∀ key outcome s, Guarded G (modify fun progress =>
    { progress with searched := (key, outcome) :: progress.searched }) s fun _ _ => True

/-- All elementary steps respect the guard. -/
structure GuardedAll (job : Job σ) (G : Guard σ) : Prop extends GuardedSearching job G where
  note : ∀ name reason s, Guarded G (markUnreachable name reason) s fun _ _ => True

variable {job : Job σ}

namespace GuardedAsking

theorem enter? (h : GuardedAsking job G) (henters : G.enters) (mount : Mount) (entry : Entry)
    (s : Progress σ) : Guarded G (Walk.enter? job mount entry) s G.KnowsPlace := by
  refine (Guarded.ask? ((h.target entry s).mono fun _ _ _ _ _ => trivial)).bind fun target t _ _ => ?_
  cases target with
  | none => exact .pure nofun
  | some target =>
    refine (Guarded.ask? (h.resolve henters target.repo target.reference t)).bind
      fun checkout u _ hcheckout => ?_
    cases checkout with
    | none => exact .pure nofun
    | some checkout => exact .pure fun _ h => Option.mem_some_iff.1 h ▸ hcheckout checkout rfl

theorem list? (h : GuardedAsking job G) (place : Place) (hplace : G.knows s place.mount.checkout) :
    Guarded G (Walk.list? job place) s fun _ _ => True :=
  (Guarded.ask? ((h.list _ _ s hplace).mono fun _ _ _ _ _ => trivial)).mono fun _ _ _ => trivial

theorem isListedFile (h : GuardedAsking job G) (place : Place)
    (hplace : G.knows s place.mount.checkout) :
    Guarded G (Walk.isListedFile job place) s fun _ _ => True := by
  refine (h.list? (place.moveTo place.path.up) hplace).bind fun entries t _ _ => ?_
  cases entries <;> exact .pure trivial

theorem throughSubmodule? (h : GuardedAsking job G) (henters : G.enters) {place : Place}
    (ancestors : List TreePath) : ∀ {s : Progress σ}, G.knows s place.mount.checkout →
    Guarded G (Walk.throughSubmodule? job place ancestors) s G.KnowsPlace := by
  induction ancestors with
  | nil => exact fun _ => .pure nofun
  | cons ancestor rest ih =>
    intro s hplace
    refine (h.list? (place.moveTo ancestor) hplace).bind fun entries t ht _ => ?_
    cases entries with
    | none => exact ih (ht _ hplace)
    | some entries =>
      dsimp only
      split
      · exact .pure nofun
      · refine (h.enter? henters place.mount _ t).bind fun root u _ hroot => ?_
        cases root with
        | none => exact .pure nofun
        | some root => exact .pure fun _ h => Option.mem_some_iff.1 h ▸ hroot root rfl

theorem locateWithin (h : GuardedAsking job G) (fuel : Nat) : ∀ (place : Place) {s : Progress σ},
    G.knows s place.mount.checkout → Guarded G (Walk.locateWithin job fuel place) s G.KnowsPlace := by
  induction fuel with
  | zero => exact fun _ _ _ => .exhausted
  | succ fuel ih =>
    intro place s hplace
    refine (h.list? place hplace).bind fun entries t ht _ => ?_
    cases entries with
    | none =>
      refine .ite (fun hfollow => ?_) (.pure nofun)
      refine (h.throughSubmodule? (h.enters hfollow) _ (ht _ hplace)).bind fun inner u _ hinner => ?_
      cases inner with
      | none => exact .pure nofun
      | some inner => exact ih inner (hinner inner rfl)
    | some entries =>
      dsimp only
      split
      · exact .pure fun _ h => Option.mem_some_iff.1 h ▸ ht _ hplace
      · refine .ite (fun hfollow => ?_) (.pure nofun)
        exact h.enter? (h.enters (Bool.and_eq_true_iff.1 hfollow).2) _ _ t

theorem locate (h : GuardedAsking job G) (place : Place) (hplace : G.knows s place.mount.checkout) :
    Guarded G (Walk.locate job place) s G.KnowsPlace :=
  h.locateWithin _ place hplace

theorem openBase (h : GuardedAsking job G) (root : Mount) (hroot : G.knows s root.checkout) :
    Guarded G (Walk.openBase job root) s fun result t => G.knows t result.1.mount.checkout := by
  have hlisting (place : Place) {t : Progress σ} (hplace : G.knows t place.mount.checkout) :
      Guarded G (askOr (Cached.list job.provider place.mount.checkout place.path)
        fun error => .ofListing error job.base.toString) t fun _ _ => True :=
    .askOr ((h.list _ _ t hplace).mono fun _ _ _ _ _ => trivial)
      fun error => Failure.isDeferred_ofListing error _
  refine (hlisting ⟨root, job.base⟩ hroot).bind fun entries t ht _ => ?_
  dsimp only
  split
  · exact .pure (ht _ hroot)
  · refine .ite (fun hfollow => ?_) (.fail rfl)
    refine (h.enter? (h.enters (Bool.and_eq_true_iff.1 hfollow).2) _ _ t).bind
      fun inner u _ hinner => ?_
    cases inner with
    | none => exact .fail rfl
    | some inner =>
      exact (hlisting inner (hinner inner rfl)).bind fun _ _ hv _ => .pure (hv _ (hinner inner rfl))

end GuardedAsking

/-- The references of a file lead on from the file. -/
theorem Guarded.scan (place : Place) (hplace : G.knows s place.mount.checkout) (text : String) :
    Guarded G (Walk.scan job place text) s G.KnowsLeads := by
  unfold Walk.scan
  split
  · refine .pure fun lead hlead => ?_
    obtain ⟨reference, -, rfl⟩ := List.mem_map.1 hlead
    exact hplace
  · exact .fail rfl

/-- Choosing the manifest changes nothing. -/
theorem Guarded.chooseManifest (directory : Place) (entries : List Entry) :
    Guarded G (Walk.chooseManifest job directory entries) s fun _ _ => True := by
  unfold Walk.chooseManifest
  split
  · exact .pure trivial
  · exact .fail rfl

/-- The references of several files lead on from these files. -/
theorem Guarded.scanAll (files : List (Place × String)) : ∀ {s : Progress σ},
    (∀ file ∈ files, G.knows s file.1.mount.checkout) →
    Guarded G (Walk.scanAll job files) s G.KnowsLeads := by
  induction files with
  | nil => exact fun _ => .pure nofun
  | cons file rest ih =>
    intro s hfiles
    refine (Guarded.scan file.1 (hfiles file List.mem_cons_self) _).bind fun leads t ht hleads => ?_
    refine (ih fun other hother => ht _ (hfiles other (List.mem_cons_of_mem _ hother))).bind
      fun more u hu hmore => .pure fun lead hlead => ?_
    rcases List.mem_append.1 hlead with hlead | hlead
    · exact hu _ (hleads lead hlead)
    · exact hmore lead hlead

namespace GuardedReading

theorem readRequired (h : GuardedReading job G) (place : Place) (hplace : G.knows s place.mount.checkout)
    (role : DependencyFile.Role) :
    Guarded G (Walk.readRequired job place role) s fun _ _ => True := by
  refine (h.read place role s hplace).bind fun answer t _ _ => ?_
  cases answer with
  | ok content => exact .pure trivial
  | error error => exact .fail (Failure.isDeferred_ofReading error _)

theorem readOptional (h : GuardedReading job G) (place : Place) (hplace : G.knows s place.mount.checkout)
    (role : DependencyFile.Role) :
    Guarded G (Walk.readOptional job place role) s fun _ _ => True := by
  refine (h.read place role s hplace).bind fun answer t _ _ => ?_
  cases answer with
  | ok content => exact .pure trivial
  | error error => exact .ite (fun _ => .pure trivial) (.fail rfl)

theorem readLockfile (h : GuardedReading job G) {directory : Place}
    (hdirectory : G.knows s directory.mount.checkout) (entries : List Entry) (manifest text : String) :
    Guarded G (Walk.readLockfile job directory entries manifest text) s
      fun result t => G.KnowsLeads result.1 t := by
  unfold Walk.readLockfile
  split
  · exact .pure nofun
  · have hread {name : String} : Guarded G (Walk.readListed job directory entries name .lockfile) s
        fun _ _ => True :=
      .ite (fun _ => h.readOptional (directory.child name) hdirectory _) (.pure trivial)
    refine hread.bind fun content t ht _ => ?_
    cases content with
    | none => exact .ite (fun _ => .fail rfl) (.pure nofun)
    | some content =>
      dsimp only
      split
      · exact .fail rfl
      · refine .pure fun lead hlead => ?_
        obtain ⟨reference, -, rfl⟩ := List.mem_map.1 hlead
        exact ht _ hdirectory

theorem readBeside (h : GuardedReading job G) (places : List Place) : ∀ {s : Progress σ},
    (∀ place ∈ places, G.knows s place.mount.checkout) →
    Guarded G (Walk.readBeside job places) s
      fun files t => ∀ file ∈ files, G.knows t file.1.mount.checkout := by
  induction places with
  | nil => exact fun _ => .pure nofun
  | cons place rest ih =>
    intro s hplaces
    obtain ⟨hplace, hrest⟩ := List.forall_mem_cons.1 hplaces
    refine (Guarded.isCollected _).bind fun collected t ht _ =>
      .ite (fun _ => ih fun other hother => ht _ (hrest other hother)) ?_
    refine (h.readOptional place (ht _ hplace) _).bind fun text u hu _ => ?_
    cases text with
    | none => exact ih fun other hother => hu _ (ht _ (hrest other hother))
    | some text =>
      refine (ih fun other hother => hu _ (ht _ (hrest other hother))).bind
        fun files v hv hfiles => .pure ?_
      exact List.forall_mem_cons.2 ⟨hv _ (hu _ (ht _ hplace)), hfiles⟩

theorem start (h : GuardedReading job G) (root : Mount) (hroot : G.knows s root.checkout) :
    Guarded G (Walk.start job root) s fun start t =>
      G.knows t start.directory.mount.checkout ∧ G.KnowsLeads start.leads t := by
  refine (h.openBase root hroot).bind fun (directory, entries) t₁ _ h₁ => ?_
  refine (Guarded.chooseManifest _ _).bind fun manifest t₂ le₂ _ => ?_
  have h₂ := le₂ _ h₁
  refine (h.readRequired (directory.child manifest) h₂ _).bind fun text t₃ le₃ _ => ?_
  have h₃ := le₃ _ h₂
  refine (h.readLockfile h₃ _ _ _).bind fun (locked, authoritative) t₄ le₄ hlocked => ?_
  have h₄ := le₄ _ h₃
  refine (h.readBeside _ fun place hplace => ?_).bind fun beside t₅ le₅ hbeside => ?_
  · obtain ⟨entry, -, rfl⟩ := List.mem_map.1 hplace
    exact h₄
  have h₅ := le₅ _ h₄
  refine (Guarded.scan (directory.child manifest) h₅ _).bind fun declared t₆ le₆ hdeclared => ?_
  refine (Guarded.scanAll _ fun file hfile => le₆ _ (hbeside file hfile)).bind
    fun described t₇ le₇ hdescribed => .pure ⟨le₇ _ (le₆ _ h₅), fun lead hlead => ?_⟩
  rcases List.mem_append.1 hlead with hlead | hlead
  · rcases List.mem_append.1 hlead with hlead | hlead
    · exact le₇ _ (hdeclared lead hlead)
    · exact le₇ _ (le₆ _ (le₅ _ (hlocked lead hlead)))
  · exact hdescribed lead hlead

theorem readSpecifications (h : GuardedReading job G) (places : List Place) : ∀ {s : Progress σ},
    (∀ place ∈ places, G.knows s place.mount.checkout) →
    Guarded G (Walk.readSpecifications job places) s fun result t => G.KnowsLeads result.2 t := by
  induction places with
  | nil => exact fun _ => .pure nofun
  | cons place rest ih =>
    intro s hplaces
    obtain ⟨hplace, hrest⟩ := List.forall_mem_cons.1 hplaces
    refine (Guarded.isCollected _).bind fun collected t ht _ => .ite (fun _ => ?_) ?_
    · exact (ih fun other hother => ht _ (hrest other hother)).bind fun _ _ _ hleads => .pure hleads
    · refine (h.readOptional place (ht _ hplace) _).bind fun text u hu _ => ?_
      cases text with
      | none => exact ih fun other hother => hu _ (ht _ (hrest other hother))
      | some text =>
        refine (Guarded.scan place (hu _ (ht _ hplace)) _).bind fun leads v hv hleads => ?_
        refine (ih fun other hother => hv _ (hu _ (ht _ (hrest other hother)))).bind
          fun more w hw hmore => .pure fun lead hlead => ?_
        rcases List.mem_append.1 hlead with hlead | hlead
        · exact hw _ (hleads lead hlead)
        · exact hmore lead hlead

theorem takeMarker (h : GuardedReading job G) (directory : Place)
    (hdirectory : G.knows s directory.mount.checkout) :
    Guarded G (Walk.takeMarker job directory) s fun _ _ => True := by
  refine (Guarded.isCollected _).bind fun _ t ht _ => .ite (fun _ => .pure trivial) ?_
  refine (h.isListedFile (directory.child _) (ht _ hdirectory)).bind fun _ u hu _ =>
    .ite (fun _ => ?_) (.pure trivial)
  exact (h.readOptional (directory.child _) (hu _ (ht _ hdirectory)) _).bind fun _ _ _ _ =>
    .pure trivial

theorem visitFile (h : GuardedReading job G) {directory : Place} (authoritative : Bool) {lead : Lead}
    (hdirectory : G.knows s directory.mount.checkout)
    (horigin : G.knows s lead.origin.mount.checkout)
    (hlead : lead.reference.isPathDependency = false) :
    Guarded G (Walk.visit job directory authoritative lead) s G.KnowsLeads := by
  unfold Walk.visit
  split
  · refine (Guarded.isCollected _).bind fun _ t ht _ => .ite (fun _ => .pure nofun) ?_
    exact (h.readRequired (lead.origin.resolve _) (ht _ horigin) _).bind fun _ u hu _ =>
      .scan (lead.origin.resolve _) (hu _ (ht _ horigin)) _
  · refine (Guarded.isCollected _).bind fun _ t ht _ => .ite (fun _ => .pure nofun) ?_
    refine (h.isListedFile (directory.child _) (ht _ hdirectory)).bind fun _ u hu _ =>
      .ite (fun _ => ?_) (.pure nofun)
    exact (h.readOptional (directory.child _) (hu _ (ht _ hdirectory)) _).bind fun _ _ _ _ =>
      .pure nofun
  · simp_all [Reference.isPathDependency]

theorem searchEntries (h : GuardedReading job G) {place : Place}
    {descend : Place → Walk σ (Option Nat × List Lead)}
    (hdescend : ∀ inner s, G.knows s inner.mount.checkout →
      Guarded G (descend inner) s fun result t => G.KnowsLeads result.2 t)
    (entries : List Entry) : ∀ {s : Progress σ}, G.knows s place.mount.checkout →
    (∀ entry ∈ entries, entry.isSubmodule = true → G.enters) →
    Guarded G (Walk.searchEntries job place descend entries) s
      fun result t => G.KnowsLeads result.2 t := by
  induction entries with
  | nil => exact fun _ _ => .pure nofun
  | cons entry rest ih =>
    intro s hplace hentries
    obtain ⟨hentry, hrest⟩ := List.forall_mem_cons.1 hentries
    have hinside : Guarded G (Walk.entryPlace? job place entry) s G.KnowsPlace :=
      .ite (fun hsubmodule => h.enter? (hentry hsubmodule) _ _ s)
        (.pure fun _ h => Option.mem_some_iff.1 h ▸ hplace)
    refine hinside.bind fun inner t ht hinner => ?_
    cases inner with
    | none => exact ih (ht _ hplace) hrest
    | some inner =>
      refine (hdescend inner t (hinner inner rfl)).bind fun found u hu hleads => ?_
      refine (ih (hu _ (ht _ hplace)) hrest).bind fun more v hv hmore => .pure fun lead hlead => ?_
      rcases List.mem_append.1 hlead with hlead | hlead
      · exact hv _ (hleads lead hlead)
      · exact hmore lead hlead

theorem searchListed (h : GuardedReading job G)
    {descend : Option (Place → Walk σ (Option Nat × List Lead))}
    (hdescend : ∀ f ∈ descend, ∀ inner s, G.knows s inner.mount.checkout →
      Guarded G (f inner) s fun result t => G.KnowsLeads result.2 t)
    {place : Place} (hplace : G.knows s place.mount.checkout) (entries : List Entry) :
    Guarded G (Walk.searchListed job descend place entries) s
      fun result t => G.KnowsLeads result.2 t := by
  refine (h.readSpecifications _ fun inner hinner => ?_).bind fun found t ht hleads =>
    .ite (fun _ => .pure hleads) ?_
  · obtain ⟨entry, -, rfl⟩ := List.mem_map.1 hinner
    exact hplace
  cases descend with
  | none => exact .pure hleads
  | some descend =>
    refine (h.searchEntries (hdescend descend rfl) _ (ht _ hplace) fun entry hentry hsubmodule => ?_).bind
      fun more u hu hmore => .pure fun lead hlead => ?_
    · refine h.enters ?_
      have hsearched := (List.mem_filter.1 hentry).2
      cases hkind : entry.kind <;> simp_all [isSearched, Entry.isSubmodule, Entry.isDirectory]
    · rcases List.mem_append.1 hlead with hlead | hlead
      · exact hu _ (hleads lead hlead)
      · exact hmore lead hlead

end GuardedReading

namespace GuardedSearching

theorem searchKept (h : GuardedSearching job G) (budget : Nat)
    {descend : Option (Place → Walk σ (Option Nat × List Lead))}
    (hdescend : ∀ f ∈ descend, ∀ inner s, G.knows s inner.mount.checkout →
      Guarded G (f inner) s fun result t => G.KnowsLeads result.2 t)
    (place : Place) (hplace : G.knows s place.mount.checkout) :
    Guarded G (Walk.searchKept job budget descend place) s
      fun result t => G.KnowsLeads result.2 t := by
  refine Guarded.get.bind fun progress t ht _ => ?_
  dsimp only
  split
  · exact .pure nofun
  · refine (h.list? place (ht _ hplace)).bind fun entries u hu _ => ?_
    cases entries with
    | none => exact .pure nofun
    | some entries =>
      refine (h.searchListed hdescend (hu _ (ht _ hplace)) entries).bind fun found v hv hleads => ?_
      exact (h.keep _ _ v).bind fun _ w hw _ => .pure fun lead hlead => hw _ (hleads lead hlead)

theorem search (h : GuardedSearching job G) (budget : Nat) : ∀ (place : Place) (s : Progress σ),
    G.knows s place.mount.checkout →
    Guarded G (Walk.search job budget place) s fun result t => G.KnowsLeads result.2 t := by
  induction budget with
  | zero => exact fun place s hplace => h.searchKept 0 (by simp) place hplace
  | succ budget ih =>
    intro place s hplace
    refine h.searchKept (budget + 1) (fun f hf => ?_) place hplace
    rw [← Option.mem_some_iff.1 hf]
    exact ih

theorem findPackage (h : GuardedSearching job G) (place : Place)
    (hplace : G.knows s place.mount.checkout) :
    Guarded G (Walk.findPackage job place) s fun result t => G.KnowsLeads result.2 t := by
  refine (h.locate place hplace).bind fun directory t ht hdirectory => ?_
  cases directory with
  | none => exact .pure nofun
  | some directory =>
    refine (h.search _ directory t (hdirectory directory rfl)).bind fun found u hu hleads =>
      .ite (fun _ => .pure hleads) ?_
    refine (h.takeMarker directory (hu _ (hdirectory directory rfl))).bind fun _ v hv _ => ?_
    have hleads' : G.KnowsLeads found.2 v := fun lead hlead => hv _ (hleads lead hlead)
    exact .ite (fun _ => .pure hleads') (.pure hleads')

end GuardedSearching

namespace GuardedAll

theorem visitPackage (h : GuardedAll job G) (name : String) (place : Place)
    (hplace : G.knows s place.mount.checkout) :
    Guarded G (Walk.visitPackage job name place) s G.KnowsLeads := by
  refine (h.findPackage place hplace).bind fun (reason, leads) t ht hleads => ?_
  cases reason with
  | none => exact .pure hleads
  | some reason =>
    exact (h.note _ _ t).bind fun _ u hu _ => .pure fun lead hlead => hu _ (hleads lead hlead)

theorem visit (h : GuardedAll job G) {directory : Place} (authoritative : Bool) {lead : Lead}
    (hdirectory : G.knows s directory.mount.checkout)
    (horigin : G.knows s lead.origin.mount.checkout) :
    Guarded G (Walk.visit job directory authoritative lead) s G.KnowsLeads := by
  cases hkind : lead.reference.kind with
  | pathDependency name =>
    unfold Walk.visit
    rw [hkind]
    exact .ite (fun _ => .pure nofun) (h.visitPackage _ (lead.origin.resolve _) horigin)
  | childManifest =>
    exact h.visitFile authoritative hdirectory horigin (by simp [Reference.isPathDependency, hkind])
  | supportFile =>
    exact h.visitFile authoritative hdirectory horigin (by simp [Reference.isPathDependency, hkind])

theorem advance (h : GuardedAll job G) {directory : Place} (authoritative : Bool)
    (stack : List Lead) : ∀ {s : Progress σ}, G.knows s directory.mount.checkout →
    G.KnowsLeads stack s →
    Guarded G (Walk.advance (Walk.visit job directory authoritative) stack) s G.KnowsLeads := by
  induction stack with
  | nil => exact fun _ _ => .pure nofun
  | cons lead rest ih =>
    intro s hdirectory hstack
    obtain ⟨hlead, hrest⟩ := List.forall_mem_cons.1 hstack
    refine (h.visit authoritative hdirectory hlead).bind fun found t ht hfound => ?_
    have hrest' : G.KnowsLeads rest t := fun other hother => ht _ (hrest other hother)
    cases found with
    | nil => exact ih (ht _ hdirectory) hrest'
    | cons first found =>
      refine .pure fun other hother => ?_
      exact (List.mem_append.1 hother).elim (hfound other) (hrest' other)

theorem followAll (h : GuardedAll job G) {directory : Place} (authoritative : Bool) (fuel : Nat) :
    ∀ {stack : List Lead} {s : Progress σ}, G.knows s directory.mount.checkout →
    G.KnowsLeads stack s →
    Guarded G (Walk.followAll (Walk.visit job directory authoritative) fuel stack) s
      fun _ _ => True := by
  induction fuel with
  | zero =>
    intro stack s hdirectory hstack
    refine (h.advance authoritative stack hdirectory hstack).bind fun stack t _ _ => ?_
    cases stack with
    | nil => exact .pure trivial
    | cons lead stack => exact .exhausted
  | succ fuel ih =>
    intro stack s hdirectory hstack
    refine (h.advance authoritative stack hdirectory hstack).bind fun stack t ht hstack' => ?_
    cases stack with
    | nil => exact .pure trivial
    | cons lead stack => exact ih (ht _ hdirectory) hstack'

theorem collectFrom (h : GuardedAll job G) (root : Mount) (hroot : G.knows s root.checkout) :
    Guarded G (Walk.collectFrom job root) s fun _ _ => True :=
  (h.start root hroot).bind fun start _ _ hstart =>
    h.followAll start.authoritative _ hstart.1 hstart.2

end GuardedAll

end Walk

end DependencyFiles
