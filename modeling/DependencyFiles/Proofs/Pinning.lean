import DependencyFiles.Proofs.Course
import DependencyFiles.Proofs.ProviderErrors

/-!
# Requests are pinned to commits

Whatever a collection lists or reads lies at a commit that an earlier request of the same
collection resolved a reference to. When submodules are not followed, only the requested
reference is resolved, and all files come from its checkout.
-/

namespace DependencyFiles

/-- The repository and the commit that a listing or a reading is about. -/
def Request.subject? : Request → Option (String × CommitId)
  | resolve _ _ => none
  | list repo commit _ => some (repo, commit)
  | read repo commit _ => some (repo, commit)

/-- Resolving a reference is about no commit yet. -/
@[simp] theorem Request.subject?_resolve (repo reference : String) :
    (resolve repo reference).subject? = none := rfl

/-- Whether a reference is to be resolved. -/
def Request.isResolve : Request → Bool
  | resolve _ _ => true
  | _ => false

/-- The requests since a log. -/
def Progress.since (p : Progress (List Request)) (log : List Request) : List Request :=
  p.cached.inner.drop log.length

/-- A halt that is not deferred leaves nothing to hand out. -/
theorem Collector.harvest?_eq_none {halt : Halt} (h : halt.isDeferred = false) :
    harvest? (.error halt) = none := by
  unfold harvest?
  split
  · cases ‹Except.error halt = .ok _›
  · cases ‹Except.error halt = _›
    cases h
  · rfl

namespace Forge

/-- One of the requests resolved a reference of the repository to the commit. -/
def Pins (forge : Forge) (requests : List Request) (repo : String) (commit : CommitId) : Prop :=
  ∃ reference, .resolve repo reference ∈ requests ∧ forge.resolve repo reference = .ok commit

/-- Every listing and reading comes after a request that pins its commit. -/
def AllPinned (forge : Forge) (requests : List Request) : Prop :=
  ∀ before request, before ++ [request] <+: requests →
    ∀ subject ∈ request.subject?, forge.Pins before subject.1 subject.2

variable {forge : Forge} {requests : List Request} {repo : String} {commit : CommitId}

/-- What is pinned stays pinned. -/
theorem Pins.append (h : forge.Pins requests repo commit) (more : List Request) :
    forge.Pins (requests ++ more) repo commit := by
  obtain ⟨reference, hmem, hresolve⟩ := h
  exact ⟨reference, List.mem_append_left _ hmem, hresolve⟩

/-- Nothing is pinned when nothing is requested. -/
theorem allPinned_nil (forge : Forge) : forge.AllPinned [] := by
  intro before request hprefix
  simp at hprefix

/-- One more request may follow when the ones before pin its commit. -/
theorem AllPinned.snoc (h : forge.AllPinned requests) (request : Request)
    (hrequest : ∀ subject ∈ request.subject?, forge.Pins requests subject.1 subject.2) :
    forge.AllPinned (requests ++ [request]) := by
  intro before last hprefix
  rcases List.prefix_concat_iff.1 hprefix with heq | hprefix
  · obtain ⟨rfl, hlast⟩ := List.append_inj' heq rfl
    exact List.singleton_inj.1 hlast ▸ hrequest
  · exact h before last hprefix

/-- A reference may be resolved at any time. -/
theorem AllPinned.snoc_resolve (h : forge.AllPinned requests) (repo reference : String) :
    forge.AllPinned (requests ++ [.resolve repo reference]) :=
  h.snoc _ (by simp)

/-- A checkout of the forge at a commit that has been pinned since the log; without submodules it is
the root. -/
structure Knows (forge : Forge) (follows : Bool) (log : List Request) (root : Checkout)
    (p : Progress (List Request)) (checkout : Checkout) : Prop where
  provider : checkout.provider = forge.name
  pins : forge.Pins (p.since log) checkout.repo checkout.commit
  root_eq : follows = false → checkout = root

/-- The requests since a log are pinned, and so are the files. Without submodules only one request
resolves a reference. -/
structure Pinned (forge : Forge) (follows : Bool) (log : List Request) (root : Checkout)
    (reference : String) (p : Progress (List Request)) : Prop extends forge.Truthful p where
  log_eq : p.cached.inner = log ++ p.since log
  pinned : forge.AllPinned (p.since log)
  resolved : ∀ entry ∈ p.cached.commits, .resolve entry.1.1 entry.1.2 ∈ p.since log
  known : ∀ file ∈ p.files, forge.Knows follows log root p file.checkout
  once : follows = false → (p.since log).filter Request.isResolve = [.resolve root.repo reference]

variable {follows : Bool} {log : List Request} {root : Checkout} {reference : String}
  {s t : Progress (List Request)}

/-- What has been asked since the log, after one more request or none. -/
theorem since_of_inner (hs : s.cached.inner = log ++ s.since log) {request? : Option Request}
    (ht : t.cached.inner = s.cached.inner ++ request?.toList) :
    t.since log = s.since log ++ request?.toList := by
  rw [Progress.since, ht, hs, List.append_assoc, List.drop_left]

/-- Known checkouts stay known when requests are added. -/
theorem Knows.mono {checkout : Checkout} (h : forge.Knows follows log root s checkout)
    {more : List Request} (ht : t.since log = s.since log ++ more) :
    forge.Knows follows log root t checkout :=
  ⟨h.provider, ht ▸ h.pins.append more, h.root_eq⟩

/-- One more request whose commit is pinned, or none, leaves the requests pinned. -/
theorem Pinned.extend (h : forge.Pinned follows log root reference s) (ht : forge.Truthful t)
    {request? : Option Request} (hinner : t.cached.inner = s.cached.inner ++ request?.toList)
    (hpins : ∀ request ∈ request?, ∀ subject ∈ request.subject?,
      forge.Pins (s.since log) subject.1 subject.2)
    (hfollows : ∀ request ∈ request?, request.isResolve = true → follows = true)
    (hresolved : ∀ entry ∈ t.cached.commits, entry ∈ s.cached.commits ∨
      request? = some (.resolve entry.1.1 entry.1.2))
    (hfiles : ∀ file ∈ t.files, forge.Knows follows log root s file.checkout) :
    forge.Pinned follows log root reference t ∧
      ∀ checkout, forge.Knows follows log root s checkout → forge.Knows follows log root t checkout := by
  have hsince := since_of_inner h.log_eq hinner
  refine ⟨⟨ht, ?_, ?_, fun entry hentry => ?_, fun file hfile => (hfiles file hfile).mono hsince, ?_⟩,
    fun checkout hcheckout => hcheckout.mono hsince⟩
  · rw [hsince, ← List.append_assoc, ← h.log_eq, hinner]
  · rw [hsince]
    cases request? with
    | none => simpa using h.pinned
    | some request => exact h.pinned.snoc request (hpins request rfl)
  · rw [hsince]
    rcases hresolved entry hentry with hold | rfl
    · exact List.mem_append_left _ (h.resolved entry hold)
    · exact List.mem_append_right _ (List.mem_singleton_self _)
  · intro hfollow
    rw [hsince, List.filter_append, h.once hfollow]
    cases request? with
    | none => rfl
    | some request =>
      have hnot : request.isResolve = false :=
        Bool.eq_false_iff.2 fun hresolve => Bool.false_ne_true (hfollow ▸ hfollows request rfl hresolve)
      simp [hnot]

/-- One more request about a known checkout, or none, leaves the requests pinned. -/
theorem Pinned.about (h : forge.Pinned follows log root reference s) (ht : forge.Truthful t)
    {request? : Option Request} (hinner : t.cached.inner = s.cached.inner ++ request?.toList)
    {request : Request} (hrequest : ∀ other ∈ request?, other = request) {checkout : Checkout}
    (hsubject : request.subject? = some (checkout.repo, checkout.commit))
    (hkind : request.isResolve = false) (hknown : forge.Knows follows log root s checkout)
    (hcommits : t.cached.commits = s.cached.commits)
    (hfiles : ∀ file ∈ t.files, forge.Knows follows log root s file.checkout) :
    forge.Pinned follows log root reference t ∧
      ∀ checkout, forge.Knows follows log root s checkout → forge.Knows follows log root t checkout := by
  refine h.extend ht hinner (fun other hother subject hmem => ?_) (fun other hother hresolve => ?_)
    (fun entry hentry => .inl (hcommits ▸ hentry)) hfiles
  · rw [hrequest other hother, hsubject] at hmem
    exact Option.mem_some_iff.1 hmem ▸ hknown.pins
  · rw [hrequest other hother, hkind] at hresolve
    cases hresolve

/-- A step that asks nothing and collects nothing leaves the requests pinned. -/
theorem Pinned.same (h : forge.Pinned follows log root reference s) (ht : forge.Truthful t)
    (hcached : t.cached = s.cached) (hfiles : t.files = s.files) :
    forge.Pinned follows log root reference t ∧
      ∀ checkout, forge.Knows follows log root s checkout → forge.Knows follows log root t checkout := by
  have hinner : t.cached.inner = s.cached.inner ++ (none : Option Request).toList := by
    rw [hcached]
    exact (List.append_nil _).symm
  refine h.extend ht hinner nofun nofun ?_ ?_
  · exact fun entry hentry => .inl (hcached ▸ hentry)
  · exact hfiles ▸ h.known

/-- A question to the cache is a request to the forge when its answer is not kept, and then it is kept. -/
theorem ask_kept {κ α : Type} [BEq κ] [LawfulBEq κ] (kept : Kept κ α) (key : κ)
    (query : Query (List Request) α) {request : Request}
    (hquery : ∀ log, (query log).2 = log ++ [request]) (log : List Request) :
    ∃ request?, (kept.ask key query log).2.2 = log ++ request?.toList ∧
      (∀ other ∈ request?, other = request) ∧
      (∀ entry ∈ (kept.ask key query log).2.1, entry ∈ kept ∨ entry.1 = key ∧ request? = some request) ∧
      ∃ answer, (key, answer) ∈ (kept.ask key query log).2.1 := by
  unfold Kept.ask
  split
  · exact ⟨none, (List.append_nil log).symm, nofun, fun _ => .inl, _, mem_of_lookup ‹_›⟩
  · refine ⟨some request, hquery log, fun _ h => (Option.mem_some_iff.1 h).symm, fun entry hentry => ?_,
      _, List.mem_append_right _ (List.mem_singleton_self _)⟩
    rcases List.mem_append.1 hentry with hold | hnew
    · exact .inl hold
    · exact .inr ⟨congrArg Prod.fst (List.mem_singleton.1 hnew), rfl⟩

/-- What a collection from a forge maintains about its requests. -/
def pinning (forge : Forge) (follows : Bool) (log : List Request) (root : Checkout)
    (reference : String) : Guard (List Request) where
  holds := forge.Pinned follows log root reference
  knows := forge.Knows follows log root
  enters := follows = true

variable {job : Job (List Request)}

/-- Reading a file in a known checkout keeps the requests pinned. -/
theorem Pinned.read (hjob : job.provider = forge.provider)
    (h : forge.Pinned follows log root reference s) (place : Place) (role : DependencyFile.Role)
    (hplace : forge.Knows follows log root s place.mount.checkout) :
    Walk.Gives (Walk.readCollecting job place role) s
      (fun _ t => forge.Pinned follows log root reference t ∧
        ∀ checkout, forge.Knows follows log root s checkout → forge.Knows follows log root t checkout)
      fun halt t => forge.Pinned follows log root reference t ∧ halt.isDeferred = false := by
  have ht := (truthful_keptByAll hjob).read place role s h.toTruthful
  rw [Walk.gives_readCollecting] at ht ⊢
  obtain ⟨request?, hinner, hrequest, -, -⟩ := ask_kept s.cached.contents place.key
    (forge.provider.read place.mount.checkout.repo place.mount.checkout.commit place.path)
    (fun _ => rfl) s.cached.inner
  have hextend {t : Progress (List Request)} (ht : forge.Truthful t)
      (hcached : t.cached = (s.asked (Walk.contentOf job place)).cached)
      (hfiles : ∀ file ∈ t.files, forge.Knows follows log root s file.checkout) :=
    have hinner' : t.cached.inner = s.cached.inner ++ request?.toList := by
      rw [hcached, Progress.asked, Walk.contentOf, hjob]
      exact hinner
    h.about ht hinner' hrequest rfl rfl hplace (by rw [hcached]; rfl) hfiles
  cases hcontent : (Walk.contentOf job place s.cached).1 with
  | error error =>
    rw [hcontent] at ht
    exact hextend ht rfl h.known
  | ok content =>
    rw [hcontent] at ht
    refine hextend ht (Walk.cached_collecting ..) fun file hfile => ?_
    unfold Walk.collecting at hfile
    split at hfile
    · exact h.known file hfile
    · rcases List.mem_append.1 hfile with hold | hnew
      · exact h.known file hold
      · exact List.mem_singleton.1 hnew ▸ hplace

/-- Every step of a collection keeps its requests pinned. -/
theorem guardedAll_pinning (hjob : job.provider = forge.provider) (log : List Request)
    (root : Checkout) (reference : String) :
    Walk.GuardedAll job (forge.pinning job.settings.followSubmodules log root reference) where
  enters h := h
  resolve hfollows repo reference s hs := by
    have ht := (truthful_keptByAll hjob).resolve repo reference s hs.toTruthful
    have hanswer := hs.openCheckout_fst repo reference
    rw [hjob, Walk.gives_ask] at ht ⊢
    obtain ⟨request?, hinner, hrequest, hcommits, answer, hkept⟩ := ask_kept s.cached.commits
      (repo, reference) (forge.provider.resolve repo reference) (fun _ => rfl) s.cached.inner
    obtain ⟨hpinned, hmono⟩ := hs.extend ht hinner
      (fun request h => by simp [hrequest request h]) (fun _ _ _ => hfollows)
      (fun entry hentry => (hcommits entry hentry).imp_right fun hnew => by
        rw [hnew.2, hnew.1]) hs.known
    refine ⟨hpinned, hmono, fun checkout hcheckout => ?_⟩
    obtain ⟨commit, hresolve, rfl⟩ : ∃ commit, forge.resolve repo reference = .ok commit ∧
        checkout = ⟨forge.name, repo, commit⟩ := by
      rw [hanswer] at hcheckout
      cases hresolve : forge.resolve repo reference with
      | ok commit => exact ⟨commit, rfl, by rw [hresolve] at hcheckout; cases hcheckout; rfl⟩
      | error error => rw [hresolve] at hcheckout; cases hcheckout
    -- The answer is kept by now, so that its request is among those since the log.
    have hlogged := hpinned.resolved _ hkept
    exact ⟨rfl, ⟨reference, hlogged, hresolve⟩, fun hfollow =>
      absurd (hfollow.symm.trans hfollows) Bool.false_ne_true⟩
  list checkout path s hknown hs := by
    have ht := (truthful_keptByAll hjob).list checkout path s hs.toTruthful
    rw [hjob, Walk.gives_ask] at ht ⊢
    obtain ⟨request?, hinner, hrequest, -, -⟩ := ask_kept s.cached.listings (checkout, path)
      (forge.provider.list checkout.repo checkout.commit path) (fun _ => rfl) s.cached.inner
    have hmore := hs.about ht hinner hrequest rfl rfl hknown rfl hs.known
    exact ⟨hmore.1, hmore.2, trivial⟩
  target entry s hs := by
    have ht := (truthful_keptByAll hjob).target entry s hs.toTruthful
    rw [hjob, Walk.gives_ask] at ht ⊢
    exact ⟨(hs.same ht rfl rfl).1, (hs.same ht rfl rfl).2, trivial⟩
  read place role s hknown hs :=
    (hs.read hjob place role hknown).imp (fun _ _ ht => ⟨ht.1, ht.2, trivial⟩) fun _ _ h => h
  note name reason s hs := by
    have ht := (truthful_keptByAll hjob).note name reason s hs.toTruthful
    unfold Walk.markUnreachable at ht ⊢
    rw [Walk.gives_modify] at ht ⊢
    have hsame := hs.same ht (by split <;> rfl) (by split <;> rfl)
    exact ⟨hsame.1, hsame.2, trivial⟩
  keep key outcome s hs := by
    have hsame := hs.same ((truthful_keptByAll hjob).keep key outcome s hs.toTruthful) rfl rfl
    exact ⟨hsame.1, hsame.2, trivial⟩

/-- The first state of a collection, in which the requested reference has been resolved, is pinned. -/
theorem pinned_opened (hresolve : forge.resolve repo reference = .ok commit) (follows : Bool)
    (log : List Request) :
    forge.Pinned follows log ⟨forge.name, repo, commit⟩ reference
      { cached := { inner := log ++ [.resolve repo reference]
                    commits := [((repo, reference), .ok commit)] } } where
  commits := by simp [Kept.Agrees, hresolve]
  listings := Kept.agrees_nil _
  contents := Kept.agrees_nil _
  files := nofun
  log_eq := by simp [Progress.since]
  pinned := by
    simp only [Progress.since, List.drop_left]
    exact forge.allPinned_nil.snoc_resolve repo reference
  resolved := by simp [Progress.since]
  known := nofun
  once _ := by simp [Progress.since, Request.isResolve]

/-- What has been requested by a collection that ended, and where its files come from. -/
structure Accounted (forge : Forge) (follows : Bool) (log : List Request) (repo reference : String)
    (run : Except Halt (List DependencyFile) × List Request) (requests : List Request) : Prop where
  log_eq : run.2 = log ++ requests
  pinned : forge.AllPinned requests
  /-- Without submodules only the requested reference is resolved. -/
  once : follows = false → requests.filter Request.isResolve = [.resolve repo reference]
  files : ∀ files unreachable, Collector.harvest? run.1 = some (files, unreachable) →
    ∀ file ∈ files, file.checkout.provider = forge.name ∧
      forge.Pins requests file.checkout.repo file.checkout.commit ∧
      (follows = false → forge.checkout? ⟨repo, reference⟩ = some file.checkout)

/-- Pinned requests account for the files of a collection that ends then. -/
theorem Pinned.accounted (h : forge.Pinned follows log root reference s) {repo : String}
    (hroot : forge.checkout? ⟨repo, reference⟩ = some root) {result : Except Halt (List DependencyFile)}
    (hfiles : ∀ files unreachable, Collector.harvest? result = some (files, unreachable) →
      files = s.files) :
    forge.Accounted follows log repo reference (result, s.cached.inner) (s.since log) where
  log_eq := h.log_eq
  pinned := h.pinned
  once hfollow := by
    have hrepo : root.repo = repo := by
      obtain ⟨commit, -, rfl⟩ := Option.map_eq_some_iff.1 hroot
      rfl
    rw [h.once hfollow, hrepo]
  files files unreachable hharvest file hfile := by
    obtain rfl := hfiles files unreachable hharvest
    have hknown := h.known file hfile
    exact ⟨hknown.provider, hknown.pins, fun hfollow => by rw [hroot, hknown.root_eq hfollow]⟩

/-- A collection of a source accounts for its files when it ends. -/
theorem gives_collectSource (job : Job (List Request)) (hjob : job.provider = forge.provider)
    (log : List Request) (repo reference : String) :
    let Accounts (run : Except Halt (List DependencyFile) × List Request) :=
      ∃ requests, forge.Accounted job.settings.followSubmodules log repo reference run requests
    Walk.Gives (Walk.collectSource job repo reference) { cached := { inner := log } }
      (fun files t => Accounts (.ok files, t.cached.inner))
      fun halt t => Accounts (.error halt, t.cached.inner) := by
  intro Accounts
  unfold Walk.collectSource
  rw [Walk.gives_bind, Walk.Gives, hjob, Walk.askOr_openCheckout]
  cases hresolve : forge.resolve repo reference with
  | error error =>
    simp only [provider, hresolve]
    refine ⟨[.resolve repo reference], rfl, forge.allPinned_nil.snoc_resolve repo reference,
      fun _ => rfl, fun files unreachable h => ?_⟩
    rw [Collector.harvest?_eq_none rfl] at h
    cases h
  | ok commit =>
    have hroot : forge.checkout? ⟨repo, reference⟩ = some ⟨forge.name, repo, commit⟩ := by
      simp [checkout?, hresolve, Except.toOption]
    have hopened := pinned_opened hresolve job.settings.followSubmodules log
    have hknown : forge.Knows job.settings.followSubmodules log ⟨forge.name, repo, commit⟩
        _ ⟨forge.name, repo, commit⟩ :=
      ⟨rfl, ⟨reference, hopened.resolved _ (List.mem_singleton_self _), hresolve⟩, fun _ => rfl⟩
    have hcollect := (guardedAll_pinning hjob log ⟨forge.name, repo, commit⟩ reference).collectFrom
      ⟨⟨forge.name, repo, commit⟩, .root⟩ hknown hopened
    simp only [provider, hresolve]
    refine (Walk.gives_bind ..).2 (hcollect.imp (fun _ t ht => ?_) fun halt t ht => ?_)
    · have hpinned : forge.Pinned _ log ⟨forge.name, repo, commit⟩ reference t := ht.1
      rw [Walk.Gives, Walk.handOut_eq]
      by_cases hall : t.unreachable = []
      · rw [if_pos hall]
        exact ⟨_, hpinned.accounted hroot fun _ _ h => by simp_all [Collector.harvest?]⟩
      · rw [if_neg hall]
        exact ⟨_, hpinned.accounted hroot fun _ _ h => by simp_all [Collector.harvest?]⟩
    · have hpinned : forge.Pinned _ log ⟨forge.name, repo, commit⟩ reference t := ht.1
      exact ⟨_, hpinned.accounted hroot fun _ _ h => by
        rw [Collector.harvest?_eq_none ht.2] at h
        cases h⟩

end Forge

/-- However a collection from a forge ends, whatever it listed or read lies at a commit that it had
resolved a reference to before, and so do its files, which are the forge's. When submodules are not
followed, it resolves the requested reference only, and its files are in the checkout that this
reference leads to. -/
theorem Collector.requests_pinned (forge : Forge) (ecosystem : Ecosystem) (settings : Settings)
    (extent : Extent) (source : Source) (log : List Request) :
    let collector := forge.collector ecosystem settings extent
    ∃ requests, forge.Accounted settings.followSubmodules log source.repo
      (collector.reference source) (collector.run source log) requests := by
  intro collector
  have hgives := Forge.gives_collectSource (collector.job source) rfl log source.repo
    (collector.reference source)
  unfold run
  cases hrun : Walk.collectSource (collector.job source) source.repo (collector.reference source)
      { cached := { inner := log } } with
  | ok files t => exact hgives.of_ok hrun
  | error halt t => exact hgives.of_error hrun

end DependencyFiles
