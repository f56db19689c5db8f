import DependencyFiles.Bundler.Basic
import DependencyFiles.Proofs.Abreast
import DependencyFiles.Proofs.Answers
import DependencyFiles.Provider.Override

/-!
# What becomes of a provider's errors

A collection can be watched: its provider is replaced by one that answers the same and
records what it was asked and what it answered. The record shows that an error other than
"not found" is the last answer that a collection gets, and that it becomes its failure as it
is. Only for the requested reference "not found" becomes the failure, too.
-/

namespace DependencyFiles

variable {σ : Type}

/-- The error that was answered. -/
def errorOf? {α : Type} : Answer α → Option ProviderError
  | .ok _ => none
  | .error error => some error

/-- Errors stay what they are when answers are changed. -/
theorem errorOf?_map {α β : Type} (f : α → β) (answer : Answer α) :
    errorOf? (answer.map f) = errorOf? answer := by
  cases answer <;> rfl

/-- A question that a provider was asked, with its answer. -/
inductive Exchange where
  | resolve (repo reference : String) (answer : Answer CommitId)
  | list (repo : String) (commit : CommitId) (path : TreePath) (answer : Answer (List Entry))
  | read (repo : String) (commit : CommitId) (path : TreePath) (answer : Answer Bytes)
  | target (entry : Entry) (answer : Answer RepoRef)

/-- The error that was answered. -/
def Exchange.error? : Exchange → Option ProviderError
  | resolve _ _ answer => errorOf? answer
  | list _ _ _ answer => errorOf? answer
  | read _ _ _ answer => errorOf? answer
  | target _ answer => errorOf? answer

/-- The question, with a note of the answer at the end of a record. -/
def Query.recorded {α : Type} (query : Query σ α) (exchange : Answer α → Exchange) :
    Query (σ × List Exchange) α :=
  fun (state, record) =>
    let (answer, state) := query state
    (answer, state, record ++ [exchange answer])

/-- The provider, with a record of all that it is asked. -/
def Provider.recorded (provider : Provider σ) : Provider (σ × List Exchange) where
  name := provider.name
  resolve repo reference := Query.recorded (provider.resolve repo reference) (.resolve repo reference)
  list repo commit path := Query.recorded (provider.list repo commit path) (.list repo commit path)
  read repo commit path := Query.recorded (provider.read repo commit path) (.read repo commit path)
  target entry := Query.recorded (provider.target entry) (.target entry)

/-- The collector, with a record of all that its provider is asked. -/
def Collector.recorded (collector : Collector σ) : Collector (σ × List Exchange) :=
  ⟨collector.provider.recorded, collector.ecosystem, collector.settings, collector.extent⟩

/-- The state without the record. -/
def Progress.unrecorded (t : Progress (σ × List Exchange)) : Progress σ where
  cached := ⟨t.cached.inner.1, t.cached.commits, t.cached.listings, t.cached.contents⟩
  files := t.files
  searched := t.searched
  unreachable := t.unreachable

/-- What was asked so far. -/
def Progress.record (t : Progress (σ × List Exchange)) : List Exchange := t.cached.inner.2

/-- An answer that a collection can go on with: no error, or "not found". -/
def Bearable (error? : Option ProviderError) : Prop := ∀ error ∈ error?, error.isNotFound = true

/-- All kept answers are bearable. -/
def Kept.Bearable {κ α : Type} (kept : Kept κ α) : Prop :=
  ∀ entry ∈ kept, DependencyFiles.Bearable (errorOf? entry.2)

/-- Nothing kept or recorded is an error other than "not found". -/
structure Progress.Untroubled (t : Progress (σ × List Exchange)) : Prop where
  commits : t.cached.commits.Bearable
  listings : t.cached.listings.Bearable
  contents : t.cached.contents.Bearable
  record : ∀ exchange ∈ t.record, Bearable exchange.error?

/-- A halt with a provider's error comes right after the answer, the first that is not bearable. No
other halt comes after such an answer. -/
def Accounts (record : List Exchange) : Halt → Prop
  | .failed (.provider error) => error.isNotFound = false ∧ ∃ before exchange,
    record = before ++ [exchange] ∧ exchange.error? = some error ∧
      ∀ earlier ∈ before, Bearable earlier.error?
  | _ => ∀ exchange ∈ record, Bearable exchange.error?

/-- A collection and the same with a record: the states agree but for the record. -/
def recordBond (σ : Type) : Bond σ (σ × List Exchange) where
  going s t := s = t.unrecorded ∧ t.Untroubled
  halted halt s t := s = t.unrecorded ∧ Accounts t.record halt

section Kept

variable {κ α : Type} {kept : Kept κ α}

/-- Nothing kept is bearable. -/
theorem Kept.bearable_nil : Kept.Bearable ([] : Kept κ α) := by simp [Kept.Bearable]

/-- One more bearable answer may be kept. -/
theorem Kept.Bearable.snoc (h : kept.Bearable) {key : κ} {answer : Answer α}
    (hanswer : DependencyFiles.Bearable (errorOf? answer)) :
    Kept.Bearable (kept ++ [(key, answer)]) := by
  intro entry hentry
  rcases List.mem_append.1 hentry with hentry | hentry
  · exact h entry hentry
  · rw [List.mem_singleton.1 hentry]
    exact hanswer

/-- A recorded question gets the same answer and keeps the same. Either the answer was kept before and
is bearable, or it is new, and then it is recorded and kept. -/
theorem Kept.ask_recorded [BEq κ] [LawfulBEq κ] (h : kept.Bearable) (key : κ) (query : Query σ α)
    (exchange : Answer α → Exchange) (inner : σ × List Exchange) :
    ∃ answer kept' state record, kept.ask key query inner.1 = (answer, kept', state) ∧
      kept.ask key (Query.recorded query exchange) inner = (answer, kept', state, record) ∧
      (DependencyFiles.Bearable (errorOf? answer) → kept'.Bearable) ∧
      (record = inner.2 ∧ DependencyFiles.Bearable (errorOf? answer) ∨
        record = inner.2 ++ [exchange answer]) := by
  unfold Kept.ask
  cases hlookup : List.lookup key kept with
  | some answer =>
    exact ⟨answer, kept, inner.1, inner.2, rfl, rfl, fun _ => h, .inl ⟨rfl, h _ (mem_of_lookup hlookup)⟩⟩
  | none => exact ⟨_, _, _, _, rfl, rfl, fun hanswer => h.snoc hanswer, .inr rfl⟩

end Kept

namespace Walk

variable {α : Type}

/-- Questions agree with recorded ones when the answers are the same, and the new states are the same
but for at most one more exchange in the record. -/
theorem agreeOnAnswer_recorded {x : Walk σ (Answer α)} {y : Walk (σ × List Exchange) (Answer α)}
    (h : ∀ t : Progress (σ × List Exchange), t.Untroubled → ∃ answer t',
      x t.unrecorded = .ok answer t'.unrecorded ∧ y t = .ok answer t' ∧
      (Bearable (errorOf? answer) → t'.cached.commits.Bearable ∧ t'.cached.listings.Bearable ∧
        t'.cached.contents.Bearable) ∧
      (t'.record = t.record ∧ Bearable (errorOf? answer) ∨
        ∃ exchange, t'.record = t.record ++ [exchange] ∧ exchange.error? = errorOf? answer)) :
    AgreeOnAnswer (recordBond σ) x y := by
  rintro _ t ⟨rfl, ht⟩
  obtain ⟨answer, t', hx, hy, hkept, hrecord⟩ := h t ht
  have hgoing (hanswer : Bearable (errorOf? answer)) : t'.Untroubled := by
    obtain ⟨hcommits, hlistings, hcontents⟩ := hkept hanswer
    refine ⟨hcommits, hlistings, hcontents, ?_⟩
    rcases hrecord with ⟨hrecord, -⟩ | ⟨exchange, hrecord, hexchange⟩
    · rw [hrecord]
      exact ht.record
    · rw [hrecord]
      intro earlier hearlier
      rcases List.mem_append.1 hearlier with hearlier | hearlier
      · exact ht.record earlier hearlier
      · rw [List.mem_singleton.1 hearlier, hexchange]
        exact hanswer
  refine ⟨answer, _, t', hx, hy, ?_⟩
  cases answer with
  | ok a => exact ⟨rfl, hgoing (by simp [Bearable, errorOf?])⟩
  | error error =>
    dsimp only
    cases hkind : error.isNotFound with
    | true => exact ⟨rfl, hgoing (by simpa [Bearable, errorOf?] using hkind)⟩
    | false =>
      refine ⟨rfl, hkind, ?_⟩
      rcases hrecord with ⟨-, hanswer⟩ | ⟨exchange, hrecord, hexchange⟩
      · exact absurd (hanswer error rfl) (by simp [hkind])
      · exact ⟨t.record, exchange, hrecord, hexchange, ht.record⟩

/-- Without failures of the provider, a halt accounts for the record of an untroubled state. -/
theorem accounts_of_untroubled {t : Progress (σ × List Exchange)} (h : t.Untroubled)
    {failure : Failure} (hkind : failure.isProviderError = false) :
    Accounts t.record (.failed failure) := by
  cases failure with
  | provider error => cases hkind
  | _ => exact h.record

/-- Questions agree with the recorded ones. -/
theorem abreastInAsking_recorded (job : Job σ) :
    AbreastInAsking (recordBond σ) job job.provider.recorded where
  files s t h := by
    rw [h.1]
    rfl
  fail failure s t hkind h := ⟨h.1, accounts_of_untroubled h.2 hkind⟩
  resolve repo reference := by
    refine agreeOnAnswer_recorded fun t ht => ?_
    obtain ⟨answer, kept, state, record, hplain, hrecorded, hkept, hrecord⟩ :=
      Kept.ask_recorded ht.commits (repo, reference) (job.provider.resolve repo reference)
        (.resolve repo reference) t.cached.inner
    refine ⟨answer.map fun commit => ⟨job.provider.name, repo, commit⟩,
      { t with cached := { t.cached with inner := (state, record), commits := kept } }, ?_, ?_, ?_, ?_⟩
    · simp only [ask, Cached.openCheckout, Cached.resolve, Progress.unrecorded, hplain]
    · simp only [ask, Cached.openCheckout, Cached.resolve, Provider.recorded, hrecorded]
    · rw [errorOf?_map]
      exact fun hanswer => ⟨hkept hanswer, ht.listings, ht.contents⟩
    · rw [errorOf?_map]
      exact hrecord.imp id fun hrecord => ⟨_, hrecord, rfl⟩
  list checkout path := by
    refine agreeOnAnswer_recorded fun t ht => ?_
    obtain ⟨answer, kept, state, record, hplain, hrecorded, hkept, hrecord⟩ :=
      Kept.ask_recorded ht.listings (checkout, path)
        (job.provider.list checkout.repo checkout.commit path)
        (.list checkout.repo checkout.commit path) t.cached.inner
    refine ⟨answer, { t with cached := { t.cached with inner := (state, record), listings := kept } },
      ?_, ?_, fun hanswer => ⟨ht.commits, hkept hanswer, ht.contents⟩,
      hrecord.imp id fun hrecord => ⟨_, hrecord, rfl⟩⟩
    · simp only [ask, Cached.list, Progress.unrecorded, hplain]
    · simp only [ask, Cached.list, Provider.recorded, hrecorded]
  target entry := by
    refine agreeOnAnswer_recorded fun t ht => ?_
    exact ⟨_, { t with cached := { t.cached with inner := _ } }, rfl, rfl,
      fun _ => ⟨ht.commits, ht.listings, ht.contents⟩, .inr ⟨_, rfl, rfl⟩⟩

/-- Collecting a file leaves what is kept and recorded as it is. -/
theorem cached_collecting (s : Progress σ) (job : Job σ) (place : Place) (role : DependencyFile.Role)
    (content : Bytes) : (collecting s job place role content).cached = s.cached := by
  unfold collecting
  split <;> rfl

/-- Collecting a file is the same without the record. -/
theorem unrecorded_collecting (t : Progress (σ × List Exchange)) (job : Job σ) (extent : Extent)
    (place : Place) (role : DependencyFile.Role) (content : Bytes) :
    (collecting t (job.over job.provider.recorded extent) place role content).unrecorded =
      collecting t.unrecorded job place role content := by
  unfold collecting
  change Progress.unrecorded (if t.files.any _ = true then _ else _) =
    if t.files.any _ = true then _ else _
  split <;> rfl

/-- Reading a file agrees with reading it on record. -/
theorem agreeOnAnswer_readCollecting (job : Job σ) (extent : Extent) (place : Place)
    (role : DependencyFile.Role) : AgreeOnAnswer (recordBond σ) (readCollecting job place role)
      (readCollecting (job.over job.provider.recorded extent) place role) := by
  refine agreeOnAnswer_recorded fun t ht => ?_
  obtain ⟨answer, kept, state, record, hplain, hrecorded, hkept, hrecord⟩ :=
    Kept.ask_recorded ht.contents place.key
      (job.provider.read place.mount.checkout.repo place.mount.checkout.commit place.path)
      (.read place.mount.checkout.repo place.mount.checkout.commit place.path) t.cached.inner
  have hasked : contentOf job place t.unrecorded.cached =
      (answer, { t.unrecorded.cached with inner := state, contents := kept }) := by
    unfold Place.key at hplain
    simp only [contentOf, Cached.read, Progress.unrecorded, hplain]
  have hasked' : contentOf (job.over job.provider.recorded extent) place t.cached =
      (answer, { t.cached with inner := (state, record), contents := kept }) := by
    unfold Place.key at hrecorded
    simp only [contentOf, Cached.read, Job.over, Provider.recorded, hrecorded]
  rw [readCollecting_eq, readCollecting_eq, hasked, hasked']
  unfold Progress.asked
  rw [hasked, hasked']
  cases answer with
  | ok content =>
    refine ⟨.ok content, collecting _ (job.over job.provider.recorded extent) place role content, ?_, rfl, ?_,
      ?_⟩
    · dsimp only
      rw [unrecorded_collecting]
      rfl
    · rw [cached_collecting]
      exact fun hanswer => ⟨ht.commits, ht.listings, hkept hanswer⟩
    · unfold Progress.record
      rw [cached_collecting]
      exact hrecord.imp id fun hrecord => ⟨_, hrecord, rfl⟩
  | error error =>
    exact ⟨.error error, _, rfl, rfl, fun hanswer => ⟨ht.commits, ht.listings, hkept hanswer⟩,
      hrecord.imp id fun hrecord => ⟨_, hrecord, rfl⟩⟩

/-- A collection agrees in all elementary steps with the same on record. -/
theorem abreast_recorded (job : Job σ) :
    Abreast (recordBond σ) job job.provider.recorded job.extent where
  toAbreastInAsking := abreastInAsking_recorded job
  same s t h := by
    rw [h.1]
    exact ⟨rfl, rfl⟩
  read := agreeOnAnswer_readCollecting job job.extent
  keep key outcome := by
    rintro _ t ⟨rfl, ht⟩
    exact .ok ⟨rfl, ht.commits, ht.listings, ht.contents, ht.record⟩
  note name reason := by
    rintro _ t ⟨rfl, ht⟩
    refine .ok ⟨?_, ?_⟩
    · change (if t.unreachable.any _ = true then _ else _) =
        Progress.unrecorded (if t.unreachable.any _ = true then _ else _)
      split <;> rfl
    · dsimp only
      split
      · exact ht
      · exact ⟨ht.commits, ht.listings, ht.contents, ht.record⟩
  locate place := by
    refine (abreastInAsking_recorded job).locateWithin job.extent ?_ _ place
    rintro _ t ⟨rfl, ht⟩
    exact .error ⟨rfl, ht.record⟩

/-- The first question of a collection is for the requested reference, and every error is passed on. -/
theorem askOr_openCheckout (provider : Provider σ) (repo reference : String) (state : σ) :
    askOr (Cached.openCheckout provider repo reference) .provider { cached := { inner := state } } =
      let (answer, after) := provider.resolve repo reference state
      let opened : Progress σ :=
        { cached := { inner := after, commits := [((repo, reference), answer)] } }
      match answer with
      | .ok commit => .ok ⟨provider.name, repo, commit⟩ opened
      | .error error => .error (.failed (.provider error)) opened := by
  obtain ⟨⟨answer, after⟩, hresolve⟩ : ∃ result, provider.resolve repo reference state = result :=
    ⟨_, rfl⟩
  have hask : ask (Cached.openCheckout provider repo reference) { cached := { inner := state } } =
      .ok (answer.map fun commit => ⟨provider.name, repo, commit⟩)
        { cached := { inner := after, commits := [((repo, reference), answer)] } } := by
    simp [ask, Cached.openCheckout, Cached.resolve, Kept.ask, hresolve]
  rw [askOr, bind_of_ok hask, hresolve]
  cases answer <;> rfl

/-- The bond of whole collections, which may also fail to find the requested reference. -/
def openingBond (σ : Type) (repo reference : String) : Bond σ (σ × List Exchange) where
  going := (recordBond σ).going
  halted halt s t := (recordBond σ).halted halt s t ∨ s = t.unrecorded ∧ ∃ error,
    error.isNotFound = true ∧ halt = .failed (.provider error) ∧
      t.record = [.resolve repo reference (.error error)]

/-- A whole collection ends in the same way as the same on record. -/
theorem sameEnd_collectSource (job : Job σ) (repo reference : String) (state : σ) :
    SameEnd (openingBond σ repo reference)
      (collectSource job repo reference { cached := { inner := state } })
      (collectSource (job.over job.provider.recorded job.extent) repo reference
        { cached := { inner := (state, []) } }) := by
  have habreast := abreast_recorded job
  have hexhausted : Agree (recordBond σ) (throw .exhausted : Walk σ Unit) (throw .exhausted) := by
    rintro _ t ⟨rfl, ht⟩
    exact .error ⟨rfl, ht.record⟩
  have hrest (checkout : Checkout) : Agree (recordBond σ)
      (do collectFrom job ⟨checkout, .root⟩; handOut)
      (do collectFrom (job.over job.provider.recorded job.extent) ⟨checkout, .root⟩; handOut) :=
    ((habreast.start _).bind fun _ =>
      Agree.followAll hexhausted (habreast.visit _ _) _ _).bind fun _ => habreast.handOut
  refine SameEnd.bind ?_ fun checkout s t _ hgoing =>
    (hrest checkout s t hgoing).imp (fun _ _ h => h) fun _ _ _ h => .inl h
  obtain ⟨⟨answer, after⟩, hresolve⟩ : ∃ result, job.provider.resolve repo reference state = result :=
    ⟨_, rfl⟩
  have hresolve' : job.provider.recorded.resolve repo reference (state, []) =
      (answer, after, [.resolve repo reference answer]) := by
    simp [Provider.recorded, Query.recorded, hresolve]
  change SameEnd _ (askOr (Cached.openCheckout job.provider repo reference) _ _)
    (askOr (Cached.openCheckout job.provider.recorded repo reference) _ _)
  rw [askOr_openCheckout, askOr_openCheckout, hresolve, hresolve']
  cases answer with
  | ok commit =>
    have huntroubled : ({ cached := { inner := (after, [.resolve repo reference (.ok commit)]),
                                      commits := [((repo, reference), .ok commit)] } } :
        Progress (σ × List Exchange)).Untroubled :=
      ⟨by simp [Kept.Bearable, Bearable, errorOf?], Kept.bearable_nil, Kept.bearable_nil,
        by simp [Progress.record, Bearable, Exchange.error?, errorOf?]⟩
    exact .ok ⟨rfl, huntroubled⟩
  | error error =>
    refine .error ?_
    cases hkind : error.isNotFound with
    | true => exact .inr ⟨rfl, error, hkind, rfl, rfl⟩
    | false => exact .inl ⟨rfl, hkind, [], _, rfl, rfl, by simp⟩

end Walk

/-- After an answer that is not bearable nothing is asked, and the halt is its error. -/
theorem Accounts.ends {record before after : List Exchange} {halt : Halt} {exchange : Exchange}
    {error : ProviderError} (h : Accounts record halt) (hrecord : record = before ++ exchange :: after)
    (herror : exchange.error? = some error) (hkind : error.isNotFound = false) :
    halt = .failed (.provider error) ∧ after = [] := by
  have hunbearable : ¬ Bearable exchange.error? := fun hbearable => by
    simp [hbearable error herror] at hkind
  have hmem : exchange ∈ record := by simp [hrecord]
  unfold Accounts at h
  split at h
  · rename_i error'
    obtain ⟨-, before', last, hlast, herror', hearlier⟩ := h
    rcases List.eq_nil_or_concat after with rfl | ⟨after, final, rfl⟩
    · obtain ⟨-, hlast⟩ := List.append_inj' (hrecord.symm.trans hlast) rfl
      rw [List.singleton_inj.1 hlast, herror', Option.some_inj] at herror
      exact ⟨by rw [herror], rfl⟩
    · have hsame : before ++ exchange :: after ++ [final] = before' ++ [last] := by
        rw [← hlast, hrecord]
        simp
      obtain ⟨hbefore, -⟩ := List.append_inj' hsame rfl
      exact absurd (hearlier exchange (by simp [← hbefore])) hunbearable
  · exact absurd (h exchange hmem) hunbearable

/-- Every collection can be put on record, with the same result and the same final state of the
provider. An error other than "not found" is the last answer in the record, and the collection fails
with it as it is. A collection that fails with a provider's error got it as its last answer, and it is
not "not found" unless it answers the question for the requested reference. -/
theorem Collector.errors_end_run (collector : Collector σ) (source : Source) (state : σ) :
    ∃ result final exchanges,
      collector.run source state = (result, final) ∧
      collector.recorded.run source (state, []) = (result, final, exchanges) ∧
      (∀ before exchange after error, exchanges = before ++ exchange :: after →
        exchange.error? = some error → error.isNotFound = false →
        result = .error (.failed (.provider error)) ∧ after = []) ∧
      ∀ error, result = .error (.failed (.provider error)) →
        ∃ before exchange, exchanges = before ++ [exchange] ∧ exchange.error? = some error ∧
          (error.isNotFound = false ∨ before = [] ∧
            exchange = .resolve source.repo (collector.reference source) (.error error)) := by
  have hends : Walk.SameEnd (Walk.openingBond σ source.repo (collector.reference source))
      (Walk.collectSource (collector.job source) source.repo (collector.reference source)
        { cached := { inner := state } })
      (Walk.collectSource (collector.recorded.job source) source.repo
        (collector.recorded.reference source) { cached := { inner := (state, []) } }) :=
    Walk.sameEnd_collectSource (collector.job source) source.repo _ state
  unfold run
  generalize Walk.collectSource (collector.job source) _ _ _ = plain at hends ⊢
  generalize Walk.collectSource (collector.recorded.job source) _ _ _ = recorded at hends ⊢
  cases hends with
  | @ok files s t h =>
    obtain ⟨rfl, hgood⟩ := h
    refine ⟨.ok files, _, t.record, rfl, rfl, ?_, nofun⟩
    intro before exchange after error hrecord herror hkind
    have hbearable := hgood.record exchange (by simp [hrecord]) error herror
    simp [hbearable] at hkind
  | @error halt s t h =>
    rcases h with ⟨rfl, haccounts⟩ | ⟨rfl, error, hkind, rfl, hrecord⟩
    · refine ⟨.error halt, _, t.record, rfl, rfl, ?_, ?_⟩
      · intro before exchange after error hrecord herror hkind
        obtain ⟨rfl, hafter⟩ := haccounts.ends hrecord herror hkind
        exact ⟨rfl, hafter⟩
      · rintro error ⟨⟩
        obtain ⟨hkind, before, exchange, hrecord, herror, -⟩ := haccounts
        exact ⟨before, exchange, hrecord, herror, .inl hkind⟩
    · refine ⟨.error (.failed (.provider error)), _, t.record, rfl, rfl, ?_, ?_⟩
      · intro before exchange after error' hrecord' herror hkind'
        have hmem : exchange ∈ t.record := by simp [hrecord']
        rw [hrecord, List.mem_singleton] at hmem
        subst hmem
        cases herror
        simp [hkind] at hkind'
      · rintro _ ⟨⟩
        exact ⟨[], _, hrecord, rfl, .inr ⟨rfl, rfl⟩⟩

/-- A forge whose Gemfile names a package in a submodule. -/
def Forge.outpost : Forge where
  name := "forge"
  repositories :=
    [{ name := "org/app", commit := ⟨"c1"⟩
       nodes :=
         [(.ofString "Gemfile", .file "gem 'a', path: 'sub/a'".toUTF8.toList),
          (.ofString "sub", .submodule ⟨"org/lib", "HEAD"⟩)] }]

-- The submodule's target is asked for while the package is located, and its answer gets through.
example : ((Collector.run
    ⟨Forge.outpost.provider.withTargets [(.ofString "sub", .error (.rateLimited (some 60)))], .bundler, {},
      Forge.outpost.extent⟩ ⟨"forge", "org/app", none, .root⟩ []).1 matches
    .error (.failed (.provider (.rateLimited (some 60))))) := by
  decide +kernel

end DependencyFiles
