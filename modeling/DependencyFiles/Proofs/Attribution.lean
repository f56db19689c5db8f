import DependencyFiles.Proofs.Faults
import DependencyFiles.Proofs.Halting
import DependencyFiles.Proofs.Stages

/-!
# Failures are about what they say

When a collection fails about a directory, it is the requested one, and it fails so exactly when
that directory is not there. When it fails about a file, the file is a manifest or lock file that it
needs and does not find. When it fails about the text of a file, it has read the file, and the
references in it cannot be told.
-/

namespace DependencyFiles

namespace Walk

variable {forge : Forge} {job : Job (List Request)} {s t : Progress (List Request)}
  {checkout : Checkout} {base : Place}

/-- The halt is at the bound, or is a failure that has a cause. -/
def Attributed (forge : Forge) (job : Job (List Request)) (checkout : Checkout) (halt : Halt)
    (t : Progress (List Request)) : Prop :=
  halt = .exhausted ∨ ∃ failure, halt = .failed failure ∧
    forge.Fault job.ecosystem job.settings checkout job.base (t.Holds forge) t.Misses failure

/-- A failure with a cause is attributed. -/
theorem attributed_of_fault {failure : Failure}
    (h : forge.Fault job.ecosystem job.settings checkout job.base (t.Holds forge) t.Misses failure) :
    Attributed forge job checkout (.failed failure) t :=
  .inr ⟨failure, rfl, h⟩

/-- Errors that the forge was told to give are attributed to that. -/
theorem attributed_of_balks {halt : Halt} (h : forge.Balks halt) :
    Attributed forge job checkout halt t := by
  obtain ⟨error, path, rfl, hkind, hpath⟩ := h
  exact attributed_of_fault (.injected hkind hpath)

/-- References that cannot be told are attributed to the file that they stand in. -/
theorem attributed_of_garbled {halt : Halt} (h : Garbled forge job ⟨checkout, .root⟩ halt t) :
    Attributed forge job checkout halt t := by
  obtain ⟨place, content, error, hroot, hkey, hcontent, hscan, rfl⟩ := h
  exact attributed_of_fault (.references hroot ⟨hkey, hcontent⟩ hscan)

/-- A file among the collected files is collected with its content. -/
theorem holds_of_toFile (ht : forge.Truthful t) {place : Place} {requested : TreePath}
    {role : DependencyFile.Role} {content : Bytes}
    (hfile : place.toFile requested role content ∈ t.files) : t.Holds forge place content :=
  ⟨List.mem_map.2 ⟨_, hfile, rfl⟩, ht.content?_eq hfile⟩

/-- A file that was read and has a content is collected with it. -/
theorem AfterRead.holds {place : Place} {role : DependencyFile.Role} {content : Bytes}
    (h : AfterRead forge job place role s t) (hcontent : forge.content? place.key = some content) :
    t.Holds forge place content :=
  ⟨h.mem_keys.2 (.inr ⟨rfl, by rw [hcontent]; rfl⟩), hcontent⟩

section Reading

variable (hjob : job.provider = forge.provider) (place : Place) (role : DependencyFile.Role)

/-- The answer about the content of a file is kept. -/
theorem gives_readCollecting_kept : Gives (readCollecting job place role) s
    (fun answer t => (place.key, answer) ∈ t.cached.contents) fun _ _ => False := by
  have hkept : (place.key, (contentOf job place s.cached).1) ∈
      (contentOf job place s.cached).2.contents := by
    unfold contentOf Cached.read Kept.ask
    dsimp only
    split
    · exact mem_of_lookup ‹_›
    · exact List.mem_append_right _ (List.mem_singleton.2 rfl)
  rw [gives_readCollecting]
  cases hanswer : (contentOf job place s.cached).1 with
  | ok content =>
    rw [hanswer] at hkept
    dsimp only [collecting]
    split <;> exact hkept
  | error error =>
    rw [hanswer] at hkept
    exact hkept

/-- When a file that may be missing has no text, the kept answer is that nothing is found. -/
theorem gives_readOptional_misses : Gives (readOptional job place role) s
    (fun text t => text = none → t.Misses place) fun _ _ => True := by
  unfold readOptional
  rw [gives_bind]
  apply (gives_readCollecting_kept place role).mono
  intro answer t hkept
  cases answer with
  | ok content => exact nofun
  | error error =>
    dsimp only
    split
    · exact fun _ => ⟨error, hkept, ‹_›⟩
    · trivial

include hjob

/-- Reading a file that must exist halts where the forge was told to fail, or when nothing is found. -/
theorem stops_readRequired (hs : forge.Truthful s) : Stops (readRequired job place role) s
    fun halt t => forge.Balks halt ∨
      halt = .failed (.fileNotFound place.rootPath.toString) ∧ t.Misses place ∧ s.keys ⊆ t.keys := by
  have hread := gives_readCollecting_answer hjob place role hs
  refine (Stops.of_gives hread).bind fun answer t hrun => ?_
  have hanswer := hread.of_ok hrun
  have hkept := (gives_readCollecting_kept place role).of_ok hrun
  obtain ⟨-, hafter⟩ := (gives_readAnswer hjob hs place role).of_ok hrun
  cases answer with
  | ok content => exact .pure _
  | error error =>
    refine .fail ?_
    unfold Failure.ofReading
    cases hkind : error.isNotFound with
    | true => exact .inr ⟨rfl, ⟨error, hkept, hkind⟩, hafter.keys_subset⟩
    | false =>
      exact .inl (Forge.balks_of_inspect (fun repository => repository.passes_read _) hanswer.symm hkind)

end Reading

/-- A question that must have an answer gives it, or else halts with the error. -/
theorem Tells.gives_askOr {α : Type} {query : Query (Cached (List Request)) α} {answer : Answer α}
    (h : Tells forge (ask query) (· = answer)) (failure : ProviderError → Failure)
    (hs : forge.Truthful s) :
    Gives (Walk.askOr query failure) s (fun a t => answer = .ok a ∧ forge.Truthful t)
      fun halt _ => ∃ error, answer = .error error ∧ halt = .failed (failure error) := by
  have hask := h s hs
  unfold Walk.askOr
  rw [gives_bind, gives_ask]
  rw [gives_ask] at hask
  obtain ⟨hanswer, ht, -⟩ := hask
  rw [hanswer]
  cases answer with
  | ok a => exact ⟨rfl, ht⟩
  | error error => exact ⟨error, rfl, rfl⟩

section Beginning

variable (hjob : job.provider = forge.provider)

include hjob

/-- A listing that must be there is the forge's, and so is the error without one. -/
theorem gives_askList (key : Key) (failure : ProviderError → Failure) (hs : forge.Truthful s) :
    Gives (askOr (Cached.list job.provider key.1 key.2) failure) s
      (fun entries t => forge.list key.1.repo key.1.commit key.2 = .ok entries ∧ forge.Truthful t)
      fun halt _ => ∃ error, forge.list key.1.repo key.1.commit key.2 = .error error ∧
        halt = .failed (failure error) :=
  (tells_askList hjob key).gives_askOr failure hs

omit hjob

/-- The error of a listing of the base directory is about the directory when nothing is found there, and
else one that the forge was told to give. -/
theorem ofListing_cases {repo : String} {commit : CommitId} {path : TreePath} {error : ProviderError}
    (herror : forge.list repo commit path = .error error) (directory : String) :
    error.isNotFound = true ∧ Failure.ofListing error directory = .directoryNotFound directory ∨
      error.isNotFound = false ∧ forge.Balks (.failed (.ofListing error directory)) := by
  unfold Failure.ofListing
  cases hkind : error.isNotFound with
  | true => exact .inl ⟨rfl, rfl⟩
  | false =>
    exact .inr ⟨rfl, Forge.balks_of_inspect (fun repository => repository.passes_list _) herror hkind⟩

include hjob

/-- The requested directory is opened unless it is not there or the forge was told to fail. -/
theorem gives_openBase (checkout : Checkout) (hs : forge.Truthful s) :
    Gives (openBase job ⟨checkout, .root⟩) s
      (fun _ _ => ¬ forge.NoDirectory job.settings checkout job.base)
      fun halt _ => forge.NoDirectory job.settings checkout job.base ∧
          halt = .failed (.directoryNotFound job.base.toString) ∨
        ¬ forge.NoDirectory job.settings checkout job.base ∧ forge.Balks halt := by
  unfold openBase
  dsimp only
  rw [gives_bind]
  refine (gives_askList hjob (checkout, job.base) _ hs).imp (fun entries t hafter => ?_)
    fun halt t hafter => ?_
  · obtain ⟨hlist, ht⟩ := hafter
    dsimp only at hlist
    cases hone : Entry.single? entries job.base with
    | none =>
      intro hthis
      cases hthis <;> simp_all
    | some entry =>
      have hlisted : forge.listing? (Place.mk ⟨checkout, .root⟩ job.base).key = some entries :=
        congrArg Except.toOption hlist
      dsimp only
      generalize hfollow : (entry.isSubmodule && job.settings.followSubmodules) = follow
      cases follow with
      | false =>
        have hclosed : forge.entered? job.settings entry = none := by simp [Forge.entered?, hfollow]
        rw [if_neg Bool.false_ne_true]
        exact .inl ⟨.closed hlist hone hclosed, rfl⟩
      | true =>
        have hentered : forge.entered? job.settings entry = forge.inside? entry := if_pos hfollow
        rw [if_pos rfl, gives_bind]
        have henter := gives_enter?_listed hjob ht hlisted (Entry.mem_of_single? hone)
          (Bool.and_eq_true_iff.1 hfollow).1
        refine (henter.and (tells_enter? hjob ⟨checkout, .root⟩ entry t ht)).imp
          (fun place u hafter => ?_) fun _ _ hafter => hafter.1.elim
        obtain ⟨-, rfl, hu, -⟩ := hafter
        cases hinside : forge.inside? entry with
        | none => exact .inl ⟨.closed hlist hone (hentered.trans hinside), rfl⟩
        | some inner =>
          dsimp only [Option.map_some]
          rw [gives_bind]
          refine (gives_askList hjob (inner, .root) _ hu).imp (fun listed v hafter => ?_)
            fun halt v hafter => ?_
          · intro hthis
            cases hthis <;> simp_all
          · obtain ⟨error, hinner, rfl⟩ := hafter
            rcases ofListing_cases hinner job.base.toString with ⟨hkind, hfailure⟩ | ⟨hkind, hbalks⟩
            · exact .inl ⟨.unlistedInside hlist hone (hentered.trans hinside) hinner hkind,
                congrArg Halt.failed hfailure⟩
            · refine .inr ⟨fun hthis => ?_, hbalks⟩
              cases hthis <;> simp_all
  · obtain ⟨error, hlist, rfl⟩ := hafter
    dsimp only at hlist
    rcases ofListing_cases hlist job.base.toString with ⟨hkind, hfailure⟩ | ⟨hkind, hbalks⟩
    · exact .inl ⟨.unlisted hlist hkind, congrArg Halt.failed hfailure⟩
    · refine .inr ⟨fun hthis => ?_, hbalks⟩
      cases hthis <;> simp_all

omit hjob in
/-- The manifest of the base directory is chosen, unless the directory lists none of the candidates. -/
theorem gives_chooseManifest_listed {entries : List Entry}
    (hbase : forge.base? job.settings checkout job.base = some base)
    (hlist : forge.listing? base.key = some entries) :
    Gives (chooseManifest job base entries) s
      (fun manifest t => t = s ∧ forge.manifest? job.ecosystem base.key = some manifest)
      (Attributed forge job checkout) := by
  unfold chooseManifest
  split
  · exact ⟨rfl, by rw [Forge.manifest?, hlist]; assumption⟩
  · have hnone := List.find?_eq_none.1 ‹_›
    refine attributed_of_fault (.noManifest hbase hlist fun name hname => ?_)
    simpa using hnone name hname

/-- Reading the lock file halts only where the forge was told to fail, when the lock file is required
and missing, or when what it says cannot be told. -/
theorem stops_readLockfile {entries : List Entry} {manifest : String} {content : Bytes}
    (hbase : forge.base? job.settings checkout job.base = some base)
    (hlist : forge.listing? base.key = some entries)
    (hmanifest : forge.manifest? job.ecosystem base.key = some manifest)
    (hholds : s.Holds forge (base.child manifest) content) (hs : forge.Truthful s) :
    Stops (readLockfile job base entries manifest (Text.decodeLossy content)) s
      (Attributed forge job checkout) := by
  unfold readLockfile
  cases hname : job.ecosystem.lockfileOf manifest with
  | none => exact .pure _
  | some name =>
    have hrequired {t : Progress (List Request)} (hholds : t.Holds forge (base.child manifest) content)
        (hmissing : forge.lockfile? job.ecosystem base.key = none ∨ t.Misses (base.child name)) :
        Stops (if job.settings.requireLockfile || job.ecosystem.needsLockfile (Text.decodeLossy content) then
          fail (.fileNotFound (base.child name).rootPath.toString) else return (([] : List Lead), false)) t
          (Attributed forge job checkout) := by
      refine .ite (fun hneeded => .fail (attributed_of_fault ?_)) fun _ => .pure _
      exact .lockfile hbase hmanifest hname hholds (Bool.or_eq_true_iff.1 hneeded) hmissing
    dsimp only
    unfold readListed
    cases hlisted : listsFile entries name with
    | false =>
      have hlockfile : forge.lockfile? job.ecosystem base.key = none := by
        simp [Forge.lockfile?, hmanifest, hname, hlist, hlisted]
      rw [if_neg Bool.false_ne_true, pure_bind]
      exact hrequired hholds (.inl hlockfile)
    | true =>
      have hlockfile : forge.lockfile? job.ecosystem base.key = some name := by
        simp [Forge.lockfile?, hmanifest, hname, hlist, hlisted]
      rw [if_pos rfl]
      refine ((stops_readOptional hjob (base.child name) _ hs).imp fun _ _ => attributed_of_balks).bind
        fun text t hrun => ?_
      obtain ⟨rfl, hread⟩ := (gives_readOptional hjob hs (base.child name) .lockfile).of_ok hrun
      have hmisses := (gives_readOptional_misses (base.child name) .lockfile).of_ok hrun
      cases hcontent : forge.content? (base.child name).key with
      | none =>
        exact hrequired (hholds.mono hread.keys_subset) (.inr (hmisses (by rw [hcontent]; rfl)))
      | some locked =>
        dsimp only [Option.map_some]
        split
        · exact .fail (attributed_of_fault (.lockText hbase hlockfile (hread.holds hcontent) ‹_›))
        · exact .pure _

/-- Reading the specifications beside the manifest halts only where the forge was told to fail. -/
theorem stops_readBeside (places : List Place) (hs : forge.Truthful s) :
    Stops (readBeside job places) s fun halt _ => forge.Balks halt := by
  induction places generalizing s with
  | nil => exact .pure _
  | cons place rest ih =>
    unfold readBeside
    refine .isCollected_bind <| .ite (fun _ => ih hs) fun _ => ?_
    refine (stops_readOptional hjob place _ hs).bind fun text t hrun => ?_
    obtain ⟨-, hread⟩ := (gives_readOptional hjob hs place .specification).of_ok hrun
    cases text with
    | none => exact ih hread.truthful
    | some text => exact (ih hread.truthful).bind fun _ _ _ => .pure _

omit hjob in
/-- Telling the references of several collected files halts only when those of one of them cannot be
told. -/
theorem stops_scanAll {root : Mount} (contents : List (Place × Bytes))
    (hcontents : ∀ read ∈ contents, forge.Mounted root read.1.mount ∧ s.Holds forge read.1 read.2) :
    Stops (scanAll job (contents.map fun read => (read.1, Text.decodeLossy read.2))) s
      (Garbled forge job root) := by
  induction contents with
  | nil => exact .pure _
  | cons read rest ih =>
    obtain ⟨hroot, hholds⟩ := hcontents read List.mem_cons_self
    refine (stops_scan hroot hholds.1 hholds.2).bind fun leads _ hrun => ?_
    obtain ⟨rfl, -⟩ := (gives_scan read.1 _).of_ok hrun
    exact (ih fun other hother => hcontents other (List.mem_cons_of_mem _ hother)).bind
      fun _ _ _ => .pure _

omit hjob in
/-- The texts that are handed on are those of collected files, and so are the files before. -/
theorem BesideFinding.held {root : Mount} {places : List Place} {texts : List (Place × String)}
    (h : BesideFinding forge job places s texts t)
    (hroots : ∀ place ∈ places, forge.Mounted root place.mount) :
    s.keys ⊆ t.keys ∧ ∃ contents : List (Place × Bytes),
      texts = contents.map (fun read => (read.1, Text.decodeLossy read.2)) ∧
      ∀ read ∈ contents, forge.Mounted root read.1.mount ∧ t.Holds forge read.1 read.2 := by
  obtain ⟨contents, htexts, hfiles, hplaces⟩ := h.gathers
  refine ⟨Progress.keys_subset_of_files hfiles, contents, htexts, fun read hmem =>
    ⟨hroots _ (hplaces read hmem).1, ?_⟩⟩
  have hfile : read.1.toFile job.base .specification read.2 ∈ t.files := by
    rw [hfiles]
    exact List.mem_append_right _ (List.mem_map.2 ⟨read, hmem, rfl⟩)
  exact holds_of_toFile h.sound.toTruthful hfile

/-- A collection that halts before it follows any reference does so for a cause. -/
theorem stops_start (hs : Sound forge job s) :
    Stops (start job ⟨checkout, .root⟩) s (Attributed forge job checkout) := by
  unfold start
  have hopen := gives_openBase hjob checkout hs.toTruthful
  refine Stops.bind (fun halt t hhalt => ?_) fun opened _ hrun => ?_
  · rcases hopen.of_error hhalt with ⟨hdirectory, rfl⟩ | ⟨-, hbalks⟩
    · exact attributed_of_fault (.directory hdirectory)
    · exact attributed_of_balks hbalks
  obtain ⟨base, entries⟩ := opened
  obtain ⟨⟨hbase, hlist, hmounted⟩, ht, cached, rfl⟩ :=
    (tells_openBase hjob checkout s hs.toTruthful).of_ok hrun
  have hasked := hs.asked ht
  dsimp only at hbase hlist hmounted ⊢
  have hchoose := gives_chooseManifest_listed (s := { s with cached }) hbase hlist
  refine Stops.bind (fun halt t hhalt => hchoose.of_error hhalt) fun manifest _ hrun => ?_
  obtain ⟨rfl, hmanifest⟩ := hchoose.of_ok hrun
  refine Stops.bind (fun halt t hhalt => ?_) fun text t hrun => ?_
  · rcases stops_readRequired hjob _ _ ht halt t hhalt with hbalks | ⟨rfl, hmisses, -⟩
    · exact attributed_of_balks hbalks
    · exact attributed_of_fault (.manifest hbase hmanifest hmisses)
  obtain ⟨htext, hread⟩ := (gives_readRequired hjob ht (base.child manifest) .manifest).of_ok hrun
  obtain ⟨content, hcontent, rfl⟩ := Option.map_eq_some_iff.1 htext
  have hholds : t.Holds forge (base.child manifest) content := hread.holds hcontent
  have hsound := hasked.read hread
  refine (stops_readLockfile hjob hbase hlist hmanifest hholds hread.truthful).bind fun locked u hrun => ?_
  have hlocked := (gives_readLockfile hjob _ hlist hmanifest hsound).of_ok hrun
  refine ((stops_readBeside hjob _ hlocked.sound.toTruthful).imp fun _ _ => attributed_of_balks).bind
    fun beside v hrun => ?_
  have hbeside := (gives_readBeside hjob _ hlocked.sound).of_ok hrun
  have hroots : ∀ place ∈ (entries.filter fun entry =>
      entry.isFile && job.ecosystem.isBesideManifest entry.name).map fun entry => base.moveTo entry.path,
      forge.Mounted ⟨checkout, .root⟩ place.mount := by
    intro place hplace
    obtain ⟨entry, -, rfl⟩ := List.mem_map.1 hplace
    exact hmounted
  obtain ⟨hkeys, contents, rfl, hcontents⟩ := hbeside.held hroots
  -- The manifest is scanned only now that the files beside it have been collected.
  have hplace : forge.Mounted ⟨checkout, .root⟩ (base.child manifest).mount := hmounted
  obtain ⟨lockfiles, hlockfiles, -⟩ := hlocked.gathers
  have hmem := hkeys (Progress.keys_subset_of_files hlockfiles hholds.1)
  refine ((stops_scan hplace hmem hcontent).imp fun _ _ => attributed_of_garbled).bind
    fun declared _ hrun => ?_
  obtain ⟨rfl, -⟩ := (gives_scan _ _).of_ok hrun
  exact ((stops_scanAll contents hcontents).imp fun _ _ => attributed_of_garbled).bind
    fun described _ _ => .pure _

end Beginning

/-- The file that a lead stands in has been collected and mentions the lead's reference. -/
def Grounded (forge : Forge) (job : Job (List Request)) (base : Place) (s : Progress (List Request))
    (lead : Lead) : Prop :=
  ∃ content, s.Holds forge lead.origin content ∧ forge.Mentions job.ecosystem job.base base lead.origin
    (Text.decodeLossy content) lead.reference

/-- A lead stays grounded when files are added. -/
theorem Grounded.mono {lead : Lead} (h : Grounded forge job base s lead) (hkeys : s.keys ⊆ t.keys) :
    Grounded forge job base t lead := by
  obtain ⟨content, hholds, hmentions⟩ := h
  exact ⟨content, hholds.mono hkeys, hmentions⟩

/-- The leads of scanned files are grounded. -/
theorem Scanned.grounded {role : DependencyFile.Role} {P : Place → Prop} {files : List DependencyFile}
    {leads : List Lead} (h : Scanned job role P files leads) (ht : forge.Truthful t)
    (hfiles : files ⊆ t.files) {lead : Lead} (hlead : lead ∈ leads) : Grounded forge job base t lead := by
  obtain ⟨-, -, content, references, hfile, hscan, hmem⟩ := h.origin hlead
  exact ⟨content, holds_of_toFile ht (hfiles hfile), .declared hscan hmem⟩

/-- The leads of a collected lock file are grounded. -/
theorem grounded_of_lockScan? {lock : Place} {scan : LockScan} {lead : Lead}
    (h : forge.lockScan? job.ecosystem base job.base = some (lock, scan)) (hlock : lock.key ∈ t.keys)
    (hlead : lead ∈ Forge.lockLeads (some (lock, scan))) : Grounded forge job base t lead := by
  obtain ⟨reference, hmem, rfl⟩ := List.mem_map.1 hlead
  obtain ⟨name, content, hname, hfile, hcontent, hscan⟩ := Forge.exists_of_lockScan? h
  exact ⟨content, ⟨hlock, hcontent⟩, .locked hname hfile hscan hmem⟩

/-- All leads that a collection begins with are grounded. -/
theorem Beginning.grounded {first : Start} (h : Beginning forge job checkout first t) :
    ∀ lead ∈ first.leads, Grounded forge job first.directory t lead := by
  obtain ⟨manifest, content, lockfiles, beside, declared, described, -, -, hfiles, hdeclared, -, hdescribed,
    hleads⟩ := h.gathers
  intro lead hlead
  rw [hleads] at hlead
  rcases List.mem_append.1 hlead with hlead | hlead
  · rcases List.mem_append.1 hlead with hlead | hlead
    · exact hdeclared.grounded h.sound.toTruthful (by simp [hfiles]) hlead
    · cases hscan : forge.lockScan? job.ecosystem first.directory job.base with
      | none =>
        rw [hscan] at hlead
        cases hlead
      | some read =>
        rw [hscan] at hlead
        exact grounded_of_lockScan? hscan (h.locked read hscan) hlead
  · exact hdescribed.grounded h.sound.toTruthful (by simp [hfiles]) hlead

/-- The leads that are left after a visit are grounded. -/
theorem VisitFinding.grounded {root : Mount} {authoritative : Bool} {lead : Lead}
    {rest found : List Lead} (h : VisitFinding forge job root base.key authoritative lead s found t)
    (hstack : ∀ other ∈ lead :: rest, Grounded forge job base s other) :
    ∀ other ∈ found ++ rest, Grounded forge job base t other := by
  obtain ⟨role, hgathers⟩ := h.gathers
  intro other hother
  rcases List.mem_append.1 hother with hother | hother
  · obtain ⟨files, others, hfiles, hscanned, -⟩ := hgathers
    exact hscanned.grounded h.sound.toTruthful (by simp [hfiles]) hother
  · exact (hstack other (List.mem_cons_of_mem _ hother)).mono hgathers.keys_subset

section Following

variable (hjob : job.provider = forge.provider)

include hjob

/-- Taking a marker halts only where the forge was told to fail. -/
theorem stops_takeMarker (directory : Place) (hs : forge.Truthful s) :
    Stops (takeMarker job directory) s fun halt _ => forge.Balks halt := by
  unfold takeMarker
  refine .isCollected_bind <| .ite (fun _ => .pure _) fun _ => ?_
  refine (stops_isListedFile hjob hs _).bind fun listed t hrun => ?_
  obtain ⟨-, ht, -⟩ := (tells_isListedFile hjob _ s hs).of_ok hrun
  exact .ite (fun _ => (stops_readOptional hjob _ _ ht).bind fun _ _ _ => .pure _) fun _ => .pure _

/-- Looking for a package halts only for a cause, or at the bound. -/
theorem stops_findPackage {place : Place} (hroot : forge.Mounted ⟨checkout, .root⟩ place.mount)
    (hs : Sound forge job s) : Stops (findPackage job place) s (Attributed forge job checkout) := by
  refine ((stops_locateWithin hjob _ hs.toTruthful).imp fun halt t hhalt => ?_).bind fun found _ hrun => ?_
  · exact hhalt.elim attributed_of_balks .inl
  obtain ⟨hlocated, ht, cached, rfl⟩ := (tells_locate hjob place s hs.toTruthful).of_ok hrun
  cases found with
  | none => exact .pure _
  | some directory =>
    have hinner := hlocated.mounted _ hroot directory rfl
    have hasked := hs.asked ht
    refine ((stops_search hjob _ hinner hasked).imp fun halt t hhalt => ?_).bind fun result t hrun => ?_
    · exact hhalt.elim attributed_of_balks attributed_of_garbled
    have hfinding := (gives_search hjob _ hinner hasked).of_ok hrun
    refine .ite (fun _ => .pure _) fun _ => ?_
    refine ((stops_takeMarker hjob directory hfinding.sound.toTruthful).imp
      fun _ _ => attributed_of_balks).bind fun _ _ _ => .ite (fun _ => .pure _) fun _ => .pure _

/-- Following a grounded lead halts only for a cause, or at the bound. -/
theorem stops_visit {authoritative : Bool} {lead : Lead}
    (hbase : forge.base? job.settings checkout job.base = some base)
    (hroot : forge.Mounted ⟨checkout, .root⟩ lead.origin.mount) (hs : Sound forge job s)
    (hground : Grounded forge job base s lead) :
    Stops (visit job base authoritative lead) s (Attributed forge job checkout) := by
  have hplace : forge.Mounted ⟨checkout, .root⟩ (lead.origin.resolve lead.reference.path).mount := hroot
  unfold visit
  cases hkind : lead.reference.kind with
  | childManifest =>
    refine .isCollected_bind <| .ite (fun _ => .pure _) fun _ => ?_
    refine Stops.bind (fun halt t hhalt => ?_) fun text t hrun => ?_
    · rcases stops_readRequired hjob _ _ hs.toTruthful halt t hhalt with hbalks | ⟨rfl, hmisses, hkeys⟩
      · exact attributed_of_balks hbalks
      · obtain ⟨content, hholds, hmentions⟩ := hground.mono hkeys
        exact attributed_of_fault (.childManifest hbase hroot hholds hmentions hkind hmisses)
    · obtain ⟨htext, hread⟩ := (gives_readRequired hjob hs.toTruthful _ .childManifest).of_ok hrun
      obtain ⟨content, hcontent, rfl⟩ := Option.map_eq_some_iff.1 htext
      have hholds := hread.holds hcontent
      exact (stops_scan hplace hholds.1 hcontent).imp fun _ _ => attributed_of_garbled
  | supportFile =>
    refine .isCollected_bind <| .ite (fun _ => .pure _) fun _ => ?_
    refine ((stops_isListedFile hjob hs.toTruthful _).imp fun _ _ => attributed_of_balks).bind
      fun listed t hrun => ?_
    obtain ⟨-, ht, -⟩ := (tells_isListedFile hjob _ s hs.toTruthful).of_ok hrun
    refine .ite (fun _ => ?_) fun _ => .pure _
    exact ((stops_readOptional hjob _ _ ht).imp fun _ _ => attributed_of_balks).bind fun _ _ _ => .pure _
  | pathDependency name =>
    refine .ite (fun _ => .pure _) fun _ => ?_
    refine (stops_findPackage hjob hplace hs).bind fun result t _ => ?_
    obtain ⟨reason, leads⟩ := result
    cases reason with
    | none => exact .pure _
    | some reason => exact .bind nofun fun _ _ _ => .pure _

end Following

section Runs

variable {repo reference : String} {log : List Request} (hjob : job.provider = forge.provider)

/-- An invariant of all elementary steps holds whenever a collection ends. -/
theorem KeptByAll.collectSource {σ : Type} {job : Job σ} {I : Progress σ → Prop} (hI : KeptByAll job I)
    (repo reference : String) {s : Progress σ} (hs : I s) :
    Gives (Walk.collectSource job repo reference) s (fun _ t => I t) fun _ t => I t := by
  unfold Walk.collectSource
  rw [gives_bind]
  refine (Keeps.askOr (hI.resolve repo reference) (fun _ => rfl) s hs).imp (fun checkout t ht => ?_)
    fun _ _ h => h.1
  rw [gives_bind]
  refine (hI.collectFrom _ t ht).imp (fun _ u hu => ?_) fun _ _ h => h.1
  unfold Gives
  rw [handOut_eq]
  by_cases hnone : u.unreachable = []
  · rw [if_pos hnone]
    exact hu
  · rw [if_neg hnone]
    exact hu

include hjob

/-- A collection that fails, but not with an error of the provider or for unreachable packages, fails for
a cause. -/
theorem exists_fault_of_collectSource {failure : Failure} {t : Progress (List Request)}
    (hhalt : collectSource job repo reference { cached := { inner := log } } = .error (.failed failure) t)
    (hprovider : failure.isProviderError = false) (hcollected : failure.collected? = none) :
    ∃ checkout, forge.checkout? ⟨repo, reference⟩ = some checkout ∧
      forge.Fault job.ecosystem job.settings checkout job.base (t.Holds forge) t.Misses failure := by
  have hattributed {checkout : Checkout} (h : Attributed forge job checkout (.failed failure) t) :
      forge.Fault job.ecosystem job.settings checkout job.base (t.Holds forge) t.Misses failure := by
    rcases h with h | ⟨other, hother, hfault⟩
    · cases h
    · cases hother
      exact hfault
  cases interrupted_of_collectSource hhalt with
  | opening hopen =>
    have hopening := (tells_askCheckout hjob repo reference).gives_askOr .provider
      (Forge.truthful_initial forge log)
    obtain ⟨error, -, herror⟩ := hopening.of_error hopen
    cases herror
    cases hprovider
  | beginning hopen hstart =>
    obtain ⟨hcheckout, hsound, -⟩ := opening_of_ok hjob hopen
    exact ⟨_, hcheckout, hattributed (stops_start hjob hsound _ _ hstart)⟩
  | @following _ checkout first lead rest s _ hunderway hvisit =>
    obtain ⟨hcheckout, started, hbegan⟩ := hunderway.exists_beginning hjob
    obtain ⟨hwithin, hgrounded⟩ := hunderway.within_and hjob
      (I := fun stack s => ∀ lead ∈ stack, Grounded forge job first.directory s lead)
      (fun hbeginning => hbeginning.grounded) fun hfinding hstack => hfinding.grounded hstack
    have hroot := hwithin.mounted lead List.mem_cons_self
    have hground := hgrounded lead List.mem_cons_self
    exact ⟨checkout, hcheckout,
      hattributed (stops_visit hjob hbegan.base hroot hwithin.sound hground _ _ hvisit)⟩
  | ended => cases hcollected

/-- A collection from a directory that is not there fails about the directory. -/
theorem collectSource_of_noDirectory (hcheckout : forge.checkout? ⟨repo, reference⟩ = some checkout)
    (hdirectory : forge.NoDirectory job.settings checkout job.base) :
    ∃ t, collectSource job repo reference { cached := { inner := log } } =
      .error (.failed (.directoryNotFound job.base.toString)) t := by
  have hresolved : (forge.resolve repo reference).map (⟨forge.name, repo, ·⟩) = .ok checkout := by
    unfold Forge.checkout? at hcheckout
    cases hresolve : forge.resolve repo reference <;> simp_all [Except.map, Except.toOption]
  have hgives : Gives (collectSource job repo reference) { cached := { inner := log } }
      (fun _ _ => False) fun halt _ => halt = .failed (.directoryNotFound job.base.toString) := by
    unfold collectSource
    rw [gives_bind]
    refine ((tells_askCheckout hjob repo reference).gives_askOr .provider
      (Forge.truthful_initial forge log)).imp (fun opened t hafter => ?_) fun halt t hafter => ?_
    · obtain ⟨hopened, ht⟩ := hafter
      obtain rfl : checkout = opened := Except.ok.inj (hresolved.symm.trans hopened)
      unfold collectFrom start
      simp only [gives_bind]
      refine (gives_openBase hjob checkout ht).imp (fun _ _ hthere => absurd hdirectory hthere)
        fun halt t hafter => ?_
      rcases hafter with ⟨-, hhalt⟩ | ⟨hthere, -⟩
      · exact hhalt
      · exact absurd hdirectory hthere
    · obtain ⟨error, herror, -⟩ := hafter
      cases hresolved.symm.trans herror
  cases hrun : collectSource job repo reference { cached := { inner := log } } with
  | ok files t => exact (hgives.of_ok hrun).elim
  | error halt t => exact ⟨t, by rw [hgives.of_error hrun]⟩

/-- A collection fails about a directory exactly when that is the requested one and is not there. -/
theorem collectSource_directoryNotFound_iff (directory : String) :
    (∃ t, collectSource job repo reference { cached := { inner := log } } =
        .error (.failed (.directoryNotFound directory)) t) ↔
      directory = job.base.toString ∧ ∃ checkout, forge.checkout? ⟨repo, reference⟩ = some checkout ∧
        forge.NoDirectory job.settings checkout job.base := by
  constructor
  · intro hthis
    obtain ⟨t, hhalt⟩ := hthis
    obtain ⟨checkout, hcheckout, hfault⟩ := exists_fault_of_collectSource hjob hhalt rfl rfl
    exact ⟨hfault.noDirectory.1, checkout, hcheckout, hfault.noDirectory.2⟩
  · intro hthis
    obtain ⟨rfl, checkout, hcheckout, hdirectory⟩ := hthis
    exact collectSource_of_noDirectory hjob hcheckout hdirectory

end Runs

end Walk

/-- A collection fails about a directory exactly when that is the requested one and is not there in the
checkout that is asked for. Any other failure that is neither an error of the provider nor about
unreachable packages has a cause: a file that the base directory or a file that was read calls for is
missing, or what a file that was read refers to cannot be told, and the requests of the collection show
which files these are. -/
theorem Collector.failures_attributed (forge : Forge) (ecosystem : Ecosystem) (settings : Settings)
    (extent : Extent) (source : Source) (log : List Request) :
    (∀ directory,
      ((forge.collector ecosystem settings extent).run source log).1 =
          .error (.failed (.directoryNotFound directory)) ↔
        directory = source.directory.toString ∧ ∃ checkout,
          forge.checkout?
            ⟨source.repo, (forge.collector ecosystem settings extent).reference source⟩ = some checkout ∧
          forge.NoDirectory settings checkout source.directory) ∧
    ∃ requests, ((forge.collector ecosystem settings extent).run source log).2 = log ++ requests ∧
      ∀ failure, ((forge.collector ecosystem settings extent).run source log).1 =
          .error (.failed failure) →
        failure.isProviderError = false → failure.collected? = none → ∃ checkout,
          forge.checkout?
            ⟨source.repo, (forge.collector ecosystem settings extent).reference source⟩ = some checkout ∧
          forge.Fault ecosystem settings checkout source.directory (forge.ReadIn requests)
            (forge.NothingIn requests) failure := by
  have hjob : ((forge.collector ecosystem settings extent).job source).provider = forge.provider := rfl
  have hdirectory (directory : String) :
      (∃ t, Walk.collectSource ((forge.collector ecosystem settings extent).job source) source.repo
        ((forge.collector ecosystem settings extent).reference source) { cached := { inner := log } } =
          .error (.failed (.directoryNotFound directory)) t) ↔
        directory = source.directory.toString ∧ ∃ checkout,
          forge.checkout?
            ⟨source.repo, (forge.collector ecosystem settings extent).reference source⟩ = some checkout ∧
          forge.NoDirectory settings checkout source.directory :=
    Walk.collectSource_directoryNotFound_iff hjob directory
  have hlogged := (Forge.logged_keptByAll hjob log).collectSource source.repo
    ((forge.collector ecosystem settings extent).reference source) (Forge.logged_initial forge log)
  have hrequested := (Requested.keptByAll hjob log).collectSource source.repo
    ((forge.collector ecosystem settings extent).reference source) (Requested.initial log)
  unfold run
  cases hrun : Walk.collectSource ((forge.collector ecosystem settings extent).job source) source.repo
      ((forge.collector ecosystem settings extent).reference source) { cached := { inner := log } } with
  | ok files t =>
    obtain ⟨requests, hlog, -⟩ := (hrequested.of_ok hrun).evidence (hlogged.of_ok hrun)
    refine ⟨fun directory => ?_, requests, hlog, nofun⟩
    rw [hrun] at hdirectory
    simpa using hdirectory directory
  | error halt t =>
    obtain ⟨requests, hlog, hread, hnothing⟩ :=
      (hrequested.of_error hrun).evidence (hlogged.of_error hrun)
    refine ⟨fun directory => ?_, requests, hlog, fun failure hhalt hprovider hcollected => ?_⟩
    · rw [hrun] at hdirectory
      simpa using hdirectory directory
    · obtain rfl : halt = .failed failure := Except.error.inj hhalt
      obtain ⟨checkout, hcheckout, hfault⟩ :=
        Walk.exists_fault_of_collectSource hjob hrun hprovider hcollected
      exact ⟨checkout, hcheckout, hfault.mono hread hnothing⟩

/-- A forge whose application evaluates a Gemfile that is not there. -/
def Forge.annex : Forge where
  name := "forge"
  repositories :=
    [{ name := "org/app", commit := ⟨"c1"⟩
       nodes :=
         [(.ofString "app/Gemfile", .file "eval_gemfile '../shared/Gemfile'".toUTF8.toList),
          (.ofString "docs/index.md", .file [])] }]

/-- Collecting the application fails about the Gemfile that it evaluates, and collecting a directory that
is not there about the directory. -/
theorem Collector.failures_attributed_annex :
    (∃ requests checkout,
      (Forge.annex.collector .bundler {} Forge.annex.extent).run
        ⟨"forge", "org/app", none, .ofString "app"⟩ [] =
          (.error (.failed (.fileNotFound "/shared/Gemfile")), requests) ∧
      Forge.annex.checkout? ⟨"org/app", "HEAD"⟩ = some checkout ∧
      Forge.annex.Fault .bundler {} checkout (.ofString "app") (Forge.annex.ReadIn requests)
        (Forge.annex.NothingIn requests) (.fileNotFound "/shared/Gemfile")) ∧
    ((Forge.annex.collector .bundler {} Forge.annex.extent).run
      ⟨"forge", "org/app", none, .ofString "lib"⟩ []).1 = .error (.failed (.directoryNotFound "/lib")) := by
  have hcheckout : Forge.annex.checkout? ⟨"org/app", "HEAD"⟩ =
      some ⟨"forge", "org/app", ⟨"c1"⟩⟩ := by decide +kernel
  constructor
  · have hhalt : ((Forge.annex.collector .bundler {} Forge.annex.extent).run
        ⟨"forge", "org/app", none, .ofString "app"⟩ []).1 =
          .error (.failed (.fileNotFound "/shared/Gemfile")) := by
      decide +kernel
    obtain ⟨-, requests, hlog, hcause⟩ := failures_attributed Forge.annex .bundler {} Forge.annex.extent
      ⟨"forge", "org/app", none, .ofString "app"⟩ []
    obtain ⟨checkout, hchecked, hfault⟩ := hcause _ hhalt rfl rfl
    exact ⟨requests, checkout, Prod.ext hhalt hlog, hchecked, hfault⟩
  · obtain ⟨hdirectory, -⟩ := failures_attributed Forge.annex .bundler {} Forge.annex.extent
      ⟨"forge", "org/app", none, .ofString "lib"⟩ []
    refine (hdirectory "/lib").2 ⟨by decide +kernel, _, hcheckout, ?_⟩
    have hlist : Forge.annex.list "org/app" ⟨"c1"⟩ (.ofString "lib") =
        .error (.notFound "/lib") := by decide +kernel
    exact .unlisted hlist rfl

end DependencyFiles
