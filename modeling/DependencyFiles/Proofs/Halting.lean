import DependencyFiles.Proofs.Surveys
import DependencyFiles.Proofs.RequestLog

/-!
# What steps halt with

A step of a collection halts for few reasons. A question goes unanswered only where the forge was
told to fail, a file that must exist cannot be read, or the references in a file that was read
cannot be told. Nothing that a listing shows makes entering a submodule fail.
-/

namespace DependencyFiles

/-- The halt passes on an error that the forge was told to give for some path. -/
def Forge.Balks (forge : Forge) (halt : Halt) : Prop :=
  ∃ error path, halt = .failed (.provider error) ∧ error.isNotFound = false ∧
    forge.failures.lookup path = some error

/-- Without failures the forge gives no cause to halt. -/
theorem Forge.not_balks {forge : Forge} (hfailures : forge.failures = []) (halt : Halt) :
    ¬ forge.Balks halt := by
  intro hthis
  obtain ⟨error, path, -, -, hpath⟩ := hthis
  rw [hfailures] at hpath
  cases hpath

/-- The errors of a repository say that something is not found. -/
theorem Forge.balks_of_inspect {forge : Forge} {α : Type} {repo : String} {commit : CommitId}
    {path : TreePath} {answer : Repository → Answer α} (hanswer : ∀ repository, (answer repository).Passes)
    {error : ProviderError} (herror : forge.inspect repo commit path answer = .error error)
    (hkind : error.isNotFound = false) : forge.Balks (.failed (.provider error)) := by
  unfold inspect at herror
  split at herror
  · cases herror
    exact ⟨error, path, rfl, hkind, ‹_›⟩
  · split at herror
    · exact absurd hkind (by simp [hanswer _ error herror])
    · cases herror
      cases hkind

/-- A path that a repository does not list is not found. -/
theorem Repository.passes_list (repository : Repository) (path : TreePath) :
    (repository.list path).Passes := by
  intro error herror
  unfold list at herror
  split at herror
  · cases herror
    rfl
  · split at herror
    · cases herror
    · cases herror
    · cases herror
    · split at herror
      · cases herror
      · cases herror
        rfl

/-- A file that a repository does not have is not found. -/
theorem Repository.passes_read (repository : Repository) (path : TreePath) :
    (repository.read path).Passes := by
  intro error herror
  unfold read at herror
  split at herror
  · cases herror
    rfl
  · split at herror
    · cases herror
    · cases herror
      rfl

namespace Walk

section Stops

variable {σ α β : Type} {x : Walk σ α} {s : Progress σ} {told : Halt → Progress σ → Prop}

/-- Of whatever the step halts with, and the state then, something is told. -/
def Stops (x : Walk σ α) (s : Progress σ) (told : Halt → Progress σ → Prop) : Prop :=
  ∀ halt t, x s = .error halt t → told halt t

namespace Stops

theorem pure (a : α) : Stops (pure a) s told := nofun

theorem fail {failure : Failure} (h : told (.failed failure) s) :
    Stops (Walk.fail failure : Walk σ α) s told := by
  intro halt t hhalt
  cases hhalt
  exact h

theorem bind {f : α → Walk σ β} (hx : Stops x s told)
    (hf : ∀ a t, x s = .ok a t → Stops (f a) t told) : Stops (x >>= f) s told := by
  intro halt u hhalt
  rcases bind_eq_error.1 hhalt with hhalt | ⟨a, t, hrun, hhalt⟩
  · exact hx halt u hhalt
  · exact hf a t hrun halt u hhalt

theorem ite {c : Bool} {y : Walk σ α} (hx : c = true → Stops x s told)
    (hy : c = false → Stops y s told) : Stops (if c then x else y) s told := by
  cases c
  · exact hy rfl
  · exact hx rfl

theorem imp {told' : Halt → Progress σ → Prop} (h : Stops x s told)
    (himp : ∀ halt t, told halt t → told' halt t) : Stops x s told' :=
  fun halt t hhalt => himp halt t (h halt t hhalt)

/-- A step that comes to its end whatever happens does not halt. -/
theorem of_gives {result : α → Progress σ → Prop} (h : Gives x s result fun _ _ => False) :
    Stops x s told :=
  fun _ _ hhalt => (h.of_error hhalt).elim

/-- Whether a file is collected is read off the state. -/
theorem isCollected_bind {place : Place} {f : Bool → Walk σ β}
    (h : Stops (f (s.files.any fun file => file.key = place.key)) s told) :
    Stops (Walk.isCollected place >>= f) s told := h

/-- A question that may have no answer halts with an error that is not about something missing. -/
theorem ask? {query : Query (Cached σ) α}
    (h : ∀ error, (query s.cached).1 = .error error → error.isNotFound = false →
      told (.failed (.provider error)) (s.asked query)) : Stops (Walk.ask? query) s told := by
  refine bind nofun fun answer t hask => ?_
  obtain ⟨rfl, rfl⟩ : (query s.cached).1 = answer ∧ s.asked query = t := by
    cases hask
    exact ⟨rfl, rfl⟩
  cases hanswer : (query s.cached).1 with
  | ok a => exact .pure _
  | error error => exact .ite (fun _ => .pure _) fun hkind => .fail (h error hanswer hkind)

end Stops

end Stops

variable {forge : Forge} {job : Job (List Request)} {s : Progress (List Request)}

section Asking

variable (hjob : job.provider = forge.provider) (hs : forge.Truthful s)

include hjob hs

/-- Listing a place halts only where the forge was told to fail. -/
theorem stops_list? (place : Place) : Stops (list? job place) s fun halt _ => forge.Balks halt := by
  refine .ask? fun error herror hkind => ?_
  rw [hjob, hs.list_fst] at herror
  exact Forge.balks_of_inspect (fun repository => repository.passes_list _) herror hkind

/-- A submodule that a listing shows is entered without a halt. -/
theorem gives_enter?_listed {place : Place} {entries : List Entry} {entry : Entry}
    (hlist : forge.listing? place.key = some entries) (hentry : entry ∈ entries)
    (hkind : entry.isSubmodule = true) :
    Gives (enter? job place.mount entry) s (fun _ _ => True) fun _ _ => False := by
  have hplace := gives_entryPlace?_passes hjob hlist hentry hs
  rwa [entryPlace?, if_pos hkind] at hplace

/-- Looking a file up in a listing halts only where the forge was told to fail. -/
theorem stops_isListedFile (place : Place) :
    Stops (isListedFile job place) s fun halt _ => forge.Balks halt :=
  (stops_list? hjob hs _).bind fun entries _ _ => by cases entries <;> exact .pure _

omit hs

/-- Looking for the submodule around a place halts only where the forge was told to fail. -/
theorem stops_throughSubmodule? {place : Place} (ancestors : List TreePath) (hs : forge.Truthful s) :
    Stops (throughSubmodule? job place ancestors) s fun halt _ => forge.Balks halt := by
  induction ancestors generalizing s with
  | nil => exact .pure _
  | cons ancestor rest ih =>
    refine (stops_list? hjob hs _).bind fun entries t hrun => ?_
    obtain ⟨rfl, ht, -⟩ := (tells_list? hjob (place.moveTo ancestor) s hs).of_ok hrun
    cases hlist : forge.listing? (place.moveTo ancestor).key with
    | none => exact ih ht
    | some entries =>
      dsimp only
      split
      · exact .pure _
      · have hentry := List.find?_some ‹_›
        have hmem := List.mem_of_find?_eq_some ‹_›
        have henter := gives_enter?_listed hjob ht hlist hmem (Bool.and_eq_true_iff.1 hentry).1
        exact (Stops.of_gives henter).bind fun root _ _ => by cases root <;> exact .pure _

/-- Locating a place halts only where the forge was told to fail, or at the bound. -/
theorem stops_locateWithin (fuel : Nat) {place : Place} (hs : forge.Truthful s) :
    Stops (locateWithin job fuel place) s fun halt _ => forge.Balks halt ∨ halt = .exhausted := by
  induction fuel generalizing place s with
  | zero =>
    intro halt t hhalt
    cases hhalt
    exact .inr rfl
  | succ fuel ih =>
    refine ((stops_list? hjob hs place).imp fun _ _ => .inl).bind fun entries t hrun => ?_
    obtain ⟨rfl, ht, -⟩ := (tells_list? hjob place s hs).of_ok hrun
    cases hlist : forge.listing? place.key with
    | some entries =>
      dsimp only
      split
      · exact .pure _
      · refine .ite (fun hfollow => ?_) fun _ => .pure _
        exact .of_gives (gives_enter?_listed hjob ht hlist (Entry.mem_of_single? ‹_›)
          (Bool.and_eq_true_iff.1 hfollow).1)
    | none =>
      refine .ite (fun _ => ?_) fun _ => .pure _
      refine ((stops_throughSubmodule? hjob _ ht).imp fun _ _ => .inl).bind fun inner u hrun => ?_
      obtain ⟨-, hu, -⟩ := (tells_throughSubmodule? hjob place _ t ht).of_ok hrun
      cases inner with
      | none => exact .pure _
      | some inner => exact ih hu

end Asking

/-- The halt says that the references in a collected file cannot be told. -/
def Garbled (forge : Forge) (job : Job (List Request)) (root : Mount) (halt : Halt)
    (t : Progress (List Request)) : Prop :=
  ∃ (place : Place) (content : Bytes) (error : ScanError),
    forge.Mounted root place.mount ∧ place.key ∈ t.keys ∧ forge.content? place.key = some content ∧
    job.ecosystem.references (Text.decodeLossy content) (place.rootPath.relativeTo job.base) =
      .error error ∧
    halt = .failed (.ofScan error place.rootPath.toString)

section Reading

variable {root : Mount}

/-- Telling the references of a collected file halts only when they cannot be told. -/
theorem stops_scan {place : Place} {content : Bytes} (hroot : forge.Mounted root place.mount)
    (hkey : place.key ∈ s.keys) (hcontent : forge.content? place.key = some content) :
    Stops (scan job place (Text.decodeLossy content)) s (Garbled forge job root) := by
  unfold scan
  split
  · exact .pure _
  · exact .fail ⟨place, content, _, hroot, hkey, hcontent, ‹_›, rfl⟩

variable (hjob : job.provider = forge.provider)

include hjob

/-- Reading a file does not halt, and its answer is the forge's. -/
theorem gives_readCollecting_answer (place : Place) (role : DependencyFile.Role)
    (hs : forge.Truthful s) :
    Gives (readCollecting job place role) s (fun answer _ => answer = forge.readAt place)
      fun _ _ => False := by
  have hread : (contentOf job place s.cached).1 = forge.readAt place := by
    unfold contentOf
    rw [hjob]
    exact hs.read_fst place.mount.checkout place.path
  rw [gives_readCollecting, hread]
  cases forge.readAt place <;> rfl

/-- Reading a file that may be missing halts only where the forge was told to fail. -/
theorem stops_readOptional (place : Place) (role : DependencyFile.Role) (hs : forge.Truthful s) :
    Stops (readOptional job place role) s fun halt _ => forge.Balks halt := by
  have hread := gives_readCollecting_answer hjob place role hs
  refine (Stops.of_gives hread).bind fun answer t hrun => ?_
  have hanswer := hread.of_ok hrun
  cases answer with
  | ok content => exact .pure _
  | error error =>
    refine .ite (fun _ => .pure _) fun hkind => .fail ?_
    exact Forge.balks_of_inspect (fun repository => repository.passes_read _) hanswer.symm hkind

/-- Reading specifications halts only where the forge was told to fail, or when the references in one
of them cannot be told. -/
theorem stops_readSpecifications (places : List Place)
    (hroot : ∀ place ∈ places, forge.Mounted root place.mount) (hs : forge.Truthful s) :
    Stops (readSpecifications job places) s fun halt t =>
      forge.Balks halt ∨ Garbled forge job root halt t := by
  induction places generalizing s with
  | nil => exact .pure _
  | cons place rest ih =>
    have hrest := fun other hother => hroot other (List.mem_cons_of_mem _ hother)
    unfold readSpecifications
    refine .isCollected_bind <| .ite (fun _ => (ih hrest hs).bind fun _ _ _ => .pure _) fun _ => ?_
    refine ((stops_readOptional hjob place _ hs).imp fun _ _ => .inl).bind fun text t hrun => ?_
    obtain ⟨rfl, hread⟩ := (gives_readOptional hjob hs place .specification).of_ok hrun
    cases hcontent : forge.content? place.key with
    | none => exact ih hrest hread.truthful
    | some content =>
      have hkey : place.key ∈ t.keys := hread.mem_keys.2 (.inr ⟨rfl, by rw [hcontent]; rfl⟩)
      have hscan : Stops (scan job place (Text.decodeLossy content)) t (Garbled forge job root) :=
        stops_scan (hroot place List.mem_cons_self) hkey hcontent
      refine (hscan.imp fun _ _ => .inr).bind fun leads u hrun => ?_
      obtain ⟨rfl, -⟩ := (gives_scan place _).of_ok hrun
      exact (ih hrest hread.truthful).bind fun _ _ _ => .pure _

/-- Searching the directories of listed entries halts only where searching one of them does. -/
theorem stops_searchEntries {place : Place} {listed : List Entry}
    {descend : Place → Walk (List Request) (Option Nat × List Lead)}
    (hdescend : ∀ inner s, forge.Mounted root inner.mount → Sound forge job s →
      Stops (descend inner) s (fun halt t => forge.Balks halt ∨ Garbled forge job root halt t) ∧
        Gives (descend inner) s (fun _ t => Sound forge job t) fun _ _ => True)
    (hroot : forge.Mounted root place.mount) (hlist : forge.listing? place.key = some listed)
    (entries : List Entry) (hentries : ∀ entry ∈ entries, entry ∈ listed) (hs : Sound forge job s) :
    Stops (searchEntries job place descend entries) s fun halt t =>
      forge.Balks halt ∨ Garbled forge job root halt t := by
  induction entries generalizing s with
  | nil => exact .pure _
  | cons entry rest ih =>
    have hentry := hentries entry List.mem_cons_self
    have hrest := fun other hother => hentries other (List.mem_cons_of_mem _ hother)
    refine (Stops.of_gives (gives_entryPlace?_passes hjob hlist hentry hs.toTruthful)).bind
      fun found _ hrun => ?_
    obtain ⟨⟨-, hmounted⟩, ht, cached, rfl⟩ :=
      (tells_entryPlace? hjob place entry s hs.toTruthful).of_ok hrun
    have hasked := hs.asked ht
    cases found with
    | none => exact ih hrest hasked
    | some inner =>
      obtain ⟨hstops, hgives⟩ :=
        hdescend inner _ (hmounted root listed hroot hlist hentry inner rfl) hasked
      refine hstops.bind fun result t hrun => ?_
      exact (ih hrest (hgives.of_ok hrun)).bind fun _ _ _ => .pure _

/-- A search that may go one level further down halts only where the forge was told to fail, or when the
references in some specification cannot be told. -/
theorem stops_searchKept {place : Place} {budget : Nat}
    {descend : Option (Place → Walk (List Request) (Option Nat × List Lead))}
    (hdescend : ∀ f ∈ descend, ∀ inner s, forge.Mounted root inner.mount → Sound forge job s →
      Stops (f inner) s (fun halt t => forge.Balks halt ∨ Garbled forge job root halt t) ∧
        Gives (f inner) s (fun _ t => Sound forge job t) fun _ _ => True)
    (hroot : forge.Mounted root place.mount) (hs : Sound forge job s) :
    Stops (searchKept job budget descend place) s fun halt t =>
      forge.Balks halt ∨ Garbled forge job root halt t := by
  refine .bind nofun fun _ _ hrun => ?_
  cases hrun
  split
  · exact .pure _
  refine ((stops_list? hjob hs.toTruthful place).imp fun _ _ => .inl).bind fun entries t hrun => ?_
  obtain ⟨rfl, ht, cached, rfl⟩ := (tells_list? hjob place s hs.toTruthful).of_ok hrun
  cases hlist : forge.listing? place.key with
  | none => exact .pure _
  | some entries =>
    refine .bind ?_ fun _ _ _ => .bind nofun fun _ _ _ => .pure _
    refine (stops_readSpecifications hjob _ (fun file hfile => ?_) ht).bind fun result u hrun => ?_
    · obtain ⟨entry, -, rfl⟩ := List.mem_map.1 hfile
      exact hroot
    obtain ⟨hu, -⟩ := (gives_readSpecifications hjob _ (P := fun _ => True) (hs.asked ht)
      fun _ _ _ => trivial).of_ok hrun
    refine .ite (fun _ => .pure _) fun _ => ?_
    cases descend with
    | none => exact .pure _
    | some descend =>
      refine (stops_searchEntries hjob (hdescend descend rfl) hroot hlist _ (fun entry hentry => ?_)
        hu).bind fun _ _ _ => .pure _
      exact (List.mem_filter.1 hentry).1

/-- A search halts only where the forge was told to fail, or when the references in some specification
cannot be told. -/
theorem stops_search (budget : Nat) {place : Place} (hroot : forge.Mounted root place.mount)
    (hs : Sound forge job s) : Stops (search job budget place) s fun halt t =>
      forge.Balks halt ∨ Garbled forge job root halt t := by
  induction budget generalizing place s with
  | zero => exact stops_searchKept hjob nofun hroot hs
  | succ budget ih =>
    refine stops_searchKept hjob (fun f hf inner s hinner hs => ?_) hroot hs
    rw [← Option.mem_some_iff.1 hf]
    exact ⟨ih hinner hs, (gives_search hjob budget hinner hs).mono fun _ _ hfinding => hfinding.sound⟩

end Reading

end Walk

end DependencyFiles
