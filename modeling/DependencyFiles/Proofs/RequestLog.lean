import DependencyFiles.Bundler.Basic
import DependencyFiles.Proofs.Answers
import DependencyFiles.Proofs.Course
import DependencyFiles.Proofs.Trees

/-!
# The request log and the collected files

Every file of a collection stands for one successful reading in the forge's request log,
in the order of the log. No file occurs twice, as a reading is kept and repeated from
there, and every file holds what the forge holds.
-/

namespace DependencyFiles

/-- The repository, the commit and the path that a file was read from. -/
def DependencyFile.readFrom (file : DependencyFile) : String × CommitId × TreePath :=
  (file.checkout.repo, file.checkout.commit, file.repoPath)

namespace Forge

/-- The repository, the commit and the path of a request that reads a file with success. -/
def readBy? (forge : Forge) : Request → Option (String × CommitId × TreePath)
  | .read repo commit path =>
    match forge.read repo commit path with
    | .ok _ => some (repo, commit, path)
    | .error _ => none
  | _ => none

/-- The requests since a log, the collected files and the kept contents are in step. -/
structure Logged (forge : Forge) (log : List Request) (p : Progress (List Request)) : Prop
    extends forge.Truthful p where
  requests : ∃ requests, p.cached.inner = log ++ requests ∧
    p.files.map DependencyFile.readFrom = requests.filterMap forge.readBy?
  nodup : (p.files.map DependencyFile.key).Nodup
  mem_keys : ∀ key, key ∈ p.files.map DependencyFile.key ↔
    ∃ content, (key, .ok content) ∈ p.cached.contents

variable {forge : Forge} {log : List Request} {s t : Progress (List Request)}

/-- A collection starts in step. -/
theorem logged_initial (forge : Forge) (log : List Request) :
    forge.Logged log { cached := { inner := log } } :=
  ⟨truthful_initial forge log, ⟨[], by simp⟩, by simp, by simp⟩

/-- Requests that read nothing leave the log, the files and the kept contents in step. -/
theorem Logged.extend (h : forge.Logged log s) (ht : forge.Truthful t) (hfiles : t.files = s.files)
    (hcontents : t.cached.contents = s.cached.contents) {more : List Request}
    (hinner : t.cached.inner = s.cached.inner ++ more) (hmore : more.filterMap forge.readBy? = []) :
    forge.Logged log t := by
  obtain ⟨requests, hlog, hreads⟩ := h.requests
  refine ⟨ht, ⟨requests ++ more, ?_, ?_⟩, ?_, ?_⟩
  · rw [hinner, hlog, List.append_assoc]
  · rw [hfiles, hreads, List.filterMap_append, hmore, List.append_nil]
  · rw [hfiles]
    exact h.nodup
  · rw [hfiles, hcontents]
    exact h.mem_keys

/-- A question to the cache is a request to the forge or none. -/
theorem inner_ask {κ α : Type} [BEq κ] (kept : Kept κ α) (key : κ) (query : Query (List Request) α)
    {request : Request} (hquery : ∀ log, (query log).2 = log ++ [request]) (log : List Request) :
    ∃ more, (kept.ask key query log).2.2 = log ++ more ∧ (more = [] ∨ more = [request]) := by
  unfold Kept.ask
  split
  · exact ⟨[], by simp, .inl rfl⟩
  · exact ⟨[request], hquery log, .inr rfl⟩

variable {job : Job (List Request)}

/-- The forge's answer about the content of a place. -/
def readAt (forge : Forge) (place : Place) : Answer Bytes :=
  forge.read place.mount.checkout.repo place.mount.checkout.commit place.path

/-- The request for the content of a place. -/
def requestAt (place : Place) : Request :=
  .read place.mount.checkout.repo place.mount.checkout.commit place.path

/-- The state after a file has been asked for that was not asked for before. -/
def readAnew (forge : Forge) (s : Progress (List Request)) (place : Place) : Progress (List Request) :=
  { s with cached := { s.cached with
      contents := s.cached.contents ++ [(place.key, forge.readAt place)]
      inner := s.cached.inner ++ [requestAt place] } }

/-- A file that was asked for before is not asked for again. -/
theorem contentOf_kept {place : Place} {answer : Answer Bytes}
    (hkept : List.lookup place.key s.cached.contents = some answer) :
    Walk.contentOf job place s.cached = (answer, s.cached) := by
  unfold Place.key at hkept
  simp [Walk.contentOf, Cached.read, Kept.ask, hkept]

/-- A file that was not asked for before is read now, and the answer is kept. -/
theorem contentOf_new (hjob : job.provider = forge.provider) {place : Place}
    (hnew : List.lookup place.key s.cached.contents = none) :
    Walk.contentOf job place s.cached = (forge.readAt place, (forge.readAnew s place).cached) := by
  unfold Place.key at hnew
  simp [Walk.contentOf, Cached.read, Kept.ask, hnew, hjob, provider, readAnew, readAt, requestAt,
    Place.key]

/-- A request for a file that cannot be read changes neither the readings nor the files. -/
theorem Logged.readAnew_error (h : forge.Logged log s) {place : Place} {error : ProviderError}
    (hread : forge.readAt place = .error error) (ht : forge.Truthful (forge.readAnew s place)) :
    forge.Logged log (forge.readAnew s place) := by
  obtain ⟨requests, hlog, hreads⟩ := h.requests
  unfold readAt at hread
  refine ⟨ht, ⟨requests ++ [requestAt place], ?_, ?_⟩, h.nodup, fun key => ?_⟩
  · simp [readAnew, hlog]
  · simp [readAnew, hreads, requestAt, readBy?, hread]
  · simp [readAnew, h.mem_keys, readAt, hread]

/-- A request for a file that can be read adds one reading and one file. -/
theorem Logged.readAnew_ok (h : forge.Logged log s) {place : Place} {role : DependencyFile.Role}
    {content : Bytes} (hread : forge.readAt place = .ok content)
    (hkey : place.key ∉ s.files.map DependencyFile.key)
    (ht : forge.Truthful (Walk.collecting (forge.readAnew s place) job place role content)) :
    forge.Logged log (Walk.collecting (forge.readAnew s place) job place role content) := by
  obtain ⟨requests, hlog, hreads⟩ := h.requests
  have hfiles : Walk.collecting (forge.readAnew s place) job place role content = _ :=
    Walk.collecting_of_not_mem hkey
  have hcontents : (Walk.collecting (forge.readAnew s place) job place role content).cached.contents =
      s.cached.contents ++ [(place.key, .ok content)] := by
    rw [hfiles, ← hread]
    rfl
  refine ⟨ht, ⟨requests ++ [requestAt place], ?_, ?_⟩, ?_, fun key => ?_⟩
  · rw [hfiles]
    simp [readAnew, hlog]
  · unfold readAt at hread
    rw [hfiles]
    simp [readAnew, hreads, requestAt, readBy?, hread, Place.toFile, DependencyFile.readFrom]
  · rw [hfiles, List.map_append]
    refine List.nodup_append.2 ⟨h.nodup, by simp, fun key hmem other hother heq => hkey ?_⟩
    have hplace : key = place.key := heq.trans (List.mem_singleton.1 hother)
    exact hplace ▸ hmem
  · rw [Walk.mem_keys_collecting, hcontents]
    refine (or_congr_left (h.mem_keys key)).trans ⟨?_, ?_⟩
    · intro hthis
      rcases hthis with ⟨content, hcontent⟩ | rfl
      · exact ⟨content, List.mem_append_left _ hcontent⟩
      · exact ⟨content, by simp⟩
    · intro hthis
      obtain ⟨other, hother⟩ := hthis
      rcases List.mem_append.1 hother with hother | hother
      · exact .inl ⟨other, hother⟩
      · exact .inr (congrArg Prod.fst (List.mem_singleton.1 hother))

/-- Reading a file keeps requests, files and kept contents in step. -/
theorem Logged.read (hjob : job.provider = forge.provider) (h : forge.Logged log s) (place : Place)
    (role : DependencyFile.Role) :
    Walk.Gives (Walk.readCollecting job place role) s (fun _ t => forge.Logged log t)
      fun halt t => forge.Logged log t ∧ halt.isDeferred = false := by
  have htruth := (truthful_keptByAll hjob).read place role s h.toTruthful
  rw [Walk.gives_readCollecting] at htruth ⊢
  cases hkept : List.lookup place.key s.cached.contents with
  | some answer =>
    have hasked : s.asked (Walk.contentOf job place) = s := by
      rw [Progress.asked, contentOf_kept hkept]
    rw [contentOf_kept hkept, hasked]
    cases answer with
    | error error => exact h
    | ok content =>
      have hkey := (h.mem_keys place.key).2 ⟨content, mem_of_lookup hkept⟩
      dsimp only
      rw [Walk.collecting_of_mem hkey]
      exact h
  | none =>
    -- The kept contents are in step with the files, so a file not asked for is not collected.
    have hkey : place.key ∉ s.files.map DependencyFile.key := fun hkey => by
      obtain ⟨content, hcontent⟩ := (h.mem_keys _).1 hkey
      exact absurd (List.lookup_eq_none_iff.1 hkept _ hcontent) (by simp)
    have hasked : s.asked (Walk.contentOf job place) = forge.readAnew s place := by
      rw [Progress.asked, contentOf_new hjob hkept]
      rfl
    rw [contentOf_new hjob hkept, hasked] at htruth ⊢
    cases hread : forge.readAt place with
    | error error =>
      rw [hread] at htruth
      exact h.readAnew_error hread htruth
    | ok content =>
      rw [hread] at htruth
      exact h.readAnew_ok hread hkey htruth

/-- Every step of a collection keeps the log, the files and the kept contents in step. -/
theorem logged_keptByAll (hjob : job.provider = forge.provider) (log : List Request) :
    Walk.KeptByAll job (forge.Logged log) where
  resolve repo reference s hs := by
    have ht := (truthful_keptByAll hjob).resolve repo reference s hs.toTruthful
    rw [hjob, Walk.gives_ask] at ht ⊢
    obtain ⟨more, hinner, hmore⟩ := inner_ask s.cached.commits (repo, reference)
      (forge.provider.resolve repo reference) (fun _ => rfl) s.cached.inner
    exact hs.extend ht rfl rfl hinner (by rcases hmore with rfl | rfl <;> rfl)
  list checkout path s hs := by
    have ht := (truthful_keptByAll hjob).list checkout path s hs.toTruthful
    rw [hjob, Walk.gives_ask] at ht ⊢
    obtain ⟨more, hinner, hmore⟩ := inner_ask s.cached.listings (checkout, path)
      (forge.provider.list checkout.repo checkout.commit path) (fun _ => rfl) s.cached.inner
    exact hs.extend ht rfl rfl hinner (by rcases hmore with rfl | rfl <;> rfl)
  target entry s hs := by
    have ht := (truthful_keptByAll hjob).target entry s hs.toTruthful
    rw [hjob, Walk.gives_ask] at ht ⊢
    exact hs.extend ht rfl rfl (List.append_nil _).symm rfl
  read place role s hs := hs.read hjob place role
  note name reason s hs := by
    have ht := (truthful_keptByAll hjob).note name reason s hs.toTruthful
    unfold Walk.markUnreachable at ht ⊢
    rw [Walk.gives_modify] at ht ⊢
    refine hs.extend ht ?_ ?_ (?_ : _ = _ ++ []) rfl <;> split <;> simp
  keep key outcome s hs :=
    hs.extend ((truthful_keptByAll hjob).keep key outcome s hs.toTruthful) rfl rfl
      (List.append_nil _).symm rfl

end Forge

/-- Whenever a collection from a forge comes to its end, its files are the successful readings of
this collection in the request log, in the same order. No file occurs twice, and every file holds
what the forge holds at its repository, commit and path. -/
theorem Collector.files_eq_readings (forge : Forge) (ecosystem : Ecosystem) (settings : Settings)
    (extent : Extent) (source : Source) (log : List Request) (files : List DependencyFile)
    (unreachable : List Unreachable)
    (hrun : harvest? ((forge.collector ecosystem settings extent).run source log).1 =
      some (files, unreachable)) :
    ∃ requests,
      ((forge.collector ecosystem settings extent).run source log).2 = log ++ requests ∧
      files.map DependencyFile.readFrom = requests.filterMap forge.readBy? ∧
      (files.map DependencyFile.key).Nodup ∧
      ∀ file ∈ files,
        forge.Holds file.checkout.repo file.checkout.commit file.repoPath file.content := by
  obtain ⟨course, rfl, rfl, hend⟩ := exists_course hrun
  have hfinal : forge.Logged log course.final :=
    course.final_of_keptByAll (Forge.logged_keptByAll rfl log) (Forge.logged_initial forge log)
  obtain ⟨requests, hlog, hreads⟩ := hfinal.requests
  refine ⟨requests, ?_, hreads, hfinal.nodup, fun file hfile => ?_⟩
  · rw [hend]
    exact hlog
  · exact Forge.holds_of_read (hfinal.files file hfile)

/-- A forge with one package beside the Gemfile that names two. -/
def Forge.workshop : Forge where
  name := "forge"
  repositories :=
    [{ name := "org/app", commit := ⟨"c1"⟩
       nodes :=
         [(.ofString "Gemfile", .file "gem 'a', path: 'a'\ngem 'b', path: 'b'".toUTF8.toList),
          (.ofString "a/a.gemspec", .file [])] }]

/-- Collecting from this forge comes to its end with files and with an unreachable package. -/
theorem Collector.files_eq_readings_workshop :
    ∃ (files : List DependencyFile) (unreachable : List Unreachable) (requests : List Request),
      harvest? ((Forge.workshop.collector .bundler {} Forge.workshop.extent).run
        ⟨"forge", "org/app", none, .root⟩ []).1 = some (files, unreachable) ∧
        files.length = 2 ∧ unreachable.length = 1 ∧
        files.map DependencyFile.readFrom = requests.filterMap Forge.workshop.readBy? := by
  have hends : (harvest? ((Forge.workshop.collector .bundler {} Forge.workshop.extent).run
      ⟨"forge", "org/app", none, .root⟩ []).1).map
        (fun harvest => (harvest.1.length, harvest.2.length)) = some (2, 1) := by
    decide +kernel
  obtain ⟨⟨files, unreachable⟩, hrun, hlengths⟩ := Option.map_eq_some_iff.1 hends
  obtain ⟨hfiles, hunreachable⟩ := Prod.mk.inj hlengths
  obtain ⟨requests, -, hreads, -, -⟩ := files_eq_readings _ _ _ _ _ _ files unreachable hrun
  exact ⟨files, unreachable, requests, hrun, hfiles, hunreachable, hreads⟩

end DependencyFiles
