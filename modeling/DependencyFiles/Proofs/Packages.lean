import DependencyFiles.Collect.Visit
import DependencyFiles.Proofs.Findings

/-!
# What becomes of packages

A package is looked for in the directory that its path leads to: first for specifications,
then for a marker file. It has a reason to be unreachable when there is no directory, or
neither a specification within reach nor a marker.
-/

namespace DependencyFiles

namespace Forge

variable (forge : Forge) (ecosystem : Ecosystem) (settings : Settings)

/-- There is a specification at most as many levels below the directory as are searched. -/
def Specified (directory : Key) : Prop :=
  ∃ n ≤ settings.maxSearchDepth, forge.SpecifiedAt ecosystem settings directory n

/-- The path leads to no directory, or to one with neither a specification within reach nor a
marker that is listed and can be read. -/
def Missing (key : Key) : Prop :=
  ∀ directory, forge.Leads settings key directory →
    ¬ forge.Specified ecosystem settings directory ∧ ¬ forge.Marked ecosystem directory

/-- The path leads to a directory of which a specification within reach or the marker is among the
files. -/
def Supplied (files : List Key) (key : Key) : Prop :=
  ∃ directory, forge.Leads settings key directory ∧
    ((∃ n ≤ settings.maxSearchDepth, forge.HasAt ecosystem settings files directory n) ∨
      markerOf ecosystem directory ∈ files)

/-- The path leads to a directory of which the marker is among the files. -/
def MarkerIn (files : List Key) (key : Key) : Prop :=
  ∃ directory, forge.Leads settings key directory ∧ markerOf ecosystem directory ∈ files

/-- The file is a specification that a search for the package at the path is exposed to. -/
def Specifies (key file : Key) : Prop :=
  ∃ directory, forge.Leads settings key directory ∧ ∃ n ≤ settings.maxSearchDepth, ∃ target,
    forge.Exposes ecosystem settings n directory target ∧ file ∈ forge.specifications ecosystem target

/-- The file is the marker that stands for the package at the path, which has no specification. -/
def Marks (key file : Key) : Prop :=
  ∃ directory, forge.Leads settings key directory ∧ ¬ forge.Specified ecosystem settings directory ∧
    forge.Marked ecosystem directory ∧ file = markerOf ecosystem directory

/-- The marker of the directory is shown by the directory's listing when it can be read. -/
def ShowsMarker (directory : Key) : Prop :=
  (forge.content? (markerOf ecosystem directory)).isSome = true →
    forge.showsFile (markerOf ecosystem directory) = true

variable {forge ecosystem settings}

/-- What is missing can be supplied by its marker alone. -/
theorem Supplied.markerIn {files : List Key} {key : Key}
    (h : forge.Supplied ecosystem settings files key) (hmissing : forge.Missing ecosystem settings key) :
    forge.MarkerIn ecosystem settings files key := by
  obtain ⟨directory, hleads, ⟨n, hn, inner, hlevels, file, hfile, -⟩ | hmarker⟩ := h
  · exact absurd ⟨n, hn, inner, hlevels, List.ne_nil_of_mem hfile⟩ (hmissing directory hleads).1
  · exact ⟨directory, hleads, hmarker⟩

/-- Where directories show their markers, the marker of what is missing is not among files that can be
read. -/
theorem Missing.not_markerIn {files : List Key} {key : Key} (h : forge.Missing ecosystem settings key)
    (hmarkers : ∀ directory, forge.Leads settings key directory → forge.ShowsMarker ecosystem directory)
    (hfiles : ∀ file ∈ files, (forge.content? file).isSome = true) :
    ¬ forge.MarkerIn ecosystem settings files key := by
  intro hthis
  obtain ⟨directory, hleads, hmarker⟩ := hthis
  have hcontent := hfiles _ hmarker
  exact (h directory hleads).2 ⟨hmarkers directory hleads hcontent, hcontent⟩

/-- What is missing has no specification that a search for it is exposed to. -/
theorem Missing.not_specifies {key file : Key} (h : forge.Missing ecosystem settings key) :
    ¬ forge.Specifies ecosystem settings key file := by
  intro hthis
  obtain ⟨directory, hleads, n, hn, target, hexposes, hfile⟩ := hthis
  exact (h directory hleads).1 ⟨n, hn, target, hexposes.levels, List.ne_nil_of_mem hfile⟩

/-- What is missing has no marker. -/
theorem Missing.not_marks {key file : Key} (h : forge.Missing ecosystem settings key) :
    ¬ forge.Marks ecosystem settings key file := by
  intro hthis
  obtain ⟨directory, hleads, -, hmarked, -⟩ := hthis
  exact (h directory hleads).2 hmarked

/-- More files supply at least the same packages. -/
theorem Supplied.mono {files more : List Key} {key : Key} (hsubset : files ⊆ more)
    (h : forge.Supplied ecosystem settings files key) :
    forge.Supplied ecosystem settings more key := by
  obtain ⟨directory, hleads, ⟨n, hn, hhas⟩ | hmarker⟩ := h
  · exact ⟨directory, hleads, .inl ⟨n, hn, hhas.mono hsubset⟩⟩
  · exact ⟨directory, hleads, .inr (hsubset hmarker)⟩

end Forge

namespace Walk

variable {forge : Forge} {job : Job (List Request)} {s t : Progress (List Request)} {root : Mount}

/-- Files were collected, some of which give the leads and at most one of which is not scanned. -/
structure Gathers (job : Job (List Request)) (role : DependencyFile.Role) (P : Place → Prop)
    (Q : Place → DependencyFile.Role → Prop) (leads : List Lead) (s t : Progress (List Request)) :
    Prop where
  files : ∃ files others, t.files = s.files ++ (files ++ others) ∧
    Scanned job role P files leads ∧
    ∀ file ∈ others, ∃ place role content, file = place.toFile job.base role content ∧ Q place role

/-- The files before are collected after. -/
theorem Gathers.keys_subset {role : DependencyFile.Role} {P : Place → Prop}
    {Q : Place → DependencyFile.Role → Prop} {leads : List Lead}
    (h : Gathers job role P Q leads s t) : s.keys ⊆ t.keys := by
  obtain ⟨files, others, hfiles, -⟩ := h
  exact Progress.keys_subset_of_files hfiles

variable (hjob : job.provider = forge.provider)

include hjob

/-- The marker counts as found when it is collected already, or else when it is listed and can be
read. -/
theorem gives_takeMarker (directory : Place) (hs : Sound forge job s) :
    Gives (takeMarker job directory) s (fun found t =>
      Sound forge job t ∧ t.unreachable = s.unreachable ∧
      (forge.Marked job.ecosystem directory.key ∨
        Forge.markerOf job.ecosystem directory.key ∈ s.keys → found = true) ∧
      (found = true → Forge.markerOf job.ecosystem directory.key ∈ t.keys) ∧
      ∃ others, t.files = s.files ++ others ∧ ∀ file ∈ others, ∃ content,
        file = (directory.child job.ecosystem.marker).toFile job.base .specification content ∧
          forge.Marked job.ecosystem directory.key) fun _ _ => True := by
  have hkey : (directory.child job.ecosystem.marker).key =
      Forge.markerOf job.ecosystem directory.key := rfl
  unfold takeMarker
  dsimp only
  rw [gives_bind, gives_isCollected]
  split
  · exact ⟨hs, rfl, fun _ => rfl, fun _ => isCollected_iff.1 ‹_›, [], by simp, by simp⟩
  · have hnew : Forge.markerOf job.ecosystem directory.key ∉ s.keys :=
      fun hkey => absurd (isCollected_iff.2 hkey) ‹_›
    rw [gives_bind]
    apply (tells_isListedFile hjob _ s hs.toTruthful).mono
    intro _ _ hafter
    obtain ⟨rfl, ht, cached, rfl⟩ := hafter
    have hasked := hs.asked ht
    rw [hkey]
    cases hshows : forge.showsFile (Forge.markerOf job.ecosystem directory.key) with
    | false =>
      refine ⟨hasked, rfl, fun hfound => ?_, by simp, [], by simp, by simp⟩
      exact absurd (hfound.resolve_right hnew).1 (by simp [hshows])
    | true =>
      rw [if_pos rfl, gives_bind]
      apply (gives_readOptional hjob hasked.toTruthful _ _).mono
      intro text t hafter
      obtain ⟨rfl, hread⟩ := hafter
      rw [hkey]
      cases hcontent : forge.content? (Forge.markerOf job.ecosystem directory.key) with
      | none =>
        refine ⟨hasked.read hread, hread.searched_eq.2, fun hfound => ?_, by simp, [], ?_, by simp⟩
        · exact absurd (hfound.resolve_right hnew).2 (by simp [hcontent])
        · simpa using hread.files_of_none hcontent
      | some content =>
        refine ⟨hasked.read hread, hread.searched_eq.2, fun _ => rfl, fun _ => ?_, _,
          hread.files_of_some hnew hcontent, ?_⟩
        · exact hread.mem_keys.2 (.inr ⟨rfl, by rw [hkey, hcontent]; rfl⟩)
        · intro file hfile
          exact ⟨content, List.mem_singleton.1 hfile, hshows, by simp [hcontent]⟩

omit hjob

/-- What looking for a package comes to: a reason when it is missing and its marker was not collected
before, or else specifications or a marker, and new files that belong to the package, with its marker
when that stands for it. -/
structure PackageFinding (forge : Forge) (job : Job (List Request)) (root : Mount) (place : Place)
    (s : Progress (List Request)) (result : Option String × List Lead) (t : Progress (List Request)) :
    Prop where
  sound : Sound forge job t
  unreachable : t.unreachable = s.unreachable
  missing : result.1.isSome = true → forge.Missing job.ecosystem job.settings place.key
  found : forge.MarkerIn job.ecosystem job.settings s.keys place.key → result.1 = none
  supplied : result.1 = none → forge.Supplied job.ecosystem job.settings t.keys place.key
  marked : ∀ file, forge.Marks job.ecosystem job.settings place.key file → file ∈ t.keys
  gathers : Gathers job .specification
    (fun file => forge.Mounted root file.mount ∧
      forge.Specifies job.ecosystem job.settings place.key file.key)
    (fun file role => forge.Mounted root file.mount ∧ role = .specification ∧
      forge.Marks job.ecosystem job.settings place.key file.key) result.2 s t

namespace PackageFinding

variable {place : Place} {result : Option String × List Lead}

/-- Where a package is missing nothing is collected for it. -/
theorem nothing_of_missing (h : PackageFinding forge job root place s result t)
    (hmissing : forge.Missing job.ecosystem job.settings place.key) :
    result.2 = [] ∧ t.files = s.files := by
  obtain ⟨files, others, hfiles, hscanned, hothers⟩ := h.gathers
  obtain ⟨rfl, hleads⟩ := hscanned.eq_nil fun file hfile => hmissing.not_specifies hfile.2
  cases others with
  | nil => exact ⟨hleads, by simpa using hfiles⟩
  | cons file others =>
    obtain ⟨_, _, _, -, -, -, hmarks⟩ := hothers file List.mem_cons_self
    exact absurd hmarks hmissing.not_marks

/-- There is a reason exactly when the package is missing and its marker was not collected before. -/
theorem isSome_iff (h : PackageFinding forge job root place s result t) :
    result.1.isSome = true ↔ forge.Missing job.ecosystem job.settings place.key ∧
      ¬ forge.MarkerIn job.ecosystem job.settings s.keys place.key := by
  constructor
  · intro hreason
    refine ⟨h.missing hreason, fun hmarker => ?_⟩
    rw [h.found hmarker] at hreason
    cases hreason
  · intro hthis
    obtain ⟨hmissing, hunmarked⟩ := hthis
    cases hreason : result.1 with
    | some reason => rfl
    | none =>
      have hkeys : t.keys = s.keys :=
        congrArg (List.map DependencyFile.key) (h.nothing_of_missing hmissing).2
      have hmarker := (h.supplied hreason).markerIn hmissing
      rw [hkeys] at hmarker
      exact absurd hmarker hunmarked

end PackageFinding

include hjob

/-- Looking for a package gives a reason when it is missing, and its files when it is not. -/
theorem gives_findPackage (place : Place) (hroot : forge.Mounted root place.mount)
    (hs : Sound forge job s) :
    Gives (findPackage job place) s (PackageFinding forge job root place s) fun _ _ => True := by
  unfold findPackage
  rw [gives_bind]
  apply (tells_locate hjob place s hs.toTruthful).mono
  intro found _ hafter
  obtain ⟨hlocated, ht, cached, rfl⟩ := hafter
  have hasked := hs.asked ht
  cases found with
  | none =>
    have hnowhere (directory : Key) : ¬ forge.Leads job.settings place.key directory :=
      fun hleads => by cases (hlocated.leads directory).1 hleads
    refine ⟨hasked, rfl, fun _ directory hleads => absurd hleads (hnowhere directory), fun hmarker => ?_,
      by simp, fun file hmarks => ?_, ⟨[], [], by simp, .nil, by simp⟩⟩
    · obtain ⟨directory, hleads, -⟩ := hmarker
      exact absurd hleads (hnowhere directory)
    · obtain ⟨directory, hleads, -⟩ := hmarks
      exact absurd hleads (hnowhere directory)
  | some directory =>
    have hleads : forge.Leads job.settings place.key directory.key := (hlocated.leads _).2 rfl
    have honly (other : Key) (hother : forge.Leads job.settings place.key other) :
        directory.key = other := by simpa using (hlocated.leads other).1 hother
    dsimp only
    rw [gives_bind]
    apply (gives_search hjob _ (hlocated.mounted root hroot directory rfl) hasked).mono
    intro result t hafter
    obtain ⟨depth, leads⟩ := result
    obtain ⟨hsound, hleast, hhas, ⟨files, hfiles, hscanned⟩, hunreachable⟩ := hafter
    have hscanned' : Scanned job .specification (fun file => forge.Mounted root file.mount ∧
        forge.Specifies job.ecosystem job.settings place.key file.key) files leads :=
      hscanned.imp fun file hfile => ⟨hfile.1, directory.key, hleads, hfile.2⟩
    cases depth with
    | some n =>
      refine ⟨hsound, hunreachable, by simp, fun _ => rfl, fun _ => ?_, fun file hmarks => ?_,
        ⟨files, [], by simpa using hfiles, hscanned', by simp⟩⟩
      · exact ⟨directory.key, hleads, .inl ⟨n, hleast.1, hhas n rfl⟩⟩
      · obtain ⟨other, hother, hbare, -⟩ := hmarks
        obtain rfl := honly other hother
        exact absurd ⟨n, hleast.1, hleast.2.1⟩ hbare
    | none =>
      have hbare : ¬ forge.Specified job.ecosystem job.settings directory.key :=
        fun ⟨n, hn, hspecified⟩ => hleast n hn hspecified
      simp only [Option.isSome_none, Bool.false_eq_true, if_false, gives_bind]
      apply (gives_takeMarker hjob directory hsound).mono
      intro found u hafter
      obtain ⟨hu, hunreachable', hmarked, hmarker, others, hothers, hroles⟩ := hafter
      have hgathers : u.files = s.files ++ (files ++ others) := by
        rw [hothers, hfiles, List.append_assoc]
      have hkinds (file : DependencyFile) (hfile : file ∈ others) :
          ∃ (marker : Place) (role : DependencyFile.Role) (content : Bytes),
            file = marker.toFile job.base role content ∧ forge.Mounted root marker.mount ∧
              role = .specification ∧ forge.Marks job.ecosystem job.settings place.key marker.key := by
        obtain ⟨content, hcontent, hmarked⟩ := hroles file hfile
        exact ⟨_, _, content, hcontent, hlocated.mounted root hroot directory rfl, rfl, directory.key,
          hleads, hbare, hmarked, rfl⟩
      have htaken (file : Key) (hmarks : forge.Marks job.ecosystem job.settings place.key file) :
          file ∈ u.keys := by
        obtain ⟨other, hother, -, hthis, rfl⟩ := hmarks
        obtain rfl := honly other hother
        exact hmarker (hmarked (.inl hthis))
      cases found with
      | true =>
        refine ⟨hu, hunreachable'.trans hunreachable, by simp, fun _ => rfl, fun _ => ?_, htaken,
          ⟨files, others, hgathers, hscanned', hkinds⟩⟩
        exact ⟨directory.key, hleads, .inr (hmarker rfl)⟩
      | false =>
        refine ⟨hu, hunreachable'.trans hunreachable, fun _ other hother => ?_, fun hthis => ?_, by simp,
          htaken, ⟨files, others, hgathers, hscanned', hkinds⟩⟩
        · obtain rfl := honly other hother
          exact ⟨hbare, fun h => absurd (hmarked (.inl h)) (by simp)⟩
        · obtain ⟨other, hother, hcollected⟩ := hthis
          obtain rfl := honly other hother
          have hkept := Progress.keys_subset_of_files hfiles hcollected
          exact absurd (hmarked (.inr hkept)) (by simp)

end Walk

end DependencyFiles
