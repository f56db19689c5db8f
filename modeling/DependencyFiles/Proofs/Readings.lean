import DependencyFiles.Proofs.Questions

/-!
# Steps that read files

A file that can be read is collected, unless it is collected already, and what it refers to
gives leads. Steps that read several files collect some and give the leads of these.
-/

namespace DependencyFiles

/-- The keys of the collected files. -/
def Progress.keys {σ : Type} (s : Progress σ) : List Key := s.files.map DependencyFile.key

/-- Files stay collected when more are added. -/
theorem Progress.keys_subset_of_files {σ : Type} {s t : Progress σ} {more : List DependencyFile}
    (h : t.files = s.files ++ more) : s.keys ⊆ t.keys := by
  unfold keys
  rw [h]
  exact List.map_subset _ (List.subset_append_left _ _)

namespace Walk

variable {forge : Forge} {job : Job (List Request)} {s t : Progress (List Request)}

/-- The state after a file was asked for, which is collected when it can be read. -/
structure AfterRead (forge : Forge) (job : Job (List Request)) (place : Place)
    (role : DependencyFile.Role) (s t : Progress (List Request)) : Prop where
  truthful : forge.Truthful t
  state : ∃ cached, t = match forge.content? place.key with
    | some content => collecting { s with cached } job place role content
    | none => { s with cached }

namespace AfterRead

variable {place : Place} {role : DependencyFile.Role}

/-- Reading a file changes neither the outcomes of searches nor the packages noted. -/
theorem searched_eq (h : AfterRead forge job place role s t) :
    t.searched = s.searched ∧ t.unreachable = s.unreachable := by
  obtain ⟨-, cached, rfl⟩ := h
  split
  · unfold collecting
    split <;> exact ⟨rfl, rfl⟩
  · exact ⟨rfl, rfl⟩

/-- The files collected after a reading are those before and the one that can be read. -/
theorem mem_keys (h : AfterRead forge job place role s t) {key : Key} :
    key ∈ t.keys ↔ key ∈ s.keys ∨ key = place.key ∧ (forge.content? place.key).isSome = true := by
  obtain ⟨-, cached, rfl⟩ := h
  cases forge.content? place.key with
  | some content =>
    simp only [Option.isSome_some, and_true]
    exact mem_keys_collecting
  | none =>
    simp only [Option.isSome_none, Bool.false_eq_true, and_false, or_false]
    exact Iff.rfl

/-- The files before a reading are collected after it. -/
theorem keys_subset (h : AfterRead forge job place role s t) : s.keys ⊆ t.keys :=
  fun _ hkey => h.mem_keys.2 (.inl hkey)

/-- A file that cannot be read leaves the files as they are. -/
theorem files_of_none (h : AfterRead forge job place role s t)
    (hread : forge.content? place.key = none) : t.files = s.files := by
  obtain ⟨-, cached, rfl⟩ := h
  rw [hread]

/-- A file that is collected already leaves the files as they are. -/
theorem files_of_mem (h : AfterRead forge job place role s t) (hmem : place.key ∈ s.keys) :
    t.files = s.files := by
  obtain ⟨-, cached, rfl⟩ := h
  split
  · rw [collecting_of_mem (s := { s with cached }) hmem]
  · rfl

/-- A file that can be read and is not collected yet becomes the last file. -/
theorem files_of_some (h : AfterRead forge job place role s t) (hnew : place.key ∉ s.keys)
    {content : Bytes} (hread : forge.content? place.key = some content) :
    t.files = s.files ++ [place.toFile job.base role content] := by
  obtain ⟨-, cached, rfl⟩ := h
  rw [hread]
  exact congrArg Progress.files (collecting_of_not_mem (s := { s with cached }) hnew)

end AfterRead

/-- Whether a file is collected is whether its key is. -/
theorem isCollected_iff {place : Place} :
    (s.files.any fun file => file.key = place.key) = true ↔ place.key ∈ s.keys := by
  simp [Progress.keys]

section Readings

variable (hjob : job.provider = forge.provider) (hs : forge.Truthful s) (place : Place)
  (role : DependencyFile.Role)

include hjob hs

/-- Reading a file gets what the forge reads. -/
theorem gives_readAnswer : Gives (readCollecting job place role) s
    (fun answer t => answer.toOption = forge.content? place.key ∧ AfterRead forge job place role s t)
    fun _ _ => True := by
  have ht := (Forge.truthful_keptByAll hjob).read place role s hs
  have hread : forge.content? place.key = (contentOf job place s.cached).1.toOption := by
    unfold contentOf
    rw [hjob, hs.read_fst place.mount.checkout place.path]
    rfl
  rw [gives_readCollecting] at ht ⊢
  cases hanswer : (contentOf job place s.cached).1 with
  | ok content =>
    rw [hanswer] at hread ht
    exact ⟨hread.symm, ht, (contentOf job place s.cached).2, by rw [hread]; rfl⟩
  | error error =>
    rw [hanswer] at hread ht
    exact ⟨hread.symm, ht, (contentOf job place s.cached).2, by rw [hread]; rfl⟩

/-- Reading a file that may be missing gets its text when the forge can read it. -/
theorem gives_readOptional : Gives (readOptional job place role) s
    (fun text t => text = (forge.content? place.key).map Text.decodeLossy ∧
      AfterRead forge job place role s t) fun _ _ => True := by
  unfold readOptional
  rw [gives_bind]
  apply (gives_readAnswer hjob hs place role).mono
  intro answer t hafter
  obtain ⟨hanswer, ht⟩ := hafter
  rw [← hanswer]
  cases answer with
  | ok content => exact ⟨rfl, ht⟩
  | error error =>
    dsimp only
    split
    · exact ⟨rfl, ht⟩
    · trivial

/-- Reading a file that must exist gets its text. -/
theorem gives_readRequired : Gives (readRequired job place role) s
    (fun text t => (forge.content? place.key).map Text.decodeLossy = some text ∧
      AfterRead forge job place role s t) fun _ _ => True := by
  unfold readRequired
  rw [gives_bind]
  apply (gives_readAnswer hjob hs place role).mono
  intro answer t hafter
  obtain ⟨hanswer, ht⟩ := hafter
  rw [← hanswer]
  cases answer with
  | ok content => exact ⟨rfl, ht⟩
  | error error => trivial

end Readings

/-- The files were collected in one role from places of some kind, and the leads are the references
in them, one file after the other. -/
inductive Scanned (job : Job (List Request)) (role : DependencyFile.Role) (P : Place → Prop) :
    List DependencyFile → List Lead → Prop
  | nil : Scanned job role P [] []
  | cons {place : Place} {content : Bytes} {references : List Reference}
      {files : List DependencyFile} {leads : List Lead} (hplace : P place)
      (hscan : job.ecosystem.references (Text.decodeLossy content)
        (place.rootPath.relativeTo job.base) = .ok references)
      (hrest : Scanned job role P files leads) :
      Scanned job role P (place.toFile job.base role content :: files)
        (references.map (⟨·, place, false⟩) ++ leads)

namespace Scanned

variable {role : DependencyFile.Role} {P Q : Place → Prop} {files more : List DependencyFile}
  {leads others : List Lead}

/-- Files collected one after the other give the leads of all of them. -/
theorem append (h : Scanned job role P files leads) (hmore : Scanned job role P more others) :
    Scanned job role P (files ++ more) (leads ++ others) := by
  induction h with
  | nil => exact hmore
  | cons hplace hscan _ ih =>
    rw [List.append_assoc]
    exact .cons hplace hscan ih

/-- The kind of the places may be widened. -/
theorem imp (h : Scanned job role P files leads) (hPQ : ∀ place, P place → Q place) :
    Scanned job role Q files leads := by
  induction h with
  | nil => exact .nil
  | cons hplace hscan _ ih => exact .cons (hPQ _ hplace) hscan ih

/-- Where no file is of the kind there are no files and no leads. -/
theorem eq_nil (h : Scanned job role P files leads) (hP : ∀ place, ¬ P place) :
    files = [] ∧ leads = [] := by
  cases h with
  | nil => exact ⟨rfl, rfl⟩
  | cons hplace => exact absurd hplace (hP _)

/-- Every file has been scanned, and its references are among the leads. -/
theorem announced (h : Scanned job role P files leads) {file : DependencyFile} (hfile : file ∈ files) :
    ∃ place references, file = place.toFile job.base role file.content ∧ P place ∧
      job.ecosystem.references file.text file.path = .ok references ∧
      ∀ reference ∈ references, ⟨reference, place, false⟩ ∈ leads := by
  induction h with
  | nil => cases hfile
  | @cons place content references files leads hplace hscan _ ih =>
    rcases List.mem_cons.1 hfile with rfl | hfile
    · refine ⟨place, references, rfl, hplace, hscan, fun reference hreference => ?_⟩
      exact List.mem_append_left _ (List.mem_map_of_mem hreference)
    · obtain ⟨place', references', hfile, hplace', hscan', hleads⟩ := ih hfile
      exact ⟨place', references', hfile, hplace', hscan', fun reference hreference =>
        List.mem_append_right _ (hleads reference hreference)⟩

/-- Every lead is a reference in one of the files. -/
theorem origin (h : Scanned job role P files leads) {lead : Lead} (hlead : lead ∈ leads) :
    P lead.origin ∧ lead.fromLockfile = false ∧
      ∃ content references, lead.origin.toFile job.base role content ∈ files ∧
        job.ecosystem.references (Text.decodeLossy content)
          (lead.origin.rootPath.relativeTo job.base) = .ok references ∧
        lead.reference ∈ references := by
  induction h with
  | nil => cases hlead
  | @cons place content references files leads hplace hscan _ ih =>
    rcases List.mem_append.1 hlead with hlead | hlead
    · obtain ⟨reference, hreference, rfl⟩ := List.mem_map.1 hlead
      exact ⟨hplace, rfl, content, references, List.mem_cons_self, hscan, hreference⟩
    · obtain ⟨hplace', hmanifest, content', references', hfile, hrest⟩ := ih hlead
      exact ⟨hplace', hmanifest, content', references', List.mem_cons_of_mem _ hfile, hrest⟩

end Scanned

/-- Telling the references of a file gives them as leads. -/
theorem gives_scan (place : Place) (text : String) : Gives (scan job place text) s
    (fun leads t => t = s ∧ ∃ references,
      job.ecosystem.references text (place.rootPath.relativeTo job.base) = .ok references ∧
      leads = references.map (⟨·, place, false⟩)) fun _ _ => True := by
  unfold scan
  split
  · exact ⟨rfl, _, ‹_›, rfl⟩
  · trivial

/-- Specifications from places of some kind were collected, which give the leads, and no package
was noted. -/
structure Gains (job : Job (List Request)) (P : Place → Prop) (leads : List Lead)
    (s t : Progress (List Request)) : Prop where
  files : ∃ files, t.files = s.files ++ files ∧ Scanned job .specification P files leads
  unreachable : t.unreachable = s.unreachable

namespace Gains

variable {P Q : Place → Prop} {u : Progress (List Request)} {leads others : List Lead}

/-- Without new files there are no leads. -/
theorem none (hfiles : t.files = s.files) (hunreachable : t.unreachable = s.unreachable) :
    Gains job P [] s t :=
  ⟨⟨[], by simpa using hfiles, .nil⟩, hunreachable⟩

/-- Gains add up. -/
theorem trans (h : Gains job P leads s t) (hmore : Gains job P others t u) :
    Gains job P (leads ++ others) s u := by
  obtain ⟨⟨files, hfiles, hscanned⟩, hunreachable⟩ := h
  obtain ⟨⟨more, hmore, hscanned'⟩, hunreachable'⟩ := hmore
  refine ⟨⟨files ++ more, ?_, hscanned.append hscanned'⟩, hunreachable'.trans hunreachable⟩
  rw [hmore, hfiles, List.append_assoc]

/-- The kind of the places may be widened. -/
theorem imp (h : Gains job P leads s t) (hPQ : ∀ place, P place → Q place) :
    Gains job Q leads s t := by
  obtain ⟨⟨files, hfiles, hscanned⟩, hunreachable⟩ := h
  exact ⟨⟨files, hfiles, hscanned.imp hPQ⟩, hunreachable⟩

/-- The files before are collected after. -/
theorem keys_subset (h : Gains job P leads s t) : s.keys ⊆ t.keys := by
  obtain ⟨⟨files, hfiles, -⟩, -⟩ := h
  exact Progress.keys_subset_of_files hfiles

end Gains

end Walk

end DependencyFiles
