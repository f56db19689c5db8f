import DependencyFiles.Proofs.Beginnings
import DependencyFiles.Proofs.RequestLog

/-!
# Collections with revised references

The references that an ecosystem tells may be revised by a rule, file by file. As long as
collections with the ecosystem and with the revised one follow the same leads, they take
the same steps: they ask the same, collect the same files and halt alike. What the files
tell them differs by the rule, and no file is scanned twice.
-/

namespace DependencyFiles

/-- What becomes of the references in a manifest or a specification, or else in a lock file. -/
abbrev Rule := (fromLockfile : Bool) → (content origin : String) → List Reference → List Reference

/-- The ecosystem with all references revised. -/
def Ecosystem.revise (ecosystem : Ecosystem) (rule : Rule) : Ecosystem :=
  { ecosystem with
    references := fun content origin =>
      (ecosystem.references content origin).map (rule false content origin)
    scanLockfile := fun content origin => (ecosystem.scanLockfile content origin).map fun scan =>
      { scan with references := rule true content origin scan.references } }

/-- The references that the ecosystem tells of a manifest or a specification, or else of a lock file. -/
def Ecosystem.told (ecosystem : Ecosystem) (fromLockfile : Bool) (content origin : String) :
    Except ScanError (List Reference) :=
  if fromLockfile then (ecosystem.scanLockfile content origin).map (·.references)
  else ecosystem.references content origin

/-- The job with all references revised. -/
def Job.revise {σ : Type} (job : Job σ) (rule : Rule) : Job σ :=
  { job with ecosystem := job.ecosystem.revise rule }

/-- The file that a lead stands in, and whether as a lock file. -/
def Lead.source (lead : Lead) : Key × Bool := (lead.origin.key, lead.fromLockfile)

/-- A lead stands in the file that it is from. -/
theorem Lead.key_of_source {lead : Lead} {key : Key} {fromLockfile : Bool}
    (h : lead.source = (key, fromLockfile)) : lead.origin.key = key := congrArg Prod.fst h

/-- The references that one scan of a file tells. -/
structure Section where
  place : Place
  text : String
  fromLockfile : Bool
  references : List Reference

namespace Section

/-- The file that is scanned, and whether as a lock file. -/
def source (x : Section) : Key × Bool := (x.place.key, x.fromLockfile)

/-- The references as leads. -/
def leads (x : Section) : List Lead := x.references.map (⟨·, x.place, x.fromLockfile⟩)

/-- The section with its references revised. -/
def revise (x : Section) (rule : Rule) (base : TreePath) : Section :=
  { x with references := rule x.fromLockfile x.text (x.place.rootPath.relativeTo base) x.references }

/-- The references are those that the ecosystem tells. -/
def IsTold {σ : Type} (x : Section) (job : Job σ) : Prop :=
  job.ecosystem.told x.fromLockfile x.text (x.place.rootPath.relativeTo job.base) = .ok x.references

/-- The file is the one that was scanned. -/
def IsOf (x : Section) (base : TreePath) (file : DependencyFile) : Prop :=
  file.key = x.place.key ∧ file.text = x.text ∧ file.path = x.place.rootPath.relativeTo base

/-- The leads of a section are from its source. -/
theorem source_of_mem {x : Section} {lead : Lead} (h : lead ∈ x.leads) : lead.source = x.source := by
  obtain ⟨reference, -, rfl⟩ := List.mem_map.1 h
  rfl

/-- A scanned text is that of the file that was collected at the place. -/
theorem isOf_toFile (place : Place) (base : TreePath) (role : DependencyFile.Role) (content : Bytes)
    (fromLockfile : Bool) (references : List Reference) :
    IsOf ⟨place, Text.decodeLossy content, fromLockfile, references⟩ base
      (place.toFile base role content) := ⟨rfl, rfl, rfl⟩

end Section

namespace Walk

variable {σ α β γ δ : Type}

/-- Two steps from the same state come to the same state with results that stand to each other as
they should, or to the same halt in the same state. -/
inductive InStep (R : α → β → Progress σ → Prop) :
    EStateM.Result Halt (Progress σ) α → EStateM.Result Halt (Progress σ) β → Prop
  | ok {a : α} {b : β} {t : Progress σ} (h : R a b t) : InStep R (.ok a t) (.ok b t)
  | error (halt : Halt) (t : Progress σ) : InStep R (.error halt t) (.error halt t)

namespace InStep

variable {R : α → β → Progress σ → Prop} {S : γ → δ → Progress σ → Prop} {s : Progress σ}

/-- What stands to each other in one way may do so in a weaker one. -/
theorem imp {R' : α → β → Progress σ → Prop} {r : EStateM.Result Halt (Progress σ) α}
    {r' : EStateM.Result Halt (Progress σ) β} (h : InStep R r r')
    (himp : ∀ a b t, R a b t → R' a b t) : InStep R' r r' := by
  cases h with
  | ok h => exact .ok (himp _ _ _ h)
  | error halt t => exact .error halt t

/-- Composed steps are in step when their parts are. -/
theorem bind {x : Walk σ α} {y : Walk σ β} {f : α → Walk σ γ} {g : β → Walk σ δ}
    (hx : InStep R (x s) (y s)) (hf : ∀ a b t, R a b t → InStep S (f a t) (g b t)) :
    InStep S ((x >>= f) s) ((y >>= g) s) := by
  change InStep S (EStateM.bind x f s) (EStateM.bind y g s)
  unfold EStateM.bind
  generalize x s = r at hx ⊢
  generalize y s = r' at hx ⊢
  cases hx with
  | ok h => exact hf _ _ _ h
  | error halt t => exact .error halt t

theorem ite {c : Bool} {x x' : Walk σ α} {y y' : Walk σ β} (hx : InStep R (x s) (y s))
    (hx' : InStep R (x' s) (y' s)) :
    InStep R ((if c then x else x') s) ((if c then y else y') s) := by
  cases c
  · exact hx'
  · exact hx

/-- Steps that read the state are in step when they are in the state as it is. -/
theorem get_bind {f : Progress σ → Walk σ γ} {g : Progress σ → Walk σ δ}
    (h : InStep S (f s s) (g s s)) : InStep S ((get >>= f) s) ((get >>= g) s) := h

/-- What follows the same step is in step when it is after all that the step may give. -/
theorem bind_same {x : Walk σ α} {f : α → Walk σ γ} {g : α → Walk σ δ}
    {result : α → Progress σ → Prop} {halt : Halt → Progress σ → Prop} (hx : Gives x s result halt)
    (hf : ∀ a t, result a t → InStep S (f a t) (g a t)) :
    InStep S ((x >>= f) s) ((x >>= g) s) := by
  change InStep S (EStateM.bind x f s) (EStateM.bind x g s)
  unfold EStateM.bind
  cases hrun : x s with
  | ok a t => exact hf a t (hx.of_ok hrun)
  | error halt t => exact .error halt t

/-- What the first step gives holds of its result. -/
theorem and {x : Walk σ α} {r : EStateM.Result Halt (Progress σ) β} (h : InStep R (x s) r)
    {result : α → Progress σ → Prop} {halt : Halt → Progress σ → Prop} (hx : Gives x s result halt) :
    InStep (fun a b t => R a b t ∧ result a t) (x s) r := by
  unfold Gives at hx
  generalize x s = r' at h hx ⊢
  cases h with
  | ok h => exact .ok ⟨h, hx⟩
  | error halt t => exact .error halt t

/-- Composed steps come to the same when their parts are in step and go on to the same. -/
theorem bind_eq {x : Walk σ α} {y : Walk σ β} {f : α → Walk σ γ} {g : β → Walk σ γ}
    (hx : InStep R (x s) (y s)) (hf : ∀ a b t, x s = .ok a t → R a b t → f a t = g b t) :
    (x >>= f) s = (y >>= g) s := by
  change EStateM.bind x f s = EStateM.bind y g s
  unfold EStateM.bind
  generalize x s = r at hx hf ⊢
  generalize y s = r' at hx ⊢
  cases hx with
  | ok h => exact hf _ _ _ rfl h
  | error halt t => rfl

/-- Steps that come to the same are in step. -/
theorem of_eq {r r' : EStateM.Result Halt (Progress σ) α} (h : r = r') :
    InStep (fun a b _ => a = b) r r' := by
  cases h
  cases r
  · exact .ok rfl
  · exact .error _ _

/-- The second step has a result when the first one does. -/
theorem of_ok {r : EStateM.Result Halt (Progress σ) α} {r' : EStateM.Result Halt (Progress σ) β}
    (h : InStep R r r') {a : α} {t : Progress σ} (hr : r = .ok a t) : ∃ b, r' = .ok b t ∧ R a b t := by
  cases h with
  | ok h =>
    cases hr
    exact ⟨_, rfl, h⟩
  | error halt t => cases hr

end InStep

/-- The kept answers are the forge's, and files are only added. -/
def Onward (forge : Forge) (s t : Progress (List Request)) : Prop :=
  forge.Truthful t ∧ s.files <+: t.files

variable {forge : Forge} {job : Job (List Request)} {rule : Rule} {s t u : Progress (List Request)}

namespace Onward

theorem refl (hs : forge.Truthful s) : Onward forge s s := ⟨hs, List.prefix_rfl⟩

theorem trans (h : Onward forge s t) (hmore : Onward forge t u) : Onward forge s u :=
  ⟨hmore.1, h.2.trans hmore.2⟩

theorem keys_subset (h : Onward forge s t) : s.keys ⊆ t.keys :=
  (h.2.map DependencyFile.key).subset

/-- All steps go onward. -/
theorem keptByAll (hjob : job.provider = forge.provider) (s : Progress (List Request)) :
    KeptByAll job (Onward forge s) := by
  have htruthful := Forge.truthful_keptByAll hjob
  refine ⟨⟨⟨⟨fun repo reference t ht => ?_, fun checkout path t ht => ?_, fun entry t ht => ?_⟩,
    fun place role t ht => ?_⟩, fun key outcome t ht => ?_⟩, fun name reason t ht => ?_⟩
  · exact ⟨htruthful.resolve repo reference t ht.1, ht.2⟩
  · exact ⟨htruthful.list checkout path t ht.1, ht.2⟩
  · exact ⟨htruthful.target entry t ht.1, ht.2⟩
  · have hread := htruthful.read place role t ht.1
    rw [gives_readCollecting] at hread ⊢
    cases hanswer : (contentOf job place t.cached).1 with
    | error error =>
      rw [hanswer] at hread
      exact ⟨hread, ht.2⟩
    | ok content =>
      rw [hanswer] at hread
      refine ⟨hread, ?_⟩
      unfold collecting
      split
      · exact ht.2
      · exact ht.2.trans (List.prefix_append _ _)
  · exact ⟨htruthful.keep key outcome t ht.1, ht.2⟩
  · have hnote := htruthful.note name reason t ht.1
    unfold markUnreachable at hnote ⊢
    rw [gives_modify] at hnote ⊢
    refine ⟨hnote, ?_⟩
    split <;> exact ht.2

end Onward

/-- The leads are those of some sections of collected files, each file scanned once in each way, and
the second leads are those of the same sections revised. -/
structure Reports (job : Job (List Request)) (rule : Rule) (t : Progress (List Request))
    (sections : List Section) (leads leads' : List Lead) : Prop where
  leads_eq : leads = sections.flatMap Section.leads
  revised_eq : leads' = sections.flatMap fun x => (x.revise rule job.base).leads
  told : ∀ x ∈ sections, x.IsTold job
  collected : ∀ x ∈ sections, ∃ file ∈ t.files, x.IsOf job.base file
  distinct : sections.Pairwise fun x y => x.source ≠ y.source

namespace Reports

variable {xs ys : List Section} {leads leads' more more' : List Lead}

/-- A file that was collected may be scanned. -/
theorem one {place : Place} (role : DependencyFile.Role) {content : Bytes}
    (hfile : place.toFile job.base role content ∈ t.files) {fromLockfile : Bool}
    {references : List Reference} (htold : job.ecosystem.told fromLockfile (Text.decodeLossy content)
      (place.rootPath.relativeTo job.base) = .ok references) :
    let x : Section := ⟨place, Text.decodeLossy content, fromLockfile, references⟩
    Reports job rule t [x] x.leads (x.revise rule job.base).leads := by
  intro x
  refine ⟨by simp, by simp, ?_, ?_, List.pairwise_singleton _ _⟩ <;>
    simp only [List.mem_singleton, forall_eq]
  · exact htold
  · exact ⟨_, hfile, Section.isOf_toFile ..⟩

/-- Sections of different sources may follow each other. -/
theorem append (h : Reports job rule s xs leads leads') (hmore : Reports job rule t ys more more')
    (hfiles : s.files <+: t.files) (hsources : ∀ x ∈ xs, ∀ y ∈ ys, x.source ≠ y.source) :
    Reports job rule t (xs ++ ys) (leads ++ more) (leads' ++ more') := by
  refine ⟨?_, ?_, fun x hx => (List.mem_append.1 hx).elim (h.told x) (hmore.told x), fun x hx => ?_,
    List.pairwise_append.2 ⟨h.distinct, hmore.distinct, hsources⟩⟩
  · rw [h.leads_eq, hmore.leads_eq, List.flatMap_append]
  · rw [h.revised_eq, hmore.revised_eq, List.flatMap_append]
  · rcases List.mem_append.1 hx with hx | hx
    · obtain ⟨file, hfile, hof⟩ := h.collected x hx
      exact ⟨file, hfiles.subset hfile, hof⟩
    · exact hmore.collected x hx

/-- The files of sections are collected. -/
theorem mem_keys (h : Reports job rule s xs leads leads') {x : Section} (hx : x ∈ xs) :
    x.place.key ∈ s.keys := by
  obtain ⟨file, hfile, hof⟩ := h.collected x hx
  exact hof.1 ▸ List.mem_map_of_mem hfile

/-- Each lead is from one of the sections. -/
theorem source_of_mem (h : Reports job rule s xs leads leads') {lead : Lead} (hlead : lead ∈ leads) :
    ∃ x ∈ xs, lead.source = x.source := by
  rw [h.leads_eq] at hlead
  obtain ⟨x, hx, hlead⟩ := List.mem_flatMap.1 hlead
  exact ⟨x, hx, Section.source_of_mem hlead⟩

/-- The leads are from collected files. -/
theorem key_of_mem (h : Reports job rule s xs leads leads') {lead : Lead} (hlead : lead ∈ leads) :
    lead.origin.key ∈ s.keys := by
  obtain ⟨x, hx, hsource⟩ := h.source_of_mem hlead
  exact Lead.key_of_source hsource ▸ h.mem_keys hx

/-- Sections of new files are from other sources. -/
theorem source_ne (h : Reports job rule s xs leads leads') (hnew : ∀ y ∈ ys, y.place.key ∉ s.keys) :
    ∀ x ∈ xs, ∀ y ∈ ys, x.source ≠ y.source := by
  intro x hx y hy hsame
  have hkey : x.place.key = y.place.key := congrArg Prod.fst hsame
  exact hnew y hy (hkey ▸ h.mem_keys hx)

end Reports

/-- On the way to the second state files were scanned that are new, not as lock files. Their references
are the first leads, and the second ones when they are revised. -/
structure Revised (forge : Forge) (job : Job (List Request)) (rule : Rule) (s t : Progress (List Request))
    (leads leads' : List Lead) : Prop where
  onward : Onward forge s t
  reports : ∃ sections, Reports job rule t sections leads leads' ∧
    ∀ x ∈ sections, x.fromLockfile = false ∧ x.place.key ∉ s.keys

namespace Revised

variable {leads leads' more more' : List Lead}

/-- Without new files there are no leads. -/
theorem nil (h : Onward forge s t) : Revised forge job rule s t [] [] :=
  ⟨h, [], ⟨rfl, rfl, nofun, nofun, .nil⟩, nofun⟩

/-- A new file that was collected may be scanned. -/
theorem scan (h : Onward forge s t) {place : Place} (hnew : place.key ∉ s.keys)
    (role : DependencyFile.Role) {content : Bytes} (hfile : place.toFile job.base role content ∈ t.files)
    {references : List Reference} (htold : job.ecosystem.told false (Text.decodeLossy content)
      (place.rootPath.relativeTo job.base) = .ok references) :
    let x : Section := ⟨place, Text.decodeLossy content, false, references⟩
    Revised forge job rule s t x.leads (x.revise rule job.base).leads :=
  ⟨h, _, .one role hfile htold, by simpa using hnew⟩

/-- What is scanned later are other files. -/
theorem trans (h : Revised forge job rule s t leads leads')
    (hmore : Revised forge job rule t u more more') :
    Revised forge job rule s u (leads ++ more) (leads' ++ more') := by
  obtain ⟨xs, hxs, hnew⟩ := h.reports
  obtain ⟨ys, hys, hnew'⟩ := hmore.reports
  refine ⟨h.onward.trans hmore.onward, xs ++ ys,
    hxs.append hys hmore.onward.2 (hxs.source_ne fun y hy => (hnew' y hy).2), fun x hx => ?_⟩
  rcases List.mem_append.1 hx with hx | hx
  · exact hnew x hx
  · exact ⟨(hnew' x hx).1, fun hkey => (hnew' x hx).2 (h.onward.keys_subset hkey)⟩

/-- The leads are from new files. -/
theorem key_of_mem (h : Revised forge job rule s t leads leads') {lead : Lead} (hlead : lead ∈ leads) :
    lead.origin.key ∈ t.keys ∧ lead.origin.key ∉ s.keys := by
  obtain ⟨xs, hxs, hnew⟩ := h.reports
  obtain ⟨x, hx, hsource⟩ := hxs.source_of_mem hlead
  exact ⟨hxs.key_of_mem hlead, Lead.key_of_source hsource ▸ (hnew x hx).2⟩

/-- When leads give way to those that they gave, all leads are from collected files still. -/
theorem stack (h : Revised forge job rule s t leads leads') {rest : List Lead}
    (hrest : ∀ lead ∈ rest, lead.origin.key ∈ s.keys) :
    ∀ lead ∈ leads ++ rest, lead.origin.key ∈ t.keys := by
  intro lead hlead
  rcases List.mem_append.1 hlead with hlead | hlead
  · exact (h.key_of_mem hlead).1
  · exact h.onward.keys_subset (hrest lead hlead)

theorem before (h : Onward forge s t) (hmore : Revised forge job rule t u leads leads') :
    Revised forge job rule s u leads leads' := (nil h).trans hmore

theorem after (h : Revised forge job rule s t leads leads') (hmore : Onward forge t u) :
    Revised forge job rule s u leads leads' := by
  simpa using h.trans (nil hmore)

end Revised

/-- Results agree, and the leads that come with them are revised. -/
def RevisedPair {γ : Type} (forge : Forge) (job : Job (List Request)) (rule : Rule)
    (s : Progress (List Request)) (r r' : γ × List Lead) (t : Progress (List Request)) : Prop :=
  r'.1 = r.1 ∧ Revised forge job rule s t r.2 r'.2

namespace InStep

variable {γ δ : Type} {S : γ → δ → Progress (List Request) → Prop}

/-- What follows the question whether a file is collected. -/
theorem isCollected_bind {place : Place} {f : Bool → Walk (List Request) γ}
    {g : Bool → Walk (List Request) δ}
    (hmem : place.key ∈ s.keys → InStep S (f true s) (g true s))
    (hnew : place.key ∉ s.keys → InStep S (f false s) (g false s)) :
    InStep S ((isCollected place >>= f) s) ((isCollected place >>= g) s) := by
  change InStep S (f (s.files.any fun file => file.key = place.key) s)
    (g (s.files.any fun file => file.key = place.key) s)
  cases hcollected : s.files.any fun file => file.key = place.key with
  | true => exact hmem (isCollected_iff.1 hcollected)
  | false => exact hnew fun hkey => Bool.false_ne_true (hcollected.symm.trans (isCollected_iff.2 hkey))

end InStep

section Steps

/-- The references of a file are revised when it is scanned. -/
theorem inStep_scan (place : Place) (text : String) (s : Progress (List Request)) :
    InStep (fun leads leads' t => t = s ∧ ∃ references,
      job.ecosystem.told false text (place.rootPath.relativeTo job.base) = .ok references ∧
      leads = (Section.mk place text false references).leads ∧
      leads' = ((Section.mk place text false references).revise rule job.base).leads)
      (scan job place text s) (scan (job.revise rule) place text s) := by
  unfold scan
  dsimp only [Job.revise, Ecosystem.revise]
  cases htold : job.ecosystem.references text (place.rootPath.relativeTo job.base) with
  | ok references => exact .ok ⟨rfl, references, htold, rfl, rfl⟩
  | error error => exact .error _ _

variable (hjob : job.provider = forge.provider)

include hjob

/-- Reading a file that may be missing goes onward. -/
theorem gives_readOnward (hs : forge.Truthful s) (place : Place) (role : DependencyFile.Role) :
    Gives (readOptional job place role) s (fun text t =>
      text = (forge.content? place.key).map Text.decodeLossy ∧ AfterRead forge job place role s t ∧
        Onward forge s t) fun _ _ => True :=
  ((gives_readOptional hjob hs place role).and
    ((Onward.keptByAll hjob s).readOptional place role s (.refl hs))).imp
      (fun _ _ h => ⟨h.1.1, h.1.2, h.2⟩) fun _ _ _ => trivial

theorem inStep_readSpecifications (places : List Place) : ∀ {s : Progress (List Request)},
    forge.Truthful s → InStep (RevisedPair forge job rule s)
      (readSpecifications job places s) (readSpecifications (job.revise rule) places s) := by
  induction places with
  | nil => exact fun hs => .ok ⟨rfl, .nil (.refl hs)⟩
  | cons place rest ih =>
    intro s hs
    unfold readSpecifications
    refine InStep.isCollected_bind (fun _ => ?_) fun hnew => ?_
    · exact (ih hs).bind fun _ _ _ ht => .ok ⟨rfl, ht.2⟩
    · refine InStep.bind_same (gives_readOnward hjob hs place .specification) fun text t hafter => ?_
      obtain ⟨rfl, hread, honward⟩ := hafter
      cases hcontent : forge.content? place.key with
      | none => exact (ih honward.1).imp fun _ _ _ hu => ⟨hu.1, hu.2.before honward⟩
      | some content =>
        refine (inStep_scan place _ t).bind fun leads leads' _ hscan => ?_
        obtain ⟨rfl, references, htold, rfl, rfl⟩ := hscan
        refine (ih honward.1).bind fun _ _ _ hu => .ok ⟨rfl, ?_⟩
        refine (Revised.scan honward hnew .specification ?_ htold).trans hu.2
        rw [hread.files_of_some hnew hcontent]
        exact List.mem_append_right _ (List.mem_singleton_self _)

theorem inStep_searchEntries (place : Place)
    {descend descend' : Place → Walk (List Request) (Option Nat × List Lead)}
    (hdescend : ∀ inner {s}, forge.Truthful s →
      InStep (RevisedPair forge job rule s) (descend inner s) (descend' inner s))
    (entries : List Entry) : ∀ {s : Progress (List Request)}, forge.Truthful s →
    InStep (RevisedPair forge job rule s) (searchEntries job place descend entries s)
      (searchEntries (job.revise rule) place descend' entries s) := by
  induction entries with
  | nil => exact fun hs => .ok ⟨rfl, .nil (.refl hs)⟩
  | cons entry rest ih =>
    intro s hs
    have hplace : Keeps (Onward forge s) (entryPlace? job place entry) :=
      .ite ((Onward.keptByAll hjob s).enter? _ _) (.pure _)
    refine InStep.bind_same (hplace s (.refl hs)) fun inner t ht => ?_
    cases inner with
    | none => exact (ih ht.1).imp fun _ _ _ hu => ⟨hu.1, hu.2.before ht⟩
    | some inner =>
      refine (hdescend inner ht.1).bind fun (depth, leads) (depth', leads') u hu => ?_
      obtain ⟨rfl, hu⟩ := hu
      refine (ih hu.onward.1).bind fun (best, more) (best', more') v hv => ?_
      obtain ⟨rfl, hv⟩ := hv
      exact .ok ⟨rfl, (hu.trans hv).before ht⟩

theorem inStep_searchListed
    {descend descend' : Option (Place → Walk (List Request) (Option Nat × List Lead))}
    (hdescend : Option.Rel (fun f g => ∀ inner {s}, forge.Truthful s →
      InStep (RevisedPair forge job rule s) (f inner s) (g inner s)) descend descend')
    (place : Place) (entries : List Entry) (hs : forge.Truthful s) :
    InStep (RevisedPair forge job rule s) (searchListed job descend place entries s)
      (searchListed (job.revise rule) descend' place entries s) := by
  refine (inStep_readSpecifications hjob _ hs).bind fun (found, leads) (found', leads') t ht => ?_
  obtain ⟨rfl, ht⟩ := ht
  cases found' with
  | true => exact .ok ⟨rfl, ht⟩
  | false =>
    cases hdescend with
    | none => exact .ok ⟨rfl, ht⟩
    | some hdescend =>
      refine (inStep_searchEntries hjob place hdescend _ ht.onward.1).bind
        fun (depth, more) (depth', more') u hu => ?_
      obtain ⟨rfl, hu⟩ := hu
      exact .ok ⟨rfl, ht.trans hu⟩

theorem inStep_searchKept (budget : Nat)
    {descend descend' : Option (Place → Walk (List Request) (Option Nat × List Lead))}
    (hdescend : Option.Rel (fun f g => ∀ inner {s}, forge.Truthful s →
      InStep (RevisedPair forge job rule s) (f inner s) (g inner s)) descend descend')
    (place : Place) (hs : forge.Truthful s) :
    InStep (RevisedPair forge job rule s) (searchKept job budget descend place s)
      (searchKept (job.revise rule) budget descend' place s) := by
  have hkept := Onward.keptByAll hjob s
  refine InStep.get_bind ?_
  dsimp only
  cases (s.searched.lookup place.key).bind (·.answer? budget) with
  | some depth => exact .ok ⟨rfl, .nil (.refl hs)⟩
  | none =>
    refine InStep.bind_same (hkept.list? place s (.refl hs)) fun entries t ht => ?_
    cases entries with
    | none => exact .ok ⟨rfl, .nil ht⟩
    | some entries =>
      refine (inStep_searchListed hjob hdescend place entries ht.1).bind
        fun (depth, leads) (depth', leads') u hu => ?_
      obtain ⟨rfl, hu⟩ := hu
      exact .ok ⟨rfl, (hu.before ht).after
        ⟨⟨hu.onward.1.commits, hu.onward.1.listings, hu.onward.1.contents, hu.onward.1.files⟩,
          List.prefix_rfl⟩⟩

theorem inStep_search (budget : Nat) : ∀ (place : Place) {s : Progress (List Request)},
    forge.Truthful s → InStep (RevisedPair forge job rule s)
      (search job budget place s) (search (job.revise rule) budget place s) := by
  induction budget with
  | zero => exact fun place _ hs => inStep_searchKept hjob 0 .none place hs
  | succ budget ih => exact fun place _ hs => inStep_searchKept hjob (budget + 1) (.some ih) place hs

omit hjob in
theorem throughSubmodule?_revise (place : Place) (ancestors : List TreePath) :
    throughSubmodule? (job.revise rule) place ancestors = throughSubmodule? job place ancestors := by
  induction ancestors with
  | nil => rfl
  | cons ancestor rest ih =>
    unfold throughSubmodule?
    rw [ih]
    rfl

omit hjob in
theorem locateWithin_revise (fuel : Nat) (place : Place) :
    locateWithin (job.revise rule) fuel place = locateWithin job fuel place := by
  induction fuel generalizing place with
  | zero => rfl
  | succ fuel ih =>
    unfold locateWithin
    simp only [throughSubmodule?_revise, ih]
    rfl

omit hjob in
theorem locate_revise (place : Place) : locate (job.revise rule) place = locate job place :=
  locateWithin_revise _ place

theorem inStep_findPackage (place : Place) (hs : forge.Truthful s) :
    InStep (RevisedPair forge job rule s) (findPackage job place s)
      (findPackage (job.revise rule) place s) := by
  unfold findPackage
  rw [locate_revise]
  refine InStep.bind_same ((Onward.keptByAll hjob s).locate place s (.refl hs)) fun found t ht => ?_
  cases found with
  | none => exact .ok ⟨rfl, .nil ht⟩
  | some directory =>
    refine (inStep_search hjob _ directory ht.1).bind fun (depth, leads) (depth', leads') u hu => ?_
    obtain ⟨rfl, hu⟩ := hu
    cases depth' with
    | some depth => exact .ok ⟨rfl, hu.before ht⟩
    | none =>
      have hmarker := (Onward.keptByAll hjob u).takeMarker directory u (.refl hu.onward.1)
      refine InStep.bind_same hmarker fun found v hv => ?_
      cases found <;> exact .ok ⟨rfl, (hu.before ht).after hv⟩

theorem inStep_visitPackage (name : String) (place : Place) (hs : forge.Truthful s) :
    InStep (fun leads leads' t => Revised forge job rule s t leads leads')
      (visitPackage job name place s) (visitPackage (job.revise rule) name place s) := by
  refine (inStep_findPackage hjob place hs).bind fun (reason, leads) (reason', leads') t ht => ?_
  obtain ⟨rfl, ht⟩ := ht
  cases reason' with
  | none => exact .ok ht
  | some reason =>
    have hnote := (Onward.keptByAll hjob t).note name reason t (.refl ht.onward.1)
    exact InStep.bind_same hnote fun _ _ hu => .ok (ht.after hu)

/-- Following a lead gives leads that are revised. -/
theorem inStep_visit (base : Place) (authoritative : Bool) (lead : Lead) (hs : forge.Truthful s) :
    InStep (fun leads leads' t => Revised forge job rule s t leads leads')
      (visit job base authoritative lead s) (visit (job.revise rule) base authoritative lead s) := by
  unfold visit
  cases lead.reference.kind with
  | childManifest =>
    refine InStep.isCollected_bind (fun _ => .ok (.nil (.refl hs))) fun hnew => ?_
    refine InStep.bind_same ((gives_readRequired hjob hs _ _).and
      ((Onward.keptByAll hjob s).readRequired _ _ s (.refl hs))) fun text t hafter => ?_
    obtain ⟨⟨htext, hread⟩, honward⟩ := hafter
    obtain ⟨content, hcontent, rfl⟩ := Option.map_eq_some_iff.1 htext
    refine (inStep_scan _ _ t).imp fun leads leads' _ hscan => ?_
    obtain ⟨rfl, references, htold, rfl, rfl⟩ := hscan
    refine Revised.scan honward hnew .childManifest ?_ htold
    rw [hread.files_of_some hnew hcontent]
    exact List.mem_append_right _ (List.mem_singleton_self _)
  | supportFile =>
    refine InStep.isCollected_bind (fun _ => .ok (.nil (.refl hs))) fun _ => ?_
    have hlisted := (Onward.keptByAll hjob s).isListedFile (base.child lead.reference.path) s (.refl hs)
    refine InStep.bind_same hlisted fun found t ht => ?_
    cases found with
    | false => exact .ok (.nil ht)
    | true =>
      refine InStep.bind_same (gives_readOnward hjob ht.1 _ _) fun _ u hu => ?_
      exact .ok (.nil (ht.trans hu.2.2))
  | pathDependency name =>
    dsimp only
    split
    · exact .ok (.nil (.refl hs))
    · exact inStep_visitPackage hjob name _ hs

/-- A visit gives the revised leads when all references are revised. -/
theorem revised_of_visit (rule : Rule) {base : Place} {authoritative : Bool} {lead : Lead}
    {found : List Lead} (hs : forge.Truthful s)
    (hvisit : visit job base authoritative lead s = .ok found t) :
    ∃ found', visit (job.revise rule) base authoritative lead s = .ok found' t ∧
      Revised forge job rule s t found found' :=
  (inStep_visit hjob base authoritative lead hs).of_ok hvisit

omit hjob in
theorem readBeside_revise (places : List Place) :
    readBeside (job.revise rule) places = readBeside job places := by
  induction places with
  | nil => rfl
  | cons place rest ih =>
    unfold readBeside
    rw [ih]
    rfl

omit hjob in
/-- The references of several files are revised when they are scanned. -/
theorem inStep_scanAll (texts : List (Place × String)) (s : Progress (List Request)) :
    InStep (fun leads leads' t => t = s ∧ ∃ sections : List Section,
      sections.map (fun x => (x.place, x.text)) = texts ∧ (∀ x ∈ sections, x.IsTold job) ∧
      leads = sections.flatMap Section.leads ∧
      leads' = sections.flatMap fun x => (x.revise rule job.base).leads)
      (scanAll job texts s) (scanAll (job.revise rule) texts s) := by
  induction texts with
  | nil => exact .ok ⟨rfl, [], rfl, nofun, rfl, rfl⟩
  | cons first rest ih =>
    obtain ⟨place, text⟩ := first
    refine (inStep_scan place text s).bind fun leads leads' _ hscan => ?_
    obtain ⟨rfl, references, htold, rfl, rfl⟩ := hscan
    refine ih.bind fun more more' _ hrest => ?_
    obtain ⟨rfl, sections, rfl, hsections, rfl, rfl⟩ := hrest
    exact .ok ⟨rfl, ⟨place, text, false, references⟩ :: sections, rfl,
      List.forall_mem_cons.2 ⟨htold, hsections⟩, rfl, rfl⟩

/-- Reading a file that may not be listed goes onward, and gets a text only from the file. -/
theorem gives_readListed (directory : Place) (entries : List Entry) (name : String)
    (role : DependencyFile.Role) (hs : Sound forge job s) :
    Gives (readListed job directory entries name role) s (fun text? t => Sound forge job t ∧
      Onward forge s t ∧ ∀ text ∈ text?, ∃ content, text = Text.decodeLossy content ∧
        forge.content? (directory.child name).key = some content ∧
        AfterRead forge job (directory.child name) role s t) fun _ _ => True := by
  unfold readListed
  cases listsFile entries name with
  | false => exact ⟨hs, .refl hs.toTruthful, nofun⟩
  | true =>
    refine (gives_readOnward hjob hs.toTruthful _ _).imp (fun text? t hafter => ?_) fun _ _ h => h
    obtain ⟨rfl, hread, honward⟩ := hafter
    refine ⟨hs.read hread, honward, fun text htext => ?_⟩
    obtain ⟨content, hcontent, rfl⟩ := Option.map_eq_some_iff.1 htext
    exact ⟨content, rfl, hcontent, hread⟩

/-- What a lock file refers to is revised when it is read beside the manifest. -/
theorem inStep_readLockfile {base : Place} {manifest : String} {content : Bytes} (entries : List Entry)
    (text : String) (hs : Sound forge job s)
    (hfiles : s.files = [(base.child manifest).toFile job.base .manifest content])
    (hcontent : forge.content? (base.child manifest).key = some content) :
    InStep (fun r r' t => r'.2 = r.2 ∧ Sound forge job t ∧ Onward forge s t ∧ ∃ sections,
      Reports job rule t sections r.1 r'.1 ∧ ∀ x ∈ sections, x.fromLockfile = true)
      (readLockfile job base entries manifest text s)
      (readLockfile (job.revise rule) base entries manifest text s) := by
  have hnone {t : Progress (List Request)} (ht : Sound forge job t) (honward : Onward forge s t) :
      (false = false) ∧ Sound forge job t ∧ Onward forge s t ∧ ∃ sections,
        Reports job rule t sections [] [] ∧ ∀ x ∈ sections, x.fromLockfile = true :=
    ⟨rfl, ht, honward, [], ⟨rfl, rfl, nofun, nofun, .nil⟩, nofun⟩
  unfold readLockfile
  dsimp only [Job.revise, Ecosystem.revise]
  cases job.ecosystem.lockfileOf manifest with
  | none => exact .ok (hnone hs (.refl hs.toTruthful))
  | some name =>
    refine InStep.bind_same (gives_readListed hjob base entries name .lockfile hs) fun text? t hafter => ?_
    obtain ⟨ht, honward, hread⟩ := hafter
    cases text? with
    | none => exact InStep.ite (.error _ _) (.ok (hnone ht honward))
    | some text =>
      obtain ⟨lock, rfl, hlock, hread⟩ := hread text rfl
      dsimp only
      cases hscan : job.ecosystem.scanLockfile (Text.decodeLossy lock)
          ((base.child name).rootPath.relativeTo job.base) with
      | error error => exact .error _ _
      | ok scan =>
        suffices hfile : ∃ role, (base.child name).toFile job.base role lock ∈ t.files by
          obtain ⟨role, hfile⟩ := hfile
          have htold : job.ecosystem.told true (Text.decodeLossy lock)
              ((base.child name).rootPath.relativeTo job.base) = .ok scan.references :=
            congrArg (Except.map LockScan.references) hscan
          exact .ok ⟨rfl, ht, honward, _, .one role hfile htold, by simp⟩
        by_cases hmem : (base.child name).key ∈ s.keys
        · -- The manifest is its own lock file.
          rw [Progress.keys, hfiles] at hmem
          have hpath : (base.child name).path = (base.child manifest).path :=
            congrArg Prod.snd (List.mem_singleton.1 hmem)
          have hplace : base.child name = base.child manifest := congrArg base.moveTo hpath
          rw [hplace] at hlock ⊢
          obtain rfl := Option.some_inj.1 (hcontent.symm.trans hlock)
          refine ⟨.manifest, honward.2.subset ?_⟩
          rw [hfiles]
          exact List.mem_singleton_self _
        · refine ⟨.lockfile, ?_⟩
          rw [hread.files_of_some hmem hlock]
          exact List.mem_append_right _ (List.mem_singleton_self _)

omit hjob in
/-- Choosing the manifest changes nothing. -/
theorem gives_chooseManifest (directory : Place) (entries : List Entry) :
    Gives (chooseManifest job directory entries) s (fun _ t => t = s) fun _ _ => True := by
  unfold chooseManifest
  split
  · rfl
  · trivial

omit hjob in
/-- Files that were collected one after the other may be scanned. -/
theorem reports_contents {role : DependencyFile.Role} {contents : List (Place × Bytes)}
    {xs : List Section} (hnodup : (t.files.map DependencyFile.key).Nodup)
    (hfiles : t.files = s.files ++ contents.map fun read => read.1.toFile job.base role read.2)
    (htexts : xs.map (fun x => (x.place, x.text)) =
      contents.map fun read => (read.1, Text.decodeLossy read.2)) (htold : ∀ x ∈ xs, x.IsTold job) :
    Reports job rule t xs (xs.flatMap Section.leads) (xs.flatMap fun x => (x.revise rule job.base).leads) ∧
      ∀ x ∈ xs, x.place.key ∉ s.keys := by
  have hkeys : contents.map (fun read => read.1.key) = xs.map fun x => x.place.key := by
    have hplaces := (congrArg (List.map fun text => text.1.key) htexts).symm
    rwa [List.map_map, List.map_map] at hplaces
  rw [hfiles, List.map_append, List.map_map, List.nodup_append] at hnodup
  obtain ⟨-, hdistinct, hnew⟩ := hnodup
  change (contents.map fun read => read.1.key).Nodup at hdistinct
  change ∀ key ∈ s.keys, ∀ other ∈ contents.map fun read => read.1.key, key ≠ other at hnew
  rw [hkeys] at hdistinct hnew
  refine ⟨⟨rfl, rfl, htold, fun x hx => ?_, ?_⟩, fun x hx hkey => ?_⟩
  · obtain ⟨read, hread, htext⟩ := List.mem_map.1 (htexts ▸ List.mem_map_of_mem hx)
    obtain ⟨hplace, htext⟩ := Prod.mk.inj htext
    refine ⟨read.1.toFile job.base role read.2, ?_, congrArg Place.key hplace, htext, by rw [← hplace]; rfl⟩
    rw [hfiles]
    exact List.mem_append_right _ (List.mem_map_of_mem hread)
  · exact (List.pairwise_map.1 hdistinct).imp fun hne hsame => hne (congrArg Prod.fst hsame)
  · exact hnew _ hkey _ (List.mem_map_of_mem hx) rfl

/-- A collection begins with the same files, whose references are revised. -/
theorem inStep_start (checkout : Checkout) {log : List Request} (hs : Sound forge job s)
    (hlogged : forge.Logged log s) (hfiles : s.files = []) :
    InStep (fun first first' t => first'.directory = first.directory ∧
      first'.authoritative = first.authoritative ∧
      ∃ sections, Reports job rule t sections first.leads first'.leads)
      (start job ⟨checkout, .root⟩ s) (start (job.revise rule) ⟨checkout, .root⟩ s) := by
  have hlogging := Forge.logged_keptByAll hjob log
  unfold start
  refine InStep.bind_same ((tells_openBase hjob checkout s hs.toTruthful).and
    (hlogging.openBase _ s hlogged)) fun opening t hafter => ?_
  obtain ⟨base, entries⟩ := opening
  obtain ⟨⟨-, ht, cached, rfl⟩, hlogged⟩ := hafter
  have hs := hs.asked ht
  refine InStep.bind_same (gives_chooseManifest base entries) fun manifest _ hsame => ?_
  obtain rfl := hsame
  refine InStep.bind_same ((gives_readRequired hjob hs.toTruthful (base.child manifest) .manifest).and
    (hlogging.readRequired _ _ _ hlogged)) fun text t hafter => ?_
  obtain ⟨⟨htext, hread⟩, hlogged⟩ := hafter
  obtain ⟨content, hcontent, rfl⟩ := Option.map_eq_some_iff.1 htext
  have hfirst : t.files = [(base.child manifest).toFile job.base .manifest content] := by
    rw [hread.files_of_some (by simp [Progress.keys, hfiles]) hcontent]
    simp [hfiles]
  refine ((inStep_readLockfile hjob entries _ (hs.read hread) hfirst hcontent).and
    (hlogging.readLockfile base entries manifest _ t hlogged)).bind
      fun lock lock' u hafter => ?_
  obtain ⟨locked, authoritative⟩ := lock
  obtain ⟨locked', authoritative'⟩ := lock'
  obtain ⟨⟨rfl, hs, honward, locks, hlocks, hflags⟩, hlogged⟩ := hafter
  dsimp only
  rw [readBeside_revise]
  refine InStep.bind_same ((gives_readBeside hjob _ hs).and (hlogging.readBeside _ u hlogged))
    fun texts v hafter => ?_
  obtain ⟨⟨-, -, -, contents, rfl, hcontents, -⟩, hlogged⟩ := hafter
  refine (inStep_scan (base.child manifest) _ v).bind fun declared declared' _ hscan => ?_
  obtain ⟨rfl, references, htold, rfl, rfl⟩ := hscan
  refine (inStep_scanAll _ _).bind fun described described' _ hscan => ?_
  obtain ⟨rfl, besides, hbesides, hdescribed, rfl, rfl⟩ := hscan
  have hmanifest : Reports job rule t _ _ _ :=
    .one .manifest (hfirst ▸ List.mem_singleton_self _) htold
  have hlocked := hmanifest.append hlocks honward.2 fun x hx y hy hsame => by
    obtain rfl := List.mem_singleton.1 hx
    have hflag : false = y.fromLockfile := congrArg Prod.snd hsame
    rw [hflags y hy] at hflag
    cases hflag
  obtain ⟨hbeside, hnew⟩ := reports_contents hlogged.nodup hcontents hbesides hdescribed
  exact .ok ⟨rfl, rfl, _, hlocked.append hbeside (hcontents ▸ List.prefix_append _ _)
    (hlocked.source_ne hnew)⟩

end Steps

end Walk

end DependencyFiles
