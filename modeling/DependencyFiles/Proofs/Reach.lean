import DependencyFiles.Collect.Search
import DependencyFiles.Proofs.Answers

/-!
# Where a forge's directories lead

What a collection looks for in a forge, said of the forge's answers alone: which directories
lie below a directory, across submodules when these are followed, which specifications can
be read there, and which directory a path leads to.
-/

namespace DependencyFiles

/-- The result is the least number with a property, when that is within the budget. -/
def Least (P : Nat → Prop) (budget : Nat) : Option Nat → Prop
  | some n => n ≤ budget ∧ P n ∧ ∀ m < n, ¬ P m
  | none => ∀ m ≤ budget, ¬ P m

namespace Least

variable {P Q : Nat → Prop} {budget : Nat}

/-- Only the numbers with the property matter. -/
theorem congr (h : ∀ n, P n ↔ Q n) {result : Option Nat} (hleast : Least P budget result) :
    Least Q budget result := by
  obtain rfl : P = Q := funext fun n => propext (h n)
  exact hleast

/-- The least number with either property is the smaller of the two least numbers. -/
theorem shallower {a b : Option Nat} (ha : Least P budget a) (hb : Least Q budget b) :
    Least (fun n => P n ∨ Q n) budget (Walk.shallower a b) := by
  cases a with
  | none =>
    cases b with
    | none => exact fun m hm => not_or.2 ⟨ha m hm, hb m hm⟩
    | some n =>
      obtain ⟨hn, hQ, hleast⟩ := hb
      exact ⟨hn, .inr hQ, fun m hm => not_or.2 ⟨ha m (by omega), hleast m hm⟩⟩
  | some k =>
    obtain ⟨hk, hP, hleast⟩ := ha
    cases b with
    | none => exact ⟨hk, .inl hP, fun m hm => not_or.2 ⟨hleast m hm, hb m (by omega)⟩⟩
    | some n =>
      obtain ⟨hn, hQ, hleast'⟩ := hb
      refine ⟨by omega, ?_, fun m hm => not_or.2 ⟨hleast m (by omega), hleast' m (by omega)⟩⟩
      by_cases hkn : k ≤ n
      · rw [Nat.min_eq_left hkn]
        exact .inl hP
      · rw [Nat.min_eq_right (by omega)]
        exact .inr hQ

/-- One level further down everything is one number further up. -/
theorem succ {result : Option Nat} (h : Least P budget result) :
    Least (fun n => ∃ m, n = m + 1 ∧ P m) (budget + 1) (result.map (· + 1)) := by
  cases result with
  | none =>
    intro m hm hafter
    obtain ⟨k, rfl, hk⟩ := hafter
    exact h k (by omega) hk
  | some n =>
    obtain ⟨hn, hP, hleast⟩ := h
    refine ⟨Nat.succ_le_succ hn, ⟨n, rfl, hP⟩, ?_⟩
    intro m hm hafter
    obtain ⟨k, rfl, hk⟩ := hafter
    exact hleast k (Nat.lt_of_succ_lt_succ hm) hk

/-- An outcome of a search with one budget settles what is least with another one. -/
theorem answer {outcome : SearchOutcome} (h : Least P outcome.budget outcome.foundAt)
    {result : Option Nat} (hanswer : outcome.answer? budget = some result) :
    Least P budget result := by
  obtain ⟨foundAt, known⟩ := outcome
  cases foundAt with
  | none =>
    simp only [SearchOutcome.answer?] at hanswer
    split at hanswer
    · cases hanswer
      exact fun m hm => h m (Nat.le_trans hm ‹_›)
    · cases hanswer
  | some n =>
    simp only [SearchOutcome.answer?, Option.some.injEq] at hanswer
    obtain ⟨-, hP, hleast⟩ := h
    subst hanswer
    split
    · exact ⟨‹_›, hP, hleast⟩
    · exact fun m hm => hleast m (by omega)

end Least

/-- An outcome settles nothing but what it found. -/
theorem SearchOutcome.foundAt_of_answer {outcome : SearchOutcome} {budget n : Nat}
    (h : outcome.answer? budget = some (some n)) : outcome.foundAt = some n := by
  obtain ⟨foundAt, known⟩ := outcome
  cases foundAt with
  | none =>
    simp only [answer?] at h
    split at h <;> cases h
  | some k =>
    simp only [answer?, Option.some.injEq] at h
    split at h
    · exact h
    · cases h

namespace Forge

variable (forge : Forge) (ecosystem : Ecosystem) (settings : Settings)

/-- Where an entry of a listed directory leads. -/
def into? (checkout : Checkout) (entry : Entry) : Option Key :=
  if entry.isSubmodule then (forge.inside? entry).map (·, .root) else some (checkout, entry.path)

/-- Some of the entries leads to the directory, as a directory or as a followed submodule. -/
def LeadsInto (checkout : Checkout) (entries : List Entry) (key : Key) : Prop :=
  ∃ entry ∈ entries, (entry.isDirectory || (entry.isSubmodule && settings.followSubmodules)) = true ∧
    forge.into? checkout entry = some key

/-- The second directory lies one level below the first one. -/
def Below (key inner : Key) : Prop :=
  ∃ entries, forge.listing? key = some entries ∧ forge.LeadsInto settings key.1 entries inner

/-- The second directory lies as many levels below the first one. -/
inductive Levels : Nat → Key → Key → Prop
  | here (key : Key) : Levels 0 key key
  | down {n : Nat} {key inner target : Key} (hbelow : forge.Below settings key inner)
      (hrest : Levels n inner target) : Levels (n + 1) key target

/-- The specifications that a listing shows. -/
def shownSpecifications (checkout : Checkout) (entries : List Entry) : List Key :=
  (entries.filter fun entry => entry.isFile && ecosystem.isSpecification entry.name).map
    fun entry => (checkout, entry.path)

/-- The specifications that a directory lists and that can be read. -/
def specifications (key : Key) : List Key :=
  match forge.listing? key with
  | some entries =>
    (shownSpecifications ecosystem key.1 entries).filter fun file => (forge.content? file).isSome
  | none => []

/-- Whether the listing of its directory shows a file. -/
def showsFile (file : Key) : Bool :=
  (forge.listing? (file.1, file.2.up)).any fun entries =>
    entries.any fun entry => entry.isFile && entry.path = file.2

/-- The listing of a directory shows a file at the path. -/
def Shows (directory : Key) (path : TreePath) : Prop :=
  ∃ entries, forge.listing? directory = some entries ∧
    ∃ entry ∈ entries, entry.isFile = true ∧ entry.path = path

/-- The marker file of a directory. -/
def markerOf (directory : Key) : Key := (directory.1, directory.2.join ecosystem.marker)

/-- The marker file of a directory is listed and can be read. -/
def Marked (directory : Key) : Prop :=
  forge.showsFile (markerOf ecosystem directory) = true ∧
    (forge.content? (markerOf ecosystem directory)).isSome = true

/-- Some directory so many levels below has a specification. -/
def SpecifiedAt (key : Key) (n : Nat) : Prop :=
  ∃ inner, forge.Levels settings n key inner ∧ forge.specifications ecosystem inner ≠ []

/-- One of the specifications so many levels below is among the given files. -/
def HasAt (files : List Key) (key : Key) (n : Nat) : Prop :=
  ∃ inner, forge.Levels settings n key inner ∧
    ∃ file ∈ forge.specifications ecosystem inner, file ∈ files

/-- The second directory lies as many levels below the first one, and no directory on the way
there has a specification. -/
inductive Exposes : Nat → Key → Key → Prop
  | here (key : Key) : Exposes 0 key key
  | down {n : Nat} {key inner target : Key} (hbare : forge.specifications ecosystem key = [])
      (hbelow : forge.Below settings key inner) (hrest : Exposes n inner target) :
      Exposes (n + 1) key target

/-- The submodule entry around a path that the nearest listed directory above it shows. -/
def around? (checkout : Checkout) (path : TreePath) : (ancestors : List TreePath) → Option Entry
  | [] => none
  | ancestor :: rest =>
    match forge.listing? (checkout, ancestor) with
    | none => around? checkout path rest
    | some entries => entries.find? fun entry => entry.isSubmodule && path.isWithin entry.path

/-- A path leads to a directory: to itself when it is listed as one, and through submodules. -/
inductive Leads : Key → Key → Prop
  | here {key : Key} {entries : List Entry} (hlist : forge.listing? key = some entries)
      (hmany : Entry.single? entries key.2 = none) : Leads key key
  | enter {key : Key} {entries : List Entry} {entry : Entry} {checkout : Checkout}
      (hlist : forge.listing? key = some entries)
      (hone : Entry.single? entries key.2 = some entry) (hkind : entry.isSubmodule = true)
      (hfollow : settings.followSubmodules = true) (hinside : forge.inside? entry = some checkout) :
      Leads key (checkout, .root)
  | through {key directory : Key} {entry : Entry} {checkout : Checkout}
      (hmissing : forge.listing? key = none) (hfollow : settings.followSubmodules = true)
      (haround : forge.around? key.1 key.2 key.2.ancestors = some entry)
      (hinside : forge.inside? entry = some checkout)
      (hrest : Leads (checkout, key.2.drop entry.path.segments.length) directory) :
      Leads key directory

/-- A checkout is mounted where submodules that are shown one inside the other put it. -/
inductive Mounted (root : Mount) : Mount → Prop
  | root : Mounted root root
  | enter {mount : Mount} {path : TreePath} {entries : List Entry} {entry : Entry}
      {checkout : Checkout} (houter : Mounted root mount)
      (hlist : forge.listing? (mount.checkout, path) = some entries) (hentry : entry ∈ entries)
      (hkind : entry.isSubmodule = true) (hinside : forge.inside? entry = some checkout) :
      Mounted root ⟨checkout, mount.position ++ entry.path⟩

variable {forge ecosystem settings}

/-- A directory is specified at level zero when it has a specification itself. -/
theorem specifiedAt_zero {key : Key} :
    forge.SpecifiedAt ecosystem settings key 0 ↔ forge.specifications ecosystem key ≠ [] := by
  constructor
  · intro hthis
    obtain ⟨inner, hlevels, hspecified⟩ := hthis
    cases hlevels
    exact hspecified
  · exact fun hspecified => ⟨key, .here key, hspecified⟩

/-- A directory is specified further down when some directory below is, one level less down. -/
theorem specifiedAt_succ {key : Key} {n : Nat} :
    forge.SpecifiedAt ecosystem settings key (n + 1) ↔
      ∃ inner, forge.Below settings key inner ∧ forge.SpecifiedAt ecosystem settings inner n := by
  constructor
  · intro hthis
    obtain ⟨target, hlevels, hspecified⟩ := hthis
    cases hlevels with
    | down hbelow hrest => exact ⟨_, hbelow, target, hrest, hspecified⟩
  · intro hthis
    obtain ⟨inner, hbelow, target, hrest, hspecified⟩ := hthis
    exact ⟨target, .down hbelow hrest, hspecified⟩

/-- A directory that is exposed to a search lies as many levels below it. -/
theorem Exposes.levels {n : Nat} {key target : Key}
    (h : forge.Exposes ecosystem settings n key target) : forge.Levels settings n key target := by
  induction h with
  | here key => exact .here key
  | down _ hbelow _ ih => exact .down hbelow ih

/-- The specifications of a directory are the files listed as such that can be read. -/
theorem mem_specifications {key file : Key} {entries : List Entry}
    (hlist : forge.listing? key = some entries) :
    file ∈ forge.specifications ecosystem key ↔
      (∃ entry ∈ entries, (entry.isFile && ecosystem.isSpecification entry.name) = true ∧
        (key.1, entry.path) = file) ∧ (forge.content? file).isSome = true := by
  simp only [specifications, hlist, shownSpecifications, List.mem_filter, List.mem_map, and_assoc]

/-- A file is shown by the listing of its directory. -/
theorem showsFile_iff {file : Key} :
    forge.showsFile file = true ↔ forge.Shows (file.1, file.2.up) file.2 := by
  simp only [showsFile, Shows, Option.any_eq_true, List.any_eq_true, Bool.and_eq_true,
    decide_eq_true_eq]

/-- What cannot be listed has no specification at any level. -/
theorem not_specifiedAt {key : Key} (hlist : forge.listing? key = none) (n : Nat) :
    ¬ forge.SpecifiedAt ecosystem settings key n := by
  cases n with
  | zero =>
    rw [specifiedAt_zero, specifications, hlist]
    simp
  | succ n =>
    rw [specifiedAt_succ]
    intro hthis
    obtain ⟨inner, ⟨entries, hentries, -⟩, -⟩ := hthis
    rw [hlist] at hentries
    cases hentries

/-- The first entry or one of the others leads to the directory. -/
theorem leadsInto_cons {checkout : Checkout} {entry : Entry} {entries : List Entry} {key : Key}
    (hentry : (entry.isDirectory || (entry.isSubmodule && settings.followSubmodules)) = true) :
    forge.LeadsInto settings checkout (entry :: entries) key ↔
      forge.into? checkout entry = some key ∨ forge.LeadsInto settings checkout entries key := by
  constructor
  · intro hthis
    obtain ⟨other, hother, hkind, hinto⟩ := hthis
    rcases List.mem_cons.1 hother with rfl | hother
    · exact .inl hinto
    · exact .inr ⟨other, hother, hkind, hinto⟩
  · intro hthis
    rcases hthis with hinto | ⟨other, hother, hkind, hinto⟩
    · exact ⟨entry, List.mem_cons_self, hentry, hinto⟩
    · exact ⟨other, List.mem_cons_of_mem _ hother, hkind, hinto⟩

/-- Entries that are not searched lead nowhere. -/
theorem leadsInto_filter {checkout : Checkout} {entries : List Entry} {key : Key} :
    forge.LeadsInto settings checkout (entries.filter fun entry =>
        entry.isDirectory || (entry.isSubmodule && settings.followSubmodules)) key ↔
      forge.LeadsInto settings checkout entries key := by
  simp only [LeadsInto, List.mem_filter]
  exact ⟨fun ⟨entry, hentry, h⟩ => ⟨entry, hentry.1, h⟩,
    fun ⟨entry, hentry, h⟩ => ⟨entry, ⟨hentry, h.1⟩, h⟩⟩

/-- The directories one level below a directory are those that its entries lead to. -/
theorem below_iff_mem {key inner : Key} : forge.Below settings key inner ↔
    inner ∈ ((forge.listing? key).getD []).filterMap fun entry =>
      if entry.isDirectory || (entry.isSubmodule && settings.followSubmodules) then
        forge.into? key.1 entry
      else none := by
  unfold Below LeadsInto
  cases forge.listing? key with
  | none => simp
  | some entries => simp [List.mem_filterMap]

/-- A specification that is there below a directory is there one level further down above. -/
theorem HasAt.succ {files : List Key} {key inner : Key} {n : Nat}
    (hbelow : forge.Below settings key inner) (h : forge.HasAt ecosystem settings files inner n) :
    forge.HasAt ecosystem settings files key (n + 1) := by
  obtain ⟨target, hlevels, hfile⟩ := h
  exact ⟨target, .down hbelow hlevels, hfile⟩

/-- More files have at least the same specifications. -/
theorem HasAt.mono {files more : List Key} {key : Key} {n : Nat} (hsubset : files ⊆ more)
    (h : forge.HasAt ecosystem settings files key n) : forge.HasAt ecosystem settings more key n := by
  obtain ⟨target, hlevels, file, hspecification, hfile⟩ := h
  exact ⟨target, hlevels, file, hspecification, hsubset hfile⟩

/-- A submodule around a path is an entry of some listing. -/
theorem mem_of_around? {checkout : Checkout} {path : TreePath} {ancestors : List TreePath}
    {entry : Entry} (h : forge.around? checkout path ancestors = some entry) :
    entry.isSubmodule = true ∧
      ∃ ancestor entries, forge.listing? (checkout, ancestor) = some entries ∧ entry ∈ entries := by
  induction ancestors with
  | nil => cases h
  | cons ancestor rest ih =>
    unfold around? at h
    cases hlist : forge.listing? (checkout, ancestor) with
    | none =>
      rw [hlist] at h
      exact ih h
    | some entries =>
      rw [hlist] at h
      have hentry := List.find?_some h
      simp only [Bool.and_eq_true] at hentry
      exact ⟨hentry.1, ancestor, entries, hlist, List.mem_of_find?_eq_some h⟩

section Leads

variable {key directory : Key} {entries : List Entry} {entry : Entry}

/-- The path of a directory leads to it alone. -/
theorem leads_iff_here (hlist : forge.listing? key = some entries)
    (hmany : Entry.single? entries key.2 = none) :
    forge.Leads settings key directory ↔ key = directory := by
  constructor
  · intro h
    cases h with
    | here => rfl
    | enter hlist' hone => simp_all
    | through hmissing => simp_all
  · intro hthis
    obtain rfl := hthis
    exact .here hlist hmany

/-- The path of a submodule leads into it, and the path of a file nowhere. -/
theorem leads_iff_enter (hlist : forge.listing? key = some entries)
    (hone : Entry.single? entries key.2 = some entry) :
    forge.Leads settings key directory ↔
      entry.isSubmodule = true ∧ settings.followSubmodules = true ∧
        (forge.inside? entry).map (·, .root) = some directory := by
  constructor
  · intro h
    cases h with
    | here hlist' hmany => simp_all
    | enter hlist' hone' hkind hfollow hinside => simp_all
    | through hmissing => simp_all
  · intro hthis
    obtain ⟨hkind, hfollow, hdirectory⟩ := hthis
    obtain ⟨checkout, hinside, rfl⟩ := Option.map_eq_some_iff.1 hdirectory
    exact .enter hlist hone hkind hfollow hinside

/-- A missing path leads where its rest leads from the root of the submodule around it. -/
theorem leads_iff_through (hmissing : forge.listing? key = none) :
    forge.Leads settings key directory ↔
      settings.followSubmodules = true ∧ ∃ entry checkout,
        forge.around? key.1 key.2 key.2.ancestors = some entry ∧
        forge.inside? entry = some checkout ∧
        forge.Leads settings (checkout, key.2.drop entry.path.segments.length) directory := by
  constructor
  · intro h
    cases h with
    | here hlist => simp_all
    | enter hlist => simp_all
    | through _ hfollow haround hinside hrest => exact ⟨hfollow, _, _, haround, hinside, hrest⟩
  · intro hthis
    obtain ⟨hfollow, entry, checkout, haround, hinside, hrest⟩ := hthis
    exact .through hmissing hfollow haround hinside hrest

end Leads

end Forge

end DependencyFiles
