import DependencyFiles.Repo.TreePath

/-!
# Paths and their texts

A path is told by its text, so that sorting paths by their texts neither loses nor adds any.
Names without separators lead to children, and the segments of a path lead to it one by one.
-/

namespace DependencyFiles

namespace Text

/-- A text without separators is one piece. -/
theorem pieces_of_forall {isSeparator : Char → Bool} {text : List Char}
    (h : ∀ c ∈ text, isSeparator c = false) : pieces isSeparator text = [text] := by
  induction text with
  | nil => rfl
  | cons c rest ih =>
    have hrest : pieces isSeparator rest = [rest] := ih fun d hd => h d (List.mem_cons_of_mem _ hd)
    simp [pieces, h c List.mem_cons_self, hrest]

/-- Pieces are what the separators split a text into. -/
theorem pieces_eq_splitOnP (isSeparator : Char → Bool) (text : List Char) :
    pieces isSeparator text = text.splitOnP isSeparator := by
  induction text with
  | nil => rfl
  | cons c rest ih =>
    rw [List.splitOnP_cons_eq_if_modifyHead, ← ih, pieces]
    split
    · rfl
    · cases hpieces : pieces isSeparator rest with
      | nil => exact absurd (ih.symm.trans hpieces) (List.splitOnP_ne_nil _ _)
      | cons piece more => rfl

/-- A separator parts the pieces before it from those behind it. -/
theorem pieces_append_cons {isSeparator : Char → Bool} {separator : Char}
    (h : isSeparator separator = true) (front back : List Char) :
    pieces isSeparator (front ++ separator :: back) =
      pieces isSeparator front ++ pieces isSeparator back := by
  simp only [pieces_eq_splitOnP]
  exact List.splitOnP_append_cons front back h

/-- Texts without separators can be told from what they are joined to. -/
theorem pieces_joinWith {isSeparator : Char → Bool} {separator : Char}
    (hseparator : isSeparator separator = true) {texts : List (List Char)} (hsome : texts ≠ [])
    (h : ∀ text ∈ texts, ∀ c ∈ text, isSeparator c = false) :
    pieces isSeparator (joinWith separator texts) = texts := by
  induction texts with
  | nil => exact absurd rfl hsome
  | cons text rest ih =>
    have htext := h text List.mem_cons_self
    cases rest with
    | nil => exact pieces_of_forall htext
    | cons next more =>
      rw [joinWith, pieces_append_cons hseparator, pieces_of_forall htext,
        ih (by simp) fun other hother => h other (List.mem_cons_of_mem _ hother), List.singleton_append]
      simp

end Text

namespace TreePath

/-- Different paths have different texts. -/
theorem toString_injective {p q : TreePath} (h : p.toString = q.toString) : p = q := by
  have hjoin : Text.joinWith '/' (p.segments.map String.toList) =
      Text.joinWith '/' (q.segments.map String.toList) := by
    have hchars := congrArg String.toList h
    simpa [toString] using hchars
  have hfree (path : TreePath) : ∀ text ∈ path.segments.map String.toList, ∀ c ∈ text,
      (c == '/') = false := by
    intro text htext c hc
    obtain ⟨segment, hsegment, rfl⟩ := List.mem_map.1 htext
    exact beq_eq_false_iff_ne.2 ((path.clean segment hsegment).2.2.2 c hc).1
  -- The root alone has no segments, and no segment is empty.
  have hpieces (path : TreePath) : (Text.pieces (· == '/')
      (Text.joinWith '/' (path.segments.map String.toList))).filter (!·.isEmpty) =
        path.segments.map String.toList := by
    by_cases hroot : path.segments.map String.toList = []
    · rw [hroot]
      rfl
    · rw [Text.pieces_joinWith (by simp) hroot (hfree path), List.filter_eq_self]
      intro text htext
      obtain ⟨segment, hsegment, rfl⟩ := List.mem_map.1 htext
      simpa using (path.clean segment hsegment).1
  have hsegments : p.segments.map String.toList = q.segments.map String.toList := by
    rw [← hpieces p, hjoin, hpieces q]
  exact ext_segments ((List.map_inj_right fun _ _ => String.toList_inj.1).1 hsegments)

/-- Paths that compare as equal are equal. -/
theorem eq_of_compare {p q : TreePath} (h : compare p q = .eq) : p = q := by
  change compareOfLessAndEq p.toString q.toString = .eq at h
  unfold compareOfLessAndEq at h
  split at h
  · cases h
  · split at h
    · exact toString_injective ‹_›
    · cases h

/-- A path is in an ascending list that it is entered into, and so is what was there before. -/
theorem mem_insertSorted {path first : TreePath} {sorted : List TreePath} :
    path ∈ insertSorted first sorted ↔ path = first ∨ path ∈ sorted := by
  induction sorted with
  | nil => simp [insertSorted]
  | cons other rest ih =>
    unfold insertSorted
    split
    · exact List.mem_cons
    · obtain rfl := eq_of_compare ‹_›
      simp
    · rw [List.mem_cons, ih, List.mem_cons]
      exact or_left_comm

/-- Paths in ascending order are the paths themselves. -/
theorem mem_sort {path : TreePath} {paths : List TreePath} : path ∈ sort paths ↔ path ∈ paths := by
  induction paths with
  | nil => exact Iff.rfl
  | cons first rest ih =>
    rw [List.mem_cons, ← ih]
    exact mem_insertSorted

/-- A name is followed to the child of that name. -/
theorem follow_of_isSegment (path : TreePath) {name : String} (h : IsSegment name) :
    path.follow name.toList = path.push name h := by
  have hname : String.ofList name.toList = name := String.ofList_toList
  have hup : name.toList ≠ ['.', '.'] := fun hup => h.2.2.1 (by rw [← hname, hup])
  have hsegment : IsSegment (String.ofList name.toList) := hname.symm ▸ h
  rw [follow, if_neg hup, dif_pos hsegment]
  exact ext_segments (by rw [segments_push, segments_push, hname])

/-- No character of a segment separates pieces. -/
theorem isSeparator_of_isSegment {name : String} (h : IsSegment name) :
    ∀ c ∈ name.toList, isSeparator c = false := by
  intro c hc
  simpa [isSeparator] using h.2.2.2 c hc

/-- A single name leads to the child of that name. -/
theorem join_of_isSegment (path : TreePath) {name : String} (h : IsSegment name) :
    path.join name = path.push name h := by
  unfold join
  rw [Text.pieces_of_forall (isSeparator_of_isSegment h), List.foldl_cons, List.foldl_nil,
    follow_of_isSegment path h]

/-- From the root a path leads to itself. -/
@[simp] theorem root_append (path : TreePath) : root ++ path = path :=
  ext_segments (List.nil_append _)

/-- Paths that lead on may be taken together. -/
theorem append_assoc (p q r : TreePath) : p ++ q ++ r = p ++ (q ++ r) :=
  ext_segments (List.append_assoc _ _ _)

/-- Where a path leads on from the same place tells how it does. -/
theorem append_left_cancel {p q r : TreePath} (h : p ++ q = p ++ r) : q = r :=
  ext_segments (List.append_cancel_left (congrArg segments h))

/-- A path lies within all that it leads on from. -/
theorem isWithin_append (p q : TreePath) : (p ++ q).isWithin p = true :=
  List.isPrefixOf_iff_prefix.2 (List.prefix_append _ _)

/-- Of two paths that the same path lies within, one lies within the other. -/
theorem isWithin_total {path p q : TreePath} (hp : path.isWithin p = true)
    (hq : path.isWithin q = true) : p.isWithin q = true ∨ q.isWithin p = true := by
  rcases List.prefix_or_prefix_of_prefix (List.isPrefixOf_iff_prefix.1 hp)
    (List.isPrefixOf_iff_prefix.1 hq) with h | h
  · exact .inr (List.isPrefixOf_iff_prefix.2 h)
  · exact .inl (List.isPrefixOf_iff_prefix.2 h)

/-- A path lies within the directory that holds it. -/
theorem isWithin_up (path : TreePath) : path.isWithin path.up = true :=
  List.isPrefixOf_iff_prefix.2 (List.dropLast_prefix _)

/-- What lies strictly within a path lies in a directory within it. -/
theorem isWithin_of_up {p q : TreePath} (h : p.isWithin q = true) (hne : p ≠ q) :
    p.up.isWithin q = true := by
  obtain ⟨rest, hrest⟩ := List.isPrefixOf_iff_prefix.1 h
  have hsome : rest ≠ [] := by
    intro hnone
    exact hne (ext_segments (by rw [← hrest, hnone, List.append_nil]))
  refine List.isPrefixOf_iff_prefix.2 ⟨rest.dropLast, ?_⟩
  rw [segments_up, ← hrest, List.dropLast_append_of_ne_nil hsome]

/-- What lies within a path lies within all that this path lies within. -/
theorem isWithin_trans {p q r : TreePath} (hpq : p.isWithin q = true) (hqr : q.isWithin r = true) :
    p.isWithin r = true :=
  List.isPrefixOf_iff_prefix.2
    ((List.isPrefixOf_iff_prefix.1 hqr).trans (List.isPrefixOf_iff_prefix.1 hpq))

/-- Paths within each other are the same. -/
theorem isWithin_antisymm {p q : TreePath} (hpq : p.isWithin q = true) (hqp : q.isWithin p = true) :
    p = q :=
  ext_segments ((List.isPrefixOf_iff_prefix.1 hqp).eq_of_length_le
    (List.isPrefixOf_iff_prefix.1 hpq).length_le)

/-- A path that is not the root is one segment longer than the directory that holds it. -/
theorem take_up {path : TreePath} (hne : path.up ≠ path) :
    path.take (path.up.segments.length + 1) = path := by
  have hsome : path.segments ≠ [] := by
    intro hnone
    exact hne (ext_segments (by rw [segments_up, hnone]; rfl))
  have hpositive := List.length_pos_iff.2 hsome
  apply ext_segments
  rw [segments_take, segments_up, List.length_dropLast]
  exact List.take_of_length_le (by omega)

/-- The path one segment further than a directory that holds a path lies right beneath it. -/
theorem up_take {path inner : TreePath} (hwithin : inner.isWithin path = true) (hne : inner ≠ path) :
    (inner.take (path.segments.length + 1)).up = path := by
  obtain ⟨rest, hrest⟩ := List.isPrefixOf_iff_prefix.1 hwithin
  apply ext_segments
  cases rest with
  | nil => exact absurd (ext_segments (by simpa using hrest.symm)) hne
  | cons segment rest =>
    have htake : (path.segments ++ segment :: rest).take (path.segments.length + 1) =
        path.segments ++ [segment] := by
      rw [List.take_length_add_append, List.take_succ_cons, List.take_zero]
    rw [segments_up, segments_take, ← hrest, htake, List.dropLast_concat]

/-- A list that shares all it has with another one is the start of it. -/
theorem prefix_of_length_le_sharedLength {segments others : List String}
    (h : segments.length ≤ sharedLength segments others) : segments <+: others := by
  induction segments generalizing others with
  | nil => exact List.nil_prefix
  | cons segment rest ih =>
    cases others with
    | nil => simp [sharedLength] at h
    | cons other more =>
      unfold sharedLength at h
      by_cases hsame : segment = other
      · rw [if_pos hsame, List.length_cons] at h
        subst hsame
        exact List.cons_prefix_cons.2 ⟨rfl, ih (by omega)⟩
      · simp [if_neg hsame] at h

/-- The last of several segments is the name that their text ends in. -/
theorem basename_joinSegments {front : List String} {name : String}
    (hfront : ∀ segment ∈ front, '/' ∉ segment.toList) (hname : IsSegment name) :
    Text.basename (joinSegments (front ++ [name])).toList = name.toList := by
  have hfree : ∀ text ∈ (front ++ [name]).map String.toList, ∀ c ∈ text, (c == '/') = false := by
    intro text htext c hc
    obtain ⟨segment, hsegment, rfl⟩ := List.mem_map.1 htext
    rw [beq_eq_false_iff_ne]
    rcases List.mem_append.1 hsegment with hsegment | hsegment
    · exact fun hslash => hfront segment hsegment (hslash ▸ hc)
    · rw [List.mem_singleton.1 hsegment] at hc
      exact (hname.2.2.2 c hc).1
  have hpieces : Text.pieces (· == '/') (joinSegments (front ++ [name])).toList =
      front.map String.toList ++ [name.toList] := by
    rw [joinSegments, String.toList_ofList, Text.pieces_joinWith (by simp) (by simp) hfree,
      List.map_append]
    rfl
  have hdot : name.toList ≠ ['.'] := fun hdot => hname.2.1 (String.toList_inj.1 hdot)
  rw [Text.basename, hpieces, List.filter_append]
  simp [hname.1, hdot]

/-- A name ends in itself. -/
theorem basename_of_isSegment {name : String} (hname : IsSegment name) :
    Text.basename name.toList = name.toList := by
  have hjoin : joinSegments ([] ++ [name]) = name := String.ofList_toList
  have hnone : ∀ segment ∈ ([] : List String), '/' ∉ segment.toList := by simp
  have hlast := basename_joinSegments hnone hname
  rw [hjoin] at hlast
  exact hlast

/-- As seen from a directory that is not beneath it, a path ends in its own name. -/
theorem basename_relativeTo {path base : TreePath} {front : List String} {name : String}
    (hname : path.segments = front ++ [name]) (hbase : base.isWithin path = false) :
    Text.basename (path.relativeTo base).toList = Text.basename name.toList := by
  have hclean : IsSegment name := path.clean name (by simp [hname])
  rw [basename_of_isSegment hclean]
  have hshared : sharedLength path.segments base.segments ≤ front.length := by
    apply Nat.le_of_lt_succ
    apply Nat.lt_of_not_le
    intro hle
    have hlength : path.segments.length = front.length + 1 := by simp [hname]
    have hwithin : base.isWithin path = true :=
      List.isPrefixOf_iff_prefix.2 (prefix_of_length_le_sharedLength (by omega))
    rw [hbase] at hwithin
    cases hwithin
  unfold relativeTo
  dsimp only
  generalize sharedLength path.segments base.segments = shared at hshared
  rw [hname, List.drop_append_of_le_length hshared, ← List.append_assoc, if_neg (by simp)]
  refine basename_joinSegments (fun segment hsegment => ?_) hclean
  rcases List.mem_append.1 hsegment with hsegment | hsegment
  · rw [(List.mem_replicate.1 hsegment).2]
    decide
  · have hmem : segment ∈ path.segments := by
      rw [hname]
      exact List.mem_append_left _ (List.mem_of_mem_drop hsegment)
    exact fun hslash => ((path.clean segment hmem).2.2.2 '/' hslash).1 rfl

/-- Joined steps are followed one by one. -/
theorem join_joinSegments (path : TreePath) {steps : List String} (hsome : steps ≠ [])
    (h : ∀ step ∈ steps, ∀ c ∈ step.toList, isSeparator c = false) :
    path.join (joinSegments steps) = steps.foldl (fun place step => place.follow step.toList) path := by
  have hpieces : Text.pieces isSeparator (joinSegments steps).toList = steps.map String.toList := by
    rw [joinSegments, String.toList_ofList, Text.pieces_joinWith rfl (by simpa using hsome)]
    simpa using h
  rw [join, hpieces, List.foldl_map]

/-- Going up several times takes as many segments away. -/
theorem foldl_follow_up (path : TreePath) (n : Nat) :
    (List.replicate n "..").foldl (fun place step => place.follow step.toList) path =
      path.take (path.segments.length - n) := by
  induction n generalizing path with
  | zero => exact ext_segments (by simp)
  | succ n ih =>
    have hup : path.follow "..".toList = path.up := if_pos rfl
    rw [List.replicate_succ, List.foldl_cons, hup, ih path.up]
    apply ext_segments
    rw [segments_take, segments_take, segments_up, List.length_dropLast, List.dropLast_eq_take,
      List.take_take]
    congr 1
    omega

/-- Going down along segments adds them. -/
theorem foldl_follow_down (path : TreePath) {steps : List String} (h : ∀ step ∈ steps, IsSegment step) :
    (steps.foldl (fun place step => place.follow step.toList) path).segments =
      path.segments ++ steps := by
  induction steps generalizing path with
  | nil => simp
  | cons step rest ih =>
    have hstep := h step List.mem_cons_self
    rw [List.foldl_cons, follow_of_isSegment path hstep,
      ih _ fun other hother => h other (List.mem_cons_of_mem _ hother), segments_push]
    simp

/-- Lists start with what they share. -/
theorem take_sharedLength (segments others : List String) :
    segments.take (sharedLength segments others) = others.take (sharedLength segments others) ∧
      sharedLength segments others ≤ others.length := by
  induction segments generalizing others with
  | nil => simp [sharedLength]
  | cons segment rest ih =>
    cases others with
    | nil => simp [sharedLength]
    | cons other more =>
      unfold sharedLength
      split
      · obtain ⟨hsame, hlength⟩ := ih more
        rw [List.take_succ_cons, List.take_succ_cons, hsame, ‹segment = other›]
        exact ⟨rfl, by simpa using hlength⟩
      · simp

/-- A path as seen from a directory leads back to it from there. -/
theorem join_relativeTo (path base : TreePath) : base.join (path.relativeTo base) = path := by
  obtain ⟨hshared, hlength⟩ := take_sharedLength path.segments base.segments
  have hdown : ∀ step ∈ path.segments.drop (sharedLength path.segments base.segments), IsSegment step :=
    fun step hstep => path.clean step (List.mem_of_mem_drop hstep)
  have hwhole : base.segments.take (sharedLength path.segments base.segments) ++
      path.segments.drop (sharedLength path.segments base.segments) = path.segments := by
    rw [← hshared, List.take_append_drop]
  unfold relativeTo
  dsimp only
  generalize sharedLength path.segments base.segments = shared at hlength hdown hwhole
  split
  · -- Nothing is to be walked, so that the path is the directory itself.
    have hstay : base.join "." = base := rfl
    rename_i hnone
    simp only [List.isEmpty_iff, List.append_eq_nil_iff, List.replicate_eq_nil_iff] at hnone
    rw [hstay]
    apply ext_segments
    rw [← hwhole, hnone.2, List.append_nil, List.take_of_length_le (by omega)]
  · rename_i hsome
    rw [join_joinSegments base (by simpa using hsome), List.foldl_append, foldl_follow_up]
    · apply ext_segments
      rw [foldl_follow_down _ hdown, segments_take, Nat.sub_sub_self hlength, hwhole]
    · intro step hstep
      rcases List.mem_append.1 hstep with hstep | hstep
      · simp [(List.mem_replicate.1 hstep).2, isSeparator]
      · exact isSeparator_of_isSegment (hdown step hstep)

end TreePath

end DependencyFiles
