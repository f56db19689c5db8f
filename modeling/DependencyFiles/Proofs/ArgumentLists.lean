import DependencyFiles.Proofs.RubyComments
import Mathlib.Data.List.TakeWhile

/-!
# Arguments with and without parentheses

Arguments with quotes and brackets in balance are written one after the other, with commas between
them and blanks around them. The scan for the parenthesis that closes a call and the scan from comma
to comma agree on where such arguments stand, so that a call has the same arguments in parentheses
as behind a blank, with or without a block opener behind them.
-/

namespace DependencyFiles.Bundler

open Text

/-! ## Arguments as they are written -/

/-- An argument as it is written, with blanks around it. Its quotes and brackets are in balance, and
no comma stands outside of them. -/
structure WrittenArgument where
  front : List Char
  text : List Char
  back : List Char
  blank_front : allBlank front = true
  blank_back : allBlank back = true
  filled : text ≠ []
  trimmed : trim text = text
  balanced : Balanced text
  separable : Separable text

/-- The text of an argument with the blanks around it. -/
def WrittenArgument.written (argument : WrittenArgument) : List Char :=
  argument.front ++ (argument.text ++ argument.back)

/-- Arguments with commas between them. -/
def argumentList (arguments : List WrittenArgument) : List Char :=
  [','].intercalate (arguments.map WrittenArgument.written)

/-- Blanks are inert for a scan whose sign is no blank. -/
theorem Inert.of_allBlank {sign : Char} {stops : Nesting → Char → Bool} (hstops : StopsAt sign stops)
    (hsign : isBlank sign = false) {blanks : List Char} (h : allBlank blanks = true) :
    Inert stops blanks :=
  .of_idle hstops (List.all_eq_true.2 fun c hc =>
    isIdle_of_isBlank hsign (List.all_eq_true.1 h c hc))

theorem Balanced.append {text rest : List Char} (htext : Balanced text) (hrest : Balanced rest) :
    Balanced (text ++ rest) where
  ends := by rw [Nesting.after_append, htext.ends, hrest.ends]
  stays := by rw [Nesting.passes_append, htext.ends, htext.stays, hrest.stays, Bool.and_self]

namespace WrittenArgument

variable (argument : WrittenArgument)

theorem trim_written : trim argument.written = argument.text := by
  rw [written, trim_append argument.blank_front,
    (Padded.append argument.blank_back argument.text).trim_eq, argument.trimmed]

theorem separable_written : Separable argument.written :=
  (Inert.of_allBlank stopsAt_separates rfl argument.blank_front).separable.append
    (argument.separable.append (Inert.of_allBlank stopsAt_separates rfl argument.blank_back).separable)

theorem balanced_written : Balanced argument.written :=
  (Inert.of_allBlank stopsAt_closesCall rfl argument.blank_front).balanced.append
    (argument.balanced.append (Inert.of_allBlank stopsAt_closesCall rfl argument.blank_back).balanced)

end WrittenArgument

/-- The arguments are found again in the text that has them with commas between them. -/
theorem splitArguments_argumentList (arguments : List WrittenArgument) :
    splitArguments (argumentList arguments) = arguments.map WrittenArgument.text := by
  have htrim : trim ∘ WrittenArgument.written = WrittenArgument.text :=
    funext WrittenArgument.trim_written
  rw [argumentList, splitArguments_intercalate, List.map_map, htrim]
  · exact List.forall_mem_map.2 fun argument _ => argument.separable_written
  · intro text htext
    obtain ⟨argument, -, rfl⟩ := List.mem_map.1 htext
    rw [argument.trim_written]
    exact argument.filled

/-- Arguments with commas between them have their quotes and brackets in balance. -/
theorem balanced_argumentList (arguments : List WrittenArgument) : Balanced (argumentList arguments) := by
  induction arguments with
  | nil => exact ⟨rfl, rfl⟩
  | cons argument more ih =>
    have hargument := argument.balanced_written
    cases more with
    | nil => simpa [argumentList] using hargument
    | cons next others =>
      have hcomma : Balanced [','] := ⟨rfl, rfl⟩
      have htext : argumentList (argument :: next :: others) =
          argument.written ++ ([','] ++ argumentList (next :: others)) := by
        simp [argumentList, List.intercalate_cons_cons]
      rw [htext]
      exact hargument.append (hcomma.append ih)

/-! ## Blanks around the whole list -/

/-- A text without commas is one piece. -/
theorem commaPieces_of_not_mem {text : List Char} (h : ',' ∉ text) (n : Nesting) :
    commaPieces n text = [text] := by
  induction text generalizing n with
  | nil => rfl
  | cons c rest ih =>
    simp only [List.mem_cons, not_or] at h
    rw [commaPieces, if_neg fun hc => h.1 hc.2.symm, ih h.2]

/-- The pieces of a text with blanks behind it are those of the text, the last one with the
blanks behind it. -/
theorem forall₂_padded_commaPieces {text padded : List Char} (h : Padded text padded) (n : Nesting) :
    List.Forall₂ Padded (commaPieces n text) (commaPieces n padded) := by
  obtain ⟨blanks, hblanks, rfl⟩ := h
  induction text generalizing n with
  | nil =>
    rw [List.nil_append, commaPieces_of_not_mem (not_mem_of_allBlank hblanks rfl)]
    exact .cons (.append hblanks []) .nil
  | cons c text ih =>
    rw [List.cons_append, commaPieces, commaPieces]
    split
    · exact .cons (.refl []) (ih n)
    · have hrest := ih (n.step c)
      generalize commaPieces (n.step c) text = pieces, commaPieces (n.step c) (text ++ blanks) = others
        at hrest ⊢
      cases hrest with
      | nil => exact .cons (.refl [c]) .nil
      | cons hpiece hmore => exact .cons (hpiece.cons c) hmore

/-- Blanks behind arguments do not matter. -/
theorem splitArguments_padded {text padded : List Char} (h : Padded text padded) :
    splitArguments padded = splitArguments text := by
  have hpieces : (commaPieces {} padded).map trim = (commaPieces {} text).map trim := by
    have hall := forall₂_padded_commaPieces h {}
    generalize commaPieces {} text = pieces, commaPieces {} padded = others at hall
    induction hall with
    | nil => rfl
    | cons hpiece _ ih => rw [List.map_cons, List.map_cons, hpiece.trim_eq, ih]
  rw [splitArguments, splitArguments, hpieces]

/-- Blanks before arguments do not matter. -/
theorem splitArguments_append {blanks : List Char} (h : allBlank blanks = true) (text : List Char) :
    splitArguments (blanks ++ text) = splitArguments text := by
  have hblanks := (Inert.of_allBlank stopsAt_separates rfl h).separable
  have hpieces := commaPieces_append hblanks.passes text
  rw [hblanks.ends] at hpieces
  rw [splitArguments, splitArguments, hpieces]
  cases commaPieces {} text with
  | nil => rfl
  | cons piece more => rw [List.modifyHead_cons, List.map_cons, List.map_cons, trim_append h]

/-- Blanks around arguments do not matter. -/
theorem splitArguments_trim (text : List Char) : splitArguments (trim text) = splitArguments text := by
  have hsplit : text = text.takeWhile isBlank ++ trimStart text := List.takeWhile_append_dropWhile.symm
  have hblank : allBlank (text.takeWhile isBlank) = true := List.all_takeWhile
  calc splitArguments (trim text)
      _ = splitArguments (trimStart text) := (splitArguments_padded (padded_trimEnd _)).symm
      _ = splitArguments (text.takeWhile isBlank ++ trimStart text) := (splitArguments_append hblank _).symm
      _ = splitArguments text := by rw [← hsplit]

/-- Arguments with commas between them start with the first one behind its blanks. -/
theorem head?_trim_argumentList (arguments : List WrittenArgument) :
    (trim (argumentList arguments)).head? = arguments.head?.bind (·.text.head?) := by
  cases arguments with
  | nil => rfl
  | cons argument more =>
    obtain ⟨c, rest, htext, hc⟩ := exists_cons_of_trim_eq argument.trimmed argument.filled
    obtain ⟨tail, htail⟩ : ∃ tail, argumentList (argument :: more) = argument.front ++ (c :: tail) := by
      cases more with
      | nil => exact ⟨rest ++ argument.back, by simp [argumentList, WrittenArgument.written, htext]⟩
      | cons next others =>
        exact ⟨rest ++ argument.back ++ ',' :: argumentList (next :: others), by
          simp [argumentList, WrittenArgument.written, htext, List.intercalate_cons_cons]⟩
    rw [htail, trim_append argument.blank_front, trim_cons hc]
    simp [htext]

/-! ## Block openers -/

/-- A block opener stands at the end of a text, behind a blank or as the whole of the text. -/
def EndsInOpener (text : List Char) : Prop :=
  ∃ front opener, text = front ++ opener ∧ (∀ c ∈ front.getLast?, isBlank c = true) ∧
    isBlockOpener opener = true

/-- A block opener starts with no blank. -/
theorem trimStart_of_isBlockOpener {opener : List Char} (h : isBlockOpener opener = true) :
    trimStart opener = opener := by
  unfold isBlockOpener at h
  split at h
  · rfl
  · rfl
  · cases h

/-- A text loses a block opener that it has behind a blank. -/
theorem dropBlockOpener_ne_self {front opener : List Char} {blank : Char} (hblank : isBlank blank = true)
    (h : isBlockOpener opener = true) :
    dropBlockOpener (front ++ blank :: opener) ≠ front ++ blank :: opener := by
  induction front with
  | nil =>
    rw [List.nil_append, dropBlockOpener, trimStart_of_isBlockOpener h, hblank, h]
    exact (List.cons_ne_nil _ _).symm
  | cons c front ih =>
    rw [List.cons_append, dropBlockOpener]
    split
    · exact (List.cons_ne_nil _ _).symm
    · exact fun heq => ih (List.cons.inj heq).2

/-- A text without a block opener behind a blank stays as it is. -/
theorem dropBlockOpener_eq_self {text : List Char}
    (h : ∀ front blank rest, text = front ++ blank :: rest → isBlank blank = true →
      isBlockOpener (trimStart rest) = false) : dropBlockOpener text = text := by
  induction text with
  | nil => rfl
  | cons c text ih =>
    have hc : (isBlank c && isBlockOpener (trimStart text)) = false := by
      cases hblank : isBlank c with
      | false => rfl
      | true => exact h [] c text rfl hblank
    rw [dropBlockOpener, hc, ih fun front blank rest htext => h (c :: front) blank rest (by rw [htext]; rfl)]
    rfl

/-- Behind a blank a text loses a block opener exactly when it ends in one. -/
theorem endsInOpener_iff {blank : Char} (hblank : isBlank blank = true) (text : List Char) :
    EndsInOpener text ↔ dropBlockOpener (blank :: text) ≠ blank :: text := by
  constructor
  · rintro ⟨front, opener, rfl, hfront, hopener⟩
    obtain rfl | ⟨front, last, rfl⟩ := front.eq_nil_or_concat
    · exact @dropBlockOpener_ne_self [] opener blank hblank hopener
    · have hlast : isBlank last = true := hfront last (by simp)
      have hsplit : blank :: (front.concat last ++ opener) = (blank :: front) ++ last :: opener := by simp
      rw [hsplit]
      exact dropBlockOpener_ne_self hlast hopener
  · intro hne
    by_contra hends
    refine hne (dropBlockOpener_eq_self fun front inner rest htext hinner => ?_)
    refine Bool.eq_false_iff.2 fun hopener => hends ?_
    have hrest : rest = rest.takeWhile isBlank ++ trimStart rest := List.takeWhile_append_dropWhile.symm
    have hblanks : ∀ c ∈ rest.takeWhile isBlank, isBlank c = true :=
      List.all_eq_true.1 List.all_takeWhile
    cases front with
    | nil =>
      obtain ⟨rfl, rfl⟩ := List.cons.inj htext
      exact ⟨_, _, hrest, fun c hc => hblanks c (List.mem_of_getLast? hc), hopener⟩
    | cons first front =>
      have htail : text = front ++ inner :: rest := (List.cons.inj htext).2
      refine ⟨front ++ inner :: rest.takeWhile isBlank, _, ?_, fun c hc => ?_, hopener⟩
      · rw [htail, List.append_assoc, List.cons_append, ← hrest]
      · have hmem : c ∈ inner :: rest.takeWhile isBlank := by
          rw [List.getLast?_append_cons] at hc
          exact List.mem_of_getLast? hc
        obtain rfl | hmem := List.mem_cons.1 hmem
        · exact hinner
        · exact hblanks c hmem

instance (text : List Char) : Decidable (EndsInOpener text) :=
  decidable_of_iff (dropBlockOpener (' ' :: text) ≠ ' ' :: text) (endsInOpener_iff rfl text).symm

/-- The block openers that are written behind arguments without parentheses. -/
def blockOpeners : List (List Char) := [" do".toList, " \x7b".toList]

/-- The last character of a text is that of whatever the text ends in. -/
theorem mem_of_suffix_concat {rest text : List Char} {c : Char} (h : rest <:+ text ++ [c])
    (hne : rest ≠ []) : c ∈ rest := by
  obtain ⟨front, hfront⟩ := h
  have hlast := congrArg List.getLast? hfront
  rw [List.getLast?_concat, List.getLast?_append_of_ne_nil front hne] at hlast
  exact List.mem_of_getLast? hlast

/-- A block opener that ends in neither a blank nor a bar is nothing but its sign. -/
theorem eq_of_isBlockOpener_concat {text : List Char} {c : Char} (h : isBlockOpener (text ++ [c]) = true)
    (hc : isBlank c = false) (hbar : c ≠ '|') : text ++ [c] = ['d', 'o'] ∨ text ++ [c] = ['\x7b'] := by
  have hnil {rest : List Char} (hrest : rest <:+ text ++ [c]) (hall : allBlank rest = true) : rest = [] :=
    Classical.byContradiction fun hne => not_mem_of_allBlank hall hc (mem_of_suffix_concat hrest hne)
  unfold isBlockOpener at h
  split at h
  · rename_i rest heq
    have hrest : rest <:+ text ++ [c] := ⟨['d', 'o'], heq.symm⟩
    change (allBlank rest || isParameters (trimStart rest)) = true at h
    obtain hblank | hparameters := Bool.or_eq_true_iff.1 h
    · rw [heq, hnil hrest hblank]
      exact .inl rfl
    · -- Behind the second bar nothing is left, so that the bar is the last character.
      have hstart : trimStart rest <:+ text ++ [c] := (List.dropWhile_suffix isBlank).trans hrest
      unfold isParameters at hparameters
      split at hparameters
      · rename_i parameters hopen
        split at hparameters
        · rename_i left hclose
          have hleft : '|' :: left <:+ text ++ [c] := by
            rw [hopen] at hstart
            rw [← hclose]
            exact ((List.dropWhile_suffix _).trans (List.suffix_cons '|' parameters)).trans hstart
          rw [hnil ((List.suffix_cons '|' left).trans hleft) hparameters] at hleft
          exact absurd (List.mem_singleton.1 (mem_of_suffix_concat hleft (List.cons_ne_nil _ _))) hbar
        · cases hparameters
      · cases hparameters
  · rename_i rest heq
    rw [heq, hnil ⟨['\x7b'], heq.symm⟩ h]
    exact .inr rfl
  · cases h

/-- No text that goes on with a blank and a block opener is one itself. -/
theorem isBlockOpener_append_opener {opener : List Char} (hopener : opener ∈ blockOpeners)
    (text : List Char) : isBlockOpener (text ++ opener) = false := by
  obtain ⟨start, last, rfl, hspace, hlast, hbar⟩ : ∃ start last, opener = start ++ [last] ∧
      ' ' ∈ start ∧ isBlank last = false ∧ last ≠ '|' := by
    simp only [blockOpeners, List.mem_cons, List.not_mem_nil, or_false] at hopener
    obtain rfl | rfl := hopener
    · exact ⟨" d".toList, 'o', rfl, by decide, rfl, by decide⟩
    · exact ⟨[' '], '\x7b', rfl, by decide, rfl, by decide⟩
  refine Bool.eq_false_iff.2 fun h => ?_
  have hmem : ' ' ∈ text ++ start ++ [last] := by simp [hspace]
  rw [← List.append_assoc] at h
  -- The sign of an opener has no space in it.
  obtain hsign | hsign := eq_of_isBlockOpener_concat h hlast hbar <;> simp [hsign] at hmem

/-- A block opener behind a text is dropped, with the blanks at the end of the text. -/
theorem padded_dropBlockOpener_append {opener : List Char} (hopener : opener ∈ blockOpeners)
    (text : List Char) : Padded (dropBlockOpener (text ++ opener)) text := by
  induction text with
  | nil =>
    simp only [blockOpeners, List.mem_cons, List.not_mem_nil, or_false] at hopener
    obtain rfl | rfl := hopener <;> exact .refl []
  | cons c text ih =>
    rw [List.cons_append, dropBlockOpener]
    split
    · -- Blanks alone stand before the opener, as no opener goes on with another one.
      rename_i hdrop
      obtain ⟨hc, hopens⟩ := Bool.and_eq_true_iff.1 hdrop
      have hblank : allBlank text = true := by
        rw [trimStart, List.dropWhile_append] at hopens
        split at hopens
        · rename_i hempty
          exact List.all_eq_true.2 (List.dropWhile_eq_nil_iff.1 (List.isEmpty_iff.1 hempty))
        · rw [isBlockOpener_append_opener hopener] at hopens
          cases hopens
      exact ⟨c :: text, List.all_eq_true.2 (List.forall_mem_cons.2 ⟨hc, List.all_eq_true.1 hblank⟩), rfl⟩
    · exact ih.cons c

/-! ## Both styles -/

/-- Arguments behind a blank are read up to what is dropped of the text behind them. -/
theorem callArguments?_blank_cons {arguments : List WrittenArgument} {blank : Char} {rest : List Char}
    (hblank : isBlank blank = true) (hassigns : ∀ argument ∈ arguments.head?, argument.text.head? ≠ some '=')
    (hrest : Padded (dropBlockOpener (blank :: rest)) (blank :: argumentList arguments)) :
    callArguments? (blank :: rest) = some (arguments.map WrittenArgument.text) := by
  have hopen : blank ≠ '(' := fun h => absurd (h ▸ hblank) (by decide)
  have htrim : trim (dropBlockOpener (blank :: rest)) = trim (argumentList arguments) :=
    hrest.trim_eq.symm.trans (trim_blank_cons hblank _)
  have hhead : (trim (argumentList arguments)).head? ≠ some '=' := by
    rw [head?_trim_argumentList]
    cases arguments with
    | nil => simp
    | cons argument more => exact hassigns argument rfl
  rw [callArguments?_cons hopen, if_pos hblank, htrim]
  dsimp only
  rw [if_neg hhead, splitArguments_trim, splitArguments_argumentList]

/-- **Calls with and without parentheses have the same arguments.** Arguments with their quotes
and brackets in balance are found again in the text that has them with commas between them; in the
same text in parentheses, whatever follows; and in that text behind a blank, when the first argument
does not make it an assignment and no block opener at the end of the text is taken for the opener
of the call. With an opener behind it the text may end as it likes. -/
theorem arguments_of_both_styles (arguments : List WrittenArgument) :
    splitArguments (argumentList arguments) = arguments.map WrittenArgument.text ∧
      (∀ tail, callArguments? ('(' :: argumentList arguments ++ ')' :: tail) =
        some (arguments.map WrittenArgument.text)) ∧
      ((∀ argument ∈ arguments.head?, argument.text.head? ≠ some '=') →
        ∀ blank, isBlank blank = true →
          (¬ EndsInOpener (argumentList arguments) →
            callArguments? (blank :: argumentList arguments) = some (arguments.map WrittenArgument.text)) ∧
          ∀ opener ∈ blockOpeners, callArguments? (blank :: argumentList arguments ++ opener) =
            some (arguments.map WrittenArgument.text)) := by
  have hsplit := splitArguments_argumentList arguments
  refine ⟨hsplit, fun tail => ?_, fun hassigns blank hblank => ⟨fun hends => ?_, fun opener hopener => ?_⟩⟩
  · rw [callArguments?_balanced (balanced_argumentList arguments), hsplit]
  · have hkept := not_not.1 (mt (endsInOpener_iff hblank _).2 hends)
    refine callArguments?_blank_cons hblank hassigns ?_
    rw [hkept]
    exact .refl _
  · exact callArguments?_blank_cons hblank hassigns
      (padded_dropBlockOpener_append hopener (blank :: argumentList arguments))

/-- The name of a package and its directory, with commas in quotes and in brackets. -/
def packageArguments : List WrittenArgument :=
  [{ front := []
     text := "\"rails\"".toList
     back := ['\t']
     blank_front := rfl
     blank_back := rfl
     filled := by decide
     trimmed := rfl
     balanced := ⟨rfl, rfl⟩
     separable := ⟨rfl, rfl⟩ },
   { front := [' ', ' ']
     text := "path: File.join('a, b', \"c\")".toList
     back := []
     blank_front := rfl
     blank_back := rfl
     filled := by decide
     trimmed := rfl
     balanced := ⟨rfl, rfl⟩
     separable := ⟨rfl, rfl⟩ }]

theorem arguments_of_both_styles_package :
    (∀ argument ∈ packageArguments.head?, argument.text.head? ≠ some '=') ∧
      ¬ EndsInOpener (argumentList packageArguments) ∧ " do".toList ∈ blockOpeners ∧
      callArguments? (' ' :: argumentList packageArguments) =
        some ["\"rails\"".toList, "path: File.join('a, b', \"c\")".toList] ∧
      callArguments? (' ' :: argumentList packageArguments ++ " do".toList) =
        some ["\"rails\"".toList, "path: File.join('a, b', \"c\")".toList] := by
  have hassigns : ∀ argument ∈ packageArguments.head?, argument.text.head? ≠ some '=' := by
    intro argument hargument
    cases hargument
    decide
  have hends : ¬ EndsInOpener (argumentList packageArguments) := by decide +kernel
  have hopener : " do".toList ∈ blockOpeners := List.mem_cons_self
  have hcall := (arguments_of_both_styles packageArguments).2.2 hassigns ' ' rfl
  exact ⟨hassigns, hends, hopener, hcall.1 hends, hcall.2 _ hopener⟩

end DependencyFiles.Bundler
