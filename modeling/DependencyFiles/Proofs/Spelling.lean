import DependencyFiles.Proofs.Scanning
import DependencyFiles.Bundler.Manifest

/-!
# Calls as they are written

A call is written with string literals for its arguments, some with a label before them,
with or without parentheses, and perhaps with a block opener behind it. Nothing in a literal
is mistaken for syntax, so the method and the arguments are read as they were written.
-/

namespace DependencyFiles.Bundler

open Text

/-! ## Literals and arguments -/

/-- A string literal on one line, without quotes in its body. -/
structure Literal where
  double : Bool
  body : List Char
  unquoted : body.any isQuote = false
  inLine : '\n' ∉ body

/-- The quote of a string literal. -/
def Literal.quote (literal : Literal) : Char := if literal.double then '"' else '\''

/-- The text of a string literal. -/
def Literal.text (literal : Literal) : List Char :=
  literal.quote :: literal.body ++ [literal.quote]

/-- What stands before the literal of an argument. -/
inductive Label where
  | bare
  | colon
  | arrow
  deriving DecidableEq, Repr

/-- The text of a label. -/
def Label.text : Label → List Char
  | .bare => []
  | .colon => "path: ".toList
  | .arrow => ":path => ".toList

/-- An argument: a string literal with a label. -/
structure Argument where
  label : Label
  literal : Literal

/-- The text of an argument. -/
def Argument.text (argument : Argument) : List Char := argument.label.text ++ argument.literal.text

/-- The text of arguments with commas between them. -/
def argumentsText (arguments : List Argument) : List Char :=
  [',', ' '].intercalate (arguments.map Argument.text)

namespace Literal

variable (literal : Literal)

theorem isQuote_quote : isQuote literal.quote = true := by
  cases hdouble : literal.double <;> simp [quote, hdouble, isQuote]

theorem isQuote_of_mem {c : Char} (hc : c ∈ literal.body) : isQuote c = false :=
  Bool.eq_false_iff.2 (List.any_eq_false.1 literal.unquoted c hc)

theorem quote_not_mem : literal.quote ∉ literal.body := fun h =>
  Bool.false_ne_true ((literal.isQuote_of_mem h).symm.trans literal.isQuote_quote)

theorem not_mem_text {c : Char} (hc : isQuote c = false) (hbody : c ∉ literal.body) :
    c ∉ literal.text := by
  have hquote : c ≠ literal.quote := fun h =>
    Bool.false_ne_true (hc.symm.trans (h ▸ literal.isQuote_quote))
  simp [text, hquote, hbody]

end Literal

/-- A quote is no blank. -/
theorem isBlank_of_isQuote {q : Char} (hq : isQuote q = true) : isBlank q = false := by
  simp only [isQuote, Bool.or_eq_true, beq_iff_eq] at hq
  obtain rfl | rfl := hq <;> rfl

/-- Blanks do not change the nesting, and no scan stops at them when its sign is no blank. -/
theorem isIdle_of_isBlank {sign : Char} (hsign : isBlank sign = false) {c : Char}
    (hc : isBlank c = true) : isIdle sign c = true := by
  have hne : c ≠ sign := fun h => Bool.false_ne_true (hsign.symm.trans (h ▸ hc))
  rw [isIdle, bne_iff_ne.2 hne, Bool.and_true]
  refine Bool.not_eq_false _ ▸ fun hplain => ?_
  simp only [isPlain, isQuote, opensBracket, closesBracket, Bool.and_eq_false_iff,
    Bool.not_eq_false', Bool.or_eq_true, beq_iff_eq] at hplain
  obtain (((rfl | rfl) | (rfl | rfl) | rfl) | (rfl | rfl) | rfl) := hplain <;> cases hc

/-- A text that starts with neither a blank nor an equality sign and ends with a quote. -/
def Framed (text : List Char) : Prop :=
  ∃ first middle last, text = first :: middle ++ [last] ∧
    isBlank first = false ∧ first ≠ '=' ∧ isQuote last = true

theorem Argument.framed (argument : Argument) : Framed argument.text := by
  obtain ⟨label, literal⟩ := argument
  have hquote := literal.isQuote_quote
  have hne : literal.quote ≠ '=' := fun h => Bool.false_ne_true (h ▸ hquote :)
  have hlabel (first : Char) (more : List Char) (htext : label.text = first :: more)
      (hfirst : isBlank first = false) (heq : first ≠ '=') : Framed (Argument.text ⟨label, literal⟩) :=
    ⟨first, more ++ literal.quote :: literal.body, literal.quote,
      by simp [text, htext, Literal.text], hfirst, heq, hquote⟩
  cases label with
  | bare =>
    exact ⟨literal.quote, literal.body, literal.quote, rfl, isBlank_of_isQuote hquote, hne, hquote⟩
  | colon => exact hlabel 'p' "ath: ".toList rfl rfl (by decide)
  | arrow => exact hlabel ':' "path => ".toList rfl rfl (by decide)

theorem Framed.trim_eq {text : List Char} (h : Framed text) : trim text = text := by
  obtain ⟨first, middle, last, rfl, hfirst, -, hlast⟩ := h
  exact trim_cons_append_cons hfirst (isBlank_of_isQuote hlast) middle []

theorem Framed.ne_nil {text : List Char} (h : Framed text) : text ≠ [] := by
  obtain ⟨first, middle, last, rfl, -⟩ := h
  exact List.cons_ne_nil _ _

/-- Framed texts with anything between them are framed. -/
theorem Framed.intercalate {separator : List Char} {texts : List (List Char)} (hne : texts ≠ [])
    (h : ∀ text ∈ texts, Framed text) : Framed (separator.intercalate texts) := by
  induction texts with
  | nil => exact absurd rfl hne
  | cons text more ih =>
    have htext := h text List.mem_cons_self
    cases more with
    | nil => simpa using htext
    | cons next others =>
      obtain ⟨first, middle, last, rfl, hfirst, heq, -⟩ := htext
      obtain ⟨first', middle', last', hmore, -, -, hlast⟩ :=
        ih (List.cons_ne_nil next others) fun other hother => h other (List.mem_cons_of_mem _ hother)
      rw [List.intercalate_cons_cons, hmore]
      exact ⟨first, middle ++ last :: separator ++ first' :: middle', last', by simp,
        hfirst, heq, hlast⟩

/-- The signs of the three scans. -/
def signs : List Char := ['#', ')', ',']

/-- Nothing in a label is a quote, a bracket or the sign of a scan. -/
theorem Label.all_isIdle (label : Label) {sign : Char} (hsign : sign ∈ signs) :
    label.text.all (isIdle sign) = true := by
  have hall : signs.all (fun sign => label.text.all (isIdle sign)) = true := by
    cases label <;> decide
  exact List.all_eq_true.1 hall sign hsign

/-- An argument is inert for each of the three scans. -/
theorem Argument.inert {sign : Char} {stops : Nesting → Char → Bool} (hstops : StopsAt sign stops)
    (hsign : sign ∈ signs) (argument : Argument) : Inert stops argument.text := by
  have hquote := argument.literal.isQuote_quote
  have hne : argument.literal.quote ≠ sign := by
    have hall : signs.all (fun sign => !isQuote sign) = true := rfl
    have hfree := List.all_eq_true.1 hall sign hsign
    intro h
    rw [← h, hquote] at hfree
    exact Bool.false_ne_true hfree
  exact (Inert.of_idle hstops (argument.label.all_isIdle hsign)).append
    (.literal hstops hquote hne argument.literal.quote_not_mem)

/-! ## Block openers -/

/-- What stands behind the first part of a text that goes on to another one holds that one,
when the sign between them is not in it. -/
theorem exists_append_of_append_eq {sign : Char} {before after left right : List Char}
    (h : left ++ right = before ++ sign :: after) (hright : sign ∉ right) :
    ∃ middle, after = middle ++ right := by
  obtain ⟨middle, hbefore, hafter⟩ | ⟨middle, hleft, hafter⟩ := List.append_eq_append_iff.1 h
  · exact absurd (hafter ▸ List.mem_append_right middle List.mem_cons_self) hright
  · cases middle with
    | nil =>
      rw [List.nil_append] at hafter
      exact absurd (hafter ▸ List.mem_cons_self) hright
    | cons c middle => exact ⟨middle, (List.cons.inj hafter).2⟩

section
variable {q : Char} (hq : isQuote q = true) {rest : List Char}

include hq

theorem allBlank_append_quote (text rest : List Char) : allBlank (text ++ q :: rest) = false := by
  simp [allBlank, isBlank_of_isQuote hq]

theorem trimStart_append_quote (text rest : List Char) :
    trimStart (text ++ q :: rest) = trimStart text ++ q :: rest :=
  dropWhile_append_cons (isBlank_of_isQuote hq) text rest

/-- A text before a quote that starts with another character than a quote has that character. -/
theorem exists_cons_of_append_quote {c : Char} (hc : isQuote c = false) {text opened : List Char}
    (h : text ++ q :: rest = c :: opened) :
    ∃ more, text = c :: more ∧ opened = more ++ q :: rest := by
  cases text with
  | nil => exact absurd hq (Bool.eq_false_iff.1 ((List.cons.inj h).1 ▸ hc))
  | cons d more => exact ⟨more, by rw [(List.cons.inj h).1], (List.cons.inj h).2.symm⟩

/-- No text in which a quote follows is a block opener, whatever stands in the literal before
the quote, unless a bar stands behind it. -/
theorem isBlockOpener_append_quote (hrest : '|' ∉ rest) (text : List Char) :
    isBlockOpener (text ++ q :: rest) = false := by
  have hbar : '|' ∉ q :: rest := by
    have hne : '|' ≠ q := fun h => Bool.false_ne_true (h ▸ hq :)
    simp [hne, hrest]
  unfold isBlockOpener
  split
  · rename_i opened heq
    obtain ⟨second, -, hsecond⟩ := exists_cons_of_append_quote hq rfl heq
    obtain ⟨more, -, rfl⟩ := exists_cons_of_append_quote hq rfl hsecond.symm
    rw [allBlank_append_quote hq, Bool.false_or, trimStart_append_quote hq]
    split
    · rename_i parameters hparameters
      split
      · -- The second bar stands before the quote, which stays behind it.
        rename_i left hleft
        have hsplit : trimStart more ++ q :: rest =
            ('|' :: parameters.takeWhile (· ≠ '|')) ++ '|' :: left := by
          rw [hparameters, ← hleft, List.cons_append, List.takeWhile_append_dropWhile]
        obtain ⟨middle, rfl⟩ := exists_append_of_append_eq hsplit hbar
        exact allBlank_append_quote hq middle rest
      · rfl
    · rfl
  · rename_i opened heq
    obtain ⟨more, -, rfl⟩ := exists_cons_of_append_quote hq rfl heq
    exact allBlank_append_quote hq more rest
  · rfl

/-- A block opener is only looked for behind the last quote. -/
theorem dropBlockOpener_append_quote (hrest : '|' ∉ rest) (text : List Char) :
    dropBlockOpener (text ++ q :: rest) = text ++ q :: dropBlockOpener rest := by
  induction text with
  | nil => simp [dropBlockOpener, isBlank_of_isQuote hq]
  | cons c text ih =>
    rw [List.cons_append, dropBlockOpener, trimStart_append_quote hq,
      isBlockOpener_append_quote hq hrest, Bool.and_false, ih]
    rfl

end

/-! ## Calls -/

/-- A character that is in neither the separator nor the texts is not in what they make. -/
theorem not_mem_intercalate {c : Char} {separator : List Char} {texts : List (List Char)}
    (hseparator : c ∉ separator) (h : ∀ text ∈ texts, c ∉ text) : c ∉ separator.intercalate texts := by
  induction texts with
  | nil => exact List.not_mem_nil
  | cons text more ih =>
    have htext := h text List.mem_cons_self
    cases more with
    | nil => simpa using htext
    | cons next others =>
      have hmore := ih fun other hother => h other (List.mem_cons_of_mem text hother)
      rw [List.intercalate_cons_cons]
      simp only [List.mem_append, not_or]
      exact ⟨⟨htext, hseparator⟩, hmore⟩

/-- Texts with commas and spaces between them are texts with commas between them, all but the
first one behind a space. -/
theorem intercalate_comma_space (first : List Char) (more : List (List Char)) :
    [',', ' '].intercalate (first :: more) = [','].intercalate (first :: more.map (' ' :: ·)) := by
  induction more generalizing first with
  | nil => rfl
  | cons next others ih =>
    have hspace : [','].intercalate ((' ' :: next) :: others.map (' ' :: ·)) =
        ' ' :: [','].intercalate (next :: others.map (' ' :: ·)) := by
      cases others <;> simp [List.intercalate_cons_cons]
    rw [List.map_cons, List.intercalate_cons_cons, List.intercalate_cons_cons, ih, hspace]
    simp

/-- How a call is written: behind blanks, and with or without parentheses. -/
structure Layout where
  indent : List Char
  parenthesised : Bool
  blank : allBlank indent = true
  inLine : '\n' ∉ indent

/-- The arguments and the block opener of a call, as they stand behind the method. -/
def Layout.callText (layout : Layout) (arguments : List Argument) (opener : List Char) : List Char :=
  if layout.parenthesised then '(' :: argumentsText arguments ++ ')' :: opener
  else ' ' :: argumentsText arguments ++ opener

/-- The line of a call. -/
def Layout.line (layout : Layout) (method : String) (arguments : List Argument)
    (opener : List Char) : List Char :=
  layout.indent ++ (method.toList ++ layout.callText arguments opener)

/-- A block opener as it is written, if there is one. -/
def blockOpener (opens : Bool) : List Char := if opens then " do".toList else []

/-- A line feed is in no argument. -/
theorem feed_not_mem_argumentsText (arguments : List Argument) :
    '\n' ∉ argumentsText arguments := by
  refine not_mem_intercalate (by decide) fun text htext => ?_
  obtain ⟨argument, -, rfl⟩ := List.mem_map.1 htext
  have hlabel : '\n' ∉ argument.label.text := by cases argument.label <;> decide
  have hliteral := argument.literal.not_mem_text rfl argument.literal.inLine
  simp [Argument.text, hlabel, hliteral]

/-- Behind a space stand arguments without parentheses. -/
theorem callArguments?_space_cons (rest : List Char) :
    callArguments? (' ' :: rest) =
      if (trim (dropBlockOpener (' ' :: rest))).head? = some '=' then none
      else some (splitArguments (trim (dropBlockOpener (' ' :: rest)))) := rfl

/-- Arguments without parentheses go up to the block opener. -/
theorem callArguments?_framed {text : List Char} (htext : Framed text) (opens : Bool) :
    callArguments? (' ' :: (text ++ blockOpener opens)) = some (splitArguments text) := by
  have htrim := htext.trim_eq
  obtain ⟨first, middle, last, rfl, -, heq, hlast⟩ := htext
  have hbar : '|' ∉ blockOpener opens := by cases opens <;> decide
  have hnothing : dropBlockOpener (blockOpener opens) = [] := by cases opens <;> rfl
  have hdrop : dropBlockOpener (' ' :: (first :: middle ++ [last] ++ blockOpener opens)) =
      ' ' :: (first :: middle ++ [last]) := by
    have hquote := dropBlockOpener_append_quote hlast hbar (' ' :: first :: middle)
    rw [hnothing] at hquote
    simpa using hquote
  have hhead : (first :: middle ++ [last]).head? ≠ some '=' := by simpa using heq
  rw [callArguments?_space_cons, hdrop, trim_blank_cons rfl, htrim, if_neg hhead]

section
variable {arguments : List Argument} (hne : arguments ≠ [])

theorem inert_argumentsText {sign : Char} {stops : Nesting → Char → Bool}
    (hstops : StopsAt sign stops) (hsign : sign ∈ signs)
    (hseparator : [',', ' '].all (isIdle sign) = true) : Inert stops (argumentsText arguments) := by
  refine (Inert.of_idle hstops hseparator).intercalate fun text htext => ?_
  obtain ⟨argument, -, rfl⟩ := List.mem_map.1 htext
  exact argument.inert hstops hsign

include hne

theorem framed_argumentsText : Framed (argumentsText arguments) := by
  refine Framed.intercalate (by simpa using hne) fun text htext => ?_
  obtain ⟨argument, -, rfl⟩ := List.mem_map.1 htext
  exact argument.framed

omit hne in
theorem splitArguments_argumentsText :
    splitArguments (argumentsText arguments) = arguments.map Argument.text := by
  cases arguments with
  | nil => rfl
  | cons first more =>
    have hspace (argument : Argument) : trim (' ' :: argument.text) = argument.text :=
      (trim_blank_cons rfl argument.text).trans argument.framed.trim_eq
    have hblank : Inert Nesting.separates [' '] := .of_idle stopsAt_separates rfl
    have hinert (argument : Argument) : Inert Nesting.separates argument.text :=
      argument.inert stopsAt_separates (by decide)
    rw [argumentsText, List.map_cons, intercalate_comma_space, splitArguments_intercalate]
    · simp [hspace, first.framed.trim_eq, Function.comp_def]
    · simp only [List.map_map, List.forall_mem_cons, List.forall_mem_map]
      exact ⟨(hinert first).separable, fun argument _ => (hblank.append (hinert argument)).separable⟩
    · simp only [List.map_map, List.forall_mem_cons, List.forall_mem_map, Function.comp_def, hspace,
        first.framed.trim_eq]
      exact ⟨first.framed.ne_nil, fun argument _ => argument.framed.ne_nil⟩

/-- The arguments of a call are read as they were written. -/
theorem callArguments?_callText (layout : Layout) (opens : Bool) :
    callArguments? (layout.callText arguments (blockOpener opens)) =
      some (arguments.map Argument.text) := by
  have hsplit : splitArguments (argumentsText arguments) = arguments.map Argument.text :=
    splitArguments_argumentsText
  rw [Layout.callText]
  split
  · have hinert : Inert Nesting.closesCall (argumentsText arguments) :=
      inert_argumentsText stopsAt_closesCall (by decide) rfl
    rw [callArguments?_balanced hinert.balanced, hsplit]
  · rw [List.cons_append, callArguments?_framed (framed_argumentsText hne), hsplit]

/-- What stands behind the method is no assignment. -/
theorem head_trimStart_callText (layout : Layout) (opens : Bool) :
    (trimStart (layout.callText arguments (blockOpener opens))).head? ≠ some '=' := by
  obtain ⟨first, middle, last, htext, hfirst, heq, -⟩ := framed_argumentsText hne
  rw [Layout.callText, htext]
  split
  · simp [trimStart_cons (show isBlank '(' = false from rfl)]
  · have hstart : trimStart (' ' :: (first :: middle ++ [last]) ++ blockOpener opens) =
        first :: (middle ++ [last] ++ blockOpener opens) :=
      (trimStart_append (show allBlank [' '] = true from rfl) _).trans (trimStart_cons hfirst _)
    rw [hstart]
    simpa using heq

end

/-! ## Lines -/

section
variable {method : String} (hmethod : method ∈ methods) (layout : Layout) (arguments : List Argument)
  (opens : Bool)

include hmethod

/-- A method is a word. -/
theorem isWord_of_mem_methods : ∀ c ∈ method.toList, isWord c = true := by
  have hall : methods.all (fun method => method.toList.all isWord) = true := by decide +kernel
  exact List.all_eq_true.1 (List.all_eq_true.1 hall method hmethod)

/-- The characters of a method are not blank. -/
theorem isBlank_of_mem_methods : ∀ c ∈ method.toList, isBlank c = false := by
  have hall : methods.all (fun method => method.toList.all (!isBlank ·)) = true := by decide +kernel
  exact fun c hc => by simpa using List.all_eq_true.1 (List.all_eq_true.1 hall method hmethod) c hc

theorem exists_cons_of_mem_methods : ∃ first more, method.toList = first :: more := by
  have hall : ∀ method ∈ methods, method.toList ≠ [] := by decide
  exact List.exists_cons_of_ne_nil (hall method hmethod)

/-- The method is the first word of the line. -/
theorem span_line : (trimStart (layout.line method arguments (blockOpener opens))).span isWord =
    (method.toList, layout.callText arguments (blockOpener opens)) := by
  have hstart : trimStart (layout.line method arguments (blockOpener opens)) =
      method.toList ++ layout.callText arguments (blockOpener opens) := by
    obtain ⟨first, more, hfirst⟩ := exists_cons_of_mem_methods hmethod
    have hblank := isBlank_of_mem_methods hmethod first (hfirst ▸ List.mem_cons_self)
    rw [Layout.line, trimStart_append layout.blank, hfirst]
    exact trimStart_cons hblank _
  have hword := isWord_of_mem_methods hmethod
  rw [hstart, Layout.callText]
  split
  · exact span_append_cons hword (by decide +kernel) _
  · exact span_append_cons hword (by decide +kernel) _

/-- A call is no assignment. -/
theorem assignment?_line {arguments : List Argument} (hne : arguments ≠ []) :
    assignment? (layout.line method arguments (blockOpener opens)) = none := by
  have hhead := head_trimStart_callText hne layout opens
  rw [assignment?, span_line hmethod]
  dsimp only
  split
  · rename_i rest heq
    rw [heq] at hhead
    exact absurd rfl hhead
  · rfl

/-- A call is read as it was written. -/
theorem call?_line {arguments : List Argument} (hne : arguments ≠ []) :
    call? (layout.line method arguments (blockOpener opens)) =
      some (method, arguments.map Argument.text) := by
  have hcontains : methods.contains method = true := List.contains_iff_mem.2 hmethod
  rw [call?, span_line hmethod]
  dsimp only
  rw [String.ofList_toList, if_pos hcontains, callArguments?_callText hne]
  rfl

/-- No comment starts in a call. -/
theorem withoutComment_line : withoutComment {} (layout.line method arguments (blockOpener opens)) =
    layout.line method arguments (blockOpener opens) := by
  have hindent : Inert Nesting.startsComment layout.indent :=
    .of_idle stopsAt_startsComment (List.all_eq_true.2 fun c hc =>
      isIdle_of_isBlank rfl (List.all_eq_true.1 layout.blank c hc))
  have hword : Inert Nesting.startsComment method.toList := by
    have hall : methods.all (fun method => method.toList.all (isIdle '#')) = true := by decide +kernel
    exact .of_idle stopsAt_startsComment (List.all_eq_true.1 hall method hmethod)
  have harguments : Inert Nesting.startsComment (argumentsText arguments) :=
    inert_argumentsText stopsAt_startsComment (by decide) rfl
  have hspace : Inert Nesting.startsComment [' '] := .of_idle stopsAt_startsComment rfl
  have hopener : Inert Nesting.startsComment (blockOpener opens) :=
    .of_idle stopsAt_startsComment (by cases opens <;> decide)
  have hcall : Inert Nesting.startsComment (layout.callText arguments (blockOpener opens)) := by
    rw [Layout.callText]
    split
    · have hparentheses := harguments.parentheses stopsAt_startsComment (by decide) (by decide)
      simpa using hparentheses.append hopener
    · exact (hspace.append harguments).append hopener
  exact withoutComment_eq_self ((hindent.append (hword.append hcall)).passes 0)

/-- A call is no blank line. -/
theorem allBlank_line : allBlank (layout.line method arguments (blockOpener opens)) = false := by
  obtain ⟨first, more, hfirst⟩ := exists_cons_of_mem_methods hmethod
  have hblank := isBlank_of_mem_methods hmethod first (hfirst ▸ List.mem_cons_self)
  simp [allBlank, Layout.line, hfirst, hblank]

/-- A call is on one line. -/
theorem feed_not_mem_line : '\n' ∉ layout.line method arguments (blockOpener opens) := by
  have hmethods : '\n' ∉ method.toList := fun h => nomatch isBlank_of_mem_methods hmethod _ h
  have harguments := feed_not_mem_argumentsText arguments
  have hopener : '\n' ∉ blockOpener opens := by cases opens <;> decide
  rw [Layout.line, Layout.callText]
  split <;> simp [layout.inLine, hmethods, harguments, hopener]

omit hmethod in
/-- The last character of a call is no carriage return. -/
theorem getLast?_line {arguments : List Argument} (hne : arguments ≠ []) :
    (layout.line method arguments (blockOpener opens)).getLast? ≠ some '\r' := by
  obtain ⟨first, middle, last, htext, -, -, hlast⟩ := framed_argumentsText hne
  have hreturn : last ≠ '\r' := fun h => Bool.false_ne_true (h ▸ hlast :)
  rw [Layout.line, Layout.callText, htext]
  cases opens <;> split <;> simp [blockOpener, List.getLast?_append, List.getLast?_cons, hreturn]

end

end DependencyFiles.Bundler
