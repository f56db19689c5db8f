import DependencyFiles.Bundler.Arguments
import DependencyFiles.Proofs.Cutting

/-!
# Scans that keep track of quotes and brackets

Three scans run over a line with the nesting of each character at hand: up to the comment
sign, up to the parenthesis that closes a call, and from comma to comma. Each passes over a
text in which it does not stop and goes on behind it with the nesting that the text leaves.
A text that leaves every nesting as it was can be put anywhere in a line.
-/

namespace DependencyFiles.Bundler

open Text

/-! ## Passing over a text -/

/-- The nesting behind a text. -/
def Nesting.after (n : Nesting) (text : List Char) : Nesting := text.foldl Nesting.step n

/-- Whether a scan passes over a text without stopping at any of its characters. -/
def Nesting.passes (stops : Nesting → Char → Bool) (n : Nesting) : List Char → Bool
  | [] => true
  | c :: rest => !stops n c && (n.step c).passes stops rest

section
variable {stops : Nesting → Char → Bool} {n : Nesting} {text rest : List Char}

@[simp] theorem Nesting.after_nil (n : Nesting) : n.after [] = n := rfl

@[simp] theorem Nesting.after_cons (n : Nesting) (c : Char) (rest : List Char) :
    n.after (c :: rest) = (n.step c).after rest := rfl

@[simp] theorem Nesting.after_append (n : Nesting) (text rest : List Char) :
    n.after (text ++ rest) = (n.after text).after rest := by
  simp [Nesting.after]

theorem Nesting.passes_append :
    n.passes stops (text ++ rest) = (n.passes stops text && (n.after text).passes stops rest) := by
  induction text generalizing n with
  | nil => rfl
  | cons c text ih => simp [passes, ih, Bool.and_assoc]

/-! ## The three scans -/

/-- A comment starts at its sign outside of string literals. -/
def Nesting.startsComment (n : Nesting) (c : Char) : Bool := n.quote.isNone && c == '#'

/-- A call is closed by a parenthesis outside of string literals and brackets. -/
def Nesting.closesCall (n : Nesting) (c : Char) : Bool := n.isOutside && c == ')'

/-- Arguments are separated by commas outside of string literals and brackets. -/
def Nesting.separates (n : Nesting) (c : Char) : Bool := n.isOutside && c == ','

theorem withoutComment_append (h : n.passes Nesting.startsComment text = true)
    (rest : List Char) :
    withoutComment n (text ++ rest) = text ++ withoutComment (n.after text) rest := by
  induction text generalizing n with
  | nil => rfl
  | cons c text ih =>
    simp only [Nesting.passes, Bool.and_eq_true, Bool.not_eq_true'] at h
    have hc : ¬ (n.quote.isNone = true ∧ c = '#') := by simpa [Nesting.startsComment] using h.1
    rw [List.cons_append, withoutComment, if_neg hc, ih h.2]
    rfl

/-- A line in which no comment starts is all code. -/
theorem withoutComment_eq_self (h : n.passes Nesting.startsComment text = true) :
    withoutComment n text = text := by
  have hend := withoutComment_append h []
  rwa [withoutComment, List.append_nil] at hend

theorem beforeClosing?_append (h : n.passes Nesting.closesCall text = true) (rest : List Char) :
    beforeClosing? n (text ++ rest) = (beforeClosing? (n.after text) rest).map (text ++ ·) := by
  induction text generalizing n with
  | nil => simp
  | cons c text ih =>
    simp only [Nesting.passes, Bool.and_eq_true, Bool.not_eq_true'] at h
    have hc : ¬ (n.isOutside = true ∧ c = ')') := by simpa [Nesting.closesCall] using h.1
    rw [List.cons_append, beforeClosing?, if_neg hc, ih h.2, Option.map_map]
    rfl

theorem commaPieces_ne_nil (n : Nesting) (text : List Char) : commaPieces n text ≠ [] := by
  cases text with
  | nil => simp [commaPieces]
  | cons c rest =>
    rw [commaPieces]
    split
    · simp
    · split <;> simp

theorem commaPieces_append (h : n.passes Nesting.separates text = true) (rest : List Char) :
    commaPieces n (text ++ rest) = (commaPieces (n.after text) rest).modifyHead (text ++ ·) := by
  induction text generalizing n with
  | nil =>
    rw [List.nil_append, Nesting.after_nil]
    cases commaPieces n rest <;> rfl
  | cons c text ih =>
    simp only [Nesting.passes, Bool.and_eq_true, Bool.not_eq_true'] at h
    have hc : ¬ (n.isOutside = true ∧ c = ',') := by simpa [Nesting.separates] using h.1
    rw [List.cons_append, commaPieces, if_neg hc, ih h.2]
    cases hpieces : commaPieces ((n.step c).after text) rest with
    | nil => exact absurd hpieces (commaPieces_ne_nil _ _)
    | cons piece more => simp [hpieces]

end

/-! ## Texts that leave the nesting as it is -/

/-- Characters that do not change the nesting outside of string literals. -/
def isPlain (c : Char) : Bool := !isQuote c && !opensBracket c && !closesBracket c

/-- Characters that neither change the nesting nor are the sign of a scan. -/
def isIdle (sign c : Char) : Bool := isPlain c && c != sign

/-- A text that a scan passes over outside of string literals, at any depth, and that leaves
the nesting as it was. -/
structure Inert (stops : Nesting → Char → Bool) (text : List Char) : Prop where
  keeps (depth : Nat) : Nesting.after ⟨none, depth⟩ text = ⟨none, depth⟩
  passes (depth : Nat) : Nesting.passes stops ⟨none, depth⟩ text = true

/-- A scan that stops only at its sign, and only outside of string literals. -/
structure StopsAt (sign : Char) (stops : Nesting → Char → Bool) : Prop where
  eq_sign {n : Nesting} {c : Char} (h : stops n c = true) : c = sign
  outside {n : Nesting} {c : Char} (h : stops n c = true) : n.quote = none

theorem stopsAt_startsComment : StopsAt '#' Nesting.startsComment where
  eq_sign h := by simpa using (Bool.and_eq_true_iff.1 h).2
  outside h := by simpa using (Bool.and_eq_true_iff.1 h).1

theorem Nesting.quote_eq_none {n : Nesting} (h : n.isOutside = true) : n.quote = none := by
  simpa using (Bool.and_eq_true_iff.1 h).1

theorem stopsAt_closesCall : StopsAt ')' Nesting.closesCall where
  eq_sign h := by simpa using (Bool.and_eq_true_iff.1 h).2
  outside h := Nesting.quote_eq_none (Bool.and_eq_true_iff.1 h).1

theorem stopsAt_separates : StopsAt ',' Nesting.separates where
  eq_sign h := by simpa using (Bool.and_eq_true_iff.1 h).2
  outside h := Nesting.quote_eq_none (Bool.and_eq_true_iff.1 h).1

theorem StopsAt.eq_false {sign : Char} {stops : Nesting → Char → Bool} (h : StopsAt sign stops)
    {c : Char} (hc : c ≠ sign) (n : Nesting) : stops n c = false :=
  Bool.eq_false_iff.2 fun hstop => hc (h.eq_sign hstop)

section
variable {sign : Char} {stops : Nesting → Char → Bool} {text rest : List Char}

theorem Inert.nil (stops : Nesting → Char → Bool) : Inert stops [] := ⟨fun _ => rfl, fun _ => rfl⟩

theorem Inert.append (htext : Inert stops text) (hrest : Inert stops rest) :
    Inert stops (text ++ rest) where
  keeps depth := by rw [Nesting.after_append, htext.keeps, hrest.keeps]
  passes depth := by
    rw [Nesting.passes_append, htext.keeps, htext.passes, hrest.passes, Bool.and_self]

theorem Nesting.step_plain {c : Char} (hc : isPlain c = true) (depth : Nat) :
    Nesting.step ⟨none, depth⟩ c = ⟨none, depth⟩ := by
  simp only [isPlain, Bool.and_eq_true, Bool.not_eq_true'] at hc
  simp [Nesting.step, hc]

/-- Characters that neither change the nesting nor are the sign make an inert text. -/
theorem Inert.of_idle (hstops : StopsAt sign stops) (htext : text.all (isIdle sign) = true) :
    Inert stops text := by
  induction text with
  | nil => exact .nil stops
  | cons c text ih =>
    simp only [List.all_cons, isIdle, Bool.and_eq_true, bne_iff_ne] at htext
    obtain ⟨⟨hplain, hsign⟩, hrest⟩ := htext
    refine ⟨fun depth => ?_, fun depth => ?_⟩
    · rw [Nesting.after_cons, Nesting.step_plain hplain, (ih hrest).keeps]
    · rw [Nesting.passes, Nesting.step_plain hplain, (ih hrest).passes, hstops.eq_false hsign]
      rfl

/-- Inert texts with an inert separator between them make an inert text. -/
theorem Inert.intercalate (hrest : Inert stops rest) {texts : List (List Char)}
    (htexts : ∀ text ∈ texts, Inert stops text) : Inert stops (rest.intercalate texts) := by
  induction texts with
  | nil => exact .nil stops
  | cons text more ih =>
    have htext := htexts text List.mem_cons_self
    cases more with
    | nil => simpa using htext
    | cons next others =>
      rw [List.intercalate_cons_cons]
      exact (htext.append hrest).append
        (ih fun other hother => htexts other (List.mem_cons_of_mem text hother))

/-- Inside of a string literal only its closing quote changes anything. -/
theorem Nesting.step_inside {q c : Char} (hc : c ≠ q) (depth : Nat) :
    Nesting.step ⟨some q, depth⟩ c = ⟨some q, depth⟩ := by
  simp [Nesting.step, hc]

theorem Nesting.after_inside {q : Char} {body : List Char} (hbody : q ∉ body) (depth : Nat) :
    Nesting.after ⟨some q, depth⟩ body = ⟨some q, depth⟩ := by
  induction body with
  | nil => rfl
  | cons c body ih =>
    simp only [List.mem_cons, not_or] at hbody
    rw [Nesting.after_cons, Nesting.step_inside (Ne.symm hbody.1), ih hbody.2]

theorem Nesting.passes_inside (hstops : StopsAt sign stops) {q : Char} {body : List Char}
    (hbody : q ∉ body) (depth : Nat) : Nesting.passes stops ⟨some q, depth⟩ body = true := by
  induction body with
  | nil => rfl
  | cons c body ih =>
    simp only [List.mem_cons, not_or] at hbody
    have hc : stops ⟨some q, depth⟩ c = false :=
      Bool.eq_false_iff.2 fun h => nomatch hstops.outside h
    rw [Nesting.passes, hc, Nesting.step_inside (Ne.symm hbody.1), ih hbody.2]
    rfl

/-- A string literal is inert, whatever signs its body has. -/
theorem Inert.literal (hstops : StopsAt sign stops) {q : Char} (hq : isQuote q = true)
    (hne : q ≠ sign) {body : List Char} (hbody : q ∉ body) : Inert stops (q :: body ++ [q]) := by
  have hopen (depth : Nat) : Nesting.step ⟨none, depth⟩ q = ⟨some q, depth⟩ := by
    simp [Nesting.step, hq]
  have hclose (depth : Nat) : Nesting.step ⟨some q, depth⟩ q = ⟨none, depth⟩ := by
    simp [Nesting.step]
  have hquote := hstops.eq_false hne
  refine ⟨fun depth => ?_, fun depth => ?_⟩
  · rw [List.cons_append, Nesting.after_cons, hopen, Nesting.after_append,
      Nesting.after_inside hbody, Nesting.after_cons, hclose, Nesting.after_nil]
  · rw [List.cons_append, Nesting.passes, hquote, hopen, Nesting.passes_append,
      Nesting.passes_inside hstops hbody, Nesting.after_inside hbody, Nesting.passes, hquote]
    rfl

/-- An inert text is inert in parentheses for a scan that does not stop at them. -/
theorem Inert.parentheses (hstops : StopsAt sign stops) (hopen : '(' ≠ sign) (hclose : ')' ≠ sign)
    (htext : Inert stops text) : Inert stops ('(' :: text ++ [')']) where
  keeps depth := by
    have hin : Nesting.step ⟨none, depth⟩ '(' = ⟨none, depth + 1⟩ := rfl
    have hout : Nesting.step ⟨none, depth + 1⟩ ')' = ⟨none, depth⟩ := rfl
    rw [List.cons_append, Nesting.after_cons, hin, Nesting.after_append, htext.keeps,
      Nesting.after_cons, hout, Nesting.after_nil]
  passes depth := by
    have hin : Nesting.step ⟨none, depth⟩ '(' = ⟨none, depth + 1⟩ := rfl
    rw [List.cons_append, Nesting.passes, hstops.eq_false hopen, hin, Nesting.passes_append,
      htext.passes, htext.keeps, Nesting.passes, hstops.eq_false hclose]
    rfl

end

/-! ## Arguments -/

/-- The last piece is kept when it is not empty. -/
theorem dropEmptyLast_eq_self {pieces : List (List Char)} (h : pieces.getLast? ≠ some []) :
    dropEmptyLast pieces = pieces := by
  induction pieces with
  | nil => rfl
  | cons piece more ih =>
    cases more with
    | nil =>
      have hpiece : piece ≠ [] := by simpa using h
      simp [dropEmptyLast, hpiece]
    | cons next others => rw [dropEmptyLast, ih (by simpa using h)]

/-- A text that can stand between commas: it ends outside of string literals and brackets as it
starts, and no comma in it stands outside of them. -/
structure Separable (text : List Char) : Prop where
  ends : Nesting.after {} text = {}
  passes : Nesting.passes Nesting.separates {} text = true

theorem Inert.separable {text : List Char} (h : Inert Nesting.separates text) : Separable text :=
  ⟨h.keeps 0, h.passes 0⟩

theorem Separable.append {text rest : List Char} (htext : Separable text) (hrest : Separable rest) :
    Separable (text ++ rest) where
  ends := by rw [Nesting.after_append, htext.ends, hrest.ends]
  passes := by rw [Nesting.passes_append, htext.ends, htext.passes, hrest.passes, Bool.and_self]

/-- Texts are the pieces of what they make with commas between them. -/
theorem commaPieces_intercalate {texts : List (List Char)} (hne : texts ≠ [])
    (h : ∀ text ∈ texts, Separable text) : commaPieces {} ([','].intercalate texts) = texts := by
  induction texts with
  | nil => exact absurd rfl hne
  | cons text more ih =>
    have htext := h text List.mem_cons_self
    cases more with
    | nil =>
      have hpieces := commaPieces_append htext.passes []
      rw [htext.ends, List.append_nil] at hpieces
      simpa [commaPieces] using hpieces
    | cons next others =>
      have hmore := ih (List.cons_ne_nil next others) fun other hother =>
        h other (List.mem_cons_of_mem text hother)
      have hpieces := commaPieces_append htext.passes (',' :: [','].intercalate (next :: others))
      rw [htext.ends, commaPieces, if_pos ⟨rfl, rfl⟩, hmore] at hpieces
      simpa [List.intercalate_cons_cons] using hpieces

/-- Arguments are found again, without the blanks around them, in the text that has them with
commas between them. -/
theorem splitArguments_intercalate {texts : List (List Char)} (h : ∀ text ∈ texts, Separable text)
    (hfilled : ∀ text ∈ texts, trim text ≠ []) :
    splitArguments ([','].intercalate texts) = texts.map trim := by
  by_cases hne : texts = []
  · subst hne
    rfl
  · rw [splitArguments, commaPieces_intercalate hne h]
    refine dropEmptyLast_eq_self fun hlast => ?_
    obtain ⟨text, htext, hnil⟩ := List.mem_map.1 (List.mem_of_getLast? hlast)
    exact hfilled text htext hnil

/-! ## Calls -/

/-- A text with quotes and brackets in balance: it starts and ends outside of string literals
and brackets, and no parenthesis in it closes one that was opened before it. -/
structure Balanced (text : List Char) : Prop where
  ends : Nesting.after {} text = {}
  stays : Nesting.passes Nesting.closesCall {} text = true

instance (text : List Char) : Decidable (Balanced text) :=
  decidable_of_iff (Nesting.after {} text = {} ∧ Nesting.passes Nesting.closesCall {} text = true)
    ⟨fun ⟨ends, stays⟩ => ⟨ends, stays⟩, fun h => ⟨h.ends, h.stays⟩⟩

theorem Inert.balanced {text : List Char} (h : Inert Nesting.closesCall text) : Balanced text :=
  ⟨h.keeps 0, h.passes 0⟩

/-- The arguments of a call are read up to the parenthesis that closes it. -/
theorem callArguments?_balanced {arguments : List Char} (hbalanced : Balanced arguments)
    (tail : List Char) :
    callArguments? ('(' :: arguments ++ ')' :: tail) = some (splitArguments arguments) := by
  have hclose := beforeClosing?_append hbalanced.stays (')' :: tail)
  have hend : beforeClosing? {} (')' :: tail) = some [] := rfl
  rw [hbalanced.ends, hend, Option.map_some, List.append_nil] at hclose
  exact congrArg (Option.map splitArguments) hclose

end DependencyFiles.Bundler
