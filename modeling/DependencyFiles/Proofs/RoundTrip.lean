import DependencyFiles.Proofs.Forms
import DependencyFiles.Proofs.Spelling
import DependencyFiles.Proofs.Statements

/-!
# Gemfiles written and read back

A Gemfile may be written from a list of declarations, each on a line of its own, with either
quotes, with or without parentheses and behind any blanks. Reading it gives one reference for
each declaration, in the same order, with the path and the name that were written.
-/

namespace DependencyFiles.Bundler

open Text

/-! ## Declarations -/

/-- A string literal that names a path: nothing in it is an interpolation. -/
structure PathLiteral extends Literal where
  fixed : occursIn ['#', '\x7b'] body = false

/-- A string literal that names a package. -/
structure NameLiteral extends Literal where
  filled : body ≠ []
  unmarked : '#' ∉ body
  unspaced : ' ' ∉ body

/-- A declaration of a Gemfile. -/
inductive Declaration where
  | evalGemfile (path : PathLiteral)
  | requireRelative (path : PathLiteral)
  | gem (name : NameLiteral) (others : List Literal) (arrow : Bool) (path : PathLiteral)
  | gemspec (path : PathLiteral)
  | pathBlock (path : PathLiteral)

namespace Declaration

/-- The method that a declaration calls. -/
def method : Declaration → String
  | .evalGemfile _ => "eval_gemfile"
  | .requireRelative _ => "require_relative"
  | .gem .. => "gem"
  | .gemspec _ => "gemspec"
  | .pathBlock _ => "path"

/-- The arguments with which a declaration calls its method. -/
def arguments : Declaration → List Argument
  | .evalGemfile path | .requireRelative path | .pathBlock path => [⟨.bare, path.toLiteral⟩]
  | .gem name others arrow path =>
    ⟨.bare, name.toLiteral⟩ :: others.map (⟨.bare, ·⟩) ++
      [⟨if arrow then .arrow else .colon, path.toLiteral⟩]
  | .gemspec path => [⟨.colon, path.toLiteral⟩]

/-- Whether a declaration opens a block. -/
def opensBlock : Declaration → Bool
  | .pathBlock _ => true
  | _ => false

/-- The path that a declaration names. -/
def path : Declaration → PathLiteral
  | .evalGemfile path | .requireRelative path | .gem _ _ _ path | .gemspec path | .pathBlock path =>
    path

/-- The reference that a declaration in the file of the given origin stands for. -/
def reference (origin : String) : Declaration → Reference
  | .evalGemfile path => ⟨.childManifest, String.ofList path.body, origin⟩
  | .requireRelative path =>
    ⟨.childManifest, String.ofList
      (if '.' ∈ basename path.body then path.body else path.body ++ ".rb".toList), origin⟩
  | .gem name _ _ path =>
    ⟨.pathDependency (String.ofList name.body), String.ofList path.body, origin⟩
  | .gemspec path | .pathBlock path =>
    ⟨.pathDependency (String.ofList (basename path.body)), String.ofList path.body, origin⟩

end Declaration

/-! ## Values of literals -/

/-- The text of a literal without interpolations is its body. -/
theorem interpolate_literalPieces (value : List Char → Outcome) {body : List Char}
    (h : occursIn ['#', '\x7b'] body = false) :
    interpolate value (literalPieces false body) = .path body := by
  induction body with
  | nil => rfl
  | cons c rest ih =>
    rw [occursIn, Bool.or_eq_false_iff] at h
    have hopens (more : List Char) (hc : c = '#') (hrest : rest = '\x7b' :: more) : False := by
      rw [hc, hrest] at h
      exact Bool.false_ne_true (h.1.symm.trans rfl)
    have hpieces : literalPieces false (c :: rest) = .char c :: literalPieces false rest := by
      rw [literalPieces.eq_3 false c rest hopens]
      rfl
    rw [hpieces, interpolate, ih h.2]

/-- A literal is trimmed already. -/
theorem Literal.trim_text (literal : Literal) : trim literal.text = literal.text :=
  Argument.framed ⟨.bare, literal⟩ |>.trim_eq

theorem Literal.literal?_text (literal : Literal) :
    literal? literal.text = some (literal.quote, literal.body) := by
  have hparts : isQuote literal.quote = true ∧
      (literal.body ++ [literal.quote]).getLast? = some literal.quote ∧
      ¬ literal.quote ∈ (literal.body ++ [literal.quote]).dropLast := by
    simp [literal.isQuote_quote, literal.quote_not_mem]
  rw [text, List.cons_append, literal?, if_pos hparts, List.dropLast_concat]

/-- The value of a path literal is its body. -/
theorem PathLiteral.evaluate_text (path : PathLiteral) (locals : Locals) (fileName : List Char)
    (depth : Nat) : evaluate locals fileName (depth + 1) path.text = .path path.body := by
  rw [evaluate_succ, form, path.trim_text, path.literal?_text]
  dsimp only
  split
  · rfl
  · exact interpolate_literalPieces _ path.fixed

/-! ## Uses of paths -/

/-- A literal without a label is no path option. -/
theorem pathOption?_bare (literal : Literal) : pathOption? (Argument.text ⟨.bare, literal⟩) = none := by
  obtain ⟨double, body, _, _⟩ := literal
  cases double <;> rfl

theorem Literal.trim_space_cons (literal : Literal) : trim (' ' :: literal.text) = literal.text :=
  (trim_blank_cons rfl _).trans literal.trim_text

/-- A literal with one of the two labels of a path option is its expression. -/
theorem pathOption?_label (literal : Literal) (arrow : Bool) :
    pathOption? (Argument.text ⟨if arrow then .arrow else .colon, literal⟩) = some literal.text := by
  have hfilled : (some literal.text).filter (!·.isEmpty) = some literal.text := rfl
  cases arrow with
  | false =>
    have hlabel : Argument.text ⟨.colon, literal⟩ = "path:".toList ++ ' ' :: literal.text := rfl
    rw [if_neg Bool.false_ne_true, hlabel, pathOption?, after?_append]
    dsimp only
    rw [Option.map_some, literal.trim_space_cons, hfilled]
  | true =>
    have hlabel : Argument.text ⟨.arrow, literal⟩ =
        ":path".toList ++ ' ' :: ("=>".toList ++ ' ' :: literal.text) := rfl
    have hcolon : after? "path:".toList (":path".toList ++ ' ' :: ("=>".toList ++ ' ' :: literal.text)) =
        none := rfl
    have hstart : trimStart (' ' :: ("=>".toList ++ ' ' :: literal.text)) =
        "=>".toList ++ ' ' :: literal.text := rfl
    rw [if_pos rfl, hlabel, pathOption?, hcolon]
    dsimp only
    rw [after?_append, Option.bind_some, hstart, after?_append, Option.map_some,
      literal.trim_space_cons, hfilled]

/-- The name of a package is the body of its literal. -/
theorem packageName_bare (name : NameLiteral) (path : List Char) :
    packageName (some (Argument.text ⟨.bare, name.toLiteral⟩)) path = name.body := by
  have hquote := name.isQuote_quote
  have hbody : dropAroundWhile isQuote (Argument.text ⟨.bare, name.toLiteral⟩) = name.body :=
    dropAroundWhile_between hquote hquote fun _ => name.isQuote_of_mem
  rw [packageName, Option.map_some, hbody]
  simp [Option.filter, name.filled, name.unmarked, name.unspaced]

/-- The arguments of a declaration as they are written. -/
def Declaration.argumentTexts (declaration : Declaration) : List (List Char) :=
  declaration.arguments.map Argument.text

/-- A declaration uses the path that it names, which becomes its reference. -/
theorem Declaration.exists_pathUse (declaration : Declaration) {file : File}
    (hfile : isGemfileLike file.fileName = true) :
    ∃ use, file.pathUse? declaration.method declaration.argumentTexts = some use ∧
      use.expression = declaration.path.text ∧
      use.reference declaration.path.body = declaration.reference file.origin := by
  have hlike : ¬ (!isGemfileLike file.fileName) = true := by simp [hfile]
  cases declaration with
  | evalGemfile path =>
    refine ⟨⟨path.text, true, file.child⟩, ?_, rfl, rfl⟩
    show file.pathUse? "eval_gemfile" [path.text] = _
    rw [File.pathUse?, if_neg (by decide), if_neg hlike, if_pos rfl]
    rfl
  | requireRelative path =>
    refine ⟨⟨path.text, false, fun path => file.child (withExtension path)⟩, ?_, rfl, ?_⟩
    · show file.pathUse? "require_relative" [path.text] = _
      rw [File.pathUse?, if_pos rfl]
      rfl
    · simp [reference, File.child, withExtension, Declaration.path]
  | gem name others arrow path =>
    have htexts : (gem name others arrow path).argumentTexts = Argument.text ⟨.bare, name.toLiteral⟩ ::
        (others.map (Argument.text ⟨.bare, ·⟩) ++
          [Argument.text ⟨if arrow then .arrow else .colon, path.toLiteral⟩]) := by
      simp [argumentTexts, arguments, Function.comp_def]
    have hothers : (others.map (Argument.text ⟨.bare, ·⟩)).findSome? pathOption? = none := by
      simp [pathOption?_bare]
    have hoption : ((gem name others arrow path).argumentTexts.drop 1).findSome? pathOption? =
        some path.text := by
      rw [htexts, List.drop_one, List.tail_cons, List.findSome?_append, hothers, Option.none_or,
        List.findSome?_singleton, pathOption?_label]
    refine ⟨⟨path.text, true, fun chosen => file.dependency (packageName
      (gem name others arrow path).argumentTexts.head? chosen) chosen⟩, ?_, rfl, ?_⟩
    · show file.pathUse? "gem" _ = _
      rw [File.pathUse?, if_neg (by decide), if_neg hlike, if_neg (by decide), if_pos rfl, hoption]
      rfl
    · rw [htexts, List.head?_cons]
      simp [packageName_bare, File.dependency, reference, Declaration.path]
  | gemspec path =>
    refine ⟨⟨path.text, true, fun path => file.dependency (basename path) path⟩, ?_, rfl, rfl⟩
    have hoption : [Argument.text ⟨.colon, path.toLiteral⟩].findSome? pathOption? = some path.text := by
      rw [List.findSome?_singleton]
      exact pathOption?_label path.toLiteral false
    show file.pathUse? "gemspec" [Argument.text ⟨.colon, path.toLiteral⟩] = _
    rw [File.pathUse?, if_neg (by decide), if_neg hlike, if_neg (by decide), if_neg (by decide),
      if_pos rfl, hoption]
    rfl
  | pathBlock path =>
    refine ⟨⟨path.text, false, fun path => file.dependency (basename path) path⟩, ?_, rfl, rfl⟩
    show file.pathUse? "path" [path.text] = _
    rw [File.pathUse?, if_neg (by decide), if_neg hlike, if_neg (by decide), if_neg (by decide),
      if_neg (by decide), if_pos rfl]
    rfl

/-! ## Files -/

/-- A declaration as it is written. -/
structure Row where
  layout : Layout
  declaration : Declaration

/-- The line of a declaration. -/
def Row.text (row : Row) : List Char :=
  row.layout.line row.declaration.method row.declaration.arguments
    (blockOpener row.declaration.opensBlock)

/-- The text of a file with the given rows, one on each line; the last line may or may not end
with a line feed. -/
def fileText (feed : Bool) : List Row → List Char
  | [] => []
  | [row] => row.text ++ if feed then ['\n'] else []
  | row :: next :: more => row.text ++ '\n' :: fileText feed (next :: more)

theorem Declaration.method_mem (declaration : Declaration) : declaration.method ∈ methods := by
  cases declaration <;> simp [method, methods]

theorem Declaration.arguments_ne_nil (declaration : Declaration) : declaration.arguments ≠ [] := by
  cases declaration <;> exact List.cons_ne_nil _ _

/-- The line of a declaration is the statement that uses its path. -/
theorem Row.statement?_text (row : Row) (file : File) :
    file.statement? row.text =
      (file.pathUse? row.declaration.method row.declaration.argumentTexts).map .use := by
  have hmethod := row.declaration.method_mem
  have hne := row.declaration.arguments_ne_nil
  have hblank : ¬ allBlank row.text = true := by simp [text, allBlank_line hmethod]
  have huse : file.use? row.text =
      file.pathUse? row.declaration.method row.declaration.argumentTexts := by
    rw [File.use?, text, call?_line hmethod _ _ hne]
    rfl
  have hcode : withoutComment {} row.text = row.text := withoutComment_line hmethod _ _ _
  have hassignment : assignment? row.text = none := assignment?_line hmethod _ _ hne
  simp only [File.statement?, hcode, if_neg hblank, hassignment, huse]

/-- The lines of a file are its rows. -/
theorem lines_fileText (feed : Bool) (rows : List Row) :
    lines (fileText feed rows) = rows.map Row.text := by
  have hfeed (row : Row) : '\n' ∉ row.text := feed_not_mem_line row.declaration.method_mem _ _ _
  have hreturn (row : Row) : row.text.getLast? ≠ some '\r' :=
    getLast?_line _ _ row.declaration.arguments_ne_nil
  induction rows with
  | nil => rfl
  | cons row more ih =>
    cases more with
    | nil =>
      cases feed with
      | true => exact lines_append_feed (hfeed row) (hreturn row) []
      | false =>
        have hne : row.text ≠ [] := fun h => by
          have hblank := allBlank_line row.declaration.method_mem row.layout
            row.declaration.arguments row.declaration.opensBlock
          exact Bool.false_ne_true (hblank.symm.trans (congrArg allBlank h))
        rw [fileText, if_neg Bool.false_ne_true, List.append_nil]
        exact lines_eq_singleton (hfeed row) hne
    | cons next others =>
      rw [fileText, lines_append_feed (hfeed row) (hreturn row), ih]
      rfl

/-- The statements of a file with rows make the references of its declarations. -/
theorem run_rows {file : File} (hfile : isGemfileLike file.fileName = true) (locals : Locals)
    (rows : List Row) :
    file.run file.lateMemory locals ((rows.map Row.text).filterMap file.statement?) =
      .ok (rows.map fun row => row.declaration.reference file.origin) := by
  induction rows with
  | nil => rfl
  | cons row more ih =>
    obtain ⟨use, huse, hexpression, hreference⟩ := row.declaration.exists_pathUse hfile
    have hstatement : file.statement? row.text = some (.use use) := by
      rw [row.statement?_text, huse]
      rfl
    have hvalue : file.lateMemory.value locals use.expression = .path row.declaration.path.body := by
      rw [hexpression]
      exact row.declaration.path.evaluate_text locals file.fileName 8
    rw [List.map_cons, List.filterMap_cons_some hstatement, File.run, hvalue, ih, PathUse.resolve,
      hreference]
    rfl

/-- **Declarations round-trip.** A file with a name like that of a Gemfile, written from
declarations one on each line, gives one reference for each of them, in the same order, when
it mentions no version file. -/
theorem references_fileText (rows : List Row) (feed : Bool) {origin : String}
    (horigin : isGemfileLike (basename origin.toList) = true)
    (hsupport : ∀ name ∈ supportFiles, occursIn name.toList (fileText feed rows) = false) :
    references (String.ofList (fileText feed rows)) origin =
      .ok (rows.map fun row => row.declaration.reference origin) := by
  have hstatements : (File.ofOrigin origin).statements (String.ofList (fileText feed rows)) =
      (rows.map Row.text).filterMap (File.ofOrigin origin).statement? := by
    rw [File.statements, String.toList_ofList, lines_fileText]
  have hnone : supportReferences (String.ofList (fileText feed rows)).toList origin = [] := by
    rw [supportReferences, String.toList_ofList, List.map_eq_nil_iff, List.filter_eq_nil_iff]
    exact fun name hname => Bool.eq_false_iff.1 (hsupport name hname)
  have hrun := run_rows (show isGemfileLike (File.ofOrigin origin).fileName = true from horigin) [] rows
  rw [references_eq_scan, scan, hstatements, hnone]
  simp only [hrun]
  split <;> simp [pure, Except.pure, bind, Except.bind, File.ofOrigin]

/-- A child Gemfile, a package and a block, with signs in their literals that mean something
outside of them. -/
def sampleRows : List Row :=
  [⟨⟨[], true, by decide, by decide⟩,
      .evalGemfile ⟨⟨true, "a, b)/#1 do".toList, by decide, by decide⟩, by decide⟩⟩,
    ⟨⟨"  ".toList, false, by decide, by decide⟩,
      .gem ⟨⟨false, "core".toList, by decide, by decide⟩, by decide, by decide, by decide⟩
        [⟨true, "= 1".toList, by decide, by decide⟩] true
        ⟨⟨false, "libs/core".toList, by decide, by decide⟩, by decide⟩⟩,
    ⟨⟨[], false, by decide, by decide⟩,
      .pathBlock ⟨⟨true, "engines do |x|".toList, by decide, by decide⟩, by decide⟩⟩]

theorem references_sampleRows :
    isGemfileLike (basename "Gemfile".toList) = true ∧
      (∀ name ∈ supportFiles, occursIn name.toList (fileText true sampleRows) = false) ∧
      String.ofList (fileText true sampleRows) = "eval_gemfile(\"a, b)/#1 do\")\n" ++
        "  gem 'core', \"= 1\", :path => 'libs/core'\npath \"engines do |x|\" do\n" ∧
      references (String.ofList (fileText true sampleRows)) "Gemfile" =
        .ok (sampleRows.map fun row => row.declaration.reference "Gemfile") := by
  have horigin : isGemfileLike (basename "Gemfile".toList) = true := by decide +kernel
  have hsupport : ∀ name ∈ supportFiles, occursIn name.toList (fileText true sampleRows) = false := by
    decide +kernel
  exact ⟨horigin, hsupport, by decide +kernel, references_fileText sampleRows true horigin hsupport⟩

end DependencyFiles.Bundler
