import DependencyFiles.Proofs.Forms
import DependencyFiles.Proofs.Scanning

/-!
# What follows a call

Declarations may go on behind the parenthesis that closes their arguments, and the arguments
of the two methods whose calls have values are read by the same parser. So these calls keep
their values whatever follows the closing parenthesis, even where the expression goes on to
change the path that the call gives.
-/

namespace DependencyFiles.Bundler

open Text

section
variable {arguments : List Char} (hbalanced : Balanced arguments)

include hbalanced

/-- The arguments of a method are read whatever follows the call. -/
theorem methodArguments?_balanced (method : String) (tail : List Char) :
    methodArguments? method (method.toList ++ ('(' :: arguments ++ ')' :: tail)) =
      some (splitArguments arguments) := by
  rw [methodArguments?, after?_append]
  exact callArguments?_balanced hbalanced tail

/-- A call that puts paths together has the same form whatever follows it. -/
theorem callForm_join (tail : List Char) :
    callForm ("File.join".toList ++ ('(' :: arguments ++ ')' :: tail)) =
      .join (splitArguments arguments) := by
  rw [callForm, methodArguments?_balanced hbalanced]

/-- A call that expands a path has the same form whatever follows it. -/
theorem callForm_expand (tail : List Char) :
    callForm ("File.expand_path".toList ++ ('(' :: arguments ++ ')' :: tail)) =
      match splitArguments arguments with
      | [] => .unfollowed
      | target :: more => .expand target more.head? := by
  have hjoin : methodArguments? "File.join"
      ("File.expand_path".toList ++ ('(' :: arguments ++ ')' :: tail)) = none := rfl
  rw [callForm, hjoin, methodArguments?_balanced hbalanced]
  cases splitArguments arguments <;> rfl

end

/-- A text that starts like a call of a method of `File` has the form of a call. -/
theorem form_file (fileName : List Char) {expression rest : List Char}
    (htrim : trim expression = "File.".toList ++ rest) :
    form fileName expression = callForm (trim expression) := by
  have hliteral : literal? ("File.".toList ++ rest) = none := rfl
  have hdir : "File.".toList ++ rest ≠ "__dir__".toList := by simp
  have hfile : "File.".toList ++ rest ≠ "__FILE__".toList := by simp
  have hname : isIdentifier ("File.".toList ++ rest) = false := rfl
  rw [form, htrim]
  simp only [hliteral, if_neg hdir, if_neg hfile, hname]
  rfl

/-- **A call keeps its value whatever follows it.** The text behind the closing parenthesis is
not looked at, be it blank, another call or an operator. -/
theorem evaluate_call_append {method : String}
    (hmethod : method = "File.join" ∨ method = "File.expand_path") {arguments : List Char}
    (hbalanced : Balanced arguments) (tail : List Char) (locals : Locals) (fileName : List Char)
    (depth : Nat) :
    evaluate locals fileName depth (method.toList ++ ('(' :: arguments ++ ')' :: tail)) =
      evaluate locals fileName depth (method.toList ++ ('(' :: arguments ++ [')'])) := by
  have htrim (tail : List Char) :
      trim (method.toList ++ ('(' :: arguments ++ ')' :: tail)) =
        method.toList ++ ('(' :: arguments ++ ')' :: trimEnd tail) := by
    obtain rfl | rfl := hmethod
    · exact trim_cons_append_cons (c := 'F') rfl rfl ("ile.join".toList ++ '(' :: arguments) tail
    · exact trim_cons_append_cons (c := 'F') rfl rfl ("ile.expand_path".toList ++ '(' :: arguments) tail
  have hform (tail : List Char) :
      form fileName (method.toList ++ ('(' :: arguments ++ ')' :: tail)) =
        callForm (method.toList ++ ('(' :: arguments ++ ')' :: trimEnd tail)) := by
    rw [← htrim]
    obtain rfl | rfl := hmethod <;> exact form_file fileName (htrim tail)
  cases depth with
  | zero => rfl
  | succ depth =>
    rw [evaluate_succ, evaluate_succ, hform tail, hform []]
    obtain rfl | rfl := hmethod
    · rw [callForm_join hbalanced, callForm_join hbalanced]
    · rw [callForm_expand hbalanced, callForm_expand hbalanced]

/-- A path to which a message is sent behind the call. -/
theorem evaluate_call_gsub :
    Balanced "\"gems\", \"Gemfile\"".toList ∧
      evaluate [] "Gemfile".toList nestingLimit
          ("File.join".toList ++ ('(' :: "\"gems\", \"Gemfile\"".toList ++
            ')' :: ".gsub(\"a\", \"b\")".toList)) =
        evaluate [] "Gemfile".toList nestingLimit
          ("File.join".toList ++ ('(' :: "\"gems\", \"Gemfile\"".toList ++ [')'])) :=
  have hbalanced : Balanced "\"gems\", \"Gemfile\"".toList := by decide +kernel
  ⟨hbalanced, evaluate_call_append (.inl rfl) hbalanced _ [] _ _⟩

/-- The message is not taken into account: the expression has a path for its value, though
it is more than the call. -/
theorem evaluate_gsub_eq_path :
    Balanced "\"gems\", \"Gemfile\"".toList ∧
      allBlank ".gsub(\"a\", \"b\")".toList = false ∧
      evaluate [] "Gemfile".toList nestingLimit
          ("File.join".toList ++ ('(' :: "\"gems\", \"Gemfile\"".toList ++
            ')' :: ".gsub(\"a\", \"b\")".toList)) =
        .path "gems/Gemfile".toList := by
  decide +kernel

end DependencyFiles.Bundler
