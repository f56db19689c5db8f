import DependencyFiles.Bundler.Lockfile
import DependencyFiles.Bundler.Manifest
import DependencyFiles.Ecosystem.Basic

/-!
# Ruby projects managed with Bundler

A Gemfile with its lock file, gem specifications, and Ruby files that they require.
-/

namespace DependencyFiles

namespace Bundler

/-- The lock file of a Gemfile. -/
def lockfileOf : String → Option String
  | "Gemfile" => some "Gemfile.lock"
  | "gems.rb" => some "gems.locked"
  | _ => none

/-- Whether a file name is that of a gem specification: it has something before `.gemspec`. -/
def isGemspec (fileName : String) : Bool :=
  ".gemspec".toList.isSuffixOf fileName.toList && fileName != ".gemspec"

/-- Whether a line of a Gemfile pins the version of Bundler in a comment. -/
def pinsBundler (line : List Char) : Bool :=
  "# bundler:".toList.isPrefixOf (Text.trimStart line)

end Bundler

/-- The conventions of Bundler. -/
def Ecosystem.bundler : Ecosystem where
  id := "bundler"
  manifests := ["Gemfile", "gems.rb"]
  lockfileOf := Bundler.lockfileOf
  references := Bundler.references
  scanLockfile := Bundler.scanLockfile
  isSpecification := Bundler.isGemspec
  marker := ".specification"

/-- The conventions of Bundler, with a lock file required by Gemfiles that pin its version. -/
def Ecosystem.pinnedBundler : Ecosystem :=
  { Ecosystem.bundler with
    id := "pinned-bundler"
    needsLockfile := fun content => (Text.lines content.toList).any Bundler.pinsBundler }

end DependencyFiles
