import InlineRepl.Tree.Basic

/-!
# What lookups ask of the files

The answers that the lookups need, whoever gives them: a directory tree does.
-/

namespace InlineRepl

/-- Yes-or-no answers about paths. -/
structure FileView where
  isDirectory : Path → Bool
  isFile : Path → Bool
  isExecutable : Path → Bool
  hasPath : Path → Bool

/-- The answers of a directory tree. -/
def Tree.view (tree : Tree) : FileView :=
  { isDirectory := tree.isDirectory
    isFile := tree.isFile
    isExecutable := tree.isExecutable
    hasPath := tree.hasPath }

end InlineRepl
