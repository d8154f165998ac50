/-!
# Renaming paths

A rename gives a new path for an old one.  It applies to the old path itself and to every path that
goes on from it with a point, so whole segments are replaced and never the beginning of one.
-/

namespace RecordFilter

structure Rename where
  old : String
  new : String
deriving DecidableEq

namespace Rename

/-- Reads `OLD=NEW`, where the first equals sign separates the two and neither is empty. -/
def read? (text : String) : Option Rename :=
  let old := text.toList.takeWhile (· != '=')
  match text.toList.dropWhile (· != '=') with
  | [] => none
  | _ :: new =>
    if old = [] ∨ new = [] then none else some ⟨String.ofList old, String.ofList new⟩

/-- The new path, if the rename applies to a path. -/
def newPath? (r : Rename) (path : String) : Option String :=
  if r.old.toList.isPrefixOf path.toList then
    match path.toList.drop r.old.toList.length with
    | [] => some r.new
    | '.' :: rest => some (r.new ++ String.ofList ('.' :: rest))
    | _ => none
  else none

end Rename

/-- The path under the first rename that applies to it. -/
def renamePath (renames : List Rename) (path : String) : String :=
  (renames.findSome? fun r => r.newPath? path).getD path

end RecordFilter
