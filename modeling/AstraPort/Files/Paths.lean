import Mathlib.Data.List.TakeWhile
import AstraPort.Foundation.Text

/- Storage paths as path.join and path.extname of a POSIX host read them. -/
namespace AstraPort.Files

def pathSegments (path : String) : List String := splitOnChar '/' path

/-- One more segment below a directory. -/
def resolveSegment (directory : List String) (segment : String) : List String :=
  if segment = "" ∨ segment = "." then directory
  else if segment = ".." then directory.dropLast
  else directory ++ [segment]

/-- path.join of an absolute directory, given by its segments, and a path. -/
def joinPath (directory : List String) (path : String) : List String :=
  (pathSegments path).foldl resolveSegment directory

/-- A slash at the end stays there in path.join, and no file can be named so. -/
def endsWithSlash (path : String) : Bool := decide (path.toList.getLast? = some '/')

/-- The last portion of a path, backwards. -/
def lastPortion (path : String) : List Char :=
  (path.toList.reverse.dropWhile (· = '/')).takeWhile (· ≠ '/')

def extname (path : String) : String :=
  let portion := lastPortion path
  let extension := portion.takeWhile (· ≠ '.')
  if portion = ['.', '.'] ∨ portion.length ≤ extension.length + 1 then ""
  else String.ofList ('.' :: extension.reverse)

theorem pathSegments_append (front last : String) :
    pathSegments (front ++ "/" ++ last) = pathSegments front ++ pathSegments last := by
  simp only [pathSegments, splitOnChar, String.toList_append, ← List.map_append]
  rw [show "/".toList = ['/'] from rfl, List.append_assoc, List.singleton_append]
  rw [List.splitOn_eq_splitOnP, List.splitOn_eq_splitOnP, List.splitOn_eq_splitOnP,
    List.splitOnP_append_cons _ _ (by simp)]

theorem pathSegments_name {name : String} (one : '/' ∉ name.toList) :
    pathSegments name = [name] := by
  rw [pathSegments, splitOnChar, List.splitOn_eq_splitOnP, List.splitOnP_eq_singleton]
  · simp
  · intro c member
    simp only [beq_eq_false_iff_ne, ne_eq]
    rintro rfl
    exact one member

/- A name at the end of a path stays the last segment. -/
theorem joinPath_name (directory : List String) (front : String) {name : String}
    (one : '/' ∉ name.toList) (named : name ≠ "" ∧ name ≠ "." ∧ name ≠ "..") :
    joinPath directory (front ++ "/" ++ name) = joinPath directory front ++ [name] := by
  obtain ⟨not_empty, not_here, not_above⟩ := named
  simp [joinPath, pathSegments_append, pathSegments_name one, resolveSegment, not_empty, not_here,
    not_above]

theorem extname_one (path : String) : '/' ∉ (extname path).toList := by
  simp only [extname]
  split
  · simp
  · simp only [String.toList_ofList, List.mem_cons, List.mem_reverse, not_or]
    refine ⟨by decide, fun member => ?_⟩
    have in_portion : '/' ∈ lastPortion path := (List.takeWhile_sublist _).subset member
    simpa using List.mem_takeWhile_imp in_portion

end AstraPort.Files
