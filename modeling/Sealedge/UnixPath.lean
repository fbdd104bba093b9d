import Mathlib.Data.List.DropRight

namespace UnixPath

/-- The text of a path as its parts between the slashes. The empty text is one empty part. -/
abbrev Path := List String

/-- What a path goes through. -/
inductive Component
  | rootDir
  | curDir
  | parentDir
  | normal (name : String)
  deriving DecidableEq

namespace Path

def ofText (text : String) : Path := (text.toList.splitOn '/').map String.ofList

def display (p : Path) : String := "/".intercalate p

/-- The component a part stands for. Repeated slashes and inner dots stand for none. -/
def component (part : String) : Option Component :=
  if part = "" ∨ part = "." then none
  else if part = ".." then some .parentDir
  else some (.normal part)

/-- The component before the first name: the root, or a leading dot. -/
def start : Path → List Component
  | first :: rest =>
    if first = "" ∧ rest ≠ [] then [.rootDir] else if first = "." then [.curDir] else []
  | [] => []

def components (p : Path) : List Component := p.start ++ p.filterMap component

/-- The last component, if it is a name. -/
def fileName (p : Path) : Option String :=
  match p.components.getLast? with
  | some (.normal name) => some name
  | _ => none

/-- A path without the slashes and dots at its end. -/
def trimEnd : Path → Path
  | first :: rest => first :: rest.rdropWhile (fun part => part == "" || part == ".")
  | [] => []

/-- The text in front of the last component. -/
def front (p : Path) : Path :=
  match trimEnd p.trimEnd.dropLast with
  | [] => [""]
  | [""] => ["", ""]
  | dir => dir

/-- The path without its last component; the root and the empty path have none. -/
def parent (p : Path) : Option Path :=
  match p.components.getLast? with
  | none => none
  | some .rootDir => none
  | some _ => some p.front

/-- A name below a directory, behind a slash unless the text ends in one. -/
def join (dir : Path) (name : String) : Path :=
  (if dir.getLast? = some "" then dir.dropLast else dir) ++ [name]

/-- The path whose text goes on after its end. -/
def appendText (p : Path) (text : String) : Path :=
  p.dropLast ++ [p.getLast?.getD "" ++ text]

/-- A name up to its last dot, unless it begins there. -/
def stem (name : String) : String :=
  match name.toList.reverse.dropWhile (· != '.') with
  | _ :: c :: rest => String.ofList (c :: rest).reverse
  | _ => name

/-- The path with another extension, without the slashes and dots at its end; one that does not
end in a name stays as it is. -/
def withExtension (p : Path) (extension : String) : Path :=
  match p.fileName with
  | none => p
  | some name => p.trimEnd.dropLast ++ [stem name ++ "." ++ extension]

theorem components_append_name {name : String} (h : component name = some (.normal name))
    (p : Path) : (p ++ [name]).components.getLast? = some (.normal name) := by
  unfold components
  rw [List.filterMap_append, List.filterMap_cons, h]
  simp

theorem fileName_append {name : String} (h : component name = some (.normal name)) (p : Path) :
    (p ++ [name]).fileName = some name := by
  unfold fileName
  rw [components_append_name h]

theorem component_of_long {name : String} (h : 2 < name.length) :
    component name = some (.normal name) := by
  have hne : ∀ other : String, other.length ≤ 2 → name ≠ other := by
    rintro other hle rfl
    omega
  unfold component
  rw [if_neg, if_neg (hne ".." (by decide))]
  rintro (hname | hname)
  · exact hne "" (by decide) hname
  · exact hne "." (by decide) hname

/-- What a path starts with does not depend on its last part if there is one before it. -/
theorem start_append {front : Path} (h : front ≠ []) (last other : String) :
    (front ++ [last]).start = (front ++ [other]).start := by
  cases front with
  | nil => exact absurd rfl h
  | cons first rest => simp [start]

theorem component_ne_normal {part name : String} (h : part ≠ name) :
    component part ≠ some (.normal name) := by
  unfold component
  split
  next => exact fun h => by cases h
  next =>
    split
    next => exact fun h => by cases h
    next => exact fun hsame => h (Component.normal.inj (Option.some.inj hsame))

theorem components_appendText_ne {text : String} (h : 2 < text.length) (p : Path) :
    (p.appendText text).components ≠ p.components := by
  have hlast := components_append_name
    (component_of_long (show 2 < (p.getLast?.getD "" ++ text).length by
      rw [String.length_append]
      omega)) p.dropLast
  intro heq
  change (p.appendText text).components.getLast? = _ at hlast
  rcases p.eq_nil_or_concat with rfl | ⟨front, last, rfl⟩
  · rw [heq] at hlast
    cases hlast
  simp only [List.concat_eq_append, appendText, List.dropLast_concat, List.getLast?_concat,
    Option.getD_some] at heq hlast
  have hne : last ≠ last ++ text := by
    intro hsame
    have := congrArg String.length hsame
    rw [String.length_append] at this
    omega
  have hother := component_ne_normal hne
  cases hcomponent : component last with
  | some part =>
    -- Both paths end in a component of their own.
    rw [heq] at hlast
    unfold components at hlast
    rw [List.filterMap_append, List.filterMap_cons, hcomponent] at hlast
    simp only [List.filterMap_nil, ← List.append_assoc, List.getLast?_concat] at hlast
    exact hother (hcomponent.trans hlast)
  | none =>
    by_cases hfront : front = []
    · subst hfront
      rw [heq] at hlast
      unfold components at hlast
      simp only [List.nil_append, List.filterMap_cons, hcomponent, List.filterMap_nil, start,
        ne_eq, not_true_eq_false, and_false, if_false, List.append_nil] at hlast
      split at hlast <;> simp at hlast
    · -- The last part of the shorter path stands for no component.
      have hlength := congrArg List.length heq
      unfold components at hlength
      have hname : component (last ++ text) = some (.normal (last ++ text)) :=
        component_of_long (by rw [String.length_append]; omega)
      rw [start_append hfront last (last ++ text)] at hlength
      simp [hcomponent, hname] at hlength

end Path

end UnixPath
