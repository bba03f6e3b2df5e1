/-!
# Paths

A path is a text; slashes separate its steps.  It starts from the root if it starts with
a slash, and otherwise from here.  A step stays, goes up, or goes down to a name.

What a path leads to depends on the files around it and is found by walking.  By the text
alone a path has components, which leave out the steps that stay: so `a/./b` and `a//b`
have the same ones.

## Main definitions

* `Step`, `Path.steps` — the steps of a path.
* `Path.components`, `Path.ofComponents` — what identifies a path as a text.
* `Path.holder?`, `Path.lineage` — the directory a path lies in, and what leads there.
-/

namespace TensorContraction

/-- What a step of a path does. -/
inductive Step where
  /-- Stays where it is. -/
  | stay
  /-- Goes to the directory around. -/
  | up
  /-- Goes to what has a name. -/
  | down (name : String)
  deriving DecidableEq, Repr, Inhabited

/-- The step for a run of characters without a slash. -/
def Step.ofRun : List Char → Step
  | ['.'] => stay
  | ['.', '.'] => up
  | run => down (String.ofList run)

namespace Path

/-! ### Steps -/

/-- The runs of characters between slashes, empty ones among them. -/
def runs : List Char → List (List Char)
  | [] => [[]]
  | c :: cs =>
    if c = '/' then [] :: runs cs
    else match runs cs with
      | [] => [[c]]
      | r :: rs => (c :: r) :: rs

/-- Whether a path starts from the root. -/
def fromRoot (path : String) : Bool := path.toList.head? == some '/'

/-- Whether a path ends in a slash, as that of a directory may. -/
def endsInSlash (path : String) : Bool := path.toList.getLast? == some '/'

/-- The steps of a path. -/
def steps (path : String) : List Step :=
  ((runs path.toList).filter (!·.isEmpty)).map Step.ofRun

/-! ### Components -/

/-- The runs of a path without empty ones and ones that stay.  The first is always kept: an
empty one starts from the root, and one that stays tells a file named by a hyphen from the
standard input. -/
def components (path : String) : List (List Char) :=
  match runs path.toList with
  | [] => []
  | first :: rest => first :: rest.filter fun run => !run.isEmpty && run != ['.']

/-- The path with some components. -/
def ofComponents (components : List (List Char)) : String :=
  String.ofList (['/'].intercalate components)

/-- The components of the directory a path lies in, by its text.  A bare name does not say
where it lies. -/
def holder? (path : String) : Option (List (List Char)) :=
  match (components path).dropLast with
  | [] => none
  | holder => some holder

/-- The paths with the first few components, the longest first, but not the root. -/
def lineage (components : List (List Char)) : List String :=
  (((List.range components.length).reverse.map fun n => components.take (n + 1)).filter
    (!·.all (·.isEmpty))).map ofComponents

end Path
end TensorContraction
