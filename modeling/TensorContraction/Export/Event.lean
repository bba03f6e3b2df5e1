import TensorContraction.Contraction.Violation
import TensorContraction.Text.Visible

/-!
# Events

While an export is rendered, each step leaves an event: what was read, checked and
written, and which contractions were passed over.  Events have a level, and how many
levels are shown is for the caller to choose.

## Main definitions

* `Target` — what an export is rendered as.
* `Level`, `Event`, `Event.line` — events and how they are shown.
-/

namespace TensorContraction

/-! ### Targets -/

/-- What an export is rendered as. -/
inductive Target where
  /-- A line of TeX for each contraction. -/
  | tex
  /-- The terms of each result, for SeQuant. -/
  | sequant
  /-- The terms as a structured document. -/
  | json
  deriving DecidableEq, Repr, Inhabited

namespace Target

/-- The word that chooses a target. -/
def word : Target → String
  | tex => "tex"
  | sequant => "sequant"
  | json => "json"

/-- The target a word chooses. -/
def ofWord? : String → Option Target
  | "tex" => some tex
  | "sequant" => some sequant
  | "json" => some json
  | _ => none

/-- The name of a target within an event. -/
def name : Target → String
  | tex => "Tex"
  | sequant => "Sequant"
  | json => "Json"

end Target

/-! ### Events -/

/-- How much an event matters. -/
inductive Level where
  /-- Something was passed over. -/
  | warning
  /-- A whole export was dealt with. -/
  | info
  /-- A single contraction was dealt with. -/
  | debug
  deriving DecidableEq, Repr, Inhabited

/-- The word for a level. -/
def Level.word : Level → String
  | warning => "WARN"
  | info => "INFO"
  | debug => "DEBUG"

/-- Something that happens while an export is rendered. -/
inductive Event where
  /-- Rendering starts. -/
  | started (input : String) (target : Target)
  /-- A record has been read. -/
  | recordRead (number : Int) (vertices arcs : Nat)
  /-- A whole export has been read. -/
  | exportRead (records : Nat)
  /-- A record makes sense. -/
  | accepted (number : Int) (tensors external : Nat)
  /-- A contraction is passed over. -/
  | skipped (rejection : Rejection)
  /-- The antisymmetrizers of a contraction are known. -/
  | symmetrized (number : Int) (creatorGroups annihilatorGroups implied required : Nat)
  /-- A whole export has been rendered. -/
  | rendered (total : Nat) (target : Target)
  deriving DecidableEq, Repr, Inhabited

namespace Event

/-- The level of an event. -/
def level : Event → Level
  | skipped _ => .warning
  | started .. | rendered .. => .info
  | recordRead .. | exportRead _ | accepted .. | symmetrized .. => .debug

/-- The part of the program that an event is attributed to. -/
def source : Event → String
  | started .. => "gecco_translate"
  | recordRead .. | exportRead _ => "gecco_notation::export::reader"
  | accepted .. => "gecco_notation::canonicalize"
  | symmetrized .. => "gecco_notation::symmetry"
  | skipped _ | rendered .. => "gecco_notation::translate"

/-- The named values of an event. -/
def values : Event → List (String × String)
  | started input target => [("input", Text.shown input), ("notation", target.name)]
  | recordRead number vertices arcs =>
    [("id", toString number), ("vertices", toString vertices), ("arcs", toString arcs)]
  | exportRead records => [("records", toString records)]
  | accepted number tensors external =>
    [("contraction", toString number), ("tensors", toString tensors),
      ("external", toString external)]
  | skipped rejection => [("contraction", toString rejection.number)]
  | symmetrized number creatorGroups annihilatorGroups implied required =>
    [("contraction", toString number), ("creator_groups", toString creatorGroups),
      ("annihilator_groups", toString annihilatorGroups), ("implied", toString implied),
      ("required", toString required)]
  | rendered total target => [("total", toString total), ("notation", target.name)]

/-- The sentence for an event. -/
def message : Event → String
  | started .. => "Translating export"
  | recordRead .. => "Read contraction record"
  | exportRead _ => "Read contraction export"
  | accepted .. => "Canonicalized contraction"
  | skipped rejection => "Skipping contraction: " ++ rejection.message
  | symmetrized .. => "Found symmetrizations"
  | rendered .. => "Translated export"

/-- The line that shows an event. -/
def line (e : Event) : String :=
  e.level.word ++ " [" ++ e.source ++ "] \x7b"
    ++ String.intercalate ", " (e.values.map fun (name, value) => name ++ "=" ++ value)
    ++ "\x7d " ++ e.message ++ "\n"

end Event
end TensorContraction
