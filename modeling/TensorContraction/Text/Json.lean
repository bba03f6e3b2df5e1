/-!
# Documents in JSON

Only writing is needed.  A document is laid out over several lines: each entry of a
list or an object has a line of its own, indented by two blanks for each level, and
one that is empty is a pair of brackets.  In strings, only quotation marks,
backslashes and control characters below U+0020 are escaped; every other character
stands for itself.

## Main definitions

* `Json` — a document.
* `Json.quote` — a string with its escapes.
* `Json.write` — the text of a document.
-/

namespace TensorContraction.Text

/-- A document; numbers are natural numbers. -/
inductive Json where
  /-- A string. -/
  | string (s : String)
  /-- A number. -/
  | number (n : Nat)
  /-- A truth value. -/
  | bool (b : Bool)
  /-- A list. -/
  | list (items : List Json)
  /-- Named fields, in the order they are written. -/
  | object (fields : List (String × Json))
  deriving Repr, Inhabited

namespace Json

/-! ### Strings -/

/-- A hexadecimal digit, in small letters. -/
def hexDigit (n : Nat) : Char := if n < 10 then Char.ofNat (48 + n) else Char.ofNat (87 + n)

/-- The characters a string writes for one of its characters. -/
def escape (c : Char) : List Char :=
  match c.toNat with
  | 0x22 => ['\\', c]
  | 0x5C => ['\\', c]
  | 0x08 => ['\\', 'b']
  | 0x09 => ['\\', 't']
  | 0x0A => ['\\', 'n']
  | 0x0C => ['\\', 'f']
  | 0x0D => ['\\', 'r']
  | n => if n < 0x20 then ['\\', 'u', '0', '0', hexDigit (n / 16), hexDigit (n % 16)] else [c]

/-- A string between quotation marks. -/
def quote (s : String) : String :=
  "\"" ++ String.ofList (s.toList.flatMap escape) ++ "\""

/-! ### Layout -/

/-- The blanks in front of a line of some level. -/
def indent (level : Nat) : String := String.ofList (List.replicate (2 * level) ' ')

/-- Entries between brackets, each on a line of its own. -/
def block (level : Nat) (opening closing : String) : List String → String
  | [] => opening ++ closing
  | entries =>
    opening ++ "\n" ++ String.intercalate ",\n" (entries.map (indent (level + 1) ++ ·))
      ++ "\n" ++ indent level ++ closing

mutual

/-- The text of a document on some level. -/
def writeAt (level : Nat) : Json → String
  | string s => quote s
  | number n => toString n
  | bool b => if b then "true" else "false"
  | list items => block level "[" "]" (writeItems (level + 1) items)
  | object fields => block level "\x7b" "\x7d" (writeFields (level + 1) fields)

/-- The texts of the items of a list. -/
def writeItems (level : Nat) : List Json → List String
  | [] => []
  | item :: items => writeAt level item :: writeItems level items

/-- The texts of the fields of an object. -/
def writeFields (level : Nat) : List (String × Json) → List String
  | [] => []
  | (name, value) :: fields =>
    (quote name ++ ": " ++ writeAt level value) :: writeFields level fields

end

/-- The text of a document, which ends with a line break. -/
def write (document : Json) : String := writeAt 0 document ++ "\n"

end Json
end TensorContraction.Text
