import DiscoveryGraph.Text.Quoted

/-!
# Structural listings

A value is listed over several lines: what opens it, its parts one step further in and each
followed by a comma, and what closes it. A value without parts stays on one line.
-/

namespace DiscoveryGraph.Text

/-- The lines of a listing. There is at least one, unless the listing is a part that is left
out. -/
abbrev Outline := List String

namespace Outline

/-- A listing of one line. -/
def word (s : String) : Outline :=
  [s]

/-- A number. -/
def number (n : Nat) : Outline :=
  [toString n]

/-- A truth value. -/
def truth (b : Bool) : Outline :=
  [if b then "true" else "false"]

/-- A text between quotes. -/
def text (s : String) : Outline :=
  [quoted s]

/-- Two listings joined end to start, with `link` between them. -/
def joined : Outline → String → Outline → Outline
  | [], link, [] => [link]
  | [], link, line :: rest => (link ++ line) :: rest
  | [line], link, [] => [line ++ link]
  | [line], link, next :: rest => (line ++ link ++ next) :: rest
  | line :: more, link, other => line :: joined more link other

/-- Parts between two brackets, each on lines of its own. -/
def bracketed (opening closing : String) (parts : List Outline) : Outline :=
  match parts with
  | [] => [opening ++ closing]
  | _ =>
    opening :: (parts.flatMap fun part => (joined part "," []).map ("    " ++ ·)) ++ [closing]

/-- A list. -/
def list (parts : List Outline) : Outline :=
  bracketed "[" "]" parts

/-- A set. -/
def set (parts : List Outline) : Outline :=
  bracketed "\x7b" "\x7d" parts

/-- A table: each key stands before its value. -/
def table (entries : List (Outline × Outline)) : Outline :=
  bracketed "\x7b" "\x7d" (entries.map fun entry => joined entry.1 ": " entry.2)

/-- A case with one or more unnamed parts. Without a name it is a tuple. -/
def case (name : String) (parts : List Outline) : Outline :=
  bracketed (name ++ "(") ")" parts

/-- A record with named fields. -/
def record (name : String) (fields : List (String × Outline)) : Outline :=
  bracketed (name ++ " \x7b") "\x7d" (fields.map fun field => joined [field.1] ": " field.2)

/-- The listing as one text. -/
def render (outline : Outline) : String :=
  "\n".intercalate outline

end Outline

end DiscoveryGraph.Text
