/-!
# Labelled text

Descriptions for people name the kind of a thing in front of its contents, all on one line: a label
before parentheses, lists in brackets, maps in braces, and records with the names of their parts.
-/

namespace DocQuery.Text

/-- Contents in parentheses after a label. -/
def labelled (label contents : String) : String := label ++ "(" ++ contents ++ ")"

/-- The items of a list in brackets. -/
def bracketed (items : List String) : String := "[" ++ ", ".intercalate items ++ "]"

/-- The entries of a map in braces. -/
def braced (entries : List String) : String := "\x7b" ++ ", ".intercalate entries ++ "\x7d"

/-- A name with the contents that belong to it. -/
def entry (name contents : String) : String := name ++ ": " ++ contents

/-- A record: its label and its parts by name. -/
def record (label : String) (parts : List (String × String)) : String :=
  label ++ " \x7b " ++ ", ".intercalate (parts.map fun p => entry p.1 p.2) ++ " \x7d"

/-- A part that may be absent. -/
def optional : Option String → String
  | some contents => labelled "Some" contents
  | none => "None"

end DocQuery.Text
