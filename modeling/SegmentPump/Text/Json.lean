/-! The part of JSON that reports use: natural numbers, booleans, plain
strings, arrays and objects that keep the order of their fields. There are two
layouts, one without any blank and one with a line for each item. -/
namespace SegmentPump

inductive Json
  | number (n : Nat)
  | boolean (b : Bool)
  | string (s : String)
  | array (items : List Json)
  | object (fields : List (String × Json))

namespace Json

/-- Strings in reports are names without quotes, backslashes or control
characters, so quoting adds the two quotes only. -/
def quote (s : String) : String := "\"" ++ s ++ "\""

mutual

def compactOnto (out : String) : Json → String
  | .number n => out ++ toString n
  | .boolean b => out ++ if b then "true" else "false"
  | .string s => out ++ quote s
  | .array items => compactItems (out ++ "[") items ++ "]"
  | .object fields => compactFields (out ++ "\x7b") fields ++ "\x7d"

def compactItems (out : String) : List Json → String
  | [] => out
  | [item] => item.compactOnto out
  | item :: rest => compactItems (item.compactOnto out ++ ",") rest

def compactFields (out : String) : List (String × Json) → String
  | [] => out
  | [(name, value)] => value.compactOnto (out ++ quote name ++ ":")
  | (name, value) :: rest =>
    compactFields (value.compactOnto (out ++ quote name ++ ":") ++ ",") rest

end

def compact (j : Json) : String := j.compactOnto ""

def indent (level : Nat) : String := "".pushn ' ' (2 * level)

mutual

def prettyOnto (out : String) (level : Nat) : Json → String
  | .number n => out ++ toString n
  | .boolean b => out ++ if b then "true" else "false"
  | .string s => out ++ quote s
  | .array [] => out ++ "[]"
  | .array items => prettyItems (out ++ "[\n") (level + 1) items ++ "\n" ++ indent level ++ "]"
  | .object [] => out ++ "\x7b\x7d"
  | .object fields =>
    prettyFields (out ++ "\x7b\n") (level + 1) fields ++ "\n" ++ indent level ++ "\x7d"

def prettyItems (out : String) (level : Nat) : List Json → String
  | [] => out
  | [item] => item.prettyOnto (out ++ indent level) level
  | item :: rest => prettyItems (item.prettyOnto (out ++ indent level) level ++ ",\n") level rest

def prettyFields (out : String) (level : Nat) : List (String × Json) → String
  | [] => out
  | [(name, value)] => value.prettyOnto (out ++ indent level ++ quote name ++ ": ") level
  | (name, value) :: rest =>
    prettyFields (value.prettyOnto (out ++ indent level ++ quote name ++ ": ") level ++ ",\n")
      level rest

end

def pretty (j : Json) : String := j.prettyOnto "" 0

end Json
end SegmentPump
