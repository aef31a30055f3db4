import SegmentPump.Log
import SegmentPump.Text.Decimal

/-! Reading the words of a command line. Words are read from the left, and the
first that is wrong, or asks for help, ends the reading. An option may be given
once, its value in the next word or attached; short options may share a word. -/
namespace SegmentPump.CommandLine

inductive Halt
  | help
  | usage
  deriving DecidableEq, Repr

inductive Kind
  | flag
  | number
  | level
  deriving DecidableEq, Repr

def readNumber (text : String) : Option UInt64 := Decimal.readWord text.toUTF8

def readLevel (text : String) : Option Level := Level.parse? text false

def Kind.accepts (text : String) : Kind → Bool
  | .flag => false
  | .number => (readNumber text).isSome
  | .level => (readLevel text).isSome

structure Declared where
  long : String
  short : Option Char := none
  kind : Kind
  deriving DecidableEq, Repr

structure Given where
  name : String
  value : String
  deriving DecidableEq, Repr

def give (given : List Given) (d : Declared) (value : String) : Except Halt (List Given) :=
  if given.any (·.name == d.long) then .error .usage
  else .ok (given ++ [{ name := d.long, value }])

def giveValue (given : List Given) (d : Declared) (value : String) : Except Halt (List Given) :=
  if d.kind.accepts value then give given d value else .error .usage

def looksLikeOption (word : String) : Bool :=
  match word.toList with
  | '-' :: _ :: _ => true
  | _ => false

def scanShorts (declared : List Declared) :
    List Char → List Given → Except Halt (List Given × Option Declared)
  | [], given => .ok (given, none)
  | c :: rest, given =>
    match declared.find? (·.short == some c) with
    | none => .error (if c = 'h' then .help else .usage)
    | some d =>
      match d.kind with
      | .flag =>
        match give given d "" with
        | .ok given => scanShorts declared rest given
        | .error halt => .error halt
      | _ =>
        match rest with
        | [] => .ok (given, some d)
        | '=' :: value => (giveValue given d (String.ofList value)).map (·, none)
        | value => (giveValue given d (String.ofList value)).map (·, none)

def scanLong (declared : List Declared) (word : List Char) (given : List Given) :
    Except Halt (List Given × Option Declared) :=
  let name := String.ofList (word.takeWhile (· ≠ '='))
  let attached : Option String :=
    match word.dropWhile (· ≠ '=') with
    | [] => none
    | _ :: value => some (String.ofList value)
  match declared.find? (·.long == name), attached with
  | none, none => .error (if name = "help" then .help else .usage)
  | none, some _ => .error .usage
  | some d, none =>
    match d.kind with
    | .flag => (give given d "").map (·, none)
    | _ => .ok (given, some d)
  | some d, some value => (giveValue given d value).map (·, none)

def scanWord (declared : List Declared) (word : String) (given : List Given) :
    Except Halt (List Given × Option Declared) :=
  match word.toList with
  | '-' :: '-' :: name => scanLong declared name given
  | _ :: shorts => scanShorts declared shorts given
  | [] => .error .usage

/-- Reads options up to the first other word. Returns the options and the words
from there on. No word may follow two lone dashes. -/
def scan (declared : List Declared) :
    List String → List Given → Except Halt (List Given × List String)
  | [], given => .ok (given, [])
  | word :: rest, given =>
    if word = "--" then
      if rest.isEmpty then .ok (given, []) else .error .usage
    else if looksLikeOption word then
      match scanWord declared word given with
      | .error halt => .error halt
      | .ok (given, none) => scan declared rest given
      | .ok (given, some d) =>
        match rest with
        | [] => .error .usage
        | value :: rest =>
          if looksLikeOption value then .error .usage
          else
            match giveValue given d value with
            | .ok given => scan declared rest given
            | .error halt => .error halt
    else .ok (given, word :: rest)

def valueOf (given : List Given) (name : String) : Option String :=
  (given.find? (·.name == name)).map (·.value)

def numberOf (given : List Given) (name : String) : Option UInt64 :=
  (valueOf given name).bind readNumber

def isGiven (given : List Given) (name : String) : Bool := given.any (·.name == name)

end SegmentPump.CommandLine
