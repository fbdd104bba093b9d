import Sealedge.JsonString
import Sealedge.WitnessJws

namespace Sealedge

open JsonString

/-- The JSON crate: how it writes a float, and the tree that it reads a text as, with the members of
an object in their order. -/
structure JsonCrate where
  printFloat : F64 → List Char
  parse : Bytes → Option JsonValue

def numberWord (js : JsonCrate) : JsonNumber → List Char
  | .posInt n => n.toNat.repr.toList
  | .negInt n => '-' :: (-n.toInt).toNat.repr.toList
  | .float f => js.printFloat f

/-- A new line with so many levels of two blanks; none in a compact text. -/
def newline : Option Nat → List Char
  | none => []
  | some level => '\n' :: List.replicate (2 * level) ' '

def afterColon : Option Nat → List Char
  | none => []
  | some _ => [' ']

mutual

/-- The text of a value: compact without a level, and otherwise as `to_string_pretty` writes it
at that level. -/
def render (js : JsonCrate) (level : Option Nat) : JsonValue → List Char
  | .null => "null".toList
  | .bool b => if b then "true".toList else "false".toList
  | .number n => numberWord js n
  | .string s => (quote s).toList
  | .array [] => ['[', ']']
  | .array (v :: items) =>
    '[' :: (newline (level.map (· + 1)) ++ render js (level.map (· + 1)) v ++
      renderItems js level items)
  | .object [] => ['\x7b', '\x7d']
  | .object ((key, v) :: fields) =>
    '\x7b' :: (newline (level.map (· + 1)) ++ (quote key).toList ++ ':' :: afterColon level ++
      render js (level.map (· + 1)) v ++ renderFields js level fields)

/-- The items after the first, and the bracket. -/
def renderItems (js : JsonCrate) (level : Option Nat) : List JsonValue → List Char
  | [] => newline level ++ [']']
  | v :: items =>
    ',' :: (newline (level.map (· + 1)) ++ render js (level.map (· + 1)) v ++
      renderItems js level items)

/-- The fields after the first, and the brace. -/
def renderFields (js : JsonCrate) (level : Option Nat) : List (String × JsonValue) → List Char
  | [] => newline level ++ ['\x7d']
  | (key, v) :: fields =>
    ',' :: (newline (level.map (· + 1)) ++ (quote key).toList ++ ':' :: afterColon level ++
      render js (level.map (· + 1)) v ++ renderFields js level fields)

end

/-- Values that a text can carry, with at most so many levels of arrays and objects: floats are
finite, and negative integers negative. -/
inductive Printable : Nat → JsonValue → Prop
  | null {n : Nat} : Printable n .null
  | bool {n : Nat} (b : Bool) : Printable n (.bool b)
  | posInt {n : Nat} (i : UInt64) : Printable n (.number (.posInt i))
  | negInt {n : Nat} (i : Int64) (h : i.toInt < 0) : Printable n (.number (.negInt i))
  | float {n : Nat} (f : F64) (h : f.isFinite = true) : Printable n (.number (.float f))
  | string {n : Nat} (s : String) : Printable n (.string s)
  | array {n : Nat} (items : List JsonValue) (h : ∀ v ∈ items, Printable n v) :
    Printable (n + 1) (.array items)
  | object {n : Nat} (fields : List (String × JsonValue)) (h : ∀ f ∈ fields, Printable n f.2) :
    Printable (n + 1) (.object fields)

/-- The levels that the reader goes down before it refuses a text. -/
def maxNesting : Nat := 127

/-- What was printed is read back, and a float stands on one line. Nothing is said about other
texts. -/
structure JsonCrate.Lossless (js : JsonCrate) : Prop where
  line : ∀ f, f.isFinite = true → '\n' ∉ js.printFloat f
  reads : ∀ {v}, Printable maxNesting v → ∀ level,
    js.parse (intoBytes (String.ofList (render js level v))) = some v

end Sealedge
