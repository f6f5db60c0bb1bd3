import Chip8.Binary64
import Chip8.Calendar

/-!
Data: the values that a configuration is made of. A mapping keeps its entries in the order in which
their keys first came; keys that are equal as numbers are one key, whatever their types.

A list or a mapping may hold itself. Such a value is unrolled as far as it is looked into. In what is
only shown, `listAgain` and `mapAgain` stand where a list or a mapping around them would come again.
-/

namespace Chip8

/-- A value of a configuration. -/
inductive Datum where
  | null
  | bool (b : Bool)
  | int (n : Int)
  | real (x : Binary64)
  | text (s : String)
  | bytes (bs : List UInt8)
  | date (year month day : Nat)
  | moment (m : Moment)
  | list (items : List Datum)
  | tuple (items : List Datum)
  /-- A set, with its items in the order in which they are shown. -/
  | set (items : List Datum)
  | map (entries : List (Datum × Datum))
  | listAgain
  | mapAgain
  deriving Inhabited

namespace Datum

def typeName : Datum → String
  | .null => "NoneType"
  | .bool _ => "bool"
  | .int _ => "int"
  | .real _ => "float"
  | .text _ => "str"
  | .bytes _ => "bytes"
  | .date _ _ _ => "date"
  | .moment _ => "datetime"
  | .list _ | .listAgain => "list"
  | .tuple _ => "tuple"
  | .set _ => "set"
  | .map _ | .mapAgain => "dict"

def isMapping : Datum → Bool
  | .map _ | .mapAgain => true
  | _ => false

/-- Whether a value counts as nothing: null, false, zero, and what is empty. -/
def isBlank : Datum → Bool
  | .null => true
  | .bool b => !b
  | .int n => n == 0
  | .real x => x.isZero
  | .text s => s.isEmpty
  | .bytes bs => bs.isEmpty
  | .date _ _ _ | .moment _ | .listAgain | .mapAgain => false
  | .list items | .tuple items | .set items => items.isEmpty
  | .map entries => entries.isEmpty

/-- The integer that a whole-number value stands for; truth values count as 0 and 1. -/
def whole? : Datum → Option Int
  | .bool b => some (if b then 1 else 0)
  | .int n => some n
  | _ => none

mutual

/-- Whether two values are the same key. Lists, sets and mappings are no keys. -/
def sameKey : Datum → Datum → Bool
  | .null, .null => true
  | .text s, .text t => s == t
  | .bytes bs, .bytes cs => bs == cs
  | .date y m d, .date y' m' d' => y == y' && m == m' && d == d'
  | .moment m, .moment n => m.same n
  | .tuple ds, .tuple es => sameKeys ds es
  | .real x, .real y => x.sameNumber y
  | .real x, d => (d.whole?.map x.equalsInt).getD false
  | d, .real x => (d.whole?.map x.equalsInt).getD false
  | d, e =>
    match d.whole?, e.whole? with
    | some m, some n => m == n
    | _, _ => false

/-- Whether the items of two tuples are the same keys in the same order. -/
def sameKeys : List Datum → List Datum → Bool
  | [], [] => true
  | d :: ds, e :: es => sameKey d e && sameKeys ds es
  | _, _ => false

end

/-- Puts a value under a key: in place of the value of the same key, or at the end. `same` tells
whether two keys are the same. -/
def put (same : Datum → Datum → Bool) (key value : Datum) :
    List (Datum × Datum) → List (Datum × Datum)
  | [] => [(key, value)]
  | (k, v) :: rest => if same k key then (k, value) :: rest else (k, v) :: put same key value rest

/-- The mapping that entries give when they are put one after the other. `same` tells whether two
keys are the same. -/
def collect (same : Datum → Datum → Bool) (entries : List (Datum × Datum)) : Datum :=
  .map (entries.foldl (fun es (k, v) => put same k v es) [])

/-- The mapping that entries give. A floating-point key that is no number is the same as no other. -/
def ofEntries (entries : List (Datum × Datum)) : Datum := collect sameKey entries

def lookup (name : String) : List (Datum × Datum) → Option Datum
  | [] => none
  | (.text s, v) :: rest => if s = name then some v else lookup name rest
  | _ :: rest => lookup name rest

end Datum

end Chip8
