import HaoShortLink.Cpp
import HaoShortLink.OrderedMaps

/-! JSON values as nlohmann::json holds them. Reading and writing JSON text is the library's
work and enters as a parameter. -/
namespace JsonValues

open Cpp

inductive Json where
  | null
  | boolean (b : Bool)
  /-- number_integer and number_unsigned -/
  | integer (n : ℤ)
  | float (bits : UInt64)
  | string (s : Bytes)
  | array (elements : List Json)
  | object (members : List (Bytes × Json))
  deriving Repr

/-- parse with exceptions switched off gives nothing for a discarded value; dump throws on
strings that are not UTF-8. -/
structure JsonLibrary where
  parse : Bytes → Option Json
  /-- parse with ignore_comments. -/
  parseIgnoringComments : Bytes → Option Json
  dump : Json → Except Exception Bytes

namespace Json

def isObject : Json → Bool
  | .object _ => true
  | _ => false

def items : Json → List (Bytes × Json)
  | .object members => members
  | _ => []

def ofMembers (members : List (Bytes × Json)) : Json :=
  .object (members.foldl (fun sorted m => OrderedMaps.insertEntry m.1 m.2 sorted) [])

def isNull : Json → Bool
  | .null => true
  | _ => false

def find (j : Json) (name : Bytes) : Option Json :=
  match j with
  | .object members => (members.find? (·.1 == name)).map Prod.snd
  | _ => none

def asString : Json → Option Bytes
  | .string s => some s
  | _ => none

def asInteger : Json → Option ℤ
  | .integer n => some n
  | _ => none

def stringAt (j : Json) (name : Bytes) : Option Bytes := (j.find name).bind asString

def integerAt (j : Json) (name : Bytes) : Option ℤ := (j.find name).bind asInteger

end Json

/-- get<int> and get<std::int64_t> convert modulo the width of the target. -/
def toInt32 (n : ℤ) : ℤ := n.bmod (2 ^ 32)
def toInt64 (n : ℤ) : ℤ := n.bmod (2 ^ 64)

end JsonValues
