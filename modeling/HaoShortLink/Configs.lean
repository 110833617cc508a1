import HaoShortLink.Cpp
import Mathlib.Logic.Function.Basic

/-! Configuration files (Config.cpp): one key and value a line. -/
namespace Configs

open Cpp

abbrev Values := Bytes → Option Bytes

/-- What std::getline reads, line by line. -/
def getlines (content : Bytes) : List Bytes :=
  let lines := content.splitOn 10
  if lines.getLast? = some [] then lines.dropLast else lines

def trim (value : Bytes) : Bytes :=
  ((value.dropWhile isSpace).reverse.dropWhile isSpace).reverse

def loadLines (loadedValues : Values) : List Bytes → Option Values
  | [] => some loadedValues
  | line :: lines =>
    let line := trim line
    if line = [] ∨ line.head? = some 35 then loadLines loadedValues lines
    else
      match line.idxOf? 61 with
      | none => none
      | some separator =>
        let key := trim (line.take separator)
        let value := trim (line.drop (separator + 1))
        if key = [] then none else loadLines (Function.update loadedValues key (some value)) lines

/-- There is no content when the file cannot be opened. -/
def loadFromFile (values : Values) (content : Option Bytes) : Bool × Values :=
  match content with
  | none => (false, values)
  | some content =>
    match loadLines (fun _ => none) (getlines content) with
    | none => (false, values)
    | some loadedValues => (true, loadedValues)

def getString (values : Values) (key defaultValue : Bytes) : Bytes :=
  (values key).getD defaultValue

/-- The number of characters that std::stoi uses: blanks, a sign and digits. -/
def stoiParsedChars (s : Bytes) : ℕ :=
  let rest := s.dropWhile isSpace
  let sign := if rest.head? = some 45 ∨ rest.head? = some 43 then 1 else 0
  (s.takeWhile isSpace).length + sign + ((rest.drop sign).takeWhile isDigit).length

def getInt (values : Values) (key : Bytes) (defaultValue : ℤ) : ℤ :=
  match values key with
  | none => defaultValue
  | some text =>
    match stoi text with
    | .error _ => defaultValue
    | .ok value => if stoiParsedChars text ≠ text.length then defaultValue else value

def getBool (values : Values) (key : Bytes) (defaultValue : Bool) : Bool :=
  match values key with
  | none => defaultValue
  | some text =>
    let value := (trim text).map toLower
    if value ∈ [ascii "true", ascii "1", ascii "yes", ascii "on"] then true
    else if value ∈ [ascii "false", ascii "0", ascii "no", ascii "off"] then false
    else defaultValue

end Configs
