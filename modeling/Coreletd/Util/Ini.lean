/-
# INI files

The syntax of the config file and of the settings file: `[section]` headers, and
`key = value` lines whose key is prefixed with the section and lower-cased. A
value loses the white space around it, a comment at its end, or the quotes
around it.
-/

import Coreletd.Library.Numerals
import Coreletd.Library.SortedMap
import Coreletd.Util.Persist
import Mathlib.Data.List.DropRight

namespace Coreletd

open Coreletd.Library

/-- The bytes of a text in the source. -/
def utf8 (text : String) : Bytes := text.toUTF8.data.toList

/-- The bytes of a number. -/
def toText (n : Nat) : Bytes := Text.decimal n

/-! The order of the keys is a strict and total one. -/

instance trichotomous_bytes : Std.Trichotomous (α := Bytes) (· < ·) := inferInstance

instance trans_bytes : Trans (α := Bytes) (β := Bytes) (γ := Bytes) (· < ·) (· < ·) (· < ·) :=
  inferInstance

structure Ini where
  /-- Key to value, in the order of the keys. -/
  entries : SortedMap Bytes Bytes := .empty

namespace Ini

def newline : UInt8 := 10
def quote : UInt8 := 34
def apostrophe : UInt8 := 39
def hash : UInt8 := 35
def semicolon : UInt8 := 59
def equals : UInt8 := 61
def openBracket : UInt8 := 91
def closeBracket : UInt8 := 93
def dot : UInt8 := 46

/-- What `trim` takes off. -/
def isSpace (c : UInt8) : Bool := c = 32 || c = 9 || c = 13 || c = 10

def trim (s : Bytes) : Bytes := (s.dropWhile isSpace).rdropWhile isSpace

/-- Starts a comment behind an unquoted value. -/
def isComment (c : UInt8) : Bool := c = hash || c = semicolon

/-- The value lies between a pair of the same quotes. -/
def isQuoted (v : Bytes) : Bool :=
  decide (2 ≤ v.length) && (v.head? = some quote || v.head? = some apostrophe) &&
    decide (v.getLast? = v.head?)

/-- What is between the quotes, or what is before a comment. -/
def cleanValue (v : Bytes) : Bytes :=
  let v := trim v
  if isQuoted v then subview v 1 (v.length - 2)
  else if v.any isComment then trim (v.takeWhile (!isComment ·))
  else v

/-- `std::tolower` in the C locale. -/
def toLower (c : UInt8) : UInt8 := if 65 ≤ c ∧ c ≤ 90 then c + 32 else c

def set (ini : Ini) (key value : Bytes) : Ini :=
  { entries := ini.entries.assign (key.map toLower) value }

/-- A file as far as it has been read: the section, and the entries. -/
structure Parsed where
  inSection : Bytes := []
  ini : Ini := {}

/-- Where a line is wrong. -/
def located (path : Bytes) (lineno : Nat) (what : String) : Bytes :=
  path ++ utf8 ":" ++ toText lineno ++ utf8 ": " ++ utf8 what

/-- A key under the section it stands in. -/
def qualify (inSection key : Bytes) : Bytes :=
  if inSection = [] then key else inSection ++ [dot] ++ key

def parseLine (path : Bytes) (lineno : Nat) (parsed : Parsed) (line : Bytes) :
    Except Bytes Parsed :=
  let s := trim line
  if s = [] ∨ s.head? = some hash ∨ s.head? = some semicolon then .ok parsed
  else if s.head? = some openBracket then
    if closeBracket ∈ s then
      .ok { parsed with inSection := trim ((s.drop 1).takeWhile (· ≠ closeBracket)) }
    else .error (located path lineno "unterminated section header")
  else if equals ∈ s then
    let key := trim (s.takeWhile (· ≠ equals))
    if key = [] then .error (located path lineno "empty key")
    else
      let value := cleanValue ((s.dropWhile (· ≠ equals)).drop 1)
      .ok { parsed with ini := parsed.ini.set (qualify parsed.inSection key) value }
  else .error (located path lineno "expected `key = value`")

/-- The lines of a file, the first of them numbered `lineno`. -/
def parseLines (path : Bytes) : Nat → Parsed → List Bytes → Except Bytes Parsed
  | _, parsed, [] => .ok parsed
  | lineno, parsed, line :: lines =>
      match parseLine path lineno parsed line with
      | .ok parsed => parseLines path (lineno + 1) parsed lines
      | .error why => .error why

def load (fs : FileSystem) (path : Bytes) : Except Bytes Ini :=
  match fs path with
  | none => .error (utf8 "cannot open " ++ path)
  | some content => (parseLines path 1 {} (Text.lines newline content)).map (·.ini)

/-- An entry with a value in it. -/
def find (ini : Ini) (key : Bytes) : Option Bytes :=
  (ini.entries.find key).filter (· ≠ [])

/-- The C string of a value: what is before a NUL. -/
def cStr (v : Bytes) : Bytes := v.takeWhile (· ≠ 0)

/-! What a key holds: the default when there is none, nothing when it does not
parse. -/

def getStr (ini : Ini) (key default : Bytes) : Bytes := (ini.find key).getD default

def getDouble (ini : Ini) (key : Bytes) (default : ℚ) : Option ℚ :=
  match ini.find key with
  | none => some default
  | some v => Numerals.strtod (cStr v)

def getBool (ini : Ini) (key : Bytes) (default : Bool) : Option Bool :=
  match ini.find key with
  | none => some default
  | some v =>
      let s := v.map toLower
      if s = utf8 "1" ∨ s = utf8 "true" ∨ s = utf8 "yes" ∨ s = utf8 "on" then some true
      else if s = utf8 "0" ∨ s = utf8 "false" ∨ s = utf8 "no" ∨ s = utf8 "off" then some false
      else none

end Ini

end Coreletd
