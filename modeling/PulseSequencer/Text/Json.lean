-- JSON values and their compact text.
import PulseSequencer.Decimal

namespace PulseSequencer.Text

inductive Json where
  | null
  | bool (b : Bool)
  | nat (n : Nat)
  /-- A finite double. -/
  | double (x : Binary64)
  | string (s : String)
  | array (items : List Json)
  /-- Fields in the order in which they are written. -/
  | object (fields : List (String × Json))

namespace Json

/-- A double that is not finite has no JSON text and becomes `null`. -/
def ofDouble (x : Binary64) : Json := if x.isFinite then .double x else .null

/-- The four hexadecimal digits of a code point below 256. -/
def fourHex (n : Nat) : String :=
  String.ofList (['0', '0'] ++ [Nat.digitChar (n / 16), Nat.digitChar (n % 16)])

/-- Quotes, backslashes and control characters are escaped, all else stands for itself. -/
def escaped (c : Char) : String :=
  if c = '"' then "\\\""
  else if c = '\\' then "\\\\"
  else if c = Char.ofNat 8 then "\\b"
  else if c = Char.ofNat 12 then "\\f"
  else if c = '\n' then "\\n"
  else if c = '\r' then "\\r"
  else if c = '\t' then "\\t"
  else if c.toNat < 32 then "\\u" ++ fourHex c.toNat
  else c.toString

def stringText (s : String) : String := "\"" ++ String.join (s.toList.map escaped) ++ "\""

/-- Doubles from 10⁻⁵ up to 10¹⁶ are written with a point and at least one place after it,
others with an exponent. Of two shortest forms equally near, the even one is taken. -/
def doubleText (x : Binary64) : String :=
  let sign := if x.isNegative then "-" else ""
  let d := Decimal.shortest .even x
  if -5 ≤ d.leadingExponent ∧ d.leadingExponent ≤ 15 then
    sign ++ d.positional ++ (if d.exponent < 0 then "" else ".0")
  else sign ++ d.scientific

mutual

/-- The text without any blank. -/
def render : Json → String
  | null => "null"
  | bool b => if b then "true" else "false"
  | nat n => n.repr
  | double x => doubleText x
  | string s => stringText s
  | array items => "[" ++ renderItems items ++ "]"
  | object fields => "\x7b" ++ renderFields fields ++ "\x7d"

def renderItems : List Json → String
  | [] => ""
  | [item] => item.render
  | item :: rest => item.render ++ "," ++ renderItems rest

def renderFields : List (String × Json) → String
  | [] => ""
  | [(name, value)] => stringText name ++ ":" ++ value.render
  | (name, value) :: rest => stringText name ++ ":" ++ value.render ++ "," ++ renderFields rest

end

end Json

end PulseSequencer.Text
