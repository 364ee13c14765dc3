import Directory.Json.Basic
import Directory.Text.Digits

namespace Directory

open Text

/-! # Writing JSON

Documents are written on one line and in ASCII: every other character is an escape,
in two halves above the Basic Multilingual Plane. -/

namespace Json.Printer

/-- One 16-bit unit as an escape with four digits. -/
def unitEscape (unit : Nat) : Text :=
  let digits := lowerHex unit
  ['\\', 'u'] ++ List.replicate (4 - digits.length) '0' ++ digits

def escapeChar (c : Char) : Text :=
  let n := c.toNat
  if c = '"' ∨ c = '\\' then ['\\', c]
  else if 0x20 ≤ n ∧ n < 0x7F then [c]
  else if n < 0x10000 then unitEscape n
  else
    unitEscape (0xD800 + (n - 0x10000) / 0x400) ++ unitEscape (0xDC00 + (n - 0x10000) % 0x400)

def quoted (text : Text) : Text := '"' :: text.flatMap escapeChar ++ ['"']

mutual

def render : Json → Text
  | .null => "null"
  | .bool true => "true"
  | .bool false => "false"
  | .number written => written
  | .string text => quoted (text.getD [])
  | .array items => '[' :: joinWith ',' (renderItems items) ++ [']']
  | .object members => '\x7b' :: joinWith ',' (renderMembers members) ++ ['\x7d']

def renderItems : List Json → List Text
  | [] => []
  | item :: rest => render item :: renderItems rest

def renderMembers : List (Option Text × Json) → List Text
  | [] => []
  | (name, value) :: rest => (quoted (name.getD []) ++ ':' :: render value) :: renderMembers rest

end

end Json.Printer

def Json.render (value : Json) : Text := Json.Printer.render value

end Directory
