import Directory.Filter.Basic

namespace Directory.Filter

/-! # Writing filters

Every condition stands in parentheses, and the characters that have a meaning there are
written as escapes. -/

/-- One character of a value; the escapes name the octet in hexadecimal digits. -/
def escapeChar (c : Char) : Text :=
  if c = '*' then "\\2a"
  else if c = '(' then "\\28"
  else if c = ')' then "\\29"
  else if c = '\\' then "\\5c"
  else if c.toNat = 0 then "\\00"
  else [c]

mutual

def text : Filter → Text
  | present attr => '(' :: attr ++ ['=', '*', ')']
  | equal attr value => '(' :: attr ++ '=' :: value.flatMap escapeChar ++ [')']
  | and filters => '(' :: '&' :: textAll filters ++ [')']
  | or filters => '(' :: '|' :: textAll filters ++ [')']
  | not filter => '(' :: '!' :: text filter ++ [')']

def textAll : List Filter → Text
  | [] => []
  | filter :: rest => text filter ++ textAll rest

end

end Directory.Filter
