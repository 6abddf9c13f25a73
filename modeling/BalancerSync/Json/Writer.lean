import BalancerSync.Json
import BalancerSync.Text.Digits

namespace BalancerSync.Json

def writeNumeral (n : Numeral) : List Char :=
  (if n.negative then ['-'] else []) ++ n.whole
    ++ (if n.fraction.isEmpty then [] else '.' :: n.fraction)
    ++ match n.exponent with
      | none => []
      | some (negative, digits) => 'e' :: (if negative then ['-'] else []) ++ digits

/-- Quotes, backslashes and control characters are escaped, the others stand for themselves. -/
def escape (c : Char) : List Char :=
  match c with
  | '"' => ['\\', '"']
  | '\\' => ['\\', '\\']
  | '\x08' => ['\\', 'b']
  | '\x0c' => ['\\', 'f']
  | '\n' => ['\\', 'n']
  | '\r' => ['\\', 'r']
  | '\t' => ['\\', 't']
  | c => if c.toNat < 0x20 then ['\\', 'u'] ++ Text.paddedDigits 16 4 c.toNat else [c]

def writeString : JsonString → List Char
  | .text s => '"' :: s.toList.flatMap escape ++ ['"']
  | .unpaired => "\"\\ud800\"".toList

mutual

def compact : Json → List Char
  | null => "null".toList
  | bool true => "true".toList
  | bool false => "false".toList
  | number n => writeNumeral n
  | string s => writeString s
  | array elements => '[' :: compactElements elements ++ [']']
  | object members => '{' :: compactMembers members ++ ['}']

def compactElements : List Json → List Char
  | [] => []
  | [v] => compact v
  | v :: rest => compact v ++ ',' :: compactElements rest

def compactMembers : List (JsonString × Json) → List Char
  | [] => []
  | [(k, v)] => writeString k ++ ':' :: compact v
  | (k, v) :: rest => writeString k ++ ':' :: compact v ++ ',' :: compactMembers rest

end

def newline (level : Nat) : List Char := '\n' :: List.replicate (2 * level) ' '

mutual

/-- A line for each element and member, indented by two blanks for each level. -/
def indented (level : Nat) : Json → List Char
  | null => "null".toList
  | bool true => "true".toList
  | bool false => "false".toList
  | number n => writeNumeral n
  | string s => writeString s
  | array [] => ['[', ']']
  | array (v :: rest) => '[' :: indentedElements (level + 1) (v :: rest) ++ newline level ++ [']']
  | object [] => ['{', '}']
  | object (m :: rest) => '{' :: indentedMembers (level + 1) (m :: rest) ++ newline level ++ ['}']

def indentedElements (level : Nat) : List Json → List Char
  | [] => []
  | [v] => newline level ++ indented level v
  | v :: rest => newline level ++ indented level v ++ ',' :: indentedElements level rest

def indentedMembers (level : Nat) : List (JsonString × Json) → List Char
  | [] => []
  | [(k, v)] => newline level ++ writeString k ++ [':', ' '] ++ indented level v
  | (k, v) :: rest =>
    newline level ++ writeString k ++ [':', ' '] ++ indented level v
      ++ ',' :: indentedMembers level rest

end

def write (v : Json) : String := String.ofList v.compact

def writePretty (v : Json) : String := String.ofList (v.indented 0)

end BalancerSync.Json
