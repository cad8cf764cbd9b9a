import ChatRelay.Json.Reader

namespace ChatRelay.Json

def hexDigit (n : Nat) : UInt8 :=
  if n < 10 then UInt8.ofNat (0x30 + n) else UInt8.ofNat (0x57 + n)

/-- An octet of a string: quotes, backslashes and controls are escaped, controls by a letter where
there is one. -/
def escaped (b : UInt8) : List UInt8 :=
  match b with
  | 0x22 => [backslash, 0x22]
  | 0x5C => [backslash, 0x5C]
  | 0x08 => [backslash, 0x62]
  | 0x0C => [backslash, 0x66]
  | 0x0A => [backslash, 0x6E]
  | 0x0D => [backslash, 0x72]
  | 0x09 => [backslash, 0x74]
  | b =>
    if b < 0x20 then
      [backslash, 0x75, 0x30, 0x30, hexDigit (b.toNat / 16), hexDigit (b.toNat % 16)]
    else [b]

def writeString (s : String) : List UInt8 :=
  quoteMark :: (Text.octets s).flatMap escaped ++ [quoteMark]

def writeNatural (n : Nat) : List UInt8 :=
  if n < 10 then [UInt8.ofNat (0x30 + n)]
  else writeNatural (n / 10) ++ [UInt8.ofNat (0x30 + n % 10)]

def separated : List (List UInt8) → List UInt8
  | [] => []
  | [x] => x
  | x :: y :: xs => x ++ comma :: separated (y :: xs)

def writeList (items : List (List UInt8)) : List UInt8 :=
  openList :: separated items ++ [closeList]

def writeMember (key : String) (value : List UInt8) : List UInt8 :=
  writeString key ++ colonMark :: value

def writeObject (members : List (List UInt8)) : List UInt8 :=
  openObject :: separated members ++ [closeObject]

end ChatRelay.Json
