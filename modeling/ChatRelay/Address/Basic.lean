namespace ChatRelay

/-- An IP address: four octets, or eight groups of sixteen bits. -/
inductive Host where
  | v4 (a b c d : UInt8)
  | v6 (groups : Vector UInt16 8)
deriving DecidableEq, Repr

structure Address where
  host : Host
  port : UInt16
deriving DecidableEq, Repr

namespace Host

def isV4 : Host → Bool
  | v4 .. => true
  | v6 .. => false

def dotted (a b c d : UInt8) : String :=
  s!"{a.toNat}.{b.toNat}.{c.toNat}.{d.toNat}"

def colons (groups : List UInt16) : String :=
  ":".intercalate (groups.map fun g => String.ofList (Nat.toDigits 16 g.toNat))

def leadingZeros (groups : List UInt16) : Nat :=
  (groups.takeWhile (· = 0)).length

/-- Where the longest run of zero groups starts and how long it is, the first of several. -/
def longestZeros (groups : List UInt16) : Nat × Nat :=
  (List.range groups.length).foldl
    (fun best i =>
      let n := leadingZeros (groups.drop i)
      if best.2 < n then (i, n) else best)
    (0, 0)

/-- The longest run of two or more zero groups is left out between two colons; an address that
stands for one of four octets shows these. -/
def text : Host → String
  | v4 a b c d => dotted a b c d
  | v6 groups =>
    match groups.toList with
    | [0, 0, 0, 0, 0, 0xFFFF, x, y] =>
      "::ffff:" ++ dotted (x >>> 8).toUInt8 x.toUInt8 (y >>> 8).toUInt8 y.toUInt8
    | groups =>
      let (start, length) := longestZeros groups
      if 1 < length then
        colons (groups.take start) ++ "::" ++ colons (groups.drop (start + length))
      else colons groups

end Host

/-- An address of groups stands in brackets before its port. -/
def Address.text (a : Address) : String :=
  match a.host with
  | .v4 .. => s!"{a.host.text}:{a.port.toNat}"
  | .v6 .. => s!"[{a.host.text}]:{a.port.toNat}"

end ChatRelay
