import ChatRelay.Address.Basic

namespace ChatRelay

namespace Host

def digit? (base : Nat) (c : Char) : Option Nat :=
  let n :=
    if '0' ≤ c ∧ c ≤ '9' then c.toNat - '0'.toNat
    else if 'a' ≤ c ∧ c ≤ 'f' then c.toNat - 'a'.toNat + 10
    else if 'A' ≤ c ∧ c ≤ 'F' then c.toNat - 'A'.toNat + 10
    else base
  if n < base then some n else none

/-- All digits at the front of a text, if there is at least one and at most `width`. -/
def digits? (base width : Nat) (s : List Char) : Option (List Nat × List Char) :=
  let ds := (s.takeWhile fun c => (digit? base c).isSome).filterMap (digit? base)
  if ds = [] ∨ width < ds.length then none
  else some (ds, s.dropWhile fun c => (digit? base c).isSome)

def ofDigits (base : Nat) (ds : List Nat) : Nat :=
  ds.foldl (fun n d => base * n + d) 0

def octet? (s : List Char) : Option (UInt8 × List Char) := do
  let (ds, r) ← digits? 10 3 s
  let n := ofDigits 10 ds
  if n < 256 ∧ ¬ (ds.head? = some 0 ∧ 1 < ds.length) then return (UInt8.ofNat n, r) else none

def group? (s : List Char) : Option (UInt16 × List Char) := do
  let (ds, r) ← digits? 16 4 s
  return (UInt16.ofNat (ofDigits 16 ds), r)

def after? (c : Char) : List Char → Option (List Char)
  | [] => none
  | d :: r => if d = c then some r else none

/-- Four octets at the front of a text. -/
def fourOctets? (s : List Char) : Option ((UInt8 × UInt8 × UInt8 × UInt8) × List Char) := do
  let (a, r) ← octet? s
  let (b, r) ← octet? (← after? '.' r)
  let (c, r) ← octet? (← after? '.' r)
  let (d, r) ← octet? (← after? '.' r)
  return ((a, b, c, d), r)

/-- Up to `room` groups with a colon before each but the first of all. Gives the groups, whether the
last two were written as octets, and the rest of the text. -/
def groups (room : Nat) (first : Bool) (s : List Char) : List UInt16 × Bool × List Char :=
  match room with
  | 0 => ([], false, s)
  | room + 1 =>
    match if first then some s else after? ':' s with
    | none => ([], false, s)
    | some t =>
      match if 0 < room then fourOctets? t else none with
      | some ((a, b, c, d), r) =>
        ([a.toUInt16 <<< 8 ||| b.toUInt16, c.toUInt16 <<< 8 ||| d.toUInt16], true, r)
      | none =>
        match group? t with
        | none => ([], false, s)
        | some (g, r) =>
          let (gs, octets, r) := groups room false r
          (g :: gs, octets, r)

def ofGroups (gs : List UInt16) : Host :=
  v6 (Vector.ofFn fun i => gs[i]?.getD 0)

def v6? (s : List Char) : Option Host :=
  let (head, octets, r) := groups 8 true s
  if head.length = 8 then
    if r = [] then some (ofGroups head) else none
  else if octets then none
  else do
    let r ← after? ':' (← after? ':' r)
    let (tail, _, r) := groups (7 - head.length) true r
    if r = [] then
      some (ofGroups (head ++ List.replicate (8 - head.length - tail.length) 0 ++ tail))
    else none

def v4? (s : List Char) : Option Host := do
  let ((a, b, c, d), r) ← fourOctets? s
  if r = [] then return v4 a b c d else none

def ofText? (s : String) : Option Host :=
  v4? s.toList <|> v6? s.toList

end Host

def Address.port? (s : List Char) : Option UInt16 := do
  let (ds, r) ← Host.digits? 10 5 s
  let n := Host.ofDigits 10 ds
  if r = [] ∧ n < 0x10000 then return UInt16.ofNat n else none

def Address.ofText? (s : String) : Option Address :=
  match s.toList with
  | '[' :: r => do
    let host ← Host.v6? (r.takeWhile (· ≠ ']'))
    let port ← port? (← Host.after? ':' ((r.dropWhile (· ≠ ']')).drop 1))
    return ⟨host, port⟩
  | s => do
    let host ← Host.v4? (s.takeWhile (· ≠ ':'))
    let port ← port? ((s.dropWhile (· ≠ ':')).drop 1)
    return ⟨host, port⟩

end ChatRelay
