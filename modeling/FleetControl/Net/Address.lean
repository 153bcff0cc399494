import FleetControl.Text.Hex

/-!
# Network addresses

Reading and writing of IPv4 and IPv6 addresses, and of a bind address with its port. IPv4 parts
are plain decimals without leading zeros; an IPv6 address may leave out one run of zero groups and
may end in an IPv4 address.
-/
namespace FleetControl

/-- An IP address. -/
inductive Address where
  | v4 (bytes : List Nat)
  | v6 (groups : List Nat)
  deriving DecidableEq, Repr

namespace Address

/-- Splits at every occurrence of a character. -/
def splitAt (sep : Char) (current : List Char) : List Char → List (List Char)
  | [] => [current.reverse]
  | c :: rest =>
    if c = sep then current.reverse :: splitAt sep [] rest else splitAt sep (c :: current) rest

/-- A decimal below 256 without leading zeros. -/
def octet? (cs : List Char) : Option Nat :=
  if cs.isEmpty ∨ cs.length > 3 ∨ ¬ cs.all Char.isDigit then none
  else if cs.length > 1 ∧ cs.head? = some '0' then none
  else
    let n := cs.foldl (fun n c => 10 * n + (c.toNat - '0'.toNat)) 0
    if n < 256 then some n else none

/-- Four decimals joined by points. -/
def v4Bytes? (cs : List Char) : Option (List Nat) :=
  let parts := splitAt '.' [] cs
  if parts.length = 4 then parts.mapM octet? else none

/-- A group of one to four hexadecimal digits. -/
def group? (cs : List Char) : Option Nat :=
  if cs.isEmpty ∨ cs.length > 4 then none
  else (cs.mapM Hex.value?).map fun vs => vs.foldl (fun n v => 16 * n + v) 0

/-- Groups joined by colons; the last part may be an IPv4 address, which gives two groups. -/
def groups? : List (List Char) → Option (List Nat)
  | [] => some []
  | [last] =>
    if last.contains '.' then
      match v4Bytes? last with
      | some [a, b, c, d] => some [256 * a + b, 256 * c + d]
      | _ => none
    else (group? last).map ([·])
  | part :: rest =>
    match group? part, groups? rest with
    | some g, some gs => some (g :: gs)
    | _, _ => none

/-- Groups of one side of a gap, which may be empty. -/
def side? (cs : List Char) : Option (List Nat) :=
  if cs.isEmpty then some [] else groups? (splitAt ':' [] cs)

/-- Splits at the first double colon. -/
def gap? (before : List Char) : List Char → Option (List Char × List Char)
  | ':' :: ':' :: rest => some (before.reverse, rest)
  | c :: rest => gap? (c :: before) rest
  | [] => none

/-- Eight groups, one run of zeros left out at most. -/
def v6Groups? (cs : List Char) : Option (List Nat) :=
  match gap? [] cs with
  | none =>
    match groups? (splitAt ':' [] cs) with
    | some gs => if gs.length = 8 then some gs else none
    | none => none
  | some (front, back) =>
    if front.contains '.' then none
    else
      match side? front, side? back with
      | some xs, some ys =>
        if xs.length + ys.length < 8 then
          some (xs ++ List.replicate (8 - xs.length - ys.length) 0 ++ ys)
        else none
      | _, _ => none

/-- Reads an address of either family. -/
def parse? (text : String) : Option Address :=
  let cs := text.toList
  match v4Bytes? cs with
  | some bytes => some (v4 bytes)
  | none => (v6Groups? cs).map v6

/-- A decimal port below 65536. -/
def port? (cs : List Char) : Option Nat :=
  if cs.isEmpty ∨ ¬ cs.all Char.isDigit then none
  else
    let n := cs.foldl (fun n c => 10 * n + (c.toNat - '0'.toNat)) 0
    if n < 65536 then some n else none

/-- Splits at the last colon. -/
def lastColon? (cs : List Char) : Option (List Char × List Char) :=
  match cs.reverse.span (· ≠ ':') with
  | (_, []) => none
  | (port, _ :: host) => some (host.reverse, port.reverse)

/-- A scope number behind a percent sign is read and dropped. -/
def unscoped? (cs : List Char) : Option (List Char) :=
  match cs.span (· ≠ '%') with
  | (host, []) => some host
  | (host, _ :: scope) =>
    if scope.isEmpty ∨ ¬ scope.all Char.isDigit then none
    else
      let n := scope.foldl (fun n c => 10 * n + (c.toNat - '0'.toNat)) 0
      if n < 2 ^ 32 then some host else none

/-- Reads a bind address with its port: an IPv6 address stands in brackets. -/
def socket? (text : String) : Option (Address × Nat) := do
  let (host, port) ← lastColon? text.toList
  let port ← port? port
  match host with
  | '[' :: rest =>
    if rest.getLast? = some ']' then
      let inner ← unscoped? rest.dropLast
      let groups ← v6Groups? inner
      pure (v6 groups, port)
    else none
  | host =>
    let bytes ← v4Bytes? host
    pure (v4 bytes, port)

/-- Where the longest run of at least two zero groups starts, and its length. -/
def longestZeros (groups : List Nat) : Nat × Nat :=
  ((List.range groups.length).map fun i =>
    (i, ((groups.drop i).takeWhile (· == 0)).length)).foldl
      (fun best r => if r.2 > best.2 then r else best) (0, 1)

/-- Groups joined by colons. -/
def join (groups : List Nat) : String :=
  String.intercalate ":" (groups.map fun g => String.ofList (Nat.toDigits 16 g))

/-- The written form of an address. -/
def text : Address → String
  | v4 bytes => String.intercalate "." (bytes.map toString)
  | v6 groups =>
    if groups.take 6 = [0, 0, 0, 0, 0, 0xffff] then
      "::ffff:" ++ String.intercalate "." ((groups.drop 6).flatMap fun g =>
        [toString (g / 256), toString (g % 256)])
    else
      let (start, length) := longestZeros groups
      if length ≥ 2 then join (groups.take start) ++ "::" ++ join (groups.drop (start + length))
      else join groups

end Address

end FleetControl
