import FleetControl.Text.Hex
import FleetControl.Toml.Value

/-!
# TOML scalars

Strings, numbers, truth values, dates and times. A reader takes characters off the front and
returns what is left.
-/
namespace FleetControl.Toml

/-- The characters that are not read yet. -/
abbrev Rest := List Char

/-- Skips blanks within a line. -/
def skipBlanks : List Char → Rest
  | [] => []
  | c :: cs => if c = ' ' ∨ c = '\t' then skipBlanks cs else c :: cs

/-- Takes a line end off the front. -/
def lineEnd? : List Char → Option Rest
  | '\n' :: rest => some rest
  | '\r' :: '\n' :: rest => some rest
  | _ => none

/-- A character that may stand in comments and quoted text. -/
def isText (c : Char) : Bool := c = '\t' || (c.toNat ≥ 0x20 && c.toNat ≠ 0x7f)

/-- Skips a comment up to its line end. -/
def skipComment : List Char → Rest
  | [] => []
  | c :: cs => if isText c then skipComment cs else c :: cs

/-- Skips blanks and a comment, and then wants a line end or the end of the document. -/
def lineRest? (cs : List Char) : Option Rest :=
  let rest := match skipBlanks cs with
    | '#' :: r => skipComment r
    | r => r
  match rest with
  | [] => some []
  | r => lineEnd? r

/-- The character of a hexadecimal code, unless it is a surrogate or out of range. -/
def scalar? (digits : List Char) : Option Char :=
  match digits.mapM Hex.value? with
  | none => none
  | some vs =>
    let n := vs.foldl (fun n v => 16 * n + v) 0
    if n < 0xd800 ∨ (0xe000 ≤ n ∧ n < 0x110000) then some (Char.ofNat n) else none

/-- What a simple escape stands for. -/
def escaped? (c : Char) : Option Char :=
  if c = 'b' then some '\x08'
  else if c = 't' then some '\t'
  else if c = 'n' then some '\n'
  else if c = 'f' then some '\x0c'
  else if c = 'r' then some '\r'
  else if c = '"' then some '"'
  else if c = '\\' then some '\\'
  else none

/-- Reads an escape behind its backslash. -/
def escape? : List Char → Option (Char × Rest)
  | 'u' :: a :: b :: c :: d :: rest => (scalar? [a, b, c, d]).map (·, rest)
  | 'U' :: a :: b :: c :: d :: e :: f :: g :: h :: rest =>
    (scalar? [a, b, c, d, e, f, g, h]).map (·, rest)
  | c :: rest => (escaped? c).map (·, rest)
  | [] => none

/-- Reads the rest of a one-line basic string. -/
def basic (text : String) : Nat → List Char → Option (String × Rest)
  | 0, _ => none
  | _ + 1, [] => none
  | _ + 1, '"' :: rest => some (text, rest)
  | fuel + 1, '\\' :: rest =>
    match escape? rest with
    | none => none
    | some (c, rest) => basic (text.push c) fuel rest
  | fuel + 1, c :: rest => if isText c then basic (text.push c) fuel rest else none

/-- Reads the rest of a one-line literal string. -/
def literal (text : String) : List Char → Option (String × Rest)
  | [] => none
  | '\'' :: rest => some (text, rest)
  | c :: rest => if isText c then literal (text.push c) rest else none

/-- Skips blanks and line ends. -/
def skipLines : Nat → List Char → Rest
  | 0, cs => cs
  | fuel + 1, cs =>
    match skipBlanks cs with
    | '\n' :: rest => skipLines fuel rest
    | '\r' :: '\n' :: rest => skipLines fuel rest
    | rest => rest

/-- Quotes at the end of a long string: up to two belong to its text. -/
def closing? (q : Char) : List Char → Option (Nat × Rest)
  | a :: b :: c :: d :: e :: rest =>
    if a = q ∧ b = q ∧ c = q then
      if d = q then if e = q then some (2, rest) else some (1, e :: rest)
      else some (0, d :: e :: rest)
    else none
  | [a, b, c, d] =>
    if a = q ∧ b = q ∧ c = q then if d = q then some (1, []) else some (0, [d]) else none
  | [a, b, c] => if a = q ∧ b = q ∧ c = q then some (0, []) else none
  | _ => none

/-- A text with `n` more quotes. -/
def quotes (text : String) (q : Char) : Nat → String
  | 0 => text
  | n + 1 => quotes (text.push q) q n

/-- Reads the rest of a long basic string. A backslash at a line end skips to the next text. -/
def longBasic (text : String) : Nat → List Char → Option (String × Rest)
  | 0, _ => none
  | fuel + 1, cs =>
    match closing? '"' cs with
    | some (n, rest) => some (quotes text '"' n, rest)
    | none =>
      match cs with
      | [] => none
      | '\n' :: rest => longBasic (text.push '\n') fuel rest
      | '\r' :: '\n' :: rest => longBasic (text.push '\n') fuel rest
      | '\\' :: rest =>
        match lineEnd? (skipBlanks rest) with
        | some r => longBasic text fuel (skipLines r.length r)
        | none =>
          match escape? rest with
          | none => none
          | some (c, r) => longBasic (text.push c) fuel r
      | c :: rest => if isText c then longBasic (text.push c) fuel rest else none

/-- Reads the rest of a long literal string. -/
def longLiteral (text : String) : Nat → List Char → Option (String × Rest)
  | 0, _ => none
  | fuel + 1, cs =>
    match closing? '\'' cs with
    | some (n, rest) => some (quotes text '\'' n, rest)
    | none =>
      match cs with
      | [] => none
      | '\n' :: rest => longLiteral (text.push '\n') fuel rest
      | '\r' :: '\n' :: rest => longLiteral (text.push '\n') fuel rest
      | c :: rest => if isText c then longLiteral (text.push c) fuel rest else none

/-- A line end directly behind the opening quotes is not text. -/
def dropFirstLineEnd (cs : List Char) : Rest := (lineEnd? cs).getD cs

/-- Reads a string of any of the four kinds. -/
def string? : List Char → Option (String × Rest)
  | '"' :: '"' :: '"' :: rest => longBasic "" (rest.length + 1) (dropFirstLineEnd rest)
  | '\'' :: '\'' :: '\'' :: rest => longLiteral "" (rest.length + 1) (dropFirstLineEnd rest)
  | '"' :: rest => basic "" (rest.length + 1) rest
  | '\'' :: rest => literal "" rest
  | _ => none

/-- Digits that single underscores may separate; `inRange` says which digits there are. -/
def digits (inRange : Char → Bool) (done : List Char) : List Char → List Char × Rest
  | '_' :: c :: rest =>
    if inRange c && !done.isEmpty then digits inRange (c :: done) rest
    else (done.reverse, '_' :: c :: rest)
  | c :: rest =>
    if inRange c then digits inRange (c :: done) rest else (done.reverse, c :: rest)
  | [] => (done.reverse, [])

/-- The value of digits in a base. -/
def valueOf (base : Nat) (ds : List Char) : Nat :=
  ds.foldl (fun n c => base * n + (Hex.value? c).getD 0) 0

/-- Takes a sign off the front; true for a minus. -/
def sign : List Char → Option Bool × Rest
  | '+' :: rest => (some false, rest)
  | '-' :: rest => (some true, rest)
  | rest => (none, rest)

/-- Reads a decimal integer part: no leading zero. -/
def whole? (cs : List Char) : Option (List Char × Rest) :=
  match cs with
  | '0' :: '_' :: _ => none
  | '0' :: c :: rest => if c.isDigit then none else some (['0'], c :: rest)
  | _ =>
    match digits Char.isDigit [] cs with
    | ([], _) => none
    | r => some r

/-- An integer that fits 64 bits. -/
def bounded? (i : Int) : Option Toml :=
  if -(2 ^ 63) ≤ i ∧ i < 2 ^ 63 then some (.integer i) else none

/-- Reads an integer of a base behind its mark. -/
def based? (base : Nat) (inRange : Char → Bool) (cs : List Char) : Option (Toml × Rest) :=
  match digits inRange [] cs with
  | ([], _) => none
  | (ds, rest) => (bounded? (valueOf base ds)).map (·, rest)

/-- Reads an integer. -/
def integer? (cs : List Char) : Option (Toml × Rest) :=
  match cs with
  | '0' :: 'x' :: rest => based? 16 (fun c => (Hex.value? c).isSome) rest
  | '0' :: 'o' :: rest => based? 8 (fun c => '0' ≤ c && c ≤ '7') rest
  | '0' :: 'b' :: rest => based? 2 (fun c => c = '0' || c = '1') rest
  | _ =>
    let (minus, rest) := sign cs
    match whole? rest with
    | none => none
    | some (ds, rest) =>
      let n : Int := valueOf 10 ds
      (bounded? (if minus = some true then -n else n)).map (·, rest)

/-- Takes an expected word off the front. -/
def word? : List Char → List Char → Option Rest
  | [], cs => some cs
  | w :: ws, c :: cs => if w = c then word? ws cs else none
  | _ :: _, [] => none

/-- Reads the exponent of a float behind its mark. -/
def exponent? (cs : List Char) : Option (Int × Rest) :=
  let (minus, rest) := sign cs
  match digits Char.isDigit [] rest with
  | ([], _) => none
  | (ds, rest) =>
    let n : Int := min (valueOf 10 ds) 100000
    some (if minus = some true then -n else n, rest)

/-- The float of a significand and a decimal exponent. Too large a one is refused; too small a
negative one becomes the negative infinity. -/
def float? (minus : Bool) (ds : List Char) (e : Int) : Option Toml :=
  let n := valueOf 10 ds
  let d := if n = 0 ∨ (ds.length : Int) + e < -400 then Double.zero
    else if e ≥ 0 then Double.ofRatio (n * 10 ^ (min e 400).toNat) 1
    else Double.ofRatio n (10 ^ (-e).toNat)
  if minus then some (.float d.negate) else if d.isFinite then some (.float d) else none

/-- Reads a float: an integer part with a fraction, an exponent, or both. -/
def decimalFloat? (cs : List Char) : Option (Toml × Rest) := do
  let (minus, rest) := sign cs
  let minus := minus = some true
  let (ds, rest) ← whole? rest
  match rest with
  | '.' :: rest =>
    match digits Char.isDigit [] rest with
    | ([], _) => none
    | (fs, rest) =>
      let shift : Int := -(fs.length : Int)
      match rest with
      | c :: r =>
        if c = 'e' ∨ c = 'E' then
          let (e, rest) ← exponent? r
          (float? minus (ds ++ fs) (shift + e)).map (·, rest)
        else (float? minus (ds ++ fs) shift).map (·, c :: r)
      | [] => (float? minus (ds ++ fs) shift).map (·, [])
  | c :: r =>
    if c = 'e' ∨ c = 'E' then
      let (e, rest) ← exponent? r
      (float? minus ds e).map (·, rest)
    else none
  | [] => none

/-- Reads an infinity or a NaN. -/
def specialFloat? (cs : List Char) : Option (Toml × Rest) :=
  let (minus, rest) := sign cs
  let make (bits : UInt64) : Toml :=
    .float (if minus = some true then (Double.mk bits).negate else ⟨bits⟩)
  match word? "inf".toList rest with
  | some r => some (make 0x7ff0000000000000, r)
  | none => (word? "nan".toList rest).map (make 0x7ff8000000000000, ·)

/-- Exactly `n` digits as a number. -/
def fixed? (n : Nat) (cs : List Char) : Option (Nat × Rest) :=
  let ds := cs.take n
  if ds.length = n ∧ ds.all Char.isDigit then some (valueOf 10 ds, cs.drop n) else none

/-- How many days a month has. -/
def daysIn (year month : Nat) : Nat :=
  if month = 2 then
    if year % 4 = 0 ∧ (year % 100 ≠ 0 ∨ year % 400 = 0) then 29 else 28
  else if month = 4 ∨ month = 6 ∨ month = 9 ∨ month = 11 then 30
  else 31

/-- Reads a date. -/
def date? (cs : List Char) : Option Rest := do
  let (year, rest) ← fixed? 4 cs
  let rest ← word? ['-'] rest
  let (month, rest) ← fixed? 2 rest
  let rest ← word? ['-'] rest
  let (day, rest) ← fixed? 2 rest
  if 1 ≤ month ∧ month ≤ 12 ∧ 1 ≤ day ∧ day ≤ daysIn year month then some rest else none

/-- Reads a time of day; a minute may have a leap second. -/
def time? (cs : List Char) : Option Rest := do
  let (hour, rest) ← fixed? 2 cs
  let rest ← word? [':'] rest
  let (minute, rest) ← fixed? 2 rest
  let rest ← word? [':'] rest
  let (second, rest) ← fixed? 2 rest
  if hour ≤ 23 ∧ minute ≤ 59 ∧ second ≤ 60 then
    match rest with
    | '.' :: c :: r =>
      if c.isDigit then some (r.dropWhile Char.isDigit) else none
    | r => some r
  else none

/-- Skips a time offset if one follows. -/
def offset? (cs : List Char) : Option Rest :=
  match cs with
  | 'Z' :: rest => some rest
  | 'z' :: rest => some rest
  | c :: rest =>
    if c = '+' ∨ c = '-' then do
      let (hour, rest) ← fixed? 2 rest
      let rest ← word? [':'] rest
      let (minute, rest) ← fixed? 2 rest
      if hour ≤ 23 ∧ minute ≤ 59 then some rest else none
    else some (c :: rest)
  | [] => some []

/-- Reads what may follow a date: a time with an optional offset. -/
def afterDate? (cs : List Char) : Option Rest :=
  match cs with
  | c :: rest =>
    if c = 'T' ∨ c = 't' then (time? rest).bind offset?
    else if c = ' ' then
      match fixed? 2 rest with
      | some (_, ':' :: _) => (time? rest).bind offset?
      | _ => some (c :: rest)
    else some (c :: rest)
  | [] => some []

/-- What the front of a text could be: a date, a time, or neither. -/
def datetime? (cs : List Char) : Option (Option (Toml × Rest)) :=
  let done (rest : Rest) : Toml × Rest :=
    (.datetime (String.ofList (cs.take (cs.length - rest.length))), rest)
  match fixed? 4 cs with
  | some (_, '-' :: _) => some (((date? cs).bind afterDate?).map done)
  | _ =>
    match fixed? 2 cs with
    | some (_, ':' :: _) => some ((time? cs).map done)
    | _ => none

/-- Reads a number, a date or a time. -/
def numeric? (cs : List Char) : Option (Toml × Rest) :=
  match datetime? cs with
  | some result => result
  | none =>
    match decimalFloat? cs with
    | some r => some r
    | none =>
      match specialFloat? cs with
      | some r => some r
      | none => integer? cs

end FleetControl.Toml
