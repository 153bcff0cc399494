/-!
# PEM sections

Finds the sections of a PEM text. A section begins and ends at marker lines; its body is Base64
with optional padding and blanks anywhere. Sections of kinds that nobody asks for are skipped
unread. A section that another one interrupts is given up, but its body stays in front of the body
of the other one.
-/
namespace FleetControl.Pem

/-- The kinds of section that are read. -/
inductive Kind where
  | certificate
  | privateKey
  | other
  deriving DecidableEq, Repr

/-- The kind of a label; `none` for labels that are skipped. -/
def Kind.ofLabel? (label : List Char) : Option Kind :=
  let label := String.ofList label
  if label = "CERTIFICATE" then some .certificate
  else if label = "PRIVATE KEY" ∨ label = "RSA PRIVATE KEY" ∨ label = "EC PRIVATE KEY" then
    some .privateKey
  else if label = "X509 CRL" ∨ label = "CERTIFICATE REQUEST" ∨ label = "PUBLIC KEY" ∨
      label = "ECHCONFIG" then
    some .other
  else none

/-- What is wrong with a text. -/
inductive Problem where
  | unterminated
  | illegalStart
  | badBase64
  deriving DecidableEq, Repr

/-- Splits behind every line feed and every carriage return. -/
def lines (current : List Char) : List Char → List (List Char)
  | [] => if current.isEmpty then [] else [current.reverse]
  | c :: rest =>
    if c = '\n' ∨ c = '\r' then (c :: current).reverse :: lines [] rest
    else lines (c :: current) rest

/-- The end of a line from its last dashes on; blanks may stand between them and behind them. -/
def trailer (line : List Char) : List Char :=
  (line.reverse.takeWhile fun c => c = '-' ∨ c = ' ' ∨ c = '\r' ∨ c = '\n').reverse.dropWhile
    (· ≠ '-')

/-- The label of a line that begins a section: what stands before its five last dashes. -/
def label? (line : List Char) : Option (List Char) :=
  let last := trailer line
  if last.countP (· = '-') = 5 then some ((line.take (line.length - last.length)).drop 11)
  else none

/-- A symbol of Base64. -/
def isSymbol (c : Char) : Bool := c.isAlphanum || c = '+' || c = '/'

/-- A character that a body may hold anywhere: space, tab, or an end of line or page. -/
def isBlank (c : Char) : Bool := c = ' ' || (9 ≤ c.toNat && c.toNat ≤ 13)

/-- Whether a body is Base64, padded or not. -/
def isBase64 (body : List Char) : Bool :=
  let body := body.filter fun c => ¬ isBlank c
  let symbols := body.takeWhile isSymbol
  let padding := body.dropWhile isSymbol
  padding.all (· == '=') && padding.length ≤ 2 && symbols.length % 4 ≠ 1 &&
    (padding.isEmpty || (symbols.length + padding.length) % 4 = 0)

/-- Whether a section of a kind stands before the first problem. Reading ends at that section, or
at the end of the text where nothing is wanted. `label` belongs to the section that has begun, and
`body` holds the lines kept so far, last line first. -/
def scan (wanted : Option Kind) (label : Option (List Char)) (body : List (List Char)) :
    List (List Char) → Except Problem Bool
  | [] => if label.isSome then .error .unterminated else .ok false
  | line :: rest =>
    if "-----BEGIN ".toList.isPrefixOf line then
      match label? line with
      | none => .error .illegalStart
      | some label => scan wanted (some label) body rest
    else
      match label with
      | none => scan wanted none body rest
      | some label =>
        if ("-----END ".toList ++ label ++ "-----".toList).isPrefixOf line then
          match Kind.ofLabel? label with
          | none => scan wanted none [] rest
          | some kind =>
            if isBase64 body.reverse.flatten then
              if wanted = some kind then .ok true else scan wanted none [] rest
            else .error .badBase64
        else scan wanted (some label) (line :: body) rest

/-- Reads a whole text. -/
def check (text : String) : Except Problem Unit :=
  (scan none none [] (lines [] text.toList)).map fun _ => ()

/-- Reads a text up to its first section of a kind; says whether there is one. -/
def has (kind : Kind) (text : String) : Except Problem Bool :=
  scan (some kind) none [] (lines [] text.toList)

end FleetControl.Pem
