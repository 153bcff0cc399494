/-!
# Lines

A text is cut at line feeds; a carriage return just before one belongs to it, and an empty last
line is no line.
-/
namespace FleetControl.Lines

/-- Drops one carriage return at the end; the argument is the line reversed. -/
def finish : List Char → String
  | '\r' :: rest => String.ofList rest.reverse
  | line => String.ofList line.reverse

/-- The lines of the rest of a text, behind the reversed beginning of the current line. -/
def splitOnto (line : List Char) (done : List String) : List Char → List String
  | [] =>
    match line with
    | [] => done.reverse
    | line => (String.ofList line.reverse :: done).reverse
  | '\n' :: rest => splitOnto [] (finish line :: done) rest
  | c :: rest => splitOnto (c :: line) done rest

/-- The lines of a text. -/
def split (text : String) : List String := splitOnto [] [] text.toList

theorem split_empty : split "" = [] := by decide +kernel

end FleetControl.Lines
