/-!
# Shell words

Quoting of a text so that a POSIX shell reads it as one word with exactly its characters.
-/
namespace FleetControl.Shell

/-- A character that needs no quoting. -/
def isPlain (c : Char) : Bool := c.isAlphanum || "-_=/,.+".toList.contains c

/-- How a character is written inside single quotes: a quote and an exclamation mark step outside
of them. -/
def escape (c : Char) : List Char :=
  if c = '\'' ∨ c = '!' then ['\'', '\\', c, '\''] else [c]

/-- A text as one shell word. -/
def quote (text : String) : String :=
  let cs := text.toList
  if ¬ cs.isEmpty ∧ cs.all isPlain then text
  else String.ofList ('\'' :: cs.flatMap escape ++ ['\''])

theorem quote_empty : quote "" = "''" := by decide +kernel

end FleetControl.Shell
