/-!
# Spans of time

Spans are milliseconds. `show` writes a span in the largest unit of which it holds at least one.
-/
namespace FleetControl.Duration

/-- Fraction digits of a remainder, without trailing zeros. -/
def fraction (n : Nat) (width : Nat) : List Char :=
  let ds := (toString n).toList
  let padded := List.replicate (width - ds.length) '0' ++ ds
  (padded.reverse.dropWhile (· == '0')).reverse

/-- A span of milliseconds as text, such as `30s`, `1.5s`, `200ms` or `0ns`. -/
def text (ms : Nat) : String :=
  if ms = 0 then "0ns"
  else if ms < 1000 then toString ms ++ "ms"
  else
    match fraction (ms % 1000) 3 with
    | [] => toString (ms / 1000) ++ "s"
    | ds => toString (ms / 1000) ++ "." ++ String.ofList ds ++ "s"

/-- Whole seconds of a span of milliseconds. -/
def seconds (ms : Nat) : Nat := ms / 1000

theorem text_fraction : text 1500 = "1.5s" := by decide +kernel

end FleetControl.Duration
