import DnsZones.Numeral

/-!
# Durations

Spans of time, written in the largest unit that leaves a whole part.

## Main definitions

* `Duration`: A span in microseconds.
* `Duration.toText`: The span in seconds, milliseconds, microseconds, or none of
  them if it is empty.
-/

namespace DnsZones

/-- A span of time. -/
structure Duration where
  microseconds : Nat
  deriving DecidableEq, Repr, Inhabited

namespace Duration

/-- So many seconds. -/
def seconds (n : Nat) : Duration := ⟨n * 1000000⟩

/-- The digits after the point for a part of a unit that has so many subunits, without the
    zeros at the end; no point if there are none. -/
def fraction (digits part : Nat) : String :=
  let text := ((Numeral.padded digits part).toList.reverse.dropWhile (· == '0')).reverse
  if text.isEmpty then "" else "." ++ String.ofList text

/-- A span with its unit. -/
def toText (span : Duration) : String :=
  let n := span.microseconds
  if 1000000 ≤ n then Numeral.decimal (n / 1000000) ++ fraction 6 (n % 1000000) ++ "s"
  else if 1000 ≤ n then Numeral.decimal (n / 1000) ++ fraction 3 (n % 1000) ++ "ms"
  else if 1 ≤ n then Numeral.decimal n ++ "µs"
  else "0ns"

end Duration

end DnsZones
