/-!
# Errors of backends
-/

namespace ProximityNet

/-- What a backend reports when it fails. -/
inductive BackendError where
  | command (command reason : String)
  | timeout (milliseconds : Nat)
  | other (text : String)
deriving DecidableEq

/-- A span of whole milliseconds: seconds with the decimals they need from one second on. -/
def durationText (milliseconds : Nat) : String :=
  if milliseconds = 0 then "0ns"
  else if milliseconds < 1000 then milliseconds.repr ++ "ms"
  else
    let rest := milliseconds % 1000
    let padded := (1000 + rest).repr.toList.drop 1
    let decimals := (padded.reverse.dropWhile (· = '0')).reverse
    let tail := if decimals.isEmpty then "" else "." ++ String.ofList decimals
    (milliseconds / 1000).repr ++ tail ++ "s"

namespace BackendError

def message : BackendError → String
  | command c reason => "command `" ++ c ++ "` failed: " ++ reason
  | timeout ms => "backend operation timed out after " ++ durationText ms
  | other text => text

end BackendError

end ProximityNet
