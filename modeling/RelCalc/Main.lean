/-
  `Main`: the program.

  The arguments and a snapshot of the files they name go into one call of the
  command line; what the call leaves behind goes out to the terminal and to the
  disk.  Nothing is decided here.
-/
import RelCalc.CommandLine.Call

set_option autoImplicit false

namespace RelCalc

open CommandLine

/-- The disk as far as the input file is concerned. -/
def inputSnapshot (disk : Disk) (path : String) : IO Disk := do
  try
    let content ← IO.FS.readFile path
    return disk.withFile path content
  catch error =>
    match error with
    | .inappropriateType .. => return disk.withFolder path
    | _ => return disk

/-- The disk as far as the options are concerned. -/
def snapshot (arguments : List String) : IO Disk := do
  match parseArguments arguments with
  | .run options =>
      let room : Disk :=
        match options.output with
        | some (.path name) => Disk.withWay ⟨[], []⟩ name
        | _ => ⟨[], []⟩
      match options.input with
      | .path name => inputSnapshot room name
      | .dropped => return room
  | _ => return ⟨[], []⟩

/-- Milliseconds as seconds with three decimals. -/
def secondsText (milliseconds : Nat) : String :=
  let fraction := toString (milliseconds % 1000)
  toString (milliseconds / 1000) ++ "." ++ "".pushn '0' (3 - fraction.length) ++ fraction

/-- The status of an ending. -/
def statusOf : Exit → UInt32
  | .normal => 0
  | .status code => code.toUInt32
  | .fault _ => 1

/-- The help text. -/
def usage : String :=
  "usage: relcalc -i INPUT_FILE [-o OUTPUT_FILE] [-d]\n"

/-- One call: take the snapshot, run, write, report. -/
def runCall (arguments : List String) : IO UInt32 := do
  let disk ← snapshot arguments
  let started ← IO.monoMsNow
  let outcome := call arguments disk
  IO.print outcome.printed
  for file in outcome.disk.changes disk do
    IO.FS.writeFile file.1 file.2
  let finished ← IO.monoMsNow
  for event in outcome.events do
    IO.eprintln (event.record (secondsText (finished - started)))
  match outcome.ending with
  | .status 0 => IO.print usage
  | .status 2 => IO.eprint usage
  | .fault fault => IO.eprintln fault.message
  | _ => pure ()
  return statusOf outcome.ending

end RelCalc

/-- Evaluate a program of sets and relations. -/
def main (arguments : List String) : IO UInt32 := RelCalc.runCall arguments
