import Phrasebook.CommandLine

namespace Phrasebook.CommandLine

/-- All bytes up to the end of a stream. -/
partial def readAll (stream : IO.FS.Stream) (bytes : ByteArray) : IO ByteArray := do
  let chunk ← stream.read 65536
  if chunk.isEmpty then return bytes else readAll stream (bytes ++ chunk)

/-- The reason of a failed write, as the system words it. -/
def reasonOf (e : IO.Error) : String :=
  match e with
  | .noFileOrDirectory _ code details | .permissionDenied _ code details
  | .inappropriateType _ code details | .resourceExhausted _ code details
  | .invalidArgument _ code details =>
    details ++ " (os error " ++ Nat.repr code.toNat ++ ")"
  | .otherError code details | .resourceBusy code details | .hardwareFault code details =>
    details ++ " (os error " ++ Nat.repr code.toNat ++ ")"
  | other => toString other

def Dialogue.run : Dialogue → IO UInt32
  | .done code => return code
  | .say text next => do
    (← IO.getStdout).putStr text
    next.run
  | .complain text next => do
    (← IO.getStderr).putStr text
    next.run
  | .readInput next => do
    let bytes ← readAll (← IO.getStdin) .empty
    (next bytes).run
  | .writeFile path bytes next => do
    let outcome ← (IO.FS.writeBinFile path ⟨bytes⟩).toBaseIO
    match outcome with
    | .ok _ => (next none).run
    | .error e => (next (some (reasonOf e))).run
  | .measure first second next => do
    let started ← IO.monoNanosNow
    let session ← IO.lazyPure first
    let matched ← IO.monoNanosNow
    let pass ← IO.lazyPure fun _ => second session
    let ended ← IO.monoNanosNow
    let timing : Timing :=
      { total := Timing.inWords (ended - started)
        matching := Timing.inWords (matched - started)
        derivation := Timing.inWords (ended - matched) }
    (next pass timing).run

end Phrasebook.CommandLine

def main (arguments : List String) : IO UInt32 := do
  let terminal ← (← IO.getStdout).isTty
  (Phrasebook.CommandLine.Dialogue.ofArguments terminal arguments).run
