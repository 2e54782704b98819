import HostLisp.Command

/-!
# The program

Reads the source that the arguments name, and prints the response.
-/

namespace HostLisp.Program

/-- Reads a stream to its end. -/
partial def readAll (stream : IO.FS.Stream) (read : ByteArray) : IO ByteArray := do
  let bytes ← stream.read 65536
  if bytes.isEmpty then return read else readAll stream (read ++ bytes)

/-- What went wrong, in the command's terms. -/
def readError : IO.Error → Command.ReadError
  | .noFileOrDirectory .. => .missing
  | .inappropriateType .. => .directory
  | e => .system (toString e)

/-- Reads the source that a request needs. -/
def readSource : Command.Request → IO (Except Command.ReadError String)
  | .process options =>
    match options.origin with
    | .argument source => return .ok source
    | .file path =>
      try
        return Command.decode (← IO.FS.readBinFile path)
      catch e => return .error (readError e)
    | .standardInput => return Command.decode (← readAll (← IO.getStdin) .empty)
  | _ => return .ok ""

end HostLisp.Program

def main (args : List String) : IO UInt32 := do
  let request := HostLisp.Command.request args
  let response := HostLisp.Command.respond request (← HostLisp.Program.readSource request)
  IO.print response.output
  (← IO.getStdout).flush
  IO.eprint response.errors
  return UInt32.ofNat response.status
