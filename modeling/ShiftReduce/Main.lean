import ShiftReduce.CommandLine

namespace ShiftReduce.CommandLine

def failure : IO.Error → ReadFailure
  | .noFileOrDirectory .. => .missing
  | .permissionDenied .. => .forbidden
  | .inappropriateType _ code _ => if code = 21 then .directory else .notDirectory
  | .invalidArgument .. => .nameTooLong
  | e => .other (toString e)

def readSource : Source → IO (Except ReadFailure ByteArray)
  | .standardInput => do
    let stdin ← IO.getStdin
    let mut bytes := ByteArray.empty
    repeat
      let chunk ← stdin.read 65536
      if chunk.isEmpty then break
      bytes := bytes ++ chunk
    return .ok bytes
  | .file path => do
    try
      return .ok (← IO.FS.readBinFile path)
    catch e => return .error (failure e)

end ShiftReduce.CommandLine

open ShiftReduce.CommandLine

def main (args : List String) : IO UInt32 := do
  let exit ← match Command.ofArgs? args with
    | none => pure usage
    | some command => do
      let content ← match command.source? with
        | none => pure (.ok ByteArray.empty)
        | some source => readSource source
      pure (command.run content)
  IO.print exit.stdout
  IO.eprint exit.stderr
  return exit.code
