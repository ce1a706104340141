/-
The generator as a command: an encoded request on standard input, the encoded response on standard output.

A request that cannot be read is reported on standard error, with exit code 1 and no output.
-/
import ErlangRecords.Endpoint

namespace ErlangRecords

/-- all bytes up to the end of a stream -/
partial def readAll (input : IO.FS.Stream) (soFar : ByteArray) : IO ByteArray := do
  let chunk ← input.read 65536
  if chunk.isEmpty then return soFar else readAll input (soFar ++ chunk)

end ErlangRecords

def main : IO UInt32 := do
  let input ← ErlangRecords.readAll (← IO.getStdin) ByteArray.empty
  match ErlangRecords.answer input.data.toList with
  | .ok response =>
    let output ← IO.getStdout
    output.write ⟨response.toArray⟩
    output.flush
    return 0
  | .error e =>
    IO.eprintln ("Error: " ++ e.message)
    return 1
