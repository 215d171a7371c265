import SegmentClient.Probe.Run

namespace SegmentClient.Probe

partial def readToEnd (stream : IO.FS.Stream) (got : ByteArray) : IO ByteArray := do
  let chunk ← stream.read 65536
  if chunk.isEmpty then return got else readToEnd stream (got ++ chunk)

def readStore (arguments : List String) : IO Files := do
  match Arguments.parse arguments with
  | .ok { trustStore := some path, .. } =>
    let contents? ←
      try some <$> IO.FS.readBinFile path.text
      catch _ => pure none
    return fun _ => contents?.map (·.data.toList)
  | _ => return fun _ => none

end SegmentClient.Probe

open SegmentClient.Probe in
/-- The node is at the other end of the standard streams; logs and complaints go to the standard
error. -/
def main (arguments : List String) : IO UInt32 := do
  let output ← IO.getStdout
  let error ← IO.getStderr
  let files ← readStore arguments
  let first := run .answering files ⟨0, [], false⟩ arguments
  output.write ⟨first.sent.toArray⟩
  output.flush
  let replies ←
    if first.sent.isEmpty then pure ByteArray.empty
    else readToEnd (← IO.getStdin) ByteArray.empty
  let report := run .answering files ⟨0, replies.data.toList, true⟩ arguments
  report.output.forM output.putStrLn
  report.errors.forM error.putStrLn
  return report.exitCode
