import RouterAgent.CommandLine

/-!
The program.

It takes a picture of the files that matter, carries the command line out on it, and writes what was
printed and noted. Commands of the host are not run, so they count as missing, and the table of
clients is printed once.
-/

namespace RouterAgent.Main

open RouterAgent

/-- The paths that the agent may look at for a command line. -/
def paths (args : List String) : List String :=
  let markers := Detection.checks.filterMap fun
    | (.file path, _) | (.dir path, _) | (.content path _, _) => some path
    | (.kernel _ _, _) => none
  let leases := Platform.all.flatMap fun p => p.watched.map (·.path)
  let config := match CommandLine.parse args with
    | .ok (.watch config _) => [config]
    | _ => []
  markers ++ leases ++ config

/-- Takes a path into the picture of the host. Sizes are not asked for, since nothing changes. -/
def look (h : Host) (path : String) : IO Host := do
  try
    let data ← IO.FS.readBinFile path
    return h.write path (.bytes data.toList)
  catch
    | .permissionDenied .. => return h.write path (.locked 0)
    | .inappropriateType .. => return h.makeDir path
    | _ => return h

end RouterAgent.Main

open RouterAgent in
def main (args : List String) : IO UInt32 := do
  let host ← (Main.paths args).foldlM Main.look .empty
  let (result, world) :=
    (World.start host).runCommandLine Platform.Registry.initial args [[]]
      [.signal CommandLine.terminate]
  for note in world.log do
    IO.eprintln s!"{note.level.name} {note.writer.name}: {note.text}"
  IO.print world.printed
  match result with
  | .ok code => return code.toUInt32
  | .error fault =>
    IO.eprintln s!"{fault.label}: {fault.message}"
    return 1
