import Wiring.Demo

/-! The command line: `wiring [LOG_DIR]` runs the demonstration bootstrap. -/

def createDirectory (p : String) : IO (Except String Unit) := do
  try
    IO.FS.createDirAll p
    return .ok ()
  catch e =>
    return .error (toString e)

def main (args : List String) : IO UInt32 := do
  let dir := args.head?.map Wiring.Log.Directory.ofPath
  let created ← match dir with
    | some (.absolute p) => createDirectory p
    | _ => pure (.ok ())
  let r := Wiring.Demo.run dir (fun _ => created)
  IO.print r.stdout
  IO.eprint r.stderr
  return r.code.toUInt32
