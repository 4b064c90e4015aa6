import WatchGate.Startup

/-!
# WatchGate: the program

Reads the arguments and starts the gateway. No files are read and no connections
made from here: a configuration of clusters is taken to know the names that are
chosen, and start-up ends where the cluster is first asked.
-/

open WatchGate

/-- Starts the gateway: 2 for bad arguments, 1 when it cannot be started. -/
def main (args : List String) : IO UInt32 := do
  match Options.parse args with
  | .error e =>
    IO.eprintln ("error: " ++ e.message)
    pure 2
  | .ok options =>
    let chosen : Startup.Kubeconfig := ⟨options.context.toList, options.cluster.toList⟩
    match Startup.gateway options chosen .unreachable (fun _ => none) with
    | .error e =>
      IO.eprintln ("Error: " ++ e.message)
      pure 1
    | .ok _ => pure 0
