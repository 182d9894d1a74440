import WarmCache.Demo

/-!
# The demonstration service on the command line

Settings come from the environment. The one argument that is understood, `INT`, makes the
service end by an interrupt instead of a request to terminate.
-/

open WarmCache

/-- The variables that the service reads. -/
def serviceVariables : List String :=
  ["CACHE_TTL_SECS", "CACHE_REFRESH_INTERVAL_SECS", "CACHE_FLUSH_INTERVAL_SECS", "CACHE_LIMIT",
    "RUST_LOG"]

/-- Runs the service and prints what it logs. -/
def main (args : List String) : IO UInt32 := do
  let values ← serviceVariables.mapM fun name => do return (name, ← IO.getEnv name)
  let env : Environment := fun name => (values.lookup name).join.map String.toUTF8
  let signal := if args.contains "INT" then Demo.Signal.interrupt else Demo.Signal.terminate
  let transcript := Demo.run Instant.plainText env signal
  for line in transcript.mainLines ++ transcript.taskLines do
    IO.println line
  for line in transcript.errorLines do
    IO.eprintln line
  return UInt32.ofNat transcript.exitCode
