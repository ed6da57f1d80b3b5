import ActionSyntax.CommandLine

/-!
The command at a terminal. Files are read when the check asks for them.
-/

namespace ActionSyntax.Terminal

open CommandLine

set_option autoImplicit false

def usage : String :=
  "usage: actionsyntax [--mode program|statement|expression|type] " ++
    "[--format plain|fancy|json] [--dump-ast] [-v]... FILE..."

/-- The text of a file, if it can be read and holds text. -/
def readText (path : String) : IO (Option String) := do
  try return String.fromUTF8? (← IO.FS.readBinFile path)
  catch _ => return none

/-- The files read so far, nothing for those that cannot be read. -/
def hostOfTexts (texts : List (String × Option String)) : Host where
  readFile path := (texts.lookup path).join
  includeDepth := texts.length + 1

/-- Reads files until the check asks for no other. -/
partial def gather (options : Options) (texts : List (String × Option String)) : IO Host := do
  let host := hostOfTexts texts
  let asked := (options.missing host).filter fun path => (texts.lookup path).isNone
  if asked.isEmpty then return host
  let read ← asked.eraseDups.mapM fun path => do return (path, ← readText path)
  gather options (texts ++ read)

/-- A report as lines of text. -/
def drawReport (r : Report) : String :=
  r.severity.title ++ ": " ++ r.message ++ "\n  in " ++ r.source ++ " at " ++ toString r.offset ++
    ", " ++ toString r.length ++ " bytes: " ++ r.label ++ "\n  help: " ++ r.help

end ActionSyntax.Terminal

open ActionSyntax ActionSyntax.CommandLine ActionSyntax.Terminal in
def main (args : List String) : IO UInt32 := do
  let errors ← IO.getStderr
  match Options.ofArguments? args with
  | none =>
    errors.putStrLn usage
    return UInt32.ofNat usageStatus
  | some options =>
    let host ← gather options []
    let outcome := options.run host
    IO.print outcome.output
    for path in options.files do
      if (host.readFile path).isNone then errors.putStrLn ("failed to read " ++ path)
    for line in outcome.problemLines do errors.putStrLn line
    for report in outcome.reports do errors.putStrLn (drawReport report)
    return UInt32.ofNat outcome.status
