import ScopedLisp.CommandLine

/-!
# The program

Arguments in, lines in and text out. What is printed is decided by `ScopedLisp.CommandLine`.
-/

open ScopedLisp

/-- Answers line after line until the input ends or a line cannot be read. -/
partial def readPrint (input output : IO.FS.Stream) (shell : Shell) : IO UInt32 := do
  let line ← input.getLine
  if line.isEmpty then
    return 0
  match CommandLine.typed? line.toList with
  | none => return CommandLine.brokenOff.toUInt32
  | some typed =>
    let (text, shell) := shell.feed typed
    output.putStr text
    output.flush
    readPrint input output shell

def main (args : List String) : IO UInt32 := do
  match CommandLine.expression? args with
  | some source =>
    let report := CommandLine.evaluate source
    (← IO.getStdout).putStr report.output
    if let some line := report.failure then
      IO.eprintln line
    return report.exitCode.toUInt32
  | none =>
    readPrint (← IO.getStdin) (← IO.getStdout) .start
