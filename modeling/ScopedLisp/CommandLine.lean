import ScopedLisp.Comment
import ScopedLisp.Session
import ScopedLisp.Text.Backspace

/-!
# The command line

With expressions as arguments the program evaluates them as one text and ends; without, it reads
lines, lets their backspaces take effect and answers each one. `Shell.feed` is the answer to one
line, `run` the whole program as a function of its arguments and its input.

Two things here stand for what is not the program's own. Lines are read by the library rustyline:
`chomp`, `rawLines` and `typed?`, with the backspaces and the grapheme clusters that they rest on,
say what its version 14 does with an input that is not a terminal. And the stack, of which every
nested evaluation takes some, has its end in `depthLimit`.
-/

namespace ScopedLisp

/-- How deep evaluations may nest. The program sets no such limit: it nests them on its stack, and
where that overflows, at a depth that depends on the machine, it aborts and prints nothing about it.
The number stands in for that depth. -/
def depthLimit : Nat := 1000000

/-- The read-print loop between two lines: the session and the number of open comment blocks. -/
structure Shell where
  session : Session
  blocks : Nat

namespace Shell

/-- The loop before the first line. -/
def start : Shell := ⟨.start, 0⟩

/-- What is printed for the result of an evaluation. -/
def printed : Option Value → String
  | some v => v.render ++ "\n"
  | none => ""

/-- What the loop prints for a line of code. -/
def answer : Except Stop (Option Value) → String
  | .ok result => printed result
  | .error stop => "ERROR: " ++ stop.message ++ "\n"

/-- Answers one line. -/
def feed (shell : Shell) (line : String) : String × Shell :=
  match Comment.skip shell.blocks line.toList with
  | (true, blocks) => ("", { shell with blocks })
  | (false, blocks) =>
    let (result, session) := shell.session.run depthLimit line
    (answer result, ⟨session, blocks⟩)

/-- Answers lines in order. -/
def feedAll (shell : Shell) : List String → String × Shell
  | [] => ("", shell)
  | line :: rest =>
    let (first, shell) := shell.feed line
    let (others, shell) := shell.feedAll rest
    (first ++ others, shell)

end Shell

namespace CommandLine

/-- What a run of the program leaves: exit code, standard output, and the line on standard error
that tells why it failed. -/
structure Report where
  exitCode : Nat
  output : String
  failure : Option String
deriving DecidableEq, Repr

/-- Asks for a log, which is not part of the answer. -/
def isFlag (arg : String) : Bool := arg = "-v" || arg = "--verbose"

/-- The text to evaluate, if the arguments hold any besides flags. -/
def expression? (args : List String) : Option String :=
  match args.filter (!isFlag ·) with
  | [] => none
  | exprs => some (" ".intercalate exprs)

/-- Evaluates one text in a session of its own. -/
def evaluate (source : String) : Report :=
  match (Session.start.run depthLimit source).1 with
  | .ok result => ⟨0, Shell.printed result, none⟩
  | .error stop => ⟨1, "", some ("Error: " ++ Text.quoted stop.message)⟩

/-- A line without its end, a newline or a carriage return and a newline, as rustyline takes it
off. -/
def chomp (line : List Char) : List Char :=
  match line.reverse with
  | '\n' :: '\r' :: rest => rest.reverse
  | '\n' :: rest => rest.reverse
  | _ => line

/-- The lines of a text with their ends, as rustyline reads them one after the other, after the
characters `begun` (in reverse) of the first one. What stands behind the last newline is a line
unless it is empty. -/
def rawLines (begun : List Char) : List Char → List (List Char)
  | [] => if begun.isEmpty then [] else [begun.reverse]
  | c :: rest =>
    if c = '\n' then (c :: begun).reverse :: rawLines [] rest else rawLines (c :: begun) rest

/-- A line as rustyline hands it to the loop: without its end and after its backspaces. Those of
an expression among the arguments have no effect. -/
def typed? (line : List Char) : Option String :=
  (Text.applyBackspaces (chomp line)).map .ofList

/-- The lines of the input up to the first one that cannot be read, and whether there is one. -/
def lines (input : String) : List String × Bool :=
  let typed := (rawLines [] input.toList).map typed?
  ((typed.takeWhile (·.isSome)).filterMap id, typed.any (·.isNone))

/-- The exit code of a run that breaks off at a line it cannot read. -/
def brokenOff : Nat := 101

/-- The whole program: its arguments and its standard input decide what it leaves. -/
def run (args : List String) (input : String) : Report :=
  match expression? args with
  | some source => evaluate source
  | none =>
    let (typed, broken) := lines input
    ⟨if broken then brokenOff else 0, (Shell.start.feedAll typed).1, none⟩

end CommandLine

end ScopedLisp
