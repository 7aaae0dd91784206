import LineShell.Text.Blank

/-!
# Streams

Streams are values.  A `Sink` or `Source` says where output goes and where input comes from; a
copy of it is a second handle on the same place.

A console is of one of two kinds.  A captured one collects what the shell itself writes and is
invisible to programs, which get the null device in its place.  The console of a process is its
own streams, which programs share.
-/

namespace LineShell

/-- Who sees a console. -/
inductive ConsoleKind where
  /-- Only the shell: programs get the null device. -/
  | captured
  /-- The shell and the programs that it starts. -/
  | inherited
  deriving DecidableEq, Repr

inductive Source where
  | console
  | nothing
  | file (number : Nat)
  deriving DecidableEq, Repr

inductive Sink where
  | output
  | diagnostics
  | nothing
  | file (number : Nat)
  deriving DecidableEq, Repr

/-- The three standard streams of a command. -/
structure Streams where
  stdin : Source
  stdout : Sink
  stderr : Sink
  deriving DecidableEq, Repr

namespace Streams

def ofConsole : Streams := ⟨.console, .output, .diagnostics⟩

/-- The streams that a program gets in place of those of the shell. -/
def forProgram (kind : ConsoleKind) (streams : Streams) : Streams :=
  match kind with
  | .inherited => streams
  | .captured =>
    { stdin := match streams.stdin with
        | .console => .nothing
        | source => source
      stdout := hide streams.stdout
      stderr := hide streams.stderr }
where
  /-- The console is no place that a program can write to. -/
  hide : Sink → Sink
    | .output | .diagnostics => .nothing
    | sink => sink

end Streams

end LineShell
