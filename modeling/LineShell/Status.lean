/-!
# Exit statuses

A status is an integer of any size inside the shell.  Only when a process ends is it cut down to
the eight bits that its parent can see.
-/

namespace LineShell

/-- An exit status.  Zero means success. -/
abbrev Status := Int

namespace Status

def malformedLine : Status := 2

/-- The status of a program that was found and could not be started. -/
def notStarted : Status := 126

def notFound : Status := 127

/-- The final status of a session whose search path became unusable. -/
def unusablePath : Status := 255

/-- The status of a program that a signal ended. -/
def ofSignal (signal : Nat) : Status := 128 + signal

/-- The part of a status that a process can hand to its parent: the low eight bits. -/
def exitCode (status : Status) : Nat := (status % 256).toNat

end Status

end LineShell
