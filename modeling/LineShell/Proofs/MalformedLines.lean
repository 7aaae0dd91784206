import LineShell.Proofs.Decomposition
import LineShell.Proofs.Runs
import LineShell.Text.Lines

/-!
# Malformed lines

A line is malformed if one of its redirections lacks a path, or if it has too many words beside
them.  Both are found by reading alone, before the line is recorded, before a target is opened and
before a factory is asked, so the faulty part may stand anywhere in the line: what stands before it
has no effect either.

Executing such a line writes one line to the standard error of the console.  Its wording depends on
the line only.
-/

namespace LineShell

/-- A redirection is at fault only for a path that is missing. -/
theorem Redirection.fault_of_parse {line : Text} {fault : LineFault}
    (h : parse line = .error fault) : ∃ operator, fault = .missingPath operator := by
  obtain ⟨_, o, _, -, -, -, hfault⟩ := parse_eq_error_iff.1 h
  exact ⟨o.operator, hfault⟩

namespace CommandLine

variable {line text : Text} {fault : LineFault}

/-- The significant part of the line is malformed: a redirection is at fault, or there are too many
words beside the redirections. -/
def IsMalformed (line : Text) : Prop :=
  Text.significant line ≠ [] ∧
    ((∃ fault, Redirection.parse (Text.significant line) = .error fault) ∨
      ∃ parsed, Redirection.parse (Text.significant line) = .ok parsed ∧
        maxWords < (Text.words parsed.residual).length)

/-- The malformed lines are those that are read as malformed. -/
theorem isMalformed_iff : IsMalformed line ↔ ∃ fault, read line = .malformed fault := by
  constructor
  · rintro ⟨hne, ⟨fault, hfault⟩ | ⟨parsed, hparsed, hlong⟩⟩
    · exact ⟨fault, read_eq_malformed_iff.2 ⟨hne, parse_eq_error_iff.2 (.inl hfault)⟩⟩
    · exact ⟨.tooManyWords,
        read_eq_malformed_iff.2 ⟨hne, parse_eq_error_iff.2 (.inr ⟨parsed, hparsed, hlong, rfl⟩)⟩⟩
  · rintro ⟨fault, hread⟩
    obtain ⟨hne, hparse⟩ := read_eq_malformed_iff.1 hread
    rcases parse_eq_error_iff.1 hparse with hfault | ⟨parsed, hparsed, hlong, -⟩
    · exact ⟨hne, .inl ⟨fault, hfault⟩⟩
    · exact ⟨hne, .inr ⟨parsed, hparsed, hlong⟩⟩

/-- Reading a line has two kinds of faults. -/
theorem fault_of_read (h : read line = .malformed fault) :
    fault = .tooManyWords ∨ ∃ operator, fault = .missingPath operator := by
  rcases parse_eq_error_iff.1 (read_eq_malformed_iff.1 h).2 with hfault | ⟨_, -, -, hlong⟩
  · exact .inr (Redirection.fault_of_parse hfault)
  · exact .inl hlong

end CommandLine

/-- The diagnostic of a fault, without the end of its line. -/
def LineFault.diagnostic (fault : LineFault) : Bytes :=
  Utf8.encode ("tinysh: syntax error: ".toList ++ fault.message)

theorem LineFault.report_eq (fault : LineFault) :
    ShellError.report (ShellError.malformed fault).message = fault.diagnostic ++ [Lines.lineFeed] := by
  unfold ShellError.report ShellError.message diagnostic Utf8.encode
  simp only [List.flatMap_append, List.append_assoc]
  rfl

/-- The diagnostic of a line that was read is a single line. -/
theorem CommandLine.lineFeed_not_mem_diagnostic {line : Text} {fault : LineFault}
    (h : read line = .malformed fault) : Lines.lineFeed ∉ fault.diagnostic := by
  rcases fault_of_read h with rfl | ⟨operator, rfl⟩
  · decide +kernel
  · rcases operator with _ | (_ | _) | _ | (_ | _) <;> decide +kernel

namespace Shell

/-- The state after a line was written to the standard error of the console. -/
def diagnosed (diagnostic : Bytes) (state : State) : State :=
  { state with
    world := { state.world with
      console := { state.world.console with
        diagnostics := state.world.console.diagnostics.append (diagnostic ++ [Lines.lineFeed]) } } }

theorem runLine_eq_diagnosed {factories : List Factory} {state : State} {line : Text}
    {fault : LineFault} {record : Bool} (h : CommandLine.read line = .malformed fault) :
    runLine factories state line record =
      { status := 2
        state := diagnosed fault.diagnostic state
        ran := [Text.significant line] } := by
  rw [runLine_of_malformed h]
  unfold report diagnosed
  rw [fault.report_eq]
  rfl

/-- A malformed line changes nothing but the standard error of the console, which gets one line
more.  The status is 2 and is not kept.  This holds for any factories, since none is asked. -/
theorem executeLine_of_malformed {line : Text} (h : CommandLine.IsMalformed line) :
    ∃ fault, CommandLine.read line = .malformed fault ∧ Lines.lineFeed ∉ fault.diagnostic ∧
      ∀ (shell : Shell) (record : Bool),
        shell.executeLine line record =
          { status := 2
            shell := { shell with state := diagnosed fault.diagnostic shell.state }
            ran := [Text.significant line] } := by
  obtain ⟨fault, hread⟩ := CommandLine.isMalformed_iff.1 h
  refine ⟨fault, hread, CommandLine.lineFeed_not_mem_diagnostic hread, ?_⟩
  intro shell record
  have hnone : (runLine shell.factories shell.state line record).replay = none := by
    rw [runLine_eq_diagnosed hread]
  rw [executeLine_of_replay_eq_none hnone, runLine_eq_diagnosed hread]
  rfl

/-- The path of the second redirection is missing, so the file of the first one is not created. -/
theorem executeLine_of_malformed_second_path :
    let line : Text := "cat notes > out < # late".toList
    CommandLine.IsMalformed line ∧
      bare.executeLine line true =
        { status := 2
          shell := { bare with
            state := diagnosed (LineFault.missingPath .input).diagnostic bare.state }
          ran := ["cat notes > out <".toList] } := by
  intro line
  have hsignificant : Text.significant line = "cat notes > out <".toList := by decide +kernel
  have hfault : Redirection.parse (Text.significant line) = .error (.missingPath .input) := by
    decide +kernel
  have hmalformed : CommandLine.IsMalformed line := ⟨by decide +kernel, .inl ⟨_, hfault⟩⟩
  obtain ⟨fault, hread, -, hexecute⟩ := executeLine_of_malformed hmalformed
  have hinput : CommandLine.read line = .malformed (.missingPath .input) := by decide +kernel
  rw [hinput] at hread
  cases hread
  have hbare := hexecute bare true
  rw [hsignificant] at hbare
  exact ⟨hmalformed, hbare⟩

end Shell
end LineShell
