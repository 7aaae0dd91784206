import LineShell.Proofs.LineEffects
import LineShell.Proofs.References

/-!
# What values cannot change

A line is read before any variable is looked up, so what a line is made of is the same in every
session: whether it is blank or malformed, its words, which streams it redirects and how their files
are opened.  Values come in word by word and path by path.  `Scope.Expands` says what they can do to
the words: each one becomes its value, in order, and it is missing only if it refers to a name and
its value is empty.  Values are not looked at again, so blanks, angle brackets, comment signs and
references in them are characters of an argument like any other.
-/

namespace LineShell

/-! ## Arguments -/

namespace Scope

variable {scope : Scope} {words arguments : List Text}

/-- The arguments are the values of the words, in order, without those of the words that refer to a
name and come out empty. -/
inductive Expands (scope : Scope) : List Text → List Text → Prop
  | nil : Expands scope [] []
  | kept {word : Text} {words arguments : List Text}
      (kept : ¬ ((∃ name, word.Refers name) ∧ scope.substitute word = []))
      (rest : Expands scope words arguments) :
      Expands scope (word :: words) (scope.substitute word :: arguments)
  | dropped {word : Text} {words arguments : List Text} (refers : ∃ name, word.Refers name)
      (empty : scope.substitute word = []) (rest : Expands scope words arguments) :
      Expands scope (word :: words) arguments

theorem expands_arguments (scope : Scope) (words : List Text) :
    scope.Expands words (scope.arguments words) := by
  unfold arguments
  induction words with
  | nil => exact .nil
  | cons word words ih =>
    cases hargument : scope.argument? word with
    | none =>
      obtain ⟨hrefers, hempty⟩ := argument?_eq_none_iff.1 hargument
      rw [List.filterMap_cons_none hargument]
      exact .dropped hrefers hempty ih
    | some argument =>
      obtain ⟨hkept, rfl⟩ := argument?_eq_some_iff.1 hargument
      rw [List.filterMap_cons_some hargument]
      exact .kept hkept ih

/-- A value full of special characters is one argument, and a reference in it is not looked at. -/
example :
    Scope.arguments ⟨OrderedMap.set {} "A".toList "x > y # $B".toList, {}⟩
      ["echo".toList, "$A".toList, "$B$C".toList, "$".toList] =
      ["echo".toList, "x > y # $B".toList, "$".toList] := by
  decide +kernel

namespace Expands

theorem length_le (h : scope.Expands words arguments) : arguments.length ≤ words.length := by
  induction h with
  | nil => exact Nat.le_refl 0
  | kept _ _ ih => exact Nat.succ_le_succ ih
  | dropped _ _ _ ih => exact Nat.le_succ_of_le ih

/-- An argument is empty only if its word was. -/
theorem ne_nil (h : scope.Expands words arguments) (hwords : ∀ word ∈ words, word ≠ []) :
    ∀ argument ∈ arguments, argument ≠ [] := by
  induction h with
  | nil => nofun
  | @kept word words arguments hkept _ ih =>
    obtain ⟨hword, hrest⟩ := List.forall_mem_cons.1 hwords
    refine List.forall_mem_cons.2 ⟨?_, ih hrest⟩
    exact argument_ne_nil hword (argument?_eq_some_iff.2 ⟨hkept, rfl⟩)
  | dropped _ _ _ ih => exact ih (List.forall_mem_cons.1 hwords).2

end Expands

end Scope

/-! ## Redirected streams -/

namespace Redirection.Targets

/-- The same streams are redirected, and their files are opened in the same way. -/
structure SameSlots (a b : Targets) : Prop where
  stdin : a.stdin.isSome = b.stdin.isSome
  stdout : a.stdout.map Target.mode = b.stdout.map Target.mode
  stderr : a.stderr.map Target.mode = b.stderr.map Target.mode
  combined : a.combined.map Target.mode = b.combined.map Target.mode

/-- Paths have no part in that. -/
theorem sameSlots_mapPaths (targets : Targets) (f : Text → Text) :
    (targets.mapPaths f).SameSlots targets where
  stdin := Option.isSome_map
  stdout := Option.map_map ..
  stderr := Option.map_map ..
  combined := Option.map_map ..

end Redirection.Targets

/-! ## Lines -/

namespace CommandLine

variable {line : Text} {command : CommandLine}

/-- The words of a command line are not empty, and there are not too many of them. -/
theorem words_of_read (h : read line = .command command) :
    command.words.length ≤ maxWords ∧ ∀ word ∈ command.words, word ≠ [] := by
  obtain ⟨parsed, -, hlength, rfl⟩ := parse_eq_ok_iff.1 (read_eq_command_iff.1 h).2
  exact ⟨hlength, fun word hword => Text.ne_nil_of_mem_words hword⟩

end CommandLine

namespace Shell

/-- No value of a variable changes the structure of a line.  A line is blank in every session, or it
is malformed in every session, or it is one and the same command line in every session.  Then
whatever the variables are, its arguments are the values of its words, in order and none of them
split or joined.  A word is missing exactly if it refers to a name and its value is empty.  There are
at most sixty-four arguments and none of them is empty.  The streams that the command line redirects
and the modes of their files are its own. -/
theorem executeLine_keeps_structure (line : Text) :
    (CommandLine.read line = .blank ∧
      ∀ (shell : Shell) (record : Bool), shell.executeLine line record =
        { status := shell.state.session.lastStatus, shell, ran := [] }) ∨
    (∃ fault, CommandLine.read line = .malformed fault ∧
      ∀ (shell : Shell) (record : Bool), shell.executeLine line record =
        { status := .malformedLine
          shell := { shell with state := report (.malformed fault) shell.state }
          ran := [Text.significant line] }) ∨
    ∃ command, CommandLine.read line = .command command ∧
      ∀ (factories : List Factory) (state : State) (record : Bool),
        ∃ (arguments : List Text) (targets : Redirection.Targets),
          state.session.scope.Expands command.words arguments ∧
          targets.SameSlots command.targets ∧
          arguments.length ≤ 64 ∧
          (∀ argument ∈ arguments, argument ≠ []) ∧
          runCommand factories command record state =
            match arguments with
            | [] => .ok 0 state
            | name :: arguments =>
              runNamed factories targets name arguments
                { state with session := startingSession command record state.session } := by
  cases hread : CommandLine.read line with
  | blank => exact .inl ⟨rfl, fun shell record => executeLine_of_read_eq_blank hread⟩
  | malformed fault =>
    exact .inr (.inl ⟨fault, rfl, fun shell record => executeLine_of_read_eq_malformed hread⟩)
  | command command =>
    refine .inr (.inr ⟨command, rfl, fun factories state record => ?_⟩)
    obtain ⟨hlength, hwords⟩ := CommandLine.words_of_read hread
    have hexpands := state.session.scope.expands_arguments command.words
    refine ⟨_, (command.expand state.session.scope).targets, hexpands,
      command.targets.sameSlots_mapPaths _, hexpands.length_le.trans hlength,
      hexpands.ne_nil hwords, ?_⟩
    cases harguments : state.session.scope.arguments command.words with
    | nil => exact runCommand_of_arguments_eq_nil harguments
    | cons name arguments => exact runCommand_of_arguments_eq_cons harguments

end Shell

end LineShell
