import LineShell.Proofs.AssignedNames
import LineShell.Proofs.CommandStatuses
import LineShell.Proofs.Runs

/-!
# Operands of builtins

A builtin that is called with one word reads it by its grammar before it runs.  A word that is no
option arrives as it is, with one exception: `help` alone asks for the help text
(`Grammar.read_operand`, `Grammar.read_help`).  Nothing in the form of this word tells it from an
operand, so `help` can be the name of a directory or of a variable, and yet `cd help` enters no
directory and `local help` binds no variable.  Behind `--` every word arrives, this one included
(`Grammar.read_behind_endOfOptions`).

So what `cd`, `local` and `exit` do on a word is what the called builtin does
(`Shell.dispatch_operand`), and a line that gives a plain word to a builtin has the effect of the
builtin on that word (`Shell.runLine_of_run`).
-/

namespace LineShell

open LineShell.Action

/-! ## Reading one word -/

namespace Grammar

variable {grammar : Grammar} {word : Text}

/-- Where nothing has been taken yet there is room for an operand, if there is ever any. -/
theorem takeOperand_of_ne_none (h : grammar.operands ≠ .none) (operandsOnly : Bool) :
    grammar.takeOperand { operandsOnly } word =
      .ok { given := { operands := [word] }
            operandsOnly := operandsOnly || grammar.operands = .many } := by
  have hroom : grammar.hasRoom {} = true := by
    unfold hasRoom
    cases hoperands : grammar.operands with
    | none => exact absurd hoperands h
    | required name => rfl
    | optional => rfl
    | many => rfl
  exact if_pos hroom

/-- With one operand nothing is missing. -/
theorem read_of_readFrom {arguments : List Text} {operandsOnly : Bool}
    (h : grammar.readFrom {} arguments = .ok { given := { operands := [word] }, operandsOnly }) :
    grammar.read arguments = .ok (some { operands := [word] }) := by
  unfold read
  rw [h]
  cases grammar.operands <;> rfl

theorem not_mem_helpWords (hoption : word.head? ≠ some '-') (hhelp : word ≠ "help".toList) :
    word ∉ helpWords := by
  intro hmem
  rcases List.mem_pair.1 hmem with rfl | rfl
  · exact hoption rfl
  · exact hhelp rfl

theorem read_operand (h : grammar.operands ≠ .none) (hoption : word.head? ≠ some '-')
    (hhelp : word ≠ "help".toList) : grammar.read [word] = .ok (some { operands := [word] }) := by
  have hword := not_mem_helpWords hoption hhelp
  have htaken : grammar.readFrom {} [word] =
      .ok { given := { operands := [word] }, operandsOnly := false || grammar.operands = .many } := by
    rw [readFrom, if_neg (by simp [hword]), if_neg (by simp [hoption]), takeOperand_of_ne_none h]
    rfl
  exact read_of_readFrom htaken

/-- Behind the end of the options it does not matter how a word is written. -/
theorem read_behind_endOfOptions (h : grammar.operands ≠ .none) (word : Text) :
    grammar.read [endOfOptions, word] = .ok (some { operands := [word] }) := by
  have hend : grammar.readFrom {} [endOfOptions, word] =
      grammar.readFrom { operandsOnly := true } [word] := by
    rw [readFrom, if_neg (by decide), if_pos (by decide), if_pos rfl]
  have htaken : grammar.readFrom { operandsOnly := true } [word] =
      .ok { given := { operands := [word] }, operandsOnly := true || grammar.operands = .many } := by
    rw [readFrom, if_neg (by simp), if_neg (by simp), takeOperand_of_ne_none h]
    rfl
  exact read_of_readFrom (hend.trans htaken)

/-- Whatever a builtin takes, this word is none of it. -/
theorem read_help (grammar : Grammar) : grammar.read ["help".toList] = .ok none := by
  have hhelp : grammar.readFrom {} ["help".toList] = .ok { helpWanted := true } := by
    rw [readFrom, if_pos (by decide)]
    rfl
  unfold read
  rw [hhelp]
  rfl

end Grammar

namespace Builtin

variable {builtin : Builtin} {word : Text}

theorem read_operand (h : builtin.operands ≠ .none) (hoption : word.head? ≠ some '-')
    (hhelp : word ≠ "help".toList) : builtin.read [word] = .ok (some (builtin.call [word])) := by
  have hread : builtin.grammar.read [word] = .ok (some { operands := [word] }) :=
    Grammar.read_operand h hoption hhelp
  unfold Builtin.read
  rw [hread]
  rfl

theorem read_behind_endOfOptions (h : builtin.operands ≠ .none) (word : Text) :
    builtin.read [Grammar.endOfOptions, word] = .ok (some (builtin.call [word])) := by
  have hread : builtin.grammar.read [Grammar.endOfOptions, word] =
      .ok (some { operands := [word] }) := Grammar.read_behind_endOfOptions h word
  unfold Builtin.read
  rw [hread]
  rfl

theorem read_help (builtin : Builtin) : builtin.read ["help".toList] = .ok none := by
  unfold Builtin.read
  rw [Grammar.read_help]
  rfl

end Builtin

/-! ## Calling a builtin -/

namespace Shell

variable {builtin : Builtin} {word : Text} {arguments : List Text} {streams : Streams} {state : State}

theorem dispatch_of_read {call : Call} (h : builtin.read arguments = .ok (some call)) :
    dispatch Factory.default builtin.name arguments streams state =
      Command.ofCall call streams state := by
  rw [dispatch_of_builtin rfl]
  unfold Command.ofBuiltin
  rw [h]

/-- A word that is an operand reaches the builtin. -/
theorem dispatch_operand (h : builtin.operands ≠ .none) (hoption : word.head? ≠ some '-')
    (hhelp : word ≠ "help".toList) :
    dispatch Factory.default builtin.name [word] streams state =
      Command.ofCall (builtin.call [word]) streams state :=
  dispatch_of_read (Builtin.read_operand h hoption hhelp)

theorem dispatch_behind_endOfOptions (h : builtin.operands ≠ .none) :
    dispatch Factory.default builtin.name [Grammar.endOfOptions, word] streams state =
      Command.ofCall (builtin.call [word]) streams state :=
  dispatch_of_read (Builtin.read_behind_endOfOptions h word)

theorem dispatch_help :
    dispatch Factory.default builtin.name ["help".toList] streams state =
      Command.help builtin streams state := by
  rw [dispatch_of_builtin rfl]
  unfold Command.ofBuiltin
  rw [Builtin.read_help]

/-! ## Lines of a builtin -/

/-- A line without redirections that expands to a builtin and its arguments runs the builtin on the
streams of the console. -/
theorem runCommand_of_read {command : CommandLine} {call : Call} (record : Bool)
    (harguments : (command.expand state.session.scope).arguments = builtin.name :: arguments)
    (htargets : command.targets = .empty) (hreads : builtin.read arguments = .ok (some call)) :
    runCommand Factory.default command record state = Command.ofCall call .ofConsole state := by
  have hopen : (command.expand state.session.scope).targets.openAll state.session.environment
      .ofConsole state.world = .ok .ofConsole state.world := by
    unfold CommandLine.expand
    rw [htargets]
    rfl
  rw [runCommand_of_openAll harguments hopen, startingSession_of_builtin harguments,
    dispatch_of_read hreads]

/-- If the builtin succeeds and opens no file, its effect is that of the line. -/
theorem runLine_of_run {line : Text} {command : CommandLine} {call : Call} {status : Status}
    {after : State} (record : Bool) (hread : CommandLine.read line = .command command)
    (harguments : (command.expand state.session.scope).arguments = builtin.name :: arguments)
    (htargets : command.targets = .empty) (hreads : builtin.read arguments = .ok (some call))
    (hrun : call.run (Outputs.ofStreams .ofConsole) state = .ok status after)
    (hfiles : after.world.openFiles = state.world.openFiles) :
    runLine Factory.default state line record =
      { status
        state :=
          { after with
            session := { after.session with lastStatus := status, pendingReplay := none } }
        ran := [command.text]
        replay := after.session.pendingReplay } := by
  have hcommand : runCommand Factory.default command record state = .ok status after := by
    rw [runCommand_of_read record harguments htargets hreads]
    unfold Command.ofCall
    rw [hrun]
  have hclosed : closeFiles state after = after := by
    rw [closeFiles_of_openFiles (hfiles.trans (List.append_nil _).symm), ← hfiles]
  rw [runLine_of_runCommand_eq_ok hread hcommand, hclosed]
  rfl

end Shell

/-! ## Names as operands -/

theorem Builtin.isLiteralWord_name (builtin : Builtin) : Text.IsLiteralWord builtin.name := by
  cases builtin <;> exact ⟨by decide, by decide, by decide⟩

theorem isLiteralWord_of_isValidName {name : Text} (h : isValidName name = true) :
    Text.IsLiteralWord name where
  ne_nil := by
    rintro rfl
    cases h
  not_blank c hc := by
    by_contra hblank
    rw [Bool.not_eq_false] at hblank
    exact not_mem_of_isValidName h (Text.isNameChar_of_isBlank hblank) hc
  not_less := not_mem_of_isValidName h (by decide)
  not_greater := not_mem_of_isValidName h (by decide)
  not_comment := not_mem_of_isValidName h (by decide)
  not_reference := not_mem_of_isValidName h (by decide)

theorem head?_ne_of_isValidName {name : Text} (h : isValidName name = true) :
    name.head? ≠ some '-' :=
  fun hhead => not_mem_of_isValidName h (by decide) (List.mem_of_mem_head? hhead)

namespace Shell

/-- The line `local NAME` binds the name to the empty value. -/
theorem runLine_local {name : Text} (hvalid : isValidName name = true) (hhelp : name ≠ "help".toList)
    (state : State) (record : Bool) :
    runLine Factory.default state (Text.pair Builtin.localVariable.name name) record =
      { status := 0
        state :=
          { state with
            session :=
              { state.session with
                locals := state.session.locals.set name []
                lastStatus := 0
                pendingReplay := none } }
        ran := [Text.pair Builtin.localVariable.name name]
        replay := state.session.pendingReplay } := by
  have hlocal := Builtin.isLiteralWord_name .localVariable
  have hname := isLiteralWord_of_isValidName hvalid
  have hreads : Builtin.localVariable.read [name] = .ok (some (.localVariable name)) :=
    Builtin.read_operand (by decide) (head?_ne_of_isValidName hvalid) hhelp
  have hassignment : Builtin.localAssignment name = .ok (name, []) :=
    Builtin.localAssignment_eq_ok_iff.2 ⟨hvalid, .inr ⟨rfl, rfl⟩⟩
  exact runLine_of_run record (hlocal.read_pair hname) (hlocal.arguments_pair hname _) rfl hreads
    (Builtin.run_localVariable hassignment _ state) rfl

end Shell

/-! ## Directories as operands -/

/-- The destination of `cd` is the directory that its target denotes, if it denotes one. -/
theorem Builtin.cdDestination_eq_ok_iff {word : Text} {state : State} {location : Location} :
    Builtin.cdDestination word state = .ok location ↔
      state.world.store.canonicalize (state.session.environment.resolve word) = .ok location ∧
        state.world.store.isDirectory location = true := by
  unfold Builtin.cdDestination
  dsimp only
  rw [except_bind_eq_ok]
  simp only [mapError_eq_ok]
  constructor
  · rintro ⟨found, hfound, hcheck⟩
    cases hdirectory : state.world.store.isDirectory found with
    | true =>
      obtain rfl : found = location := by simpa [hdirectory] using hcheck
      exact ⟨hfound, hdirectory⟩
    | false =>
      rw [hdirectory] at hcheck
      cases hcheck
  · rintro ⟨hlocation, hdirectory⟩
    exact ⟨location, hlocation, by rw [hdirectory]; rfl⟩

/-- `cd` enters every directory that its target denotes. -/
theorem Builtin.run_cd {word : Text} {state : State} {location : Location} (outputs : Outputs)
    (hlocation : state.world.store.canonicalize (state.session.environment.resolve word) =
      .ok location)
    (hdirectory : state.world.store.isDirectory location = true) :
    (Call.cd word).run outputs state =
      .ok 0 { state with session := Builtin.enter location state.session } := by
  have hcheck : Builtin.check (Builtin.cdDestination word) state = .ok location state :=
    check_eq_ok.2 ⟨Builtin.cdDestination_eq_ok_iff.2 ⟨hlocation, hdirectory⟩, rfl⟩
  change Builtin.runCd word state = _
  unfold Builtin.runCd
  rw [bind_of_eq_ok hcheck]
  rfl

/-- A word that is no option and not `help` reaches the builtin that is called with it, so what `cd`,
`local` and `exit` then do is what they do on this word.  If it is a valid name, the line `local NAME`
succeeds and binds it to the empty value.  If it denotes a directory, `cd` enters that directory, also
in a line that expands to `cd` and the word.  For the word `help` each builtin shows its help instead.
Behind the end of the options the word reaches them whatever it is. -/
theorem operands_reach_builtin (word : Text) :
    (word.head? ≠ some '-' → word ≠ "help".toList →
      (∀ (streams : Streams) (state : State),
        let run (builtin : Builtin) :=
          Shell.dispatch Factory.default builtin.name [word] streams state
        run .cd = Command.ofCall (.cd word) streams state ∧
        run .localVariable = Command.ofCall (.localVariable word) streams state ∧
        run .exit = Command.ofCall (.exit (some word)) streams state) ∧
      (∀ (shell : Shell) (record : Bool), isValidName word = true →
        shell.factories = Factory.default →
        let line := Text.pair Builtin.localVariable.name word
        let session := shell.state.session
        let first := Shell.runLine shell.factories shell.state line record
        first.status = 0 ∧
          first.state =
            { shell.state with
              session :=
                { session with
                  locals := session.locals.set word []
                  lastStatus := 0
                  pendingReplay := none } } ∧
          (session.pendingReplay = none → shell.executeLine line record = shell.onceRun first)) ∧
      ∀ (state : State) (location : Location),
        state.world.store.canonicalize (state.session.environment.resolve word) = .ok location →
        state.world.store.isDirectory location = true →
        let entered := Builtin.enter location state.session
        (∀ streams, Shell.dispatch Factory.default Builtin.cd.name [word] streams state =
          .ok 0 { state with session := entered }) ∧
        ∀ (line : Text) (command : CommandLine) (record : Bool),
          CommandLine.read line = .command command → command.targets = .empty →
          (command.expand state.session.scope).arguments = [Builtin.cd.name, word] →
          let first := Shell.runLine Factory.default state line record
          first.status = 0 ∧
            first.state =
              { state with
                session := { entered with lastStatus := 0, pendingReplay := none } }) ∧
    (word = "help".toList → ∀ (builtin : Builtin) (streams : Streams) (state : State),
      Shell.dispatch Factory.default builtin.name [word] streams state =
        Command.help builtin streams state) ∧
    ∀ (streams : Streams) (state : State),
      let run (builtin : Builtin) :=
        Shell.dispatch Factory.default builtin.name [Grammar.endOfOptions, word] streams state
      run .cd = Command.ofCall (.cd word) streams state ∧
      run .localVariable = Command.ofCall (.localVariable word) streams state ∧
      run .exit = Command.ofCall (.exit (some word)) streams state := by
  have hcd : Builtin.cd.operands ≠ .none := by decide
  have hlocal : Builtin.localVariable.operands ≠ .none := by decide
  have hexit : Builtin.exit.operands ≠ .none := by decide
  refine ⟨fun hoption hhelp => ⟨?_, ?_, ?_⟩, ?_, ?_⟩
  · intro streams state run
    exact ⟨Shell.dispatch_operand hcd hoption hhelp, Shell.dispatch_operand hlocal hoption hhelp,
      Shell.dispatch_operand hexit hoption hhelp⟩
  · intro shell record hvalid hfactories line session first
    have hfirst := Shell.runLine_local hvalid hhelp shell.state record
    rw [← hfactories] at hfirst
    refine ⟨congrArg Shell.LineResult.status hfirst, congrArg Shell.LineResult.state hfirst,
      fun hnone => Shell.executeLine_of_replay_eq_none ?_⟩
    exact (congrArg Shell.LineResult.replay hfirst).trans hnone
  · intro state location hlocation hdirectory entered
    have hrun (outputs : Outputs) : (Call.cd word).run outputs state =
        .ok 0 { state with session := entered } := Builtin.run_cd outputs hlocation hdirectory
    constructor
    · intro streams
      rw [Shell.dispatch_operand hcd hoption hhelp]
      change Command.ofCall (.cd word) streams state = _
      unfold Command.ofCall
      rw [hrun]
    · intro line command record hread htargets harguments first
      have hfirst := Shell.runLine_of_run record hread harguments htargets
        (Builtin.read_operand hcd hoption hhelp) (hrun _) rfl
      exact ⟨congrArg Shell.LineResult.status hfirst, congrArg Shell.LineResult.state hfirst⟩
  · rintro rfl builtin streams state
    exact Shell.dispatch_help
  · intro streams state run
    exact ⟨Shell.dispatch_behind_endOfOptions hcd, Shell.dispatch_behind_endOfOptions hlocal,
      Shell.dispatch_behind_endOfOptions hexit⟩

/-- The name of the parent directory is an operand, `-A` is one behind the end of the options, and the
root is its own parent. -/
theorem operands_reach_builtin_parent :
    let line : Text := "local A_1".toList
    let done := Shell.bare.executeLine line true
    let state := Shell.bare.state
    done.status = 0 ∧ done.shell.state.session.locals.get? "A_1".toList = some [] ∧
      Shell.dispatch Factory.default Builtin.cd.name ["..".toList] .ofConsole state =
        .ok 0 { state with session := Builtin.enter [] state.session } ∧
      Shell.dispatch Factory.default Builtin.cd.name ["--".toList, "-A".toList] .ofConsole state =
        Command.ofCall (.cd "-A".toList) .ofConsole state := by
  intro line done state
  obtain ⟨hname, -, -⟩ := operands_reach_builtin "A_1".toList
  obtain ⟨hparent, -, -⟩ := operands_reach_builtin "..".toList
  obtain ⟨-, -, hbehind⟩ := operands_reach_builtin "-A".toList
  obtain ⟨hstatus, hstate, honce⟩ :=
    (hname (by decide) (by decide)).2.1 Shell.bare true (by decide) rfl
  have hdone : done = _ := honce rfl
  obtain ⟨hentered, -⟩ :=
    (hparent (by decide) (by decide)).2.2 state [] (by decide) (by decide)
  refine ⟨?_, ?_, hentered .ofConsole, (hbehind .ofConsole state).1⟩
  · rw [hdone]
    exact hstatus
  · have hafter : done.shell.state = _ := (congrArg (·.shell.state) hdone).trans hstate
    rw [hafter]
    rfl

/-- The word `help` is a valid name and no option, and the called builtin would bind it. -/
theorem local_help_binds_nothing :
    let word : Text := "help".toList
    let done := Shell.bare.executeLine "local help".toList true
    word.head? ≠ some '-' ∧ isValidName word = true ∧
      done.status = 0 ∧ done.shell.state.session.locals.get? word = none ∧
      (∃ bound, Command.ofCall (.localVariable word) .ofConsole Shell.bare.state = .ok 0 bound ∧
        bound.session.locals.get? word = some []) ∧
      Shell.dispatch Factory.default Builtin.localVariable.name [word] .ofConsole Shell.bare.state ≠
        Command.ofCall (.localVariable word) .ofConsole Shell.bare.state := by
  intro word done
  have hshown : ∃ shown, Shell.dispatch Factory.default Builtin.localVariable.name [word] .ofConsole
      Shell.bare.state = .ok 0 shown ∧ shown.session.locals.get? word = none := ⟨_, rfl, rfl⟩
  have hbound : ∃ bound, Command.ofCall (.localVariable word) .ofConsole Shell.bare.state =
      .ok 0 bound ∧ bound.session.locals.get? word = some [] := ⟨_, rfl, rfl⟩
  refine ⟨by decide, by decide, by decide +kernel, by decide +kernel, hbound, ?_⟩
  intro hsame
  obtain ⟨shown, hrun, hnone⟩ := hshown
  obtain ⟨bound, hcall, hsome⟩ := hbound
  rw [hsame, hcall] at hrun
  cases hrun
  cases hnone.symm.trans hsome

end LineShell
