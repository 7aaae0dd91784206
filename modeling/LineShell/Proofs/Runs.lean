import LineShell.Batch
import LineShell.Proofs.LineEffects

/-!
# Runs of a shell

A shell is asked to execute single lines and whole batches.  Either way it executes lines one after
the other, so a run is a list of `Step`s that lead from one shell to the next (`Leads`), and a
property that every line preserves holds after every run (`Leads.preserves`).

`Settled` is such a property: what is known of a shell with the default commands whenever it is not
executing a line.
-/

namespace LineShell

/-- A shell can be asked for the execution of one line or of a whole batch. -/
inductive Request where
  | line (text : Text) (record : Bool)
  | batch (bytes : Bytes)

namespace Shell

/-- A shell with the default commands and a session that has done nothing yet. -/
def fresh (environment : Environment) (world : World) : Shell :=
  { state := { session := { environment }, world } }

/-- A fresh session in an empty file store. -/
def bare : Shell :=
  fresh { directory := [Path.slash] } { store := .empty, console := { kind := .captured } }

/-- The shell after a request. -/
def answer (shell : Shell) : Request → Shell
  | .line text record => (shell.executeLine text record).shell
  | .batch bytes => (shell.runBatch bytes).shell

/-- The shell after requests in order. -/
def answerAll (shell : Shell) (requests : List Request) : Shell :=
  requests.foldl answer shell

/-- A shell that requests have led to, from a fresh session. -/
def Reachable (shell : Shell) : Prop :=
  ∃ (environment : Environment) (world : World) (requests : List Request),
    shell = (fresh environment world).answerAll requests

variable {shell : Shell}

theorem reachable_answerAll_bare (requests : List Request) : Reachable (bare.answerAll requests) :=
  ⟨_, _, requests, rfl⟩

/-! ## The lines of a run -/

/-- The execution of one line. -/
structure Step where
  before : Shell
  text : Text
  record : Bool

/-- The shell after a step. -/
def Step.after (step : Step) : Shell := (step.before.executeLine step.text step.record).shell

/-- The steps of a batch. -/
def batchSteps (shell : Shell) : List Bytes → List Step
  | [] => []
  | line :: rest =>
    match Utf8.decode? line with
    | none => []
    | some text =>
      let step : Step := { before := shell, text, record := true }
      step :: if step.after.state.session.exitRequested then [] else step.after.batchSteps rest

/-- The steps of a request. -/
def stepsOf (shell : Shell) : Request → List Step
  | .line text record => [{ before := shell, text, record }]
  | .batch bytes => shell.batchSteps (Lines.split bytes)

/-- The steps of requests in order. -/
def steps (shell : Shell) : List Request → List Step
  | [] => []
  | request :: requests => shell.stepsOf request ++ (shell.answer request).steps requests

/-- The steps follow each other from one shell to another. -/
inductive Leads : Shell → List Step → Shell → Prop where
  | nil (shell : Shell) : Leads shell [] shell
  | cons (step : Step) {steps : List Step} {last : Shell} (rest : Leads step.after steps last) :
      Leads step.before (step :: steps) last

theorem Leads.append {first middle last : Shell} {front back : List Step}
    (hfront : Leads first front middle) (hback : Leads middle back last) :
    Leads first (front ++ back) last := by
  induction hfront with
  | nil => exact hback
  | cons step _ ih => exact .cons step (ih hback)

theorem leads_batchSteps (shell : Shell) (lines : List Bytes) :
    Leads shell (shell.batchSteps lines) (shell.runLines lines).shell := by
  induction lines generalizing shell with
  | nil => exact .nil shell
  | cons line rest ih =>
    rw [batchSteps, runLines]
    cases hdecode : Utf8.decode? line with
    | none => exact .nil shell
    | some text =>
      dsimp only
      refine Leads.cons ⟨shell, text, true⟩ ?_
      unfold Step.after
      dsimp only
      split
      · exact .nil _
      · exact ih _

theorem leads_stepsOf (shell : Shell) (request : Request) :
    Leads shell (shell.stepsOf request) (shell.answer request) := by
  cases request with
  | line text record => exact .cons ⟨shell, text, record⟩ (.nil _)
  | batch bytes => exact leads_batchSteps shell (Lines.split bytes)

/-- Requests are answered by executing their steps. -/
theorem leads_steps (shell : Shell) (requests : List Request) :
    Leads shell (shell.steps requests) (shell.answerAll requests) := by
  induction requests generalizing shell with
  | nil => exact .nil shell
  | cons request requests ih => exact (leads_stepsOf shell request).append (ih _)

/-- What every line preserves holds after every run, and before each of its steps. -/
theorem Leads.preserves {P : Shell → Prop} {first last : Shell} {steps : List Step}
    (hsteps : Leads first steps last) (hstep : ∀ step : Step, P step.before → P step.after)
    (hfirst : P first) : P last ∧ ∀ step ∈ steps, P step.before := by
  induction hsteps with
  | nil => exact ⟨hfirst, by simp⟩
  | cons step _ ih =>
    obtain ⟨hlast, hrest⟩ := ih (hstep step hfirst)
    exact ⟨hlast, List.forall_mem_cons.2 ⟨hfirst, hrest⟩⟩

/-! ## What a line keeps -/

/-- Executing a line leaves the factories and the replay flag alone. -/
theorem executeLine_shell (shell : Shell) (line : Text) (record : Bool) :
    (shell.executeLine line record).shell =
      { shell with state := (shell.executeLine line record).shell.state } := by
  rcases executeLine_cases shell line record with honce | ⟨entry, -, -, htwice⟩
  · rw [honce]
    rfl
  · rw [htwice]

/-- What is known of a shell with the default factories whenever no line is being run. -/
structure Settled (shell : Shell) : Prop where
  factories : shell.factories = Factory.default
  pendingReplay : shell.state.session.pendingReplay = none
  history : shell.state.session.history.Bounded

theorem settled_fresh (environment : Environment) (world : World) :
    Settled (fresh environment world) where
  factories := rfl
  pendingReplay := rfl
  history := History.bounded_new

namespace Settled

theorem lineEffect (h : Settled shell) (line : Text) (record : Bool) :
    LineEffect shell.state.session line record
      (runLine shell.factories shell.state line record) := by
  rw [h.factories]
  exact lineEffect_runLine shell.state line record

/-- One run of a line leaves the shell settled, to go on with an entry. -/
theorem toReplay (h : Settled shell) (line : Text) (record : Bool) :
    Settled (shell.toReplay (runLine shell.factories shell.state line record)) where
  factories := h.factories
  pendingReplay := (h.lineEffect line record).pendingReplay h.pendingReplay
  history := (h.lineEffect line record).bounded h.history

/-- Executing a line settles the shell again. -/
theorem executeLine (h : Settled shell) (line : Text) (record : Bool) :
    Settled (shell.executeLine line record).shell := by
  have hfirst := h.toReplay line record
  rcases executeLine_cases shell line record with honce | ⟨entry, -, -, htwice⟩
  · rw [honce]
    exact ⟨h.factories, hfirst.pendingReplay, hfirst.history⟩
  · have hsecond := hfirst.toReplay entry false
    rw [htwice]
    exact ⟨h.factories, hsecond.pendingReplay, hsecond.history⟩

end Settled

/-! ## Reachable shells -/

theorem Leads.settled {first last : Shell} {steps : List Step} (hsteps : Leads first steps last)
    (hfirst : Settled first) : Settled last ∧ ∀ step ∈ steps, Settled step.before :=
  hsteps.preserves (fun step h => h.executeLine step.text step.record) hfirst

theorem Reachable.settled (h : Reachable shell) : Settled shell := by
  obtain ⟨environment, world, requests, rfl⟩ := h
  exact ((leads_steps _ requests).settled (settled_fresh environment world)).1

/-- A shell that is not executing a line is not replaying an entry. -/
theorem Reachable.replaying (h : Reachable shell) : shell.replaying = false := by
  obtain ⟨environment, world, requests, rfl⟩ := h
  refine ((leads_steps _ requests).preserves (P := fun shell => shell.replaying = false) ?_ rfl).1
  intro step hbefore
  unfold Step.after
  rw [executeLine_shell]
  exact hbefore

end Shell
end LineShell
