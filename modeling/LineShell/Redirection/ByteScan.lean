import LineShell.Redirection.Scan

/-!
# Scanning the bytes of a line

`scan` cuts characters from the front of a line.  Here the same is done over the bytes of an encoded
line with positions: one goes from byte to byte, and what lies between two positions is taken out as
a piece of text.  That can go wrong where `scan` cannot, because a position may lie inside of a
character, or two positions may come in the wrong order.  Such a piece is not there, and the scan
breaks down.

Operators and the ends of paths are looked for among single bytes.  A byte beyond the first 128 is
part of a longer character and never one of those that are looked for, so it is as good as any
character that means nothing here.
-/

namespace LineShell.Redirection

/-- The character that a byte stands for when it is looked at alone. -/
def byteView (b : UInt8) : Char := Char.ofNat b.toNat

namespace ByteScan

/-! ## Pieces of a line -/

/-- Whether a byte continues a character that has begun before it. -/
def continuesCharacter (b : UInt8) : Bool := 128 ≤ b.toNat && b.toNat < 192

/-- Whether a position does not lie inside of a character. -/
def isBoundary (bytes : Bytes) (i : Nat) : Bool :=
  i == 0 || i == bytes.length || (bytes[i]?).any fun b => !continuesCharacter b

/-- The piece of a line between two positions, if there is one. -/
def piece? (bytes : Bytes) (start stop : Nat) : Option Bytes :=
  if start ≤ stop ∧ isBoundary bytes start = true ∧ isBoundary bytes stop = true then
    some ((bytes.take stop).drop start)
  else none

/-! ## Positions in a line -/

/-- Whether a word may start at a position: at the beginning of the line and behind a blank. -/
def atWordStart (bytes : Bytes) : Nat → Bool
  | 0 => true
  | pos + 1 => (bytes[pos]?).any (Text.isAsciiBlank ∘ byteView)

def operatorAt? (bytes : Bytes) (pos : Nat) : Option Operator :=
  Operator.recognize byteView (atWordStart bytes pos) (bytes.drop pos)

/-- The first position that is not before `cursor` and has no byte of this kind. -/
def advance (p : Char → Bool) (bytes : Bytes) (cursor : Nat) : Nat :=
  if _h : cursor < bytes.length then
    if p (byteView bytes[cursor]) then advance p bytes (cursor + 1) else cursor
  else cursor
termination_by bytes.length - cursor

/-- Where the path of an operator begins, behind the blanks. -/
def pathStart (bytes : Bytes) (pos : Nat) (operator : Operator) : Nat :=
  advance Text.isAsciiBlank bytes (pos + operator.symbol.length)

/-- Where a path ends that begins at a position. -/
def pathEnd (bytes : Bytes) (start : Nat) : Nat := advance inPath bytes start

/-! ## The scan -/

/-- How far a line has been scanned. -/
structure State where
  /-- Where the plain text begins that has not been taken out yet. -/
  copiedUpTo : Nat := 0
  pos : Nat := 0
  residual : Bytes := []
  /-- The operators found so far, with their paths. -/
  redirections : List (Operator × Bytes) := []
  deriving DecidableEq, Repr

/-- What a scan comes to. -/
inductive Result where
  | parsed (residual : Bytes) (redirections : List (Operator × Bytes))
  | missingPath (operator : Operator)
  /-- A piece was asked for that is not there. -/
  | brokenDown
  deriving DecidableEq, Repr

inductive Outcome where
  | goesOn (state : State)
  | ended (result : Result)
  deriving DecidableEq, Repr

/-- Looks for an operator at the current position, and takes it out with its path. -/
def step (bytes : Bytes) (state : State) : Outcome :=
  if state.pos < bytes.length then
    match operatorAt? bytes state.pos with
    | none => .goesOn { state with pos := state.pos + 1 }
    | some operator =>
      match piece? bytes state.copiedUpTo state.pos with
      | none => .ended .brokenDown
      | some copied =>
        let start := pathStart bytes state.pos operator
        let cursor := pathEnd bytes start
        if start = cursor then .ended (.missingPath operator)
        else
          match piece? bytes start cursor with
          | none => .ended .brokenDown
          | some path =>
            .goesOn
              { copiedUpTo := cursor
                pos := cursor
                residual := state.residual ++ copied
                redirections := state.redirections ++ [(operator, path)] }
  else
    match piece? bytes state.copiedUpTo bytes.length with
    | none => .ended .brokenDown
    | some copied => .ended (.parsed (state.residual ++ copied) state.redirections)

theorem le_advance (p : Char → Bool) (bytes : Bytes) (cursor : Nat) :
    cursor ≤ advance p bytes cursor := by
  fun_induction advance p bytes cursor with
  | case1 cursor _ _ ih => omega
  | case2 => exact Nat.le_refl _
  | case3 => exact Nat.le_refl _

theorem lt_pathStart (bytes : Bytes) (pos : Nat) (operator : Operator) :
    pos < pathStart bytes pos operator := by
  have hstart := le_advance Text.isAsciiBlank bytes (pos + operator.symbol.length)
  have hsymbol := operator.symbol_length_pos
  unfold pathStart
  omega

theorem le_pathEnd (bytes : Bytes) (start : Nat) : start ≤ pathEnd bytes start :=
  le_advance inPath bytes start

/-- The position is within the line while the scan goes on, and each step moves it forward. -/
theorem pos_lt_of_step {bytes : Bytes} {state next : State} (h : step bytes state = .goesOn next) :
    state.pos < bytes.length ∧ state.pos < next.pos := by
  unfold step at h
  split at h
  · next hpos =>
    refine ⟨hpos, ?_⟩
    split at h
    · cases h
      exact Nat.lt_succ_self _
    · next operator _ =>
      have hstart := lt_pathStart bytes state.pos operator
      have hend := le_pathEnd bytes (pathStart bytes state.pos operator)
      dsimp only at h
      split at h
      · cases h
      · split at h
        · cases h
        · split at h
          · cases h
          · cases h
            exact Nat.lt_of_lt_of_le hstart hend
  · split at h <;> cases h

/-- Scans a line from a state to the end. -/
def run (bytes : Bytes) (state : State) : Result :=
  match _h : step bytes state with
  | .goesOn next => run bytes next
  | .ended result => result
termination_by bytes.length - state.pos
decreasing_by
  have := pos_lt_of_step _h
  omega

end ByteScan

end LineShell.Redirection
