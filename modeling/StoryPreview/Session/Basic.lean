import StoryPreview.Session.Fold
/-!
Sessions. A session keeps the log of all actions, and its state is what folding that log over a fresh
player of its story gives. An edit of the script puts a new player in place and folds the log again.

On such a replay the story may no longer offer a choice of the log. From there on, the point where
the session diverged, no choice is applied; everything else in the log still is.
-/
namespace StoryPreview

/-- Why a session refused an operation. -/
inductive SessionError
  | runtime (e : RuntimeError)
  | noStory
  deriving DecidableEq

def SessionError.message : SessionError → String
  | .runtime e => "runtime error: " ++ e.message
  | .noStory => "session has no story loaded"

structure Session where
  player : Option Player
  log : ActionLog
  state : State
  /-- The live-update flag of an empty state. -/
  liveDefault : Bool
  /-- The position in the log of the first choice that the story refused on replay. -/
  divergedAt : Option Nat
  disposed : Bool

/-- What an operation gives: the session after it, its result, and the states that the observer was
shown in the course of it. -/
structure Reply (α : Type) where
  session : Session
  result : Except SessionError α
  shown : List State

namespace Session

/-- A session without a story. -/
def new (liveDefault : Bool) : Session := ⟨none, [], .empty liveDefault, liveDefault, none, false⟩

/-- A session with a story that has not begun. -/
def ofPlayer (p : Player) (liveDefault : Bool) : Session :=
  { new liveDefault with player := some p }

def hasStory (s : Session) : Bool := s.player.isSome

def isDiverged (s : Session) : Bool := s.divergedAt.isSome

/-- Nothing happened. -/
def unchanged (s : Session) (a : α) : Reply α := ⟨s, .ok a, []⟩

/-- The operation failed. -/
def failed (s : Session) (e : SessionError) : Reply α := ⟨s, .error e, []⟩

/-- The state changed, and the observer was shown it. -/
def changed (s : Session) (a : α) : Reply α := ⟨s, .ok a, [s.state]⟩

/-! ## Replay -/

/-- Where a replay is: what it has rebuilt, and whether it has met a choice that was refused. -/
structure Rebuilt where
  player : Option Player
  state : State
  divergedAt : Option Nat

/-- Folds the actions of a log, the first of which is at position `n`. -/
def foldLog (r : Rebuilt) (n : Nat) : ActionLog → Except RuntimeError Rebuilt
  | [] => .ok r
  | a :: log =>
    if r.divergedAt.isSome && a.affectsChoice then foldLog r (n + 1) log
    else match r.player with
      | none => foldLog { r with state := (r.state.annotate a).1 } (n + 1) log
      | some p =>
        match r.state.apply p a with
        | (_, .error e) => .error e
        | (p, .ok (state, outcome)) =>
          let divergedAt := if outcome = .invalidChoice then some n else r.divergedAt
          foldLog ⟨some p, state, divergedAt⟩ (n + 1) log

/-- The session with its state built anew from its log and a fresh player. -/
def rebuild (s : Session) : Except RuntimeError Session :=
  match foldLog ⟨s.player.map Player.fresh, .empty s.liveDefault, none⟩ 0 s.log with
  | .ok r => .ok { s with player := r.player, state := r.state, divergedAt := r.divergedAt }
  | .error e => .error e

/-- Builds the state anew from the log. -/
def replay (s : Session) : Reply Unit :=
  if s.disposed then s.unchanged ()
  else match s.rebuild with
    | .ok s => s.changed ()
    | .error e => s.failed (.runtime e)

/-- Undoes the last choice that was applied, by a replay of the log before it. Says whether there was
one. -/
def rewind (s : Session) : Reply Bool :=
  if s.disposed then s.unchanged false
  else match s.log.lastChoiceBefore (s.divergedAt.getD s.log.length) with
    | none => s.unchanged false
    | some position =>
      let r := { s with log := s.log.take position }.replay
      ⟨r.session, r.result.map fun _ => true, r.shown⟩

/-! ## Actions -/

/-- Logs an action and folds it onto the state. What is logged for a choice that is not on offer is
the error it gave, for a later replay might find the choice there. -/
def record (s : Session) (a : Action) : Reply Unit :=
  match s.player with
  | none =>
    if a = .start || a.affectsChoice then s.failed .noStory
    else { s with state := (s.state.annotate a).1, log := s.log ++ [a] }.changed ()
  | some p =>
    match s.state.apply p a with
    | (p, .error e) => { s with player := some p }.failed (.runtime e)
    | (p, .ok (state, outcome)) =>
      let logged :=
        if outcome = .invalidChoice then .recordErrors state.errors.getLast?.toList else a
      { s with player := some p, state, log := s.log ++ [logged] }.changed ()

/-- Performs an action. A choice made at the point where the session diverged takes the place of the
choices from there on. -/
def dispatch (s : Session) (a : Action) : Reply Unit :=
  if s.disposed then s.unchanged ()
  else if a = .rewind then
    let r := s.rewind
    ⟨r.session, r.result.map fun _ => (), r.shown⟩
  else match a.affectsChoice, s.divergedAt with
    | true, some position =>
      let s := { s with divergedAt := none, log := s.log.dropChoicesFrom position }
      match s.rebuild with
      | .ok s => s.record a
      | .error e => s.failed (.runtime e)
    | _, _ => s.record a

/-! ## Stories -/

/-- Begins anew with a story. -/
def begin (s : Session) (p : Player) : Reply Unit :=
  if s.disposed then s.unchanged ()
  else
    { s with
      player := some p, log := [], state := .empty s.liveDefault,
      divergedAt := none }.dispatch .start

/-- Puts a newly compiled story in the place of the old one and replays the log on it. Errors of
earlier compiles are forgotten. -/
def replace (s : Session) (p : Player) : Reply Unit :=
  if s.disposed then s.unchanged ()
  else { s with player := some p, log := s.log.dropCompileErrors }.replay

/-- Forgets log and state and keeps the story. -/
def reset (s : Session) : Reply Unit :=
  if s.disposed then s.unchanged ()
  else { s with log := [], state := .empty s.liveDefault, divergedAt := none }.changed ()

/-- Lets the story go; nothing happens from then on. -/
def dispose (s : Session) : Reply Unit :=
  { s with disposed := true, player := none }.unchanged ()

end Session

end StoryPreview
