import StoryPreview.Log.Notice
/-!
The notices of playing a story. Each function here goes the way of the operation whose notices it
lists, in the order in which they are given.
-/
namespace StoryPreview

namespace Story

/-- What is said about executing a command. A jump to a label that is nowhere goes unmentioned. -/
def commandNotices (s : Story) (c : Cursor) (node : Node) : List Notice :=
  .executing c.pc node :: match node with
    | .branch choices => [.choicesOffered choices.length c.pc]
    | .jump label => (s.labelIndex? label).toList.map fun target => .jumped c.pc target label
    | .jumpIf var cmp value label =>
      match c.check var cmp value with
      | .ok true =>
        (s.labelIndex? label).toList.map fun target =>
          .conditionHolds var (c.get? var) cmp value target label
      | .ok false => []
      | .error reason => [.conditionSkipped var reason]
    | .set name value => [.variableSet name value]
    | .modify name op value =>
      match c.modify name op value with
      | .ok _ => []
      | .error reason => [.modificationSkipped name op value reason]
    | .inclusion name => [.inclusionIgnored name c.pc]
    | _ => []

/-- The notices of up to so many commands, last first, behind earlier ones. -/
def advanceNotices (s : Story) : Nat → Cursor → List Notice → List Notice
  | 0, _, done => done
  | budget + 1, c, done =>
    match s.node? c.pc with
    | none => done
    | some node =>
      let done := (s.commandNotices c node).reverse ++ done
      let step := s.execute c node
      if step.stops then done else s.advanceNotices budget step.cursor done

def runNotices (s : Story) (limit : Nat) (c : Cursor) : List Notice :=
  if c.isWaiting then [.choicePending c.pc]
  else
    let p := s.advance limit c []
    (s.advanceNotices limit c []).reverse ++
      if !p.finished then [.stepLimit limit c.pc p.cursor.pc]
      else if s.size ≤ p.cursor.pc then [.endReached p.cursor.pc]
      else []

def selectNotices (s : Story) (c : Cursor) (index : Nat) : List Notice :=
  match c.pending[index]? with
  | none => []
  | some choice =>
    (s.labelIndex? choice.target).toList.map fun target =>
      .choiceTaken index c.pc target choice.target

end Story

/-- The notices of folding an action that does not touch the story. -/
def State.annotateNotices : Action → List Notice
  | .toggleLiveUpdate _ | .recordErrors _ | .recordEvents _ => []
  | a => [.actionWithoutEffect a.kind]

/-- The notices of folding an action. -/
def State.applyNotices (p : Player) : Action → List Notice
  | .start => p.story.runNotices p.budget .start
  | .selectChoice index =>
    if p.choices.length ≤ index then [.choiceRejected index p.choices.length]
    else match p.story.select p.cursor index with
      | .ok c => p.story.selectNotices p.cursor index ++ p.story.runNotices p.budget c
      | .error _ => []
  | a => State.annotateNotices a

namespace Session

/-- The notices of folding a log. -/
def foldNotices (r : Rebuilt) (n : Nat) : ActionLog → List Notice
  | [] => []
  | a :: log =>
    if r.divergedAt.isSome && a.affectsChoice then foldNotices r (n + 1) log
    else
      let said := match r.player with
        | none => State.annotateNotices a
        | some p => State.applyNotices p a
      match foldLog r n [a] with
      | .error _ => said
      | .ok next =>
        said ++ (if next.divergedAt = r.divergedAt then [] else [.replayDiverged n]) ++
          foldNotices next (n + 1) log

def replayNotices (s : Session) : List Notice :=
  foldNotices ⟨s.player.map Player.fresh, .empty s.liveDefault, none⟩ 0 s.log

def recordNotices (s : Session) (a : Action) : List Notice :=
  match s.player with
  | none => if a = .start || a.affectsChoice then [] else State.annotateNotices a
  | some p =>
    State.applyNotices p a ++
      match (s.record a).result with
      | .error (.runtime e) => [.runFailed a.kind e]
      | _ => []

def rewindNotices (s : Session) : List Notice :=
  match s.log.lastChoiceBefore (s.divergedAt.getD s.log.length) with
  | none => [.nothingToRewind]
  | some position =>
    .rewound position (s.log.length - position) ::
      { s with log := s.log.take position }.replayNotices

def dispatchNotices (s : Session) (a : Action) : List Notice :=
  if s.disposed then [.actionDropped a.kind]
  else if a = .rewind then s.rewindNotices
  else match a.affectsChoice, s.divergedAt with
    | true, some position =>
      let s := { s with divergedAt := none, log := s.log.dropChoicesFrom position }
      .staleChoicesDropped position a.kind :: s.replayNotices ++
        match s.rebuild with
        | .ok s => s.recordNotices a
        | .error _ => []
    | _, _ => s.recordNotices a

def beginNotices (s : Session) (p : Player) : List Notice :=
  if s.disposed then []
  else
    .sessionBegun ::
      ({ s with player := some p, log := [], divergedAt := none } : Session).recordNotices .start

def replaceNotices (s : Session) (p : Player) : List Notice :=
  if s.disposed then []
  else
    let s := { s with player := some p, log := s.log.dropCompileErrors }
    .storyReplaced s.log.length :: s.replayNotices

def disposeNotices (s : Session) : List Notice :=
  if s.disposed then [] else [.sessionEnded s.log.length]

end Session

end StoryPreview
