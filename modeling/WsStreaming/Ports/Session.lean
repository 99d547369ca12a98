import WsStreaming.Ports.Connection

/-!
# Connections that are called back

A connection as long as its peer lives.  Whatever a connection raises or sends
is a call out of it, and before such a call returns the application may change
the local signals, or something it does may make a send fail: the peer closes,
and the whole of `connection::on_peer_closed` runs inside the call.

A handler of `Connection` is cut at these calls.  Only `handle_available` and
`handle_unavailable` change the signals of the peer after a call has returned,
so the loops of these two are cut into their rounds, and any other handler is
one piece with its calls behind it.
-/

namespace WsStreaming.Ports

/-- What the application does to the local signals. -/
inductive LocalAction where
  | add (signal : LocalSignal)
  | remove (signal : LocalSignal)
deriving DecidableEq, Repr

/-- What happens while a call out of a connection is under way: the local
signals change, or the peer is closed, with what the application does in the
calls out of `connection::on_peer_closed`. -/
inductive Reaction where
  | act (action : LocalAction)
  | close (inner : Nat → List LocalAction)

/-- A call out of a connection. -/
inductive Notice where
  | output (output : Output)
  | remote (event : RemoteEvent)
  | disconnected
deriving DecidableEq, Repr

/-- The events about remote signals. -/
def remoteEvents (notices : List Notice) : List RemoteEvent :=
  notices.filterMap fun
    | .remote event => some event
    | _ => none

@[simp] theorem remoteEvents_nil : remoteEvents [] = [] := rfl

@[simp] theorem remoteEvents_append (notices more : List Notice) :
    remoteEvents (notices ++ more) = remoteEvents notices ++ remoteEvents more :=
  List.filterMap_append

@[simp] theorem remoteEvents_remote (events : List RemoteEvent) :
    remoteEvents (events.map .remote) = events := by
  induction events with
  | nil => rfl
  | cons e events ih =>
      rw [List.map_cons]
      exact congrArg (e :: ·) ih

@[simp] theorem remoteEvents_output (outputs : List Output) :
    remoteEvents (outputs.map .output) = [] := by
  induction outputs with
  | nil => rfl
  | cons o outputs ih =>
      rw [List.map_cons]
      exact ih

/-- A connection, and whether its slots on the peer are connected. -/
structure Session where
  connection : Connection := {}
  connected : Bool := true
deriving DecidableEq, Repr

namespace Session

/-- The same with other remote signals. -/
def withRemotes (s : Session) (remotes : RemoteSignals) : Session :=
  { s with connection := { s.connection with remotes := remotes } }

/-- The application changes the local signals. -/
def act (s : Session) : LocalAction → Session
  | .add signal => { s with connection := (s.connection.addLocalSignal signal).1 }
  | .remove signal => { s with connection := (s.connection.removeLocalSignal signal).1 }

/-- Several changes. -/
def acts (s : Session) (actions : List LocalAction) : Session := actions.foldl act s

/-- `local_signal_container::clear_local_signals`. -/
def clearLocals (s : Session) : Session :=
  { s with connection :=
      { s.connection with locals := s.connection.locals.clearLocalSignals.1 } }

/-- `connection::on_peer_closed`: the remote signals are gone before the first
of them is withdrawn, the local signals go next, and `on_disconnected` is the
last call. -/
def onPeerClosed (s : Session) (inner : Nat → List LocalAction) : Session × List Notice :=
  let (remotes, events) := s.connection.remotes.clearRemoteSignals
  let s := { s.withRemotes remotes with connected := false }
  let s := s.acts ((List.range events.length).flatMap inner)
  (s.clearLocals.acts (inner events.length),
    events.map .remote ++ s.connection.locals.clearLocalSignals.2.map .output ++
      [.disconnected])

/-- One reaction.  A peer closes once. -/
def react (s : Session) : Reaction → Session × List Notice
  | .act action => (s.act action, [])
  | .close inner => if s.connected then s.onPeerClosed inner else (s, [])

/-- What happens during one call. -/
def reacts (s : Session) : List Reaction → Session × List Notice
  | [] => (s, [])
  | reaction :: reactions =>
      let (s, notices) := s.react reaction
      let (s, more) := s.reacts reactions
      (s, notices ++ more)

/-- Calls in order, each with what happens during it. -/
def callouts (s : Session) (answers : Nat → List Reaction) :
    List Notice → Session × List Notice
  | [] => (s, [])
  | notice :: notices =>
      let (s, during) := s.reacts (answers 0)
      let (s, more) := s.callouts (fun n => answers (n + 1)) notices
      (s, notice :: during ++ more)

/-- A loop over ids, with the calls of each round. -/
def forEach (f : RemoteSignals → String → RemoteSignals × List RemoteEvent) (s : Session)
    (answers : Nat → Nat → List Reaction) : List String → Session × List Notice
  | [] => (s, [])
  | id :: ids =>
      let (remotes, events) := f s.connection.remotes id
      let (s, notices) := (s.withRemotes remotes).callouts (answers 0) (events.map .remote)
      let (s, more) := s.forEach f (fun n => answers (n + 1)) ids
      (s, notices ++ more)

/-- A request that is no object: the exception that escapes leaves everything
as it was. -/
def throws : Message → Bool
  | .metadata m => m.signo = 0 && m.method = "request" && !m.params.isObject
  | .data _ _ => false

/-- The method of a message that concerns the connection. -/
def globalMethod : Message → String
  | .metadata m => if m.signo = 0 then m.method else ""
  | .data _ _ => ""

/-- The parameters of a message. -/
def paramsOf : Message → Json
  | .metadata m => m.params
  | .data _ _ => .null

/-- A message that arrives. -/
def message (s : Session) (answers : Nat → Nat → List Reaction) (m : Message) :
    Option (Session × List Notice) :=
  if globalMethod m = "available" then
    some (s.forEach RemoteSignals.announce answers (RemoteSignals.signalIds (paramsOf m)))
  else if globalMethod m = "unavailable" then
    some (s.forEach RemoteSignals.withdraw answers (RemoteSignals.signalIds (paramsOf m)))
  else if throws m then some (s, [])
  else
    (s.connection.receive m).map fun r =>
      { s with connection := r.1 }.callouts (answers 0)
        (r.2.1.map Notice.output ++ r.2.2.map Notice.remote)

/-- What can happen to a connection. -/
inductive Input where
  /-- A message arrives. -/
  | message (m : Message) (answers : Nat → Nat → List Reaction)
  /-- `connection::run` of a server says hello. -/
  | hello (answers : Nat → List Reaction)
  /-- The application does something. -/
  | react (reaction : Reaction)

/-- One step.  Messages reach the connection only while its slots are
connected. -/
def step (s : Session) : Input → Option (Session × List Notice)
  | .message m answers => if s.connected then s.message answers m else some (s, [])
  | .hello answers =>
      some ({ s with connection := s.connection.doHello.1 }.callouts answers
        (s.connection.doHello.2.map .output))
  | .react reaction => some (s.react reaction)

/-- Calls during which nothing happens. -/
theorem callouts_undisturbed (s : Session) (notices : List Notice) :
    s.callouts (fun _ => []) notices = (s, notices) := by
  induction notices with
  | nil => rfl
  | cons notice notices ih =>
      rw [callouts]
      dsimp only [reacts]
      rw [ih]
      rfl

end Session

end WsStreaming.Ports
