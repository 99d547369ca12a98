import WsStreaming.Ports.Server
import WsStreaming.Ports.Teardown

/-!
# Events of a server

What a server tells the application about its clients: that one is connected,
that signals of it become available and unavailable, and that it is
disconnected.

All but the first come from a connection, through slots that belong to the
client's entry in `_clients`.  The entry exists before `connection::run` says
hello, and `on_client_connected` is raised after it; `server::close` asks the
peers to stop and drops the entries before any of them has.

## Main results

* `relayed_step` — what a step of a connection makes the server raise.
* `events_ordered_of_steady` — the law of the events, over every run in which
  no hello fails, no call closes a connection before a withdrawal is told, and
  the server is closed without clients.
-/

namespace WsStreaming.Ports

open WsStreaming.Verified
open WsStreaming.Verified.Run (MeetsOpt)
open WsStreaming.Verified.Trace (Monitor)
open RemoteSignals (availability)

/-- An event of a server about a client. -/
inductive ServerEvent where
  | connected
  | available (id : String) (address : Nat)
  | unavailable (id : String) (address : Nat)
  | disconnected
deriving DecidableEq, Repr

/-- What the slots of a client's entry raise.  The one of `on_disconnected`
removes the entry, and the slots with it. -/
def relay : List Notice → List ServerEvent
  | [] => []
  | .disconnected :: _ => [.disconnected]
  | .remote (.available id a) :: notices => .available id a :: relay notices
  | .remote (.unavailable id a) :: notices => .unavailable id a :: relay notices
  | .remote (.signal _ _) :: notices => relay notices
  | .output _ :: notices => relay notices

/-- A server with the connections that it has made; the ones from `accepted` on
are still to come. -/
structure Hosting where
  server : Server := {}
  accepted : Nat := 0
  closed : Bool := false

namespace Hosting

/-- What happens to a connection, and what the server makes of it. -/
def relayed (w : Hosting) (p : Nat) (r : Session × List Notice) :
    Hosting × List (Nat × ServerEvent) :=
  let server := { w.server with connections := Function.update w.server.connections p r.1 }
  if p ∈ w.server.clients then
    ({ w with server :=
        if .disconnected ∈ r.2 then server.onConnectionDisconnected p else server },
      (relay r.2).map fun e => (p, e))
  else ({ w with server := server }, [])

/-- The connection of an accepted client, before `connection::run`. -/
def accept (w : Hosting) (localStreamId : String) (commandInterfaces : Json) : Connection :=
  w.server.orderedSignals.foldl (fun c signal => (c.addLocalSignal signal).1)
    { localStreamId := localStreamId, commandInterfaces := commandInterfaces }

/-- A new client gets an entry. -/
def enter (w : Hosting) (session : Session) : Hosting :=
  { w with
    server := { w.server with
      clients := w.server.clients ++ [w.accepted]
      connections := Function.update w.server.connections w.accepted session }
    accepted := w.accepted + 1 }

/-- `server::on_servicer_websocket_upgrade`, with what happens during the
messages of the hello and during `on_client_connected`. -/
def onServicerWebsocketUpgrade (w : Hosting) (localStreamId : String)
    (commandInterfaces : Json) (answers : Nat → List Reaction) (during : List Reaction) :
    Option (Hosting × List (Nat × ServerEvent)) :=
  let p := w.accepted
  let session : Session := { connection := w.accept localStreamId commandInterfaces }
  (session.step (.hello answers)).map fun r =>
    let (w, events) := (w.enter session).relayed p r
    let (w, more) := w.relayed p ((w.server.connections p).reacts during)
    (w, events ++ (p, .connected) :: more)

/-- `server::close`.  `peer::stop` has no effect yet, and the entries are
dropped with the slots. -/
def close (w : Hosting) : Hosting :=
  if w.closed then w
  else { w with server := { w.server with clients := [] }, closed := true }

/-- What can happen to a server. -/
inductive Input where
  /-- A WebSocket upgrade is complete. -/
  | upgrade (localStreamId : String) (commandInterfaces : Json)
      (answers : Nat → List Reaction) (during : List Reaction)
  /-- Something happens to a connection. -/
  | client (p : Nat) (input : Session.Input)
  /-- The application adds a signal; `fails` says whose transport fails. -/
  | addLocalSignal (signal : LocalSignal) (fails : Nat → Bool)
  /-- The application removes a signal. -/
  | removeLocalSignal (signal : LocalSignal) (fails : Nat → Bool)
  /-- The application closes the server. -/
  | close

/-- One step.  A server that is closed has no sessions whose upgrade could be
completed. -/
def step (w : Hosting) : Input → Option (Hosting × List (Nat × ServerEvent))
  | .upgrade localStreamId commandInterfaces answers during =>
      if w.closed then some (w, [])
      else w.onServicerWebsocketUpgrade localStreamId commandInterfaces answers during
  | .client p input =>
      if p < w.accepted then ((w.server.connections p).step input).map (w.relayed p)
      else some (w, [])
  | .addLocalSignal signal fails =>
      (w.server.addLocalSignal signal fails).map fun server => ({ w with server := server }, [])
  | .removeLocalSignal signal fails =>
      (w.server.removeLocalSignal signal fails).map fun server =>
        ({ w with server := server }, [])
  | .close => some (w.close, [])

end Hosting

/-! ## The law -/

/-- How far the server has told of a client, and whether a signal of it is
still available. -/
inductive ClientStage where
  | fresh
  | connected (available : Bool)
  | over
deriving DecidableEq, Repr

/-- What an event does to the stage, as an id sees it: the client is connected
first, its signal becomes available and unavailable in turn, and it is
disconnected last, while the signal is not available. -/
def ClientStage.next (id : String) : Monitor ClientStage ServerEvent
  | .fresh, .connected => some (.connected false)
  | .connected isAvailable, .available id' _ =>
      if id' = id then (if isAvailable then none else some (.connected true))
      else some (.connected isAvailable)
  | .connected isAvailable, .unavailable id' _ =>
      if id' = id then (if isAvailable then some (.connected false) else none)
      else some (.connected isAvailable)
  | .connected false, .disconnected => some .over
  | _, _ => none

/-- The law for one client and one id. -/
def clientLaw (k : Nat × String) : Monitor ClientStage (Nat × ServerEvent)
  | stage, (p, e) => if p = k.1 then ClientStage.next k.2 stage e else some stage

/-- The stage that a connection is at once the server has told of it. -/
def Session.stage (s : Session) (id : String) : ClientStage :=
  if s.connected then .connected (s.announced id) else .over

/-- The stage that a client is at. -/
def Hosting.stage (w : Hosting) (k : Nat × String) : ClientStage :=
  if k.1 < w.accepted then (w.server.connections k.1).stage k.2 else .fresh

/-- The events of a run are in order, and none is missing: for each client and
each id, they lead to the stage that the client is at. -/
def Hosting.Ordered (r : Hosting × List (Nat × ServerEvent)) : Prop :=
  ∀ k, (clientLaw k).read .fresh r.2 = some (r.1.stage k)

/-! ## What the slots raise -/

theorem relay_cons_of_isSilent {n : Notice} (h : n.isSilent = true) (notices : List Notice) :
    relay (n :: notices) = relay notices := by
  cases n with
  | output o => rfl
  | disconnected => cases h
  | remote event =>
      cases event with
      | available id a => cases h
      | unavailable id a => cases h
      | signal a event => rfl

theorem relay_of_isSilent {notices : List Notice} (h : ∀ n ∈ notices, n.isSilent = true) :
    relay notices = [] := by
  induction notices with
  | nil => rfl
  | cons n notices ih =>
      rw [relay_cons_of_isSilent (h n List.mem_cons_self)]
      exact ih fun n' hn' => h n' (List.mem_cons_of_mem _ hn')

/-- Before the disconnection every part is relayed. -/
theorem relay_append {notices : List Notice} (h : .disconnected ∉ notices)
    (more : List Notice) : relay (notices ++ more) = relay notices ++ relay more := by
  induction notices with
  | nil => rfl
  | cons n notices ih =>
      have hrest := ih fun hmem => h (List.mem_cons_of_mem _ hmem)
      cases n with
      | output o => exact hrest
      | disconnected => exact absurd List.mem_cons_self h
      | remote event =>
          cases event with
          | available id a => exact congrArg (ServerEvent.available id a :: ·) hrest
          | unavailable id a => exact congrArg (ServerEvent.unavailable id a :: ·) hrest
          | signal a event => exact hrest

/-- After the disconnection nothing is. -/
theorem relay_append_of_mem {notices : List Notice} (h : .disconnected ∈ notices)
    (more : List Notice) : relay (notices ++ more) = relay notices := by
  induction notices with
  | nil => cases h
  | cons n notices ih =>
      cases n with
      | disconnected => rfl
      | output o =>
          have hrest : .disconnected ∈ notices := by simpa using h
          exact ih hrest
      | remote event =>
          have hrest : .disconnected ∈ notices := by simpa using h
          cases event with
          | available id a => exact congrArg (ServerEvent.available id a :: ·) (ih hrest)
          | unavailable id a => exact congrArg (ServerEvent.unavailable id a :: ·) (ih hrest)
          | signal a event => exact ih hrest

/-- As long as a client is connected, the law for an id is the one of its
availability. -/
theorem read_relay (id : String) (notices : List Notice) (h : .disconnected ∉ notices) :
    ∀ b, (ClientStage.next id).read (.connected b) (relay notices) =
      ((availability id).read b (remoteEvents notices)).map .connected := by
  induction notices with
  | nil => exact fun b => rfl
  | cons n notices ih =>
      intro b
      have hrest := ih fun hmem => h (List.mem_cons_of_mem _ hmem)
      cases n with
      | output o => exact hrest b
      | disconnected => exact absurd List.mem_cons_self h
      | remote event =>
          cases event with
          | signal a event => exact hrest b
          | available id' a =>
              change (ClientStage.next id).read _ (.available id' a :: relay notices) =
                ((availability id).read b (.available id' a :: remoteEvents notices)).map _
              rw [Monitor.read_cons, Monitor.read_cons]
              by_cases hid : id' = id
              · cases b with
                | false => simpa [ClientStage.next, availability, hid] using hrest true
                | true => simp [ClientStage.next, availability, hid]
              · simpa [ClientStage.next, availability, hid] using hrest b
          | unavailable id' a =>
              change (ClientStage.next id).read _ (.unavailable id' a :: relay notices) =
                ((availability id).read b (.unavailable id' a :: remoteEvents notices)).map _
              rw [Monitor.read_cons, Monitor.read_cons]
              by_cases hid : id' = id
              · cases b with
                | false => simp [ClientStage.next, availability, hid]
                | true => simpa [ClientStage.next, availability, hid] using hrest false
              · simpa [ClientStage.next, availability, hid] using hrest b

/-! ## Connections -/

namespace Session

variable {s : Session}

theorem stage_of_connected (h : s.connected = true) (id : String) :
    s.stage id = .connected (s.announced id) := by
  rw [stage, h]
  rfl

theorem stage_of_closed (h : s.connected = false) (id : String) : s.stage id = .over := by
  rw [stage, h]
  rfl

/-- What the server raises takes the law from the connection as it was to the
connection as it is. -/
structure Relayed (s : Session) (r : Session × List Notice) : Prop where
  closed : s.connected = false → r.1.connected = false
  wellFormed : r.1.connected = true → r.1.connection.remotes.WellFormed
  disconnected : s.connected = true → (.disconnected ∈ r.2 ↔ r.1.connected = false)
  read : s.connected = true → ∀ id,
    (ClientStage.next id).read (s.stage id) (relay r.2) = some (r.1.stage id)

/-- A connection that is closed is not heard any more. -/
theorem Relayed.of_closed {r : Session × List Notice} (h : s.connected = false)
    (h' : r.1.connected = false) : s.Relayed r := by
  constructor
  · exact fun _ => h'
  · intro hopen
    rw [h'] at hopen
    cases hopen
  · intro hopen
    rw [h] at hopen
    cases hopen
  · intro hopen
    rw [h] at hopen
    cases hopen

/-- Nothing is raised, and nothing changed that the law is about. -/
theorem Relayed.of_silent {r : Session × List Notice}
    (hwf : s.connection.remotes.WellFormed) (hconnected : r.1.connected = s.connected)
    (hremotes : r.1.connection.remotes = s.connection.remotes)
    (hsilent : ∀ n ∈ r.2, n.isSilent = true) : s.Relayed r := by
  constructor
  · exact fun h => hconnected.trans h
  · intro _
    rw [hremotes]
    exact hwf
  · intro h
    rw [hconnected, h]
    refine iff_of_false ?_ (by decide)
    intro hmem
    exact absurd (hsilent _ hmem) (by decide)
  · intro h id
    rw [relay_of_isSilent hsilent, stage_of_connected h, stage_of_connected (hconnected.trans h),
      announced, announced, hremotes]
    rfl

theorem Relayed.append {r r' : Session × List Notice} (h : s.Relayed r) (h' : r.1.Relayed r') :
    s.Relayed (r'.1, r.2 ++ r'.2) := by
  refine ⟨fun hclosed => h'.closed (h.closed hclosed), h'.wellFormed, ?_, ?_⟩
  · intro hopen
    rw [List.mem_append, h.disconnected hopen]
    cases hconnected : r.1.connected with
    | false => exact iff_of_true (.inl rfl) (h'.closed hconnected)
    | true =>
        rw [h'.disconnected hconnected]
        simp
  · intro hopen id
    cases hconnected : r.1.connected with
    | false =>
        rw [relay_append_of_mem ((h.disconnected hopen).mpr hconnected), h.read hopen id,
          stage_of_closed hconnected, stage_of_closed (h'.closed hconnected)]
    | true =>
        have hnot : .disconnected ∉ r.2 := by
          rw [h.disconnected hopen, hconnected]
          decide
        rw [relay_append hnot]
        exact Monitor.read_append_of (h.read hopen id) (h'.read hconnected id)

/-! ### Reactions -/

theorem closed_react (h : s.connected = false) (reaction : Reaction) :
    (s.react reaction).1.connected = false := by
  cases reaction with
  | act action => exact (connected_act s action).trans h
  | close inner =>
      unfold react
      dsimp only
      rw [h]
      exact h

theorem closed_reacts (reactions : List Reaction) :
    ∀ {s : Session}, s.connected = false → (s.reacts reactions).1.connected = false := by
  induction reactions with
  | nil => exact fun h => h
  | cons reaction reactions ih => exact fun h => ih (closed_react h reaction)

/-- Reactions that do not close the connection change local signals only. -/
theorem reacts_of_staysConnected (reactions : List Reaction) :
    ∀ s : Session, StaysConnected reactions →
      (s.reacts reactions).2 = [] ∧ (s.reacts reactions).1.connected = s.connected ∧
        (s.reacts reactions).1.connection.remotes = s.connection.remotes := by
  induction reactions with
  | nil => exact fun s _ => ⟨rfl, rfl, rfl⟩
  | cons reaction reactions ih =>
      intro s hstays
      cases reaction with
      | close inner => exact absurd List.mem_cons_self (hstays inner)
      | act action =>
          have hrest := ih (s.act action) fun inner hmem =>
            hstays inner (List.mem_cons_of_mem _ hmem)
          rw [connected_act, remotes_act] at hrest
          exact hrest

/-- **`connection::on_peer_closed`**: the signals that are announced are
withdrawn, and the client is disconnected. -/
theorem relayed_onPeerClosed (hwf : s.connection.remotes.WellFormed)
    (hconnected : s.connected = true) (inner : Nat → List LocalAction) :
    s.Relayed (s.onPeerClosed inner) := by
  have hopen := (s.remotes_onPeerClosed inner).2
  obtain ⟨outputs, hnotices⟩ := s.notices_onPeerClosed inner
  constructor
  · exact fun _ => hopen
  · intro h
    rw [hopen] at h
    cases h
  · intro _
    refine iff_of_true ?_ hopen
    rw [hnotices]
    exact List.mem_append_right _ List.mem_cons_self
  · intro _ id
    have hread := (RemoteSignals.obeys_clearRemoteSignals hwf).availability id
    have hafter : s.connection.remotes.clearRemoteSignals.1.announced id = false := by
      rw [RemoteSignals.announced, (RemoteSignals.clearRemoteSignals_empty _).1]
      rfl
    have hnot : .disconnected ∉ s.connection.remotes.clearRemoteSignals.2.map Notice.remote ++
        outputs.map Notice.output := by
      simp
    rw [stage_of_connected hconnected, stage_of_closed hopen, hnotices, relay_append hnot,
      Monitor.read_append, read_relay id _ hnot, remoteEvents_append, remoteEvents_remote,
      remoteEvents_output, List.append_nil, announced, hread, hafter]
    rfl

/-- **One reaction.** -/
theorem relayed_react (hwf : s.connection.remotes.WellFormed) (reaction : Reaction) :
    s.Relayed (s.react reaction) := by
  cases reaction with
  | act action =>
      exact .of_silent hwf (connected_act s action) (remotes_act s action) fun _ h => nomatch h
  | close inner =>
      unfold react
      dsimp only
      by_cases hconnected : s.connected = true
      · rw [if_pos hconnected]
        exact relayed_onPeerClosed hwf hconnected inner
      · have hclosed := Bool.eq_false_iff.mpr hconnected
        rw [if_neg hconnected]
        exact .of_closed hclosed hclosed

/-- **What happens during one call.** -/
theorem relayed_reacts (reactions : List Reaction) :
    ∀ {s : Session}, s.connection.remotes.WellFormed → s.Relayed (s.reacts reactions) := by
  induction reactions with
  | nil =>
      intro s hwf
      exact .of_silent hwf rfl rfl fun _ h => nomatch h
  | cons reaction reactions ih =>
      intro s hwf
      have hfirst := relayed_react hwf reaction
      by_cases hopen : (s.react reaction).1.connected = true
      · exact hfirst.append (ih (hfirst.wellFormed hopen))
      · have hclosed := Bool.eq_false_iff.mpr hopen
        exact hfirst.append (.of_closed hclosed (closed_reacts reactions hclosed))

/-- A reaction that closes the connection has closed it in the end. -/
theorem closed_reacts_of_close (reactions : List Reaction) :
    ∀ {s : Session}, ¬ StaysConnected reactions → (s.reacts reactions).1.connected = false := by
  induction reactions with
  | nil => exact fun h => absurd (fun _ hmem => nomatch hmem) h
  | cons reaction reactions ih =>
      intro s hcloses
      cases reaction with
      | act action =>
          apply ih
          intro hstays
          apply hcloses
          intro inner hmem
          exact hstays inner (by simpa using hmem)
      | close inner =>
          have hclosed : (s.react (.close inner)).1.connected = false := by
            unfold react
            dsimp only
            by_cases hconnected : s.connected = true
            · rw [if_pos hconnected]
              exact (s.remotes_onPeerClosed inner).2
            · rw [if_neg hconnected]
              exact Bool.eq_false_iff.mpr hconnected
          exact closed_reacts reactions hclosed

/-! ### Calls behind a handler -/

theorem closed_callouts (notices : List Notice) :
    ∀ {s : Session} (answers : Nat → List Reaction), s.connected = false →
      (s.callouts answers notices).1.connected = false := by
  induction notices with
  | nil => exact fun _ h => h
  | cons n notices ih => exact fun answers h => ih _ (closed_reacts (answers 0) h)

/-- **Calls behind a handler.**  The handler has changed the connection already;
its calls tell of that one after another. -/
theorem relayed_callouts (notices : List Notice) :
    ∀ {s : Session} (answers : Nat → List Reaction), s.connection.remotes.WellFormed →
      s.connected = true → Timely answers notices → .disconnected ∉ notices →
      let r := s.callouts answers notices
      (r.1.connected = true → r.1.connection.remotes.WellFormed) ∧
        (.disconnected ∈ r.2 ↔ r.1.connected = false) ∧
        ∀ id b, (availability id).read b (remoteEvents notices) = some (s.announced id) →
          (ClientStage.next id).read (.connected b) (relay r.2) = some (r.1.stage id) := by
  induction notices with
  | nil =>
      intro s answers hwf hconnected _ _
      refine ⟨fun _ => hwf, iff_of_false (fun hmem => nomatch hmem) ?_, ?_⟩
      · intro hclosed
        rw [show s.connected = false from hclosed] at hconnected
        cases hconnected
      · intro id b hread
        change some (ClientStage.connected b) = some (s.stage id)
        rw [stage_of_connected hconnected, Option.some.inj hread]
  | cons n notices ih =>
      intro s answers hwf hconnected htimely hnot r
      have hn : .disconnected ∉ [n] := fun hmem =>
        hnot (by rw [List.mem_singleton.mp hmem]; exact List.mem_cons_self)
      have hnotices : .disconnected ∉ notices := fun hmem => hnot (List.mem_cons_of_mem _ hmem)
      have hr : r.2 = [n] ++ ((s.reacts (answers 0)).2 ++
          ((s.reacts (answers 0)).1.callouts (fun i => answers (i + 1)) notices).2) := rfl
      have hlast : r.1 =
          ((s.reacts (answers 0)).1.callouts (fun i => answers (i + 1)) notices).1 := rfl
      -- What the law of an id has seen after the first call.
      have hhead {id : String} {b : Bool} (hread : (availability id).read b
          (remoteEvents (n :: notices)) = some (s.announced id)) :
          ∃ b', (ClientStage.next id).read (.connected b) (relay [n]) = some (.connected b') ∧
            (availability id).read b' (remoteEvents notices) = some (s.announced id) := by
        rw [show n :: notices = [n] ++ notices from rfl, remoteEvents_append,
          Monitor.read_append] at hread
        obtain ⟨b', hfirst, hrest⟩ := Option.bind_eq_some_iff.mp hread
        refine ⟨b', ?_, hrest⟩
        rw [read_relay id _ hn, hfirst]
        rfl
      by_cases hstays : StaysConnected (answers 0)
      · obtain ⟨hsilent, hconn, hremotes⟩ := reacts_of_staysConnected _ s hstays
        rw [hsilent, List.nil_append] at hr
        have hrest := ih (s := (s.reacts (answers 0)).1) (fun i => answers (i + 1))
          (by rw [hremotes]; exact hwf) (hconn.trans hconnected) htimely.2 hnotices
        refine ⟨hrest.1, ?_, ?_⟩
        · rw [hr, hlast, List.mem_append]
          exact (or_iff_right hn).trans hrest.2.1
        · intro id b hread
          obtain ⟨b', hfirst, htail⟩ := hhead hread
          rw [hr, relay_append hn]
          refine Monitor.read_append_of hfirst (hrest.2.2 id b' ?_)
          rw [htail, announced, announced, hremotes]
      · have hsilent := htimely.1.resolve_left hstays
        have hduring := relayed_reacts (answers 0) hwf
        have hclosed := closed_reacts_of_close (answers 0) (s := s) hstays
        have hmem := (hduring.disconnected hconnected).mpr hclosed
        have hend : r.1.connected = false := closed_callouts notices _ hclosed
        refine ⟨?_, iff_of_true ?_ hend, ?_⟩
        · intro hopen
          rw [hend] at hopen
          cases hopen
        · rw [hr]
          exact List.mem_append_right _ (List.mem_append_left _ hmem)
        · intro id b hread
          obtain ⟨b', hfirst, htail⟩ := hhead hread
          rw [read_of_isSilent hsilent] at htail
          rw [hr, relay_append hn, relay_append_of_mem hmem, stage_of_closed hend]
          refine Monitor.read_append_of hfirst ?_
          rw [Option.some.inj htail, ← stage_of_connected hconnected, hduring.read hconnected,
            stage_of_closed hclosed]

/-- A piece of a handler with its calls: what it changed is what the calls tell
of. -/
theorem relayed_piece {t : Session} {notices : List Notice} {answers : Nat → List Reaction}
    (hwf : t.connection.remotes.WellFormed) (hconnected : t.connected = s.connected)
    (htimely : s.connected = true → Timely answers notices) (hnot : .disconnected ∉ notices)
    (hread : ∀ id, (availability id).read (s.announced id) (remoteEvents notices) =
      some (t.announced id)) : s.Relayed (t.callouts answers notices) := by
  by_cases hopen : s.connected = true
  · obtain ⟨hwf', hdisconnected, hlaw⟩ := relayed_callouts notices answers hwf
      (hconnected.trans hopen) (htimely hopen) hnot
    constructor
    · intro hclosed
      rw [hclosed] at hopen
      cases hopen
    · exact hwf'
    · exact fun _ => hdisconnected
    · intro _ id
      rw [stage_of_connected hopen]
      exact hlaw id _ (hread id)
  · have hclosed := Bool.eq_false_iff.mpr hopen
    exact .of_closed hclosed (closed_callouts notices answers (hconnected.trans hclosed))

/-! ### Messages -/

theorem disconnected_not_mem_remote (events : List RemoteEvent) :
    .disconnected ∉ events.map Notice.remote := by
  simp

/-- **A loop over ids.** -/
theorem relayed_forEach {f : RemoteSignals → String → RemoteSignals × List RemoteEvent}
    (hwf : ∀ (c : RemoteSignals) (id : String), c.WellFormed → (f c id).1.WellFormed)
    (hobeys : ∀ (c : RemoteSignals) (id : String), c.WellFormed → c.Obeys (f c id))
    (ids : List String) :
    ∀ {s : Session} (answers : Nat → Nat → List Reaction),
      (s.connected = true → s.connection.remotes.WellFormed) →
      s.ForEachTimely f answers ids → s.Relayed (s.forEach f answers ids) := by
  induction ids with
  | nil =>
      intro s answers h _
      by_cases hopen : s.connected = true
      · exact .of_silent (h hopen) rfl rfl fun _ hmem => nomatch hmem
      · exact .of_closed (Bool.eq_false_iff.mpr hopen) (Bool.eq_false_iff.mpr hopen)
  | cons id ids ih =>
      intro s answers h htimely
      have hfirst : s.Relayed ((s.withRemotes (f s.connection.remotes id).1).callouts (answers 0)
          ((f s.connection.remotes id).2.map .remote)) := by
        by_cases hopen : s.connected = true
        · apply relayed_piece (s := s) (t := s.withRemotes (f s.connection.remotes id).1)
            (hwf _ id (h hopen)) rfl htimely.1 (disconnected_not_mem_remote _)
          intro id'
          rw [remoteEvents_remote]
          exact (hobeys _ id (h hopen)).availability id'
        · have hclosed := Bool.eq_false_iff.mpr hopen
          exact .of_closed hclosed (closed_callouts _ _ hclosed)
      exact hfirst.append (ih (fun n => answers (n + 1)) hfirst.wellFormed htimely.2)

/-- A round of `handle_available` is one call at most. -/
theorem forEachTimely_announce (ids : List String) :
    ∀ (s : Session) (answers : Nat → Nat → List Reaction),
      s.ForEachTimely RemoteSignals.announce answers ids := by
  induction ids with
  | nil => exact fun _ _ => trivial
  | cons id ids ih =>
      intro s answers
      have htail : ((s.connection.remotes.announce id).2.map Notice.remote).tail = [] := by
        rw [RemoteSignals.announce_snd]
        split <;> rfl
      have htimely : Timely (answers 0) ((s.connection.remotes.announce id).2.map .remote) := by
        apply timely_of_isSilent
        rw [htail]
        exact fun n hn => nomatch hn
      exact ⟨fun _ => htimely, ih _ _⟩

/-- What is asked of a message: no pointer that dangles is followed, and no call
closes the connection before a withdrawal is told. -/
def MessageSteady (s : Session) (answers : Nat → Nat → List Reaction) (m : Message) : Prop :=
  if globalMethod m = "unavailable" then
    s.ForEachTimely RemoteSignals.withdraw answers (RemoteSignals.signalIds (paramsOf m))
  else s.connection.remotes.FollowsNoDangling (.message m)

/-- What is asked of a step of a connection. -/
def Steady (s : Session) : Input → Prop
  | .message m answers => s.connected = true → s.MessageSteady answers m
  | .hello _ => True
  | .react _ => True

/-- **A message.** -/
theorem relayed_message (hwf : s.connection.remotes.WellFormed) {m : Message}
    {answers : Nat → Nat → List Reaction} (hok : s.MessageSteady answers m) :
    ∃ r, s.message answers m = some r ∧ s.Relayed r := by
  unfold MessageSteady at hok
  unfold message
  by_cases havailable : globalMethod m = "available"
  · rw [if_pos havailable]
    exact ⟨_, rfl, relayed_forEach (fun _ id h => h.announce id)
      (fun _ id h => RemoteSignals.obeys_announce h id) _ answers (fun _ => hwf)
      (forEachTimely_announce _ s answers)⟩
  rw [if_neg havailable]
  by_cases hunavailable : globalMethod m = "unavailable"
  · rw [if_pos hunavailable] at hok ⊢
    exact ⟨_, rfl, relayed_forEach (fun _ id h => h.withdraw id)
      (fun _ id h => RemoteSignals.obeys_withdraw h id) _ answers (fun _ => hwf) hok⟩
  rw [if_neg hunavailable] at hok ⊢
  cases hthrows : throws m with
  | true => exact ⟨_, if_pos rfl, .of_silent hwf rfl rfl fun _ h => nomatch h⟩
  | false =>
      obtain ⟨r, hr⟩ := receive_isSome hthrows hok
      have hremotes := remotes_receive hr
      have hsilent : ∀ n ∈ r.2.1.map Notice.output ++ r.2.2.map Notice.remote,
          n.isSilent = true := by
        intro n hn
        rcases List.mem_append.mp hn with hn | hn
        · obtain ⟨o, -, rfl⟩ := List.mem_map.mp hn
          rfl
        · obtain ⟨e, he, rfl⟩ := List.mem_map.mp hn
          obtain ⟨a, event, rfl⟩ := signal_of_step havailable hunavailable hremotes he
          rfl
      rw [if_neg Bool.false_ne_true, hr]
      refine ⟨_, rfl, relayed_piece (t := { s with connection := r.1 })
        (hwf.step hremotes) rfl ?_ ?_ ?_⟩
      · exact fun _ => timely_of_isSilent _ _ fun n hn => hsilent n (List.mem_of_mem_tail hn)
      · exact fun hmem => absurd (hsilent _ hmem) (by decide)
      · intro id
        rw [remoteEvents_append, remoteEvents_output, remoteEvents_remote, List.nil_append]
        exact (RemoteSignals.obeys_step hwf hremotes).availability id

/-- **One step of a connection.** -/
theorem relayed_step (hwf : s.connected = true → s.connection.remotes.WellFormed)
    {input : Input} (hok : s.Steady input) : ∃ r, s.step input = some r ∧ s.Relayed r := by
  by_cases hconnected : s.connected = true
  · have hwf := hwf hconnected
    cases input with
    | message m answers =>
        unfold step
        dsimp only
        rw [if_pos hconnected]
        exact relayed_message hwf (hok hconnected)
    | react reaction => exact ⟨_, rfl, relayed_react hwf reaction⟩
    | hello answers =>
        refine ⟨_, rfl, relayed_piece (t := { s with connection := s.connection.doHello.1 })
          hwf rfl ?_ ?_ ?_⟩
        · exact fun _ => timely_of_isSilent _ _ fun n hn =>
            output_isSilent n (List.mem_of_mem_tail hn)
        · exact fun hmem => absurd (output_isSilent _ hmem) (by decide)
        · intro id
          rw [remoteEvents_output]
          rfl
  · have hclosed := Bool.eq_false_iff.mpr hconnected
    cases input with
    | message m answers =>
        unfold step
        dsimp only
        rw [if_neg hconnected]
        exact ⟨_, rfl, .of_closed hclosed hclosed⟩
    | react reaction => exact ⟨_, rfl, .of_closed hclosed (closed_react hclosed reaction)⟩
    | hello answers =>
        exact ⟨_, rfl, .of_closed hclosed (closed_callouts _ answers hclosed)⟩

/-- Calls during which the connection stays open. -/
theorem snd_callouts_of_staysConnected (notices : List Notice) :
    ∀ {s : Session} {answers : Nat → List Reaction},
      (∀ n, n < notices.length → StaysConnected (answers n)) →
      (s.callouts answers notices).2 = notices := by
  induction notices with
  | nil => exact fun _ => rfl
  | cons n notices ih =>
      intro s answers h
      have hfirst := (reacts_of_staysConnected _ s (h 0 (Nat.zero_lt_succ _))).1
      have hrest := ih (s := (s.reacts (answers 0)).1) fun i hi =>
        h (i + 1) (Nat.succ_lt_succ hi)
      change n :: ((s.reacts (answers 0)).2 ++ _) = n :: notices
      rw [hfirst, List.nil_append, hrest]

end Session

/-! ## Servers -/

namespace Server

/-- The same clients, and for each connection nothing different that the events
of the server depend on. -/
structure SameClients (s s' : Server) : Prop where
  clients : s'.clients = s.clients
  connected : ∀ p, (s'.connections p).connected = (s.connections p).connected
  remotes : ∀ p, (s'.connections p).connection.remotes = (s.connections p).connection.remotes

theorem SameClients.refl (s : Server) : SameClients s s := ⟨rfl, fun _ => rfl, fun _ => rfl⟩

/-- A broadcast in which nobody fails. -/
theorem sameClients_broadcast {operation : Connection → Connection × List Output}
    {fails : Nat → Bool} {s : Server} (hremotes : ∀ c, (operation c).1.remotes = c.remotes)
    (hnodup : s.clients.Nodup) (hfails : ∀ p ∈ s.clients, ¬ Fails operation fails s p) :
    ∃ w, s.broadcast operation fails = some w ∧ SameClients s w.state := by
  obtain ⟨hclients, hconnections⟩ := foldl_call hnodup hfails
  refine ⟨_, (broadcast_eq hnodup).trans (if_neg ?_), hclients, ?_, ?_⟩
  · rintro ⟨p, hp, hfail⟩
    exact hfails p hp hfail
  · intro p
    rw [hconnections]
    by_cases hp : p ∈ s.clients
    · rw [if_pos hp, served_self]
      rfl
    · rw [if_neg hp]
  · intro p
    rw [hconnections]
    by_cases hp : p ∈ s.clients
    · rw [if_pos hp, served_self]
      exact hremotes _
    · rw [if_neg hp]

end Server

namespace Hosting

variable {w : Hosting}

theorem remotes_addLocalSignal (c : Connection) (signal : LocalSignal) :
    (c.addLocalSignal signal).1.remotes = c.remotes := rfl

theorem remotes_removeLocalSignal (c : Connection) (signal : LocalSignal) :
    (c.removeLocalSignal signal).1.remotes = c.remotes := rfl

/-- `server::add_local_signal`, if nobody fails. -/
theorem sameClients_addLocalSignal {s : Server} {signal : LocalSignal} {fails : Nat → Bool}
    (hnodup : s.clients.Nodup)
    (hfails : ∀ p ∈ s.clients, ¬ Server.Fails (fun c => c.addLocalSignal signal) fails s p) :
    ∃ s', s.addLocalSignal signal fails = some s' ∧ Server.SameClients s s' := by
  unfold Server.addLocalSignal
  by_cases hknown : signal.address ∈ s.orderedSignals.map LocalSignal.address
  · rw [if_pos hknown]
    exact ⟨s, rfl, .refl s⟩
  · obtain ⟨cursor, hcursor, hclients, hconnected, hremotes⟩ :=
      Server.sameClients_broadcast (s := s.offering (s.orderedSignals ++ [signal]))
        (remotes_addLocalSignal · signal) hnodup hfails
    rw [if_neg hknown]
    exact ⟨cursor.state, congrArg (Option.map _) hcursor, hclients, hconnected, hremotes⟩

/-- `server::remove_local_signal`, if nobody fails. -/
theorem sameClients_removeLocalSignal {s : Server} {signal : LocalSignal} {fails : Nat → Bool}
    (hnodup : s.clients.Nodup)
    (hfails : ∀ p ∈ s.clients, ¬ Server.Fails (fun c => c.removeLocalSignal signal) fails s p) :
    ∃ s', s.removeLocalSignal signal fails = some s' ∧ Server.SameClients s s' := by
  unfold Server.removeLocalSignal
  by_cases hknown : signal.address ∈ s.orderedSignals.map LocalSignal.address
  · obtain ⟨cursor, hcursor, hclients, hconnected, hremotes⟩ :=
      Server.sameClients_broadcast
        (s := s.offering (s.orderedSignals.filter fun t => t.address ≠ signal.address))
        (remotes_removeLocalSignal · signal) hnodup hfails
    rw [if_pos hknown]
    exact ⟨cursor.state, congrArg (Option.map _) hcursor, hclients, hconnected, hremotes⟩
  · rw [if_neg hknown]
    exact ⟨s, rfl, .refl s⟩

/-- What holds of a server between two steps: the entries are the ones of the
connections that are open. -/
structure Sound (w : Hosting) : Prop where
  nodup : w.server.clients.Nodup
  accepted : ∀ p ∈ w.server.clients, p < w.accepted
  listed : ∀ p, p < w.accepted →
    (p ∈ w.server.clients ↔ (w.server.connections p).connected = true)
  wellFormed : ∀ p, p < w.accepted → (w.server.connections p).connected = true →
    (w.server.connections p).connection.remotes.WellFormed

/-- The events of a step take each law from what the server was to what it is. -/
def Tells (w : Hosting) (r : Hosting × List (Nat × ServerEvent)) : Prop :=
  ∀ k, (clientLaw k).read (w.stage k) r.2 = some (r.1.stage k)

theorem Tells.append {r r' : Hosting × List (Nat × ServerEvent)} (h : w.Tells r)
    (h' : r.1.Tells r') : w.Tells (r'.1, r.2 ++ r'.2) :=
  fun k => Monitor.read_append_of (h k) (h' k)

/-- The events of one client. -/
theorem read_clientLaw_self (p : Nat) (id : String) (events : List ServerEvent) :
    ∀ stage, (clientLaw (p, id)).read stage (events.map fun e => (p, e)) =
      (ClientStage.next id).read stage events := by
  induction events with
  | nil => exact fun _ => rfl
  | cons e events ih =>
      intro stage
      rw [List.map_cons, Monitor.read_cons, Monitor.read_cons]
      have hfirst : clientLaw (p, id) stage (p, e) = ClientStage.next id stage e := if_pos rfl
      rw [hfirst]
      congr 1
      funext stage'
      exact ih stage'

theorem read_clientLaw_other {k : Nat × String} {p : Nat} (hp : p ≠ k.1)
    (events : List ServerEvent) (stage : ClientStage) :
    (clientLaw k).read stage (events.map fun e => (p, e)) = some stage := by
  apply Monitor.read_ignored
  intro e he
  obtain ⟨event, -, rfl⟩ := List.mem_map.mp he
  exact if_neg hp

/-- A server with the same clients is at the same stages. -/
theorem stage_of_sameClients {server : Server} (h : Server.SameClients w.server server)
    (k : Nat × String) : Hosting.stage { w with server := server } k = w.stage k := by
  unfold stage Session.stage Session.announced
  dsimp only
  rw [h.connected, h.remotes]

theorem Sound.of_sameClients (hs : w.Sound) {server : Server}
    (h : Server.SameClients w.server server) : Sound { w with server := server } := by
  constructor
  · change server.clients.Nodup
    rw [h.clients]
    exact hs.nodup
  · intro p hp
    change p ∈ server.clients at hp
    rw [h.clients] at hp
    exact hs.accepted p hp
  · intro p hp
    change p ∈ server.clients ↔ (server.connections p).connected = true
    rw [h.clients, h.connected]
    exact hs.listed p hp
  · intro p hp hconnected
    change (server.connections p).connected = true at hconnected
    change (server.connections p).connection.remotes.WellFormed
    rw [h.connected] at hconnected
    rw [h.remotes]
    exact hs.wellFormed p hp hconnected

theorem tells_of_sameClients {server : Server} (h : Server.SameClients w.server server) :
    w.Tells ({ w with server := server }, []) :=
  fun k => congrArg some (stage_of_sameClients h k).symm

/-! ### What happens to a connection -/

section Relayed

variable {p : Nat} {r : Session × List Notice}

theorem connections_relayed (w : Hosting) (p : Nat) (r : Session × List Notice) :
    (w.relayed p r).1.server.connections = Function.update w.server.connections p r.1 := by
  unfold relayed
  dsimp only
  split
  · dsimp only
    split <;> rfl
  · rfl

theorem accepted_relayed (w : Hosting) (p : Nat) (r : Session × List Notice) :
    (w.relayed p r).1.accepted = w.accepted := by
  unfold relayed
  dsimp only
  split <;> rfl

/-- The entry of a client is there until it is disconnected. -/
theorem mem_clients_relayed (q : Nat) : q ∈ (w.relayed p r).1.server.clients ↔
    q ∈ w.server.clients ∧ (q = p → .disconnected ∉ r.2) := by
  unfold relayed
  dsimp only
  by_cases hp : p ∈ w.server.clients
  · rw [if_pos hp]
    dsimp only
    by_cases hdisconnected : .disconnected ∈ r.2
    · rw [if_pos hdisconnected]
      change q ∈ w.server.clients.filter (fun q => q ≠ p) ↔ _
      rw [List.mem_filter, decide_eq_true_eq]
      exact and_congr_right fun _ => ⟨fun hne heq => absurd heq hne,
        fun h heq => h heq hdisconnected⟩
    · rw [if_neg hdisconnected]
      exact (and_iff_left fun _ => hdisconnected).symm
  · rw [if_neg hp]
    change q ∈ w.server.clients ↔ _
    constructor
    · intro hq
      refine ⟨hq, fun heq => ?_⟩
      rw [heq] at hq
      exact absurd hq hp
    · exact And.left

theorem nodup_relayed (h : w.server.clients.Nodup) :
    (w.relayed p r).1.server.clients.Nodup := by
  unfold relayed
  dsimp only
  split
  · dsimp only
    split
    · exact h.filter _
    · exact h
  · exact h

/-- The server keeps its entries in step with the connections. -/
theorem Sound.relayed (hs : w.Sound) (hr : (w.server.connections p).Relayed r) :
    (w.relayed p r).1.Sound := by
  constructor
  · exact nodup_relayed hs.nodup
  · intro q hq
    rw [accepted_relayed]
    exact hs.accepted q (mem_clients_relayed q |>.mp hq).1
  · intro q hq
    rw [accepted_relayed] at hq
    rw [mem_clients_relayed, connections_relayed, hs.listed q hq]
    by_cases hqp : q = p
    · rw [hqp, Function.update_self]
      constructor
      · rintro ⟨hopen, hnot⟩
        rw [hr.disconnected hopen] at hnot
        exact Bool.not_eq_false _ |>.mp (hnot rfl)
      · intro hopen
        have hbefore : (w.server.connections p).connected = true := by
          by_contra hclosed
          rw [hr.closed (Bool.eq_false_iff.mpr hclosed)] at hopen
          cases hopen
        refine ⟨hbefore, fun _ => ?_⟩
        rw [hr.disconnected hbefore, hopen]
        decide
    · rw [Function.update_of_ne hqp]
      exact and_iff_left fun heq => absurd heq hqp
  · intro q hq hopen
    rw [accepted_relayed] at hq
    rw [connections_relayed] at hopen ⊢
    by_cases hqp : q = p
    · rw [hqp, Function.update_self] at hopen ⊢
      exact hr.wellFormed hopen
    · rw [Function.update_of_ne hqp] at hopen ⊢
      exact hs.wellFormed q hq hopen

/-- What the entry of a client makes the server raise. -/
theorem snd_relayed (w : Hosting) (p : Nat) (r : Session × List Notice) :
    (w.relayed p r).2 = if p ∈ w.server.clients then (relay r.2).map fun e => (p, e) else [] := by
  unfold Hosting.relayed
  dsimp only
  split <;> rfl

theorem tells_relayed (hs : w.Sound) (hp : p < w.accepted)
    (hr : (w.server.connections p).Relayed r) : w.Tells (w.relayed p r) := by
  rintro ⟨q, id⟩
  rw [snd_relayed]
  have hafter : (w.relayed p r).1.stage (q, id) = if q < w.accepted then
      (Function.update w.server.connections p r.1 q).stage id else .fresh := by
    rw [stage, connections_relayed, accepted_relayed]
  by_cases hqp : q = p
  · subst hqp
    rw [if_pos hp, Function.update_self] at hafter
    have hbefore : w.stage (q, id) = (w.server.connections q).stage id := if_pos hp
    rw [hafter, hbefore]
    by_cases hopen : (w.server.connections q).connected = true
    · rw [if_pos ((hs.listed q hp).mpr hopen), read_clientLaw_self]
      exact hr.read hopen id
    · have hclosed := Bool.eq_false_iff.mpr hopen
      rw [if_neg fun hmem => hopen ((hs.listed q hp).mp hmem), Session.stage_of_closed hclosed,
        Session.stage_of_closed (hr.closed hclosed)]
      rfl
  · have hsame : (w.relayed p r).1.stage (q, id) = w.stage (q, id) := by
      rw [hafter, Function.update_of_ne hqp]
      rfl
    rw [hsame]
    by_cases hlisted : p ∈ w.server.clients
    · rw [if_pos hlisted]
      exact read_clientLaw_other (fun heq => hqp heq.symm) _ _
    · rw [if_neg hlisted]
      rfl

end Relayed

/-! ### A new client -/

section Enter

variable {session : Session}

theorem Sound.enter (hs : w.Sound) (hconnected : session.connected = true)
    (hwf : session.connection.remotes.WellFormed) : (w.enter session).Sound := by
  have hnew : w.accepted ∉ w.server.clients :=
    fun hmem => absurd (hs.accepted _ hmem) (Nat.lt_irrefl _)
  have hother {q : Nat} (hq : q < w.accepted) :
      Function.update w.server.connections w.accepted session q = w.server.connections q :=
    Function.update_of_ne (Nat.ne_of_lt hq) _ _
  have hself : Function.update w.server.connections w.accepted session w.accepted = session :=
    Function.update_self _ _ _
  constructor
  · exact List.nodup_append.mpr ⟨hs.nodup, List.nodup_singleton _, fun a ha b hb heq =>
      hnew (by rw [← List.mem_singleton.mp hb, ← heq]; exact ha)⟩
  · intro q hq
    rcases List.mem_append.mp hq with hq | hq
    · exact Nat.lt_succ_of_lt (hs.accepted q hq)
    · rw [List.mem_singleton.mp hq]
      exact Nat.lt_succ_self _
  · intro q hq
    change q ∈ w.server.clients ++ [w.accepted] ↔
      (Function.update w.server.connections w.accepted session q).connected = true
    rw [List.mem_append, List.mem_singleton]
    rcases Nat.lt_succ_iff_lt_or_eq.mp hq with hq | rfl
    · rw [hother hq, hs.listed q hq]
      exact or_iff_left (Nat.ne_of_lt hq)
    · rw [hself]
      exact iff_of_true (.inr rfl) hconnected
  · intro q hq hopen
    change (Function.update w.server.connections w.accepted session q).connected = true at hopen
    change (Function.update w.server.connections w.accepted session
      q).connection.remotes.WellFormed
    rcases Nat.lt_succ_iff_lt_or_eq.mp hq with hq | rfl
    · rw [hother hq] at hopen ⊢
      exact hs.wellFormed q hq hopen
    · rw [hself]
      exact hwf

/-- `on_client_connected` tells of the entry. -/
theorem tells_enter (w : Hosting) (hconnected : session.connected = true)
    (hremotes : session.connection.remotes = {}) :
    w.Tells (w.enter session, [(w.accepted, .connected)]) := by
  rintro ⟨q, id⟩
  by_cases hq : q = w.accepted
  · subst hq
    have hbefore : w.stage (w.accepted, id) = .fresh := if_neg (Nat.lt_irrefl _)
    have hafter : (w.enter session).stage (w.accepted, id) = session.stage id := by
      change (if w.accepted < w.accepted + 1 then
        (Function.update w.server.connections w.accepted session w.accepted).stage id
          else .fresh) = _
      rw [if_pos (Nat.lt_succ_self _), Function.update_self]
    have hread := read_clientLaw_self w.accepted id [.connected] .fresh
    rw [hafter, hbefore, Session.stage_of_connected hconnected, Session.announced, hremotes]
    exact hread
  · have hsame : (w.enter session).stage (q, id) = w.stage (q, id) := by
      change (if q < w.accepted + 1 then
        (Function.update w.server.connections w.accepted session q).stage id else .fresh) = _
      rw [Function.update_of_ne hq]
      by_cases hlt : q < w.accepted
      · rw [if_pos (Nat.lt_succ_of_lt hlt)]
        exact (if_pos hlt).symm
      · have hnot : ¬ q < w.accepted + 1 := by omega
        rw [if_neg hnot]
        exact (if_neg hlt).symm
    rw [hsame]
    exact read_clientLaw_other (fun heq => hq heq.symm) [.connected] _

theorem remotes_accept (w : Hosting) (localStreamId : String) (commandInterfaces : Json) :
    (w.accept localStreamId commandInterfaces).remotes = {} := by
  have hfold (signals : List LocalSignal) : ∀ c : Connection,
      (signals.foldl (fun c signal => (c.addLocalSignal signal).1) c).remotes = c.remotes := by
    induction signals with
    | nil => exact fun c => rfl
    | cons signal signals ih => exact fun c => ih (c.addLocalSignal signal).1
  exact hfold w.server.orderedSignals _

end Enter

/-! ### Steps and runs -/

/-- What is asked of a step: nothing fails while a hello is sent, no client fails
while it is told of a signal of the server, and the server is closed when it
has no clients. -/
def Steady (w : Hosting) : Input → Prop
  | .upgrade localStreamId commandInterfaces answers _ =>
      w.closed = false →
        ∀ n, n < ((w.accept localStreamId commandInterfaces).doHello.2.map Notice.output).length →
          Session.StaysConnected (answers n)
  | .client p input => p < w.accepted → (w.server.connections p).Steady input
  | .addLocalSignal signal fails =>
      ∀ p ∈ w.server.clients, ¬ Server.Fails (fun c => c.addLocalSignal signal) fails w.server p
  | .removeLocalSignal signal fails =>
      ∀ p ∈ w.server.clients,
        ¬ Server.Fails (fun c => c.removeLocalSignal signal) fails w.server p
  | .close => w.closed = false → w.server.clients = []

/-- The state after a step. -/
def advance (w : Hosting) (input : Input) : Option Hosting := (w.step input).map Prod.fst

theorem tells_refl (w : Hosting) : w.Tells (w, []) := fun _ => rfl

/-- **A client is accepted.** -/
theorem tells_upgrade (hs : w.Sound) (localStreamId : String) (commandInterfaces : Json)
    {answers : Nat → List Reaction} (during : List Reaction)
    (hstays : ∀ n,
      n < ((w.accept localStreamId commandInterfaces).doHello.2.map Notice.output).length →
        Session.StaysConnected (answers n)) :
    ∃ r, w.onServicerWebsocketUpgrade localStreamId commandInterfaces answers during = some r ∧
      r.1.Sound ∧ w.Tells r := by
  obtain ⟨session, hsession⟩ : ∃ session : Session,
      session = { connection := w.accept localStreamId commandInterfaces } := ⟨_, rfl⟩
  have hconnected : session.connected = true := by
    rw [hsession]
  have hremotes : session.connection.remotes = {} := by
    rw [hsession]
    exact remotes_accept w localStreamId commandInterfaces
  have hwf : session.connection.remotes.WellFormed := by
    rw [hremotes]
    exact RemoteSignals.wellFormed_empty
  have hself : (w.enter session).server.connections w.accepted = session :=
    Function.update_self _ _ _
  have hp : w.accepted < (w.enter session).accepted := Nat.lt_succ_self _
  -- The hello.
  have hsteady : session.Steady (.hello answers) := trivial
  obtain ⟨r, hr, hrelayed⟩ := Session.relayed_step (fun _ => hwf) hsteady
  have hsilent : relay r.2 = [] := by
    have hnotices : r.2 = (w.accept localStreamId commandInterfaces).doHello.2.map .output := by
      rw [← Option.some.inj hr, hsession]
      exact Session.snd_callouts_of_staysConnected _ hstays
    rw [hnotices]
    exact relay_of_isSilent Session.output_isSilent
  have hrelayed' : ((w.enter session).server.connections w.accepted).Relayed r := by
    rw [hself]
    exact hrelayed
  have hentered := hs.enter hconnected hwf
  have hhello := tells_relayed hentered hp hrelayed'
  have hnone : ((w.enter session).relayed w.accepted r).2 = [] := by
    rw [snd_relayed, hsilent]
    split <;> rfl
  -- `on_client_connected`.
  obtain ⟨w', hw'⟩ : ∃ w', w' = ((w.enter session).relayed w.accepted r).1 := ⟨_, rfl⟩
  have hsound : w'.Sound := by
    rw [hw']
    exact hentered.relayed hrelayed'
  have hp' : w.accepted < w'.accepted := by
    rw [hw', accepted_relayed]
    exact hp
  have hreacts : (w'.server.connections w.accepted).Relayed
      ((w'.server.connections w.accepted).reacts during) := by
    by_cases hopen : (w'.server.connections w.accepted).connected = true
    · exact Session.relayed_reacts during (hsound.wellFormed _ hp' hopen)
    · have hclosed := Bool.eq_false_iff.mpr hopen
      exact .of_closed hclosed (Session.closed_reacts during hclosed)
  have hmore := tells_relayed hsound hp' hreacts
  refine ⟨((w'.relayed w.accepted ((w'.server.connections w.accepted).reacts during)).1,
    [(w.accepted, .connected)] ++
      (w'.relayed w.accepted ((w'.server.connections w.accepted).reacts during)).2), ?_,
    hsound.relayed hreacts, ?_⟩
  · unfold onServicerWebsocketUpgrade
    dsimp only
    rw [← hsession, hr, Option.map_some, hnone, ← hw']
    rfl
  · have htells : Tells (w.enter session) (w', []) := by
      intro k
      have hk := hhello k
      rw [hnone] at hk
      rw [hw']
      exact hk
    have hconnect := (tells_enter w hconnected hremotes).append htells
    exact hconnect.append hmore

/-- **One step.** -/
theorem tells_step (hs : w.Sound) {input : Input} (hok : w.Steady input) :
    ∃ r, w.step input = some r ∧ r.1.Sound ∧ w.Tells r := by
  cases input with
  | upgrade localStreamId commandInterfaces answers during =>
      unfold step
      dsimp only
      cases hclosed : w.closed with
      | true => exact ⟨_, rfl, hs, w.tells_refl⟩
      | false => exact tells_upgrade hs localStreamId commandInterfaces during (hok hclosed)
  | client p input =>
      unfold step
      dsimp only
      by_cases hp : p < w.accepted
      · obtain ⟨r, hr, hrelayed⟩ := Session.relayed_step (hs.wellFormed p hp) (hok hp)
        rw [if_pos hp, hr]
        exact ⟨_, rfl, hs.relayed hrelayed, tells_relayed hs hp hrelayed⟩
      · rw [if_neg hp]
        exact ⟨_, rfl, hs, w.tells_refl⟩
  | addLocalSignal signal fails =>
      obtain ⟨server, hserver, hsame⟩ := sameClients_addLocalSignal hs.nodup hok
      exact ⟨({ w with server := server }, []), congrArg (Option.map _) hserver,
        hs.of_sameClients hsame, tells_of_sameClients hsame⟩
  | removeLocalSignal signal fails =>
      obtain ⟨server, hserver, hsame⟩ := sameClients_removeLocalSignal hs.nodup hok
      exact ⟨({ w with server := server }, []), congrArg (Option.map _) hserver,
        hs.of_sameClients hsame, tells_of_sameClients hsame⟩
  | close =>
      refine ⟨_, rfl, ?_⟩
      unfold close
      cases hclosed : w.closed with
      | true => exact ⟨hs, w.tells_refl⟩
      | false =>
          -- Without clients nothing is dropped.
          have hserver : { w.server with clients := [] } = w.server := by rw [← hok hclosed]
          rw [if_neg Bool.false_ne_true, hserver]
          exact ⟨⟨hs.nodup, hs.accepted, hs.listed, hs.wellFormed⟩, fun _ => rfl⟩

/-- **Events of a server.**  In every run of a server in which nothing fails
while a hello is sent or a client is told of a signal, no call closes a
connection before a withdrawal is told, no pointer that dangles is followed,
and the server is closed without clients, the events of each client are in
order and none is missing. -/
theorem events_ordered_of_steady (inputs : List Input) (h : MeetsOpt advance Steady {} inputs) :
    ∃ r, Trace.run step {} inputs = some r ∧ Ordered r := by
  have hsound : Sound {} := by
    refine ⟨List.nodup_nil, ?_, ?_, ?_⟩
    · exact fun p hp => nomatch hp
    · exact fun p hp => absurd hp (Nat.not_lt_zero p)
    · exact fun p hp => absurd hp (Nat.not_lt_zero p)
  have hstep (w : Hosting) (input : Input) (hw : w.Sound) (hok : w.Steady input) :
      ∃ r, step w input = some r ∧ r.1.Sound ∧
        ∀ k, (clientLaw k).read (w.stage k) r.2 = some (r.1.stage k) := tells_step hw hok
  obtain ⟨r, hr, -, hread⟩ := Trace.read_run_of_meets stage hstep inputs {} hsound h
  exact ⟨r, hr, hread⟩

/-- The peer of a client tells of signals. -/
def tell (p : Nat) (method : String) (ids : List String) : Input :=
  .client p (.message (.ofMetadata 0 method (.object [("signalIds", .array (ids.map .string))]))
    fun _ _ => [])

/-- A client whose peer says goodbye. -/
def goodbye (p : Nat) : Input := .client p (.react (.close fun _ => []))

/-- The peer of a client tells of two signals, withdraws one of them and says
goodbye before the server is closed. -/
def visit : List Input :=
  [.upgrade "client" .null (fun _ => []) [], tell 0 "available" ["a", "b"],
    tell 0 "unavailable" ["a"], goodbye 0, .close]

theorem events_ordered_visit :
    MeetsOpt advance Steady {} visit ∧
      ∃ r, Trace.run step {} visit = some r ∧ Ordered r := by
  have hstays : Session.StaysConnected [] := fun _ hmem => nomatch hmem
  have hmeets : MeetsOpt advance Steady {} visit := by
    refine ⟨fun _ n _ => hstays, fun w hw => ?_⟩
    obtain rfl := Option.some.inj hw
    refine ⟨fun _ _ signo hsigno => ?_, fun w hw => ?_⟩
    -- A message of the connection itself is not dispatched.
    · cases hsigno
    obtain rfl := Option.some.inj hw
    refine ⟨fun _ _ => ⟨fun _ => ⟨.inl hstays, .inl hstays, trivial⟩, trivial⟩, fun w hw => ?_⟩
    obtain rfl := Option.some.inj hw
    refine ⟨fun _ => trivial, fun w hw => ?_⟩
    obtain rfl := Option.some.inj hw
    refine ⟨fun _ => ?_, fun _ _ => trivial⟩
    decide +kernel
  exact ⟨hmeets, events_ordered_of_steady _ hmeets⟩

-- Each signal is withdrawn before the client is gone.
example : (Trace.run step {} visit).map Prod.snd =
    some [(0, .connected), (0, .available "a" 0), (0, .available "b" 1),
      (0, .unavailable "a" 0), (0, .unavailable "b" 1), (0, .disconnected)] := by
  decide +kernel

/-- The law does not hold in every run: the server is closed while it has a
client, and nobody is told when the client is gone. -/
theorem closed_server_tells_nothing :
    ¬ ∃ r, Trace.run step {} [.upgrade "client" .null (fun _ => []) [], .close, goodbye 0] =
      some r ∧ Ordered r := by
  rintro ⟨r, hr, hordered⟩
  have htrace : (Trace.run step {} [.upgrade "client" .null (fun _ => []) [], .close,
      goodbye 0]).map (fun r => (r.2, r.1.stage (0, "signal"))) =
        some ([(0, .connected)], .over) := by
    decide +kernel
  rw [hr, Option.map_some] at htrace
  have hread := hordered (0, "signal")
  rw [(Prod.mk.inj (Option.some.inj htrace)).1, (Prod.mk.inj (Option.some.inj htrace)).2] at hread
  cases hread

end Hosting

end WsStreaming.Ports
