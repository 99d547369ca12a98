import Mathlib.Logic.Function.Basic
import WsStreaming.Verified.Walk
import WsStreaming.Ports.Session
import WsStreaming.Ports.SubscribeFaces

/-!
# Servers and their clients

`wss::server`: the signals it offers, and the connections of its clients.  A
connection is an object on the heap, and `_clients` holds pointers to those
that have not been disconnected.

`add_local_signal` and `remove_local_signal` walk `_clients` and call each
connection.  What such a call sends may fail; then the peer closes inside the
call, and by way of `connection::on_peer_closed` and `on_disconnected` the
server removes the client from the list it is walking.
-/

namespace WsStreaming.Ports

open WsStreaming.Verified WsStreaming.Verified.Walk

/-- Whether an output is a message. -/
def Output.isSend : Output → Bool
  | .send _ => true
  | _ => false

/-- What a failing transport does during the calls of a connection: the first
send closes the peer. -/
def failing (fails : Bool) (outputs : List Output) (n : Nat) : List Reaction :=
  if fails && ((outputs[n]?).map Output.isSend).getD false then [.close fun _ => []] else []

/-- The same with another connection. -/
def Session.withConnection (s : Session) (connection : Connection) : Session :=
  { s with connection := connection }

/-- `wss::server`, as far as its clients go.  `_signals` has the same signals
as `_ordered_signals`. -/
structure Server where
  orderedSignals : List LocalSignal := []
  clients : List Nat := []
  connections : Nat → Session := fun _ => {}

namespace Server

/-- `server::on_connection_disconnected`. -/
def onConnectionDisconnected (s : Server) (p : Nat) : Server :=
  { s with clients := s.clients.filter fun q => q ≠ p }

/-- One call of a connection: `fails` says whose transport fails when something
is sent to it. -/
def call (operation : Connection → Connection × List Output) (fails : Nat → Bool)
    (s : Server) (p : Nat) : Server :=
  let session := s.connections p
  let (connection, outputs) := operation session.connection
  let (session, notices) := (session.withConnection connection).callouts
    (failing (fails p) outputs) (outputs.map .output)
  let s := { s with connections := Function.update s.connections p session }
  if .disconnected ∈ notices then s.onConnectionDisconnected p else s

/-- The loop over `_clients`; it has no result if an iterator to a removed
client is used. -/
def broadcast (operation : Connection → Connection × List Output) (fails : Nat → Bool)
    (s : Server) : Option (Cursor Server Nat) :=
  walk Server.clients (call operation fails) s

/-- The same with other signals to offer. -/
def offering (s : Server) (signals : List LocalSignal) : Server :=
  { s with orderedSignals := signals }

/-- The loop of `server::add_local_signal`. -/
def broadcastAdd (s : Server) (signal : LocalSignal) (fails : Nat → Bool) :
    Option (Cursor Server Nat) :=
  (s.offering (s.orderedSignals ++ [signal])).broadcast
    (fun c => c.addLocalSignal signal) fails

/-- `server::add_local_signal`. -/
def addLocalSignal (s : Server) (signal : LocalSignal) (fails : Nat → Bool) : Option Server :=
  if signal.address ∈ s.orderedSignals.map LocalSignal.address then some s
  else (s.broadcastAdd signal fails).map Cursor.state

/-- The loop of `server::remove_local_signal`. -/
def broadcastRemove (s : Server) (signal : LocalSignal) (fails : Nat → Bool) :
    Option (Cursor Server Nat) :=
  (s.offering (s.orderedSignals.filter fun t => t.address ≠ signal.address)).broadcast
    (fun c => c.removeLocalSignal signal) fails

/-- `server::remove_local_signal`. -/
def removeLocalSignal (s : Server) (signal : LocalSignal) (fails : Nat → Bool) :
    Option Server :=
  if signal.address ∈ s.orderedSignals.map LocalSignal.address then
    (s.broadcastRemove signal fails).map Cursor.state
  else some s

/-- What a server keeps: no client is listed twice, the listed ones are
connected, and no connection has a signal twice. -/
structure WellFormed (s : Server) : Prop where
  nodup : s.clients.Nodup
  connected : ∀ p ∈ s.clients, (s.connections p).connected = true
  registry : ∀ p ∈ s.clients, Faces.Registry (s.connections p).connection.locals.faces

theorem WellFormed.offering {s : Server} (hs : s.WellFormed) (signals : List LocalSignal) :
    (s.offering signals).WellFormed :=
  ⟨hs.nodup, hs.connected, hs.registry⟩

end Server

/-! ## Calls that fail -/

namespace Session

theorem failing_false (outputs : List Output) : failing false outputs = fun _ => [] := rfl

/-- Without a message nothing fails. -/
theorem failing_of_silent {outputs : List Output} (h : ∀ o ∈ outputs, o.isSend = false)
    (fails : Bool) : failing fails outputs = fun _ => [] := by
  funext n
  unfold failing
  cases ho : outputs[n]? with
  | none => simp
  | some o => simp [h o (List.mem_of_getElem? ho)]

theorem failing_cons (fails : Bool) (o : Output) (outputs : List Output) :
    (fun n => failing fails (o :: outputs) (n + 1)) = failing fails outputs := rfl

/-- A peer that is closed does not close again. -/
theorem callouts_failing_closed (fails : Bool) (outputs : List Output) (s : Session)
    (hclosed : s.connected = false) :
    s.callouts (failing fails outputs) (outputs.map .output) = (s, outputs.map .output) := by
  induction outputs with
  | nil => rfl
  | cons o outputs ih =>
      have hreacts : s.reacts (failing fails (o :: outputs) 0) = (s, []) := by
        unfold failing
        split
        · simp [reacts, react, hclosed]
        · rfl
      rw [List.map_cons, callouts, hreacts]
      dsimp only
      rw [failing_cons, ih]
      rfl

/-- What is left of a session whose transport failed. -/
structure Failed (s : Session) (r : Session × List Notice) : Prop where
  connected : r.1.connected = false
  locals : r.1.connection.locals.signals = []
  disconnected : Notice.disconnected ∈ r.2

/-- The first message that is sent closes the peer. -/
theorem callouts_failing {outputs : List Output} :
    ∀ {s : Session}, s.connected = true → (∃ o ∈ outputs, o.isSend = true) →
      s.Failed (s.callouts (failing true outputs) (outputs.map .output)) := by
  induction outputs with
  | nil =>
      rintro s - ⟨o, ho, -⟩
      cases ho
  | cons o outputs ih =>
      rintro s hconnected ⟨o', ho', hsend⟩
      rw [List.map_cons, callouts]
      by_cases ho : o.isSend = true
      · have hreacts : s.reacts (failing true (o :: outputs) 0) =
            ((s.onPeerClosed fun _ => []).1, (s.onPeerClosed fun _ => []).2 ++ []) := by
          simp [failing, ho, reacts, react, hconnected]
        have hacts : ∀ (t : Session) (n : Nat),
            t.acts ((List.range n).flatMap fun _ => []) = t := by
          intro t n
          rw [List.flatMap_eq_nil_iff.mpr fun _ _ => rfl]
          rfl
        have hclosed : (s.onPeerClosed fun _ => []).1.connected = false := by
          unfold onPeerClosed
          dsimp only
          rw [hacts]
          rfl
        rw [hreacts]
        dsimp only
        rw [failing_cons, callouts_failing_closed _ _ _ hclosed]
        refine ⟨hclosed, rfl, ?_⟩
        simp [onPeerClosed]
      · have hreacts : s.reacts (failing true (o :: outputs) 0) = (s, []) := by
          simp [failing, ho, reacts]
        have hrest : ∃ o ∈ outputs, o.isSend = true := by
          rcases List.mem_cons.mp ho' with rfl | ho'
          · exact absurd hsend ho
          · exact ⟨o', ho', hsend⟩
        obtain ⟨hconn, hlocals, hdisc⟩ := ih hconnected hrest
        rw [hreacts]
        dsimp only
        rw [failing_cons]
        exact ⟨hconn, hlocals, by simp [hdisc]⟩

end Session

/-! ## The clients of a server -/

namespace Server

variable {operation : Connection → Connection × List Output} {fails : Nat → Bool}

/-- Whether the call of a client closes it. -/
def Fails (operation : Connection → Connection × List Output) (fails : Nat → Bool)
    (s : Server) (p : Nat) : Prop :=
  fails p = true ∧ (s.connections p).connected = true ∧
    ∃ o ∈ (operation (s.connections p).connection).2, o.isSend = true

instance (operation : Connection → Connection × List Output) (fails : Nat → Bool)
    (s : Server) (p : Nat) : Decidable (Fails operation fails s p) :=
  inferInstanceAs (Decidable (_ ∧ _ ∧ _))

/-- A call that does not fail changes one connection. -/
def served (operation : Connection → Connection × List Output) (s : Server) (p : Nat) :
    Server :=
  { s with
    connections := Function.update s.connections p
      ((s.connections p).withConnection (operation (s.connections p).connection).1) }

theorem served_self (s : Server) (p : Nat) : (s.served operation p).connections p =
    (s.connections p).withConnection (operation (s.connections p).connection).1 :=
  Function.update_self _ _ _

/-- A call, with what it calls out. -/
theorem call_eq (s : Server) (p : Nat) {session : Session} {notices : List Notice}
    (h : ((s.connections p).withConnection (operation (s.connections p).connection).1).callouts
      (failing (fails p) (operation (s.connections p).connection).2)
      ((operation (s.connections p).connection).2.map .output) = (session, notices)) :
    call operation fails s p =
      if .disconnected ∈ notices then
        { s with connections := Function.update s.connections p session }.onConnectionDisconnected p
      else { s with connections := Function.update s.connections p session } := by
  unfold call
  dsimp only
  rw [h]

theorem call_of_not_fails {s : Server} {p : Nat} (h : ¬ Fails operation fails s p) :
    call operation fails s p = s.served operation p := by
  have hcallouts :
      ((s.connections p).withConnection (operation (s.connections p).connection).1).callouts
        (failing (fails p) (operation (s.connections p).connection).2)
        ((operation (s.connections p).connection).2.map .output) =
      ((s.connections p).withConnection (operation (s.connections p).connection).1,
        (operation (s.connections p).connection).2.map .output) := by
    by_cases hfails : fails p = true
    · by_cases hconnected : (s.connections p).connected = true
      · have hsilent : ∀ o ∈ (operation (s.connections p).connection).2, o.isSend = false := by
          intro o ho
          exact Bool.eq_false_iff.mpr fun hsend => h ⟨hfails, hconnected, o, ho, hsend⟩
        rw [Session.failing_of_silent hsilent]
        exact Session.callouts_undisturbed _ _
      · exact Session.callouts_failing_closed _ _ _ (Bool.eq_false_iff.mpr hconnected)
    · rw [Bool.eq_false_iff.mpr hfails, Session.failing_false]
      exact Session.callouts_undisturbed _ _
  rw [call_eq s p hcallouts, if_neg (by simp)]
  rfl

/-- A call that fails removes the client. -/
theorem call_of_fails {s : Server} {p : Nat} (h : Fails operation fails s p) :
    (call operation fails s p).clients = s.clients.filter (fun q => q ≠ p) ∧
    ∀ q, q ≠ p → (call operation fails s p).connections q = s.connections q := by
  obtain ⟨hfails, hconnected, hsend⟩ := h
  have hfailed := Session.callouts_failing
    (s := (s.connections p).withConnection (operation (s.connections p).connection).1)
    hconnected hsend
  rw [call_eq s p (by rw [hfails]), if_pos hfailed.disconnected]
  refine ⟨rfl, fun q hq => ?_⟩
  exact Function.update_of_ne hq _ _

theorem clients_call (s : Server) (p : Nat) :
    (call operation fails s p).clients =
      if Fails operation fails s p then s.clients.filter (fun q => q ≠ p) else s.clients := by
  by_cases h : Fails operation fails s p
  · rw [if_pos h]
    exact (call_of_fails h).1
  · rw [if_neg h, call_of_not_fails h]
    rfl

theorem connections_call (s : Server) {p q : Nat} (hq : q ≠ p) :
    (call operation fails s p).connections q = s.connections q := by
  by_cases h : Fails operation fails s p
  · exact (call_of_fails h).2 q hq
  · rw [call_of_not_fails h]
    show Function.update s.connections p _ q = s.connections q
    exact Function.update_of_ne hq _ _

/-- A call leaves the other clients alone. -/
theorem fails_call (s : Server) (p q : Nat) (hq : q ≠ p) :
    Fails operation fails (call operation fails s p) q ↔ Fails operation fails s q := by
  unfold Fails
  rw [connections_call s hq]

/-- **The loop is defined exactly if no client fails.** -/
theorem broadcast_eq {s : Server} (hnodup : s.clients.Nodup) :
    s.broadcast operation fails =
      if ∃ p ∈ s.clients, Fails operation fails s p then none
      else some ⟨s.clients.foldl (call operation fails) s, none, s.clients⟩ :=
  walk_eq clients_call fails_call s hnodup

/-- Calls that do not fail, one after the other. -/
theorem foldl_call {ps : List Nat} :
    ∀ {s : Server}, ps.Nodup → (∀ p ∈ ps, ¬ Fails operation fails s p) →
      (ps.foldl (call operation fails) s).clients = s.clients ∧
      ∀ p, (ps.foldl (call operation fails) s).connections p =
        if p ∈ ps then (s.served operation p).connections p else s.connections p := by
  induction ps with
  | nil => exact fun _ _ => ⟨rfl, fun _ => rfl⟩
  | cons q ps ih =>
      intro s hnodup hfails
      obtain ⟨hq, hnodup⟩ := List.nodup_cons.mp hnodup
      have hcall := call_of_not_fails (hfails q List.mem_cons_self)
      have hne : ∀ p ∈ ps, p ≠ q := fun p hp hpq => hq (by rw [← hpq]; exact hp)
      obtain ⟨hclients, hconnections⟩ := ih hnodup (s := call operation fails s q) fun p hp => by
        rw [fails_call s q p (hne p hp)]
        exact hfails p (List.mem_cons_of_mem _ hp)
      rw [List.foldl_cons]
      refine ⟨hclients.trans (by rw [hcall]; rfl), fun p => ?_⟩
      rw [hconnections]
      by_cases hpq : p = q
      · rw [hpq, if_neg hq, if_pos List.mem_cons_self, hcall]
      · have hother : (call operation fails s q).connections p = s.connections p :=
          connections_call s hpq
        by_cases hp : p ∈ ps
        · rw [if_pos hp, if_pos (List.mem_cons_of_mem _ hp)]
          simp only [served, Function.update_self, hother]
        · have hcons : p ∉ q :: ps := by
            rw [List.mem_cons]
            exact not_or.mpr ⟨hpq, hp⟩
          rw [if_neg hp, if_neg hcons, hother]

/-- The loop came to its end, without a use of a removed client, and each
client that is still connected was visited once. -/
structure Completed (w : Cursor Server Nat) : Prop where
  position : w.position = none
  once : ∀ p ∈ w.state.clients, w.visited.count p = 1

/-- A loop has a result exactly if no client fails. -/
theorem broadcast_defined_iff {s : Server} (hnodup : s.clients.Nodup) :
    (∃ w, s.broadcast operation fails = some w) ↔
      ∀ p ∈ s.clients, ¬ Fails operation fails s p := by
  rw [broadcast_eq hnodup]
  by_cases hfails : ∃ p ∈ s.clients, Fails operation fails s p
  · rw [if_pos hfails]
    obtain ⟨p, hp, hf⟩ := hfails
    refine iff_of_false ?_ fun hnone => hnone p hp hf
    rintro ⟨w, hw⟩
    cases hw
  · rw [if_neg hfails]
    exact iff_of_true ⟨_, rfl⟩ fun p hp hf => hfails ⟨p, hp, hf⟩

/-- A loop with a result visits every client once, removes none, and leaves
each as its call has left it. -/
theorem broadcast_spec {s : Server} {w : Cursor Server Nat} (hnodup : s.clients.Nodup)
    (h : s.broadcast operation fails = some w) :
    Completed w ∧ w.state.clients = s.clients ∧ ∀ p ∈ s.clients,
      (w.state.connections p).connection = (operation (s.connections p).connection).1 ∧
      (w.state.connections p).connected = (s.connections p).connected := by
  have hnone := (broadcast_defined_iff hnodup).mp ⟨w, h⟩
  obtain ⟨hclients, hconnections⟩ := foldl_call hnodup hnone
  rw [broadcast_eq hnodup, if_neg fun hfails => hfails.elim fun p hp => hnone p hp.1 hp.2] at h
  obtain rfl := Option.some.inj h
  refine ⟨⟨rfl, fun p hp => ?_⟩, hclients, fun p hp => ?_⟩
  · rw [hclients] at hp
    exact List.count_eq_one_of_mem hnodup hp
  · dsimp only
    rw [hconnections, if_pos hp, served_self]
    exact ⟨rfl, rfl⟩

end Server

end WsStreaming.Ports
