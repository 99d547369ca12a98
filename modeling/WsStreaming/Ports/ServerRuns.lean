import WsStreaming.Ports.Greeting
import WsStreaming.Ports.ServerEvents

/-!
# Servers that are reached

What a server keeps while clients come and go, signals are added and removed and
anything happens to its connections: no client is listed twice, the listed ones
are connected, and no connection has a signal twice.

A connection that closes during a call has raised `on_disconnected` by the time
the call returns, and with it the server has dropped the entry.

## Main results

* `Hosting.wellFormed_of_run` — every server that is reached is well formed.
-/

namespace WsStreaming.Ports

open WsStreaming.Verified
open Faces (Registry)

/-! ## Connections -/

namespace Session

/-- No signal comes to be registered twice, and a connection stays connected or
raises `on_disconnected`. -/
structure Lasts (s : Session) (r : Session × List Notice) : Prop where
  registry : Registry s.connection.locals.faces → Registry r.1.connection.locals.faces
  connected : s.connected = true → .disconnected ∉ r.2 → r.1.connected = true

section Lasts

variable {s : Session}

/-- Nothing changed that it is about. -/
theorem Lasts.of_same {r : Session × List Notice}
    (hlocals : r.1.connection.locals = s.connection.locals)
    (hconnected : r.1.connected = s.connected) : s.Lasts r :=
  ⟨fun h => by rw [hlocals]; exact h, fun h _ => hconnected.trans h⟩

theorem Lasts.append {r r' : Session × List Notice} (h : s.Lasts r) (h' : r.1.Lasts r') :
    s.Lasts (r'.1, r.2 ++ r'.2) := by
  constructor
  · exact fun hs => h'.registry (h.registry hs)
  · intro hs hnone
    rw [List.mem_append, not_or] at hnone
    exact h'.connected (h.connected hs hnone.1) hnone.2

/-- A handler changes the connection before its calls. -/
theorem Lasts.after {t : Session} {r : Session × List Notice} (h : t.Lasts r)
    (hregistry : Registry s.connection.locals.faces → Registry t.connection.locals.faces)
    (hconnected : t.connected = s.connected) : s.Lasts r :=
  ⟨fun hs => h.registry (hregistry hs), fun hs => h.connected (hconnected.trans hs)⟩

/-- Calls that come on top make no difference. -/
theorem Lasts.cons {r : Session × List Notice} (h : s.Lasts r) (notice : Notice) :
    s.Lasts (r.1, notice :: r.2) :=
  ⟨h.registry, fun hs hnone => h.connected hs fun hmem => hnone (List.mem_cons_of_mem _ hmem)⟩

theorem registry_act (h : Registry s.connection.locals.faces) (action : LocalAction) :
    Registry (s.act action).connection.locals.faces := by
  cases action with
  | add signal => exact (LocalSignals.registry_addLocalSignal h signal).1
  | remove signal => exact (LocalSignals.ending_removeLocalSignal h signal).registry

theorem registry_acts (actions : List LocalAction) :
    ∀ {s : Session}, Registry s.connection.locals.faces →
      Registry (s.acts actions).connection.locals.faces := by
  induction actions with
  | nil => exact fun h => h
  | cons action actions ih => exact fun h => ih (registry_act h action)

/-- **One reaction.** -/
theorem lasts_react (s : Session) (reaction : Reaction) : s.Lasts (s.react reaction) := by
  cases reaction with
  | act action =>
      exact ⟨fun h => registry_act h action, fun h _ => (connected_act s action).trans h⟩
  | close inner =>
      unfold react
      dsimp only
      cases hconnected : s.connected with
      | false => exact .of_same rfl rfl
      | true =>
          refine ⟨fun _ => ?_, fun _ hnone => ?_⟩
          · apply registry_acts
            exact (LocalSignals.ending_clearLocalSignals _).registry
          · exact absurd (List.mem_append_right _ List.mem_cons_self) hnone

/-- **What happens during one call.** -/
theorem lasts_reacts (reactions : List Reaction) : ∀ s : Session, s.Lasts (s.reacts reactions) := by
  induction reactions with
  | nil => exact fun s => .of_same rfl rfl
  | cons reaction reactions ih => exact fun s => (lasts_react s reaction).append (ih _)

/-- **Calls behind a handler.** -/
theorem lasts_callouts (notices : List Notice) :
    ∀ (s : Session) (answers : Nat → List Reaction), s.Lasts (s.callouts answers notices) := by
  induction notices with
  | nil => exact fun s _ => .of_same rfl rfl
  | cons notice notices ih =>
      exact fun s answers => ((lasts_reacts (answers 0) s).cons notice).append (ih _ _)

/-- **A loop over ids.** -/
theorem lasts_forEach (f : RemoteSignals → String → RemoteSignals × List RemoteEvent)
    (ids : List String) : ∀ (s : Session) (answers : Nat → Nat → List Reaction),
      s.Lasts (s.forEach f answers ids) := by
  induction ids with
  | nil => exact fun s _ => .of_same rfl rfl
  | cons id ids ih =>
      intro s answers
      have hround : s.Lasts ((s.withRemotes (f s.connection.remotes id).1).callouts (answers 0)
          ((f s.connection.remotes id).2.map .remote)) :=
        (lasts_callouts _ _ _).after (fun h => h) rfl
      exact hround.append (ih _ _)

/-- A command of the peer. -/
theorem registry_command {c : LocalSignals} (h : Registry c.faces)
    (command : LocalSignals.Command) : Registry (c.command command).1.faces := by
  rw [LocalSignals.command_fst]
  induction command.requests generalizing c with
  | nil => exact h
  | cons r requests ih => exact ih (LocalSignals.outcome_request h r).registry

/-- **A message, without what happens during its calls.** -/
theorem registry_receive {c : Connection} {m : Message}
    {q : Connection × List Output × List RemoteEvent} (hq : c.receive m = some q)
    (h : Registry c.locals.faces) : Registry q.1.locals.faces := by
  rcases Connection.receive_cases hq with ⟨-, rfl⟩ | ⟨-, rfl⟩ | ⟨-, p, hp, rfl⟩ |
    ⟨-, remotes, events, rfl⟩
  · obtain ⟨version, hframe⟩ := c.handleApiVersion_frame (paramsOf m)
    rw [hframe]
    exact h
  · obtain ⟨streamId, helloSent, hframe⟩ := c.handleInit_frame (paramsOf m)
    rw [hframe]
    exact h
  · unfold Connection.handleCommandInterfaceRequest at hp
    split at hp
    · rw [← Option.some.inj hp]
      dsimp only
      cases (paramsOf m).stringAt? "method" with
      | none => exact h
      | some method =>
          dsimp only
          unfold Connection.doCommandInterface
          split
          · exact registry_command h (.subscribe _)
          split
          · exact registry_command h (.unsubscribe _)
          · exact h
    · cases hp
  · exact h

/-- **One step of a connection.** -/
theorem lasts_step {input : Input} {r : Session × List Notice} (hr : s.step input = some r) :
    s.Lasts r := by
  cases input with
  | message m answers =>
      unfold step at hr
      dsimp only at hr
      cases hconnected : s.connected with
      | false =>
          rw [hconnected, if_neg Bool.false_ne_true] at hr
          rw [← Option.some.inj hr]
          exact .of_same rfl rfl
      | true =>
          rw [hconnected, if_pos rfl] at hr
          unfold message at hr
          split at hr
          · rw [← Option.some.inj hr]
            exact lasts_forEach _ _ s answers
          split at hr
          · rw [← Option.some.inj hr]
            exact lasts_forEach _ _ s answers
          split at hr
          · rw [← Option.some.inj hr]
            exact .of_same rfl rfl
          · obtain ⟨q, hq, rfl⟩ := Option.map_eq_some_iff.mp hr
            exact (lasts_callouts _ _ _).after (registry_receive hq) rfl
  | hello answers =>
      rw [← Option.some.inj hr]
      exact (lasts_callouts _ _ _).after (fun h => h) rfl
  | react reaction =>
      rw [← Option.some.inj hr]
      exact lasts_react s reaction

end Lasts

end Session

/-! ## The server -/

namespace Server

variable {s : Server} {fails : Nat → Bool}

theorem WellFormed.onConnectionDisconnected (hs : s.WellFormed) (p : Nat) :
    (s.onConnectionDisconnected p).WellFormed where
  nodup := hs.nodup.filter _
  connected q hq := hs.connected q (List.mem_filter.mp hq).1
  registry q hq := hs.registry q (List.mem_filter.mp hq).1

/-- A client has another connection, which is open and has no signal twice. -/
theorem WellFormed.put (hs : s.WellFormed) (p : Nat) (session : Session)
    (hsession : p ∈ s.clients →
      session.connected = true ∧ Registry session.connection.locals.faces) :
    { s with connections := Function.update s.connections p session }.WellFormed := by
  have hclient (q : Nat) (hq : q ∈ s.clients) :
      (Function.update s.connections p session q).connected = true ∧
        Registry (Function.update s.connections p session q).connection.locals.faces := by
    by_cases hqp : q = p
    · subst hqp
      rw [Function.update_self]
      exact hsession hq
    · rw [Function.update_of_ne hqp]
      exact ⟨hs.connected q hq, hs.registry q hq⟩
  exact ⟨hs.nodup, fun q hq => (hclient q hq).1, fun q hq => (hclient q hq).2⟩

/-- A broadcast that has a result keeps the clients, and the server well
formed. -/
theorem WellFormed.broadcast {operation : Connection → Connection × List Output}
    {w : Walk.Cursor Server Nat} (hs : s.WellFormed)
    (hoperation : ∀ p ∈ s.clients,
      Registry (operation (s.connections p).connection).1.locals.faces)
    (h : s.broadcast operation fails = some w) :
    w.state.WellFormed ∧ w.state.clients = s.clients := by
  obtain ⟨-, hclients, hcalled⟩ := broadcast_spec hs.nodup h
  refine ⟨⟨?_, ?_, ?_⟩, hclients⟩
  · rw [hclients]
    exact hs.nodup
  · intro p hp
    rw [hclients] at hp
    rw [(hcalled p hp).2]
    exact hs.connected p hp
  · intro p hp
    rw [hclients] at hp
    rw [(hcalled p hp).1]
    exact hoperation p hp

theorem WellFormed.addLocalSignal {s' : Server} (hs : s.WellFormed) (signal : LocalSignal)
    (h : s.addLocalSignal signal fails = some s') : s'.WellFormed ∧ s'.clients = s.clients := by
  unfold Server.addLocalSignal at h
  split at h
  · obtain rfl := Option.some.inj h
    exact ⟨hs, rfl⟩
  · obtain ⟨w, hw, rfl⟩ := Option.map_eq_some_iff.mp h
    have hoffering := hs.offering (s.orderedSignals ++ [signal])
    exact hoffering.broadcast
      (fun p hp => (LocalSignals.registry_addLocalSignal (hs.registry p hp) signal).1) hw

theorem WellFormed.removeLocalSignal {s' : Server} (hs : s.WellFormed) (signal : LocalSignal)
    (h : s.removeLocalSignal signal fails = some s') : s'.WellFormed ∧ s'.clients = s.clients := by
  unfold Server.removeLocalSignal at h
  split at h
  · obtain ⟨w, hw, rfl⟩ := Option.map_eq_some_iff.mp h
    have hoffering := hs.offering (s.orderedSignals.filter fun t => t.address ≠ signal.address)
    exact hoffering.broadcast
      (fun p hp => (LocalSignals.ending_removeLocalSignal (hs.registry p hp) signal).registry) hw
  · obtain rfl := Option.some.inj h
    exact ⟨hs, rfl⟩

end Server

/-! ## Runs -/

namespace Hosting

/-- What holds of a server between two steps. -/
structure Reached (w : Hosting) : Prop where
  wellFormed : w.server.WellFormed
  accepted : ∀ p ∈ w.server.clients, p < w.accepted

section Reached

variable {w : Hosting}

/-- The connection of an accepted client has each signal of the server once. -/
theorem registry_accept (w : Hosting) (localStreamId : String) (commandInterfaces : Json) :
    Registry (w.accept localStreamId commandInterfaces).locals.faces := by
  have hfold (signals : List LocalSignal) : ∀ c : Connection, Registry c.locals.faces →
      Registry (signals.foldl (fun c signal => (c.addLocalSignal signal).1) c).locals.faces := by
    induction signals with
    | nil => exact fun c h => h
    | cons signal signals ih =>
        exact fun c h => ih _ (LocalSignals.registry_addLocalSignal h signal).1
  exact hfold _ _ ⟨List.nodup_nil, fun _ he => absurd he List.not_mem_nil, List.nodup_nil⟩

/-- **Something happens to a connection.** -/
theorem Reached.relayed (h : w.Reached) {p : Nat} {r : Session × List Notice}
    (hr : (w.server.connections p).Lasts r) : (w.relayed p r).1.Reached := by
  unfold Hosting.relayed
  by_cases hp : p ∈ w.server.clients
  · rw [if_pos hp]
    dsimp only
    by_cases hgone : Notice.disconnected ∈ r.2
    · rw [if_pos hgone]
      -- The entry goes first, and then it does not matter what becomes of the connection.
      refine ⟨(h.wellFormed.onConnectionDisconnected p).put p r.1 fun hmem => ?_,
        fun q hq => ?_⟩
      · exact absurd rfl (of_decide_eq_true (List.mem_filter.mp hmem).2)
      · exact h.accepted q (List.mem_filter.mp hq).1
    · rw [if_neg hgone]
      exact ⟨h.wellFormed.put p r.1 fun _ => ⟨hr.connected (h.wellFormed.connected p hp) hgone,
        hr.registry (h.wellFormed.registry p hp)⟩, h.accepted⟩
  · rw [if_neg hp]
    exact ⟨h.wellFormed.put p r.1 fun hmem => absurd hmem hp, h.accepted⟩

/-- **A client gets its entry.** -/
theorem Reached.enter (h : w.Reached) (session : Session) (hconnected : session.connected = true)
    (hregistry : Registry session.connection.locals.faces) : (w.enter session).Reached := by
  have hnew : w.accepted ∉ w.server.clients := fun hmem => Nat.lt_irrefl _ (h.accepted _ hmem)
  -- The connection is there before the entry is.
  have hput := h.wellFormed.put w.accepted session fun hmem => absurd hmem hnew
  have hself : (w.enter session).server.connections w.accepted = session :=
    Function.update_self _ _ _
  have hclient (q : Nat) (hq : q ∈ (w.enter session).server.clients) :
      q ∈ w.server.clients ∨ q = w.accepted :=
    (List.mem_append.mp hq).imp_right List.mem_singleton.mp
  refine ⟨⟨?_, ?_, ?_⟩, ?_⟩
  · refine List.nodup_append.mpr ⟨h.wellFormed.nodup, List.nodup_singleton _, ?_⟩
    intro q hq b hb hqb
    rw [List.mem_singleton.mp hb] at hqb
    exact hnew (by rw [← hqb]; exact hq)
  · intro q hq
    rcases hclient q hq with hq | rfl
    · exact hput.connected q hq
    · rw [hself]
      exact hconnected
  · intro q hq
    rcases hclient q hq with hq | rfl
    · exact hput.registry q hq
    · rw [hself]
      exact hregistry
  · intro q hq
    rcases hclient q hq with hq | rfl
    · exact Nat.lt_succ_of_lt (h.accepted q hq)
    · exact Nat.lt_succ_self _

/-- **A client is accepted.** -/
theorem Reached.upgrade (h : w.Reached) {localStreamId : String} {commandInterfaces : Json}
    {answers : Nat → List Reaction} {during : List Reaction}
    {r : Hosting × List (Nat × ServerEvent)}
    (hr : w.onServicerWebsocketUpgrade localStreamId commandInterfaces answers during = some r) :
    r.1.Reached := by
  let session : Session := { connection := w.accept localStreamId commandInterfaces }
  unfold onServicerWebsocketUpgrade at hr
  obtain ⟨q, hq, rfl⟩ := Option.map_eq_some_iff.mp hr
  have hentered : (w.enter session).Reached :=
    h.enter session rfl (w.registry_accept localStreamId commandInterfaces)
  have hself : (w.enter session).server.connections w.accepted = session :=
    Function.update_self _ _ _
  have hlasts : ((w.enter session).server.connections w.accepted).Lasts q := by
    rw [hself]
    exact Session.lasts_step hq
  exact (hentered.relayed hlasts).relayed (Session.lasts_reacts during _)

/-- **One step.** -/
theorem Reached.step (h : w.Reached) {input : Input} {r : Hosting × List (Nat × ServerEvent)}
    (hr : w.step input = some r) : r.1.Reached := by
  cases input with
  | upgrade localStreamId commandInterfaces answers during =>
      unfold Hosting.step at hr
      dsimp only at hr
      split at hr
      · rw [← Option.some.inj hr]
        exact h
      · exact h.upgrade hr
  | client p input =>
      unfold Hosting.step at hr
      dsimp only at hr
      split at hr
      · obtain ⟨q, hq, rfl⟩ := Option.map_eq_some_iff.mp hr
        exact h.relayed (Session.lasts_step hq)
      · rw [← Option.some.inj hr]
        exact h
  | addLocalSignal signal fails =>
      obtain ⟨server, hserver, rfl⟩ := Option.map_eq_some_iff.mp hr
      obtain ⟨hwellFormed, hclients⟩ := h.wellFormed.addLocalSignal signal hserver
      exact ⟨hwellFormed, fun p hp => h.accepted p (by rw [← hclients]; exact hp)⟩
  | removeLocalSignal signal fails =>
      obtain ⟨server, hserver, rfl⟩ := Option.map_eq_some_iff.mp hr
      obtain ⟨hwellFormed, hclients⟩ := h.wellFormed.removeLocalSignal signal hserver
      exact ⟨hwellFormed, fun p hp => h.accepted p (by rw [← hclients]; exact hp)⟩
  | close =>
      rw [← Option.some.inj hr]
      unfold Hosting.close
      split
      · exact h
      · exact ⟨⟨List.nodup_nil, fun p hp => absurd hp List.not_mem_nil,
          fun p hp => absurd hp List.not_mem_nil⟩, fun p hp => absurd hp List.not_mem_nil⟩

/-- **Servers are well formed** after every run that has a result, whatever
happens to the clients and to the signals. -/
theorem wellFormed_of_run (inputs : List Input) {r : Hosting × List (Nat × ServerEvent)}
    (hr : Trace.run step {} inputs = some r) : r.1.server.WellFormed := by
  have hnew : Reached {} := by
    refine ⟨⟨List.nodup_nil, ?_, ?_⟩, ?_⟩ <;>
      exact fun p hp => absurd hp List.not_mem_nil
  exact (Trace.run_invariant (fun _ _ _ h hstep => h.step hstep) inputs _ _ hnew hr).wellFormed

end Reached

end Hosting

end WsStreaming.Ports
