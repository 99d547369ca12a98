import WsStreaming.Verified.Run
import WsStreaming.Ports.Connection
import WsStreaming.Ports.SubscribeFaces

/-!
# Subscribe holders

Any number of connections that share signal objects, with what each of them has
sent.  The places that say that a peer is subscribed agree in every state of a
run, and the events of the signal objects alternate.

A connection that gives a signal number to another signal may have sent a
subscribe message for it already, since removing a signal sends no unsubscribe
message.  That takes 2^32 registrations; until then the places agree.

## Main results

* `in_step_of_unused` — the law over all runs.
* `reused_number_out_of_step` — a run that hands out a number again.
-/

namespace WsStreaming.Ports

open WsStreaming.Verified
open WsStreaming.Verified.OrderedMap (OMap Distinct)
open WsStreaming.Verified.Run
open WsStreaming.Verified.Trace
open WsStreaming.Verified.Wire (Bytes)

/-! ## Connections that share signal objects -/

/-- A connection with what it has sent, and whether it was closed. -/
structure Publisher where
  connection : Connection
  sent : List Message := []
  closed : Bool := false

/-- The connection after an operation; a closed one sends nothing. -/
def Publisher.emit (p : Publisher) (r : Connection × List Output) : Publisher :=
  { p with
    connection := r.1
    sent := if p.closed then p.sent else p.sent ++ messagesOf r.2 }

/-- The connections of an application, and its signal objects. -/
structure Publishers where
  publishers : List Publisher := []
  tally : Tally := {}

namespace Connection

/-- A request of the peer, on the connection. -/
def request (c : Connection) (r : LocalSignals.Request) : Connection × List Output :=
  ({ c with locals := (c.locals.request r).1 }, (c.locals.request r).2.1)

/-- `local_signal::set_metadata` of an object, as a connection sees it. -/
def setMetadata (c : Connection) (address : Nat) (metadata : Metadata) :
    Connection × List Output :=
  ({ c with locals := (c.locals.setMetadata address metadata).1 },
    (c.locals.setMetadata address metadata).2)

/-- `local_signal::publish_data` of an object, as a connection sees it. -/
def publishData (c : Connection) (address : Nat) (domainValue : Int64) (sampleCount : Nat)
    (data : Bytes) : Connection × List Output :=
  ({ c with locals := (c.locals.publishData address domainValue sampleCount data).1 },
    (c.locals.publishData address domainValue sampleCount data).2)

end Connection

namespace Publishers

/-- What can happen to the connections and the signal objects. -/
inductive Action where
  | connect (isClient : Bool) (localStreamId : String)
  | hello (i : Nat)
  | add (i : Nat) (signal : LocalSignal)
  | remove (i : Nat) (signal : LocalSignal)
  | request (i : Nat) (r : LocalSignals.Request)
  | setMetadata (address : Nat) (metadata : Metadata)
  | publish (address : Nat) (domainValue : Int64) (sampleCount : Nat) (data : Bytes)
  | close (i : Nat)

/-- An operation on one connection. -/
def on (s : Publishers) (i : Nat) (operation : Connection → Connection × List Output) :
    Publishers :=
  match s.publishers[i]? with
  | none => s
  | some p =>
      { publishers := s.publishers.set i (p.emit (operation p.connection))
        tally := (operation p.connection).2.foldl Tally.output s.tally }

/-- An operation on all connections; it leaves the holders alone. -/
def onAll (s : Publishers) (operation : Connection → Connection × List Output) : Publishers :=
  { s with publishers := s.publishers.map fun p => p.emit (operation p.connection) }

/-- Whether a connection was closed, or is none. -/
def isClosed (s : Publishers) (i : Nat) : Bool :=
  ((s.publishers[i]?).map Publisher.closed).getD true

/-- The mark of a connection that is closed. -/
def markClosed (s : Publishers) (i : Nat) : Publishers :=
  { s with publishers := s.publishers.modify i fun p => { p with closed := true } }

/-- What each of these does.  After a connection was closed no request
arrives, and it is not closed again. -/
def step (s : Publishers) : Action → Publishers
  | .connect isClient localStreamId =>
      { s with publishers := s.publishers ++
          [{ connection := { isClient := isClient, localStreamId := localStreamId } }] }
  | .hello i => s.on i Connection.doHello
  | .add i signal => s.on i fun c => c.addLocalSignal signal
  | .remove i signal => s.on i fun c => c.removeLocalSignal signal
  | .request i r => if s.isClosed i then s else s.on i fun c => c.request r
  | .setMetadata address metadata => s.onAll fun c => c.setMetadata address metadata
  | .publish address domainValue sampleCount data =>
      s.onAll fun c => c.publishData address domainValue sampleCount data
  | .close i =>
      if s.isClosed i then s
      else (s.on i fun c => (c.onPeerClosed.1, c.onPeerClosed.2.1)).markClosed i

end Publishers

/-- The number of holders that track an object, on all connections. -/
def Publishers.holders (s : Publishers) (a : Nat) : Nat :=
  (s.publishers.map fun p => p.connection.locals.engaged a).sum

/-! ## Runs -/

namespace Publishers

open Faces

/-- Before a step: a registration hands out no number for which the connection
has said subscribe last, and a subscribe request does not make the 2^32th
holder of an object. -/
def Unused (s : Publishers) : Action → Prop
  | .add i signal =>
      ∀ p ∈ s.publishers[i]?,
        p.connection.locals.findByAddress signal.address = none →
        OrderedMap.find? p.connection.locals.signals p.connection.locals.nextSigno = none →
        lastSubscription p.sent p.connection.locals.nextSigno ≠ some true
  | .request i (.subscribe _) =>
      ∀ p ∈ s.publishers[i]?, ∀ e ∈ p.connection.locals.signals,
        s.holders e.2.signal.address + 1 < 2 ^ 32
  | _ => True

instance (s : Publishers) (action : Action) : Decidable (s.Unused action) :=
  match action with
  | .add i signal =>
      inferInstanceAs (Decidable (∀ p ∈ s.publishers[i]?,
        p.connection.locals.findByAddress signal.address = none →
        OrderedMap.find? p.connection.locals.signals p.connection.locals.nextSigno = none →
        lastSubscription p.sent p.connection.locals.nextSigno ≠ some true))
  | .request i (.subscribe _) =>
      inferInstanceAs (Decidable (∀ p ∈ s.publishers[i]?, ∀ e ∈ p.connection.locals.signals,
        s.holders e.2.signal.address + 1 < 2 ^ 32))
  | .connect _ _ | .hello _ | .remove _ _ | .request _ (.unsubscribe _) | .setMetadata _ _
  | .publish _ _ _ _ | .close _ => isTrue trivial

/-- The places agree, and the events have alternated. -/
structure InStep (s : Publishers) : Prop where
  faces : ∀ p ∈ s.publishers, ∀ e ∈ p.connection.locals.signals, e.2.face.InStep p.sent
  counts : ∀ a, (s.tally.counts a).toNat = s.holders a
  alternate : ∀ a, alternation.read false (s.tally.about a) = some (decide (0 < s.holders a))

/-- What a step does: the events are those of the changed numbers of holders,
and a data packet is one of a published signal that is subscribed in every
place. -/
structure Exact (s : Publishers) (action : Action) : Prop where
  events : ∀ a, (s.step action).tally.about a =
    s.tally.about a ++ transition a (s.holders a) ((s.step action).holders a)
  data : ∀ (i : Nat) (p p' : Publisher), s.publishers[i]? = some p →
    (s.step action).publishers[i]? = some p' →
    ∀ msg ∈ p'.sent.drop p.sent.length, msg.isData = true →
      ∃ address domainValue sampleCount data,
        action = .publish address domainValue sampleCount data ∧
        ∃ e ∈ p.connection.locals.signals, e.2.signal.address = address ∧ e.2.holder = true ∧
          e.2.onDataPublished = true ∧ lastSubscription p.sent e.2.signo = some true

/-- What holds in every state of a run. -/
structure Invariant (s : Publishers) : Prop extends InStep s where
  registry : ∀ p ∈ s.publishers, Registry p.connection.locals.faces

theorem InStep.tracks {s : Publishers} (h : s.InStep) {p : Publisher} (hp : p ∈ s.publishers) :
    Tracks p.connection.locals.faces p.sent := by
  intro e he
  obtain ⟨e', he', rfl⟩ := List.mem_map.mp he
  exact h.faces p hp e' he'

theorem read_transition (a n n' : Nat) :
    alternation.read (decide (0 < n)) (transition a n n') = some (decide (0 < n')) := by
  unfold transition
  by_cases hon : n = 0 ∧ 0 < n'
  · rw [if_pos hon, hon.1, decide_eq_true hon.2]
    rfl
  · rw [if_neg hon]
    by_cases hoff : 0 < n ∧ n' = 0
    · rw [if_pos hoff, hoff.2, decide_eq_true hoff.1]
      rfl
    · rw [if_neg hoff]
      change some (decide (0 < n)) = _
      congr 1
      rw [decide_eq_decide]
      omega

section Replace

/-- Another state of one connection, and what its operation did outside. -/
def replace (s : Publishers) (i : Nat) (p : Publisher) (outputs : List Output) : Publishers :=
  { publishers := s.publishers.set i p
    tally := outputs.foldl Tally.output s.tally }

variable {s : Publishers} {i : Nat} {p : Publisher}

theorem on_eq (hp : s.publishers[i]? = some p)
    (operation : Connection → Connection × List Output) :
    s.on i operation =
      s.replace i (p.emit (operation p.connection)) (operation p.connection).2 := by
  unfold on
  rw [hp]
  rfl

private theorem sum_map_set {α : Type _} (f : α → Nat) {l : List α} {i : Nat} {x : α}
    (hx : l[i]? = some x) (y : α) :
    ((l.set i y).map f).sum + f x = (l.map f).sum + f y := by
  induction l generalizing i with
  | nil => cases hx
  | cons z l ih =>
      cases i with
      | zero =>
          obtain rfl : z = x := Option.some.inj hx
          simp only [List.set_cons_zero, List.map_cons, List.sum_cons]
          omega
      | succ i =>
          have hrest := ih (i := i) hx
          simp only [List.set_cons_succ, List.map_cons, List.sum_cons]
          omega

theorem holders_replace (hp : s.publishers[i]? = some p) (p' : Publisher)
    (outputs : List Output) (a : Nat) :
    (s.replace i p' outputs).holders a + p.connection.locals.engaged a =
      s.holders a + p'.connection.locals.engaged a :=
  sum_map_set (fun p : Publisher => p.connection.locals.engaged a) hp p'

/-- **A step of one connection.** -/
theorem Invariant.replace (h : s.Invariant) (hp : s.publishers[i]? = some p) (p' : Publisher)
    (outputs : List Output) (hregistry : Registry p'.connection.locals.faces)
    (htracks : Tracks p'.connection.locals.faces p'.sent)
    (hmoves : ∀ a, Moves (Faces.engaged p.connection.locals.faces a)
      (Faces.engaged p'.connection.locals.faces a) (movesOf a outputs))
    (hbound : ∀ a, true ∈ movesOf a outputs → s.holders a + 1 < 2 ^ 32) :
    (s.replace i p' outputs).Invariant ∧
      ∀ a, (s.replace i p' outputs).tally.about a =
        s.tally.about a ++ transition a (s.holders a) ((s.replace i p' outputs).holders a) := by
  have hchange (a : Nat) : Moves (s.holders a) ((s.replace i p' outputs).holders a)
      (movesOf a outputs) := by
    have hsum := holders_replace hp p' outputs a
    have hle : p.connection.locals.engaged a ≤ s.holders a := by
      have hempty := holders_replace hp { connection := {} } outputs a
      change _ = s.holders a + 0 at hempty
      omega
    have hadd := (hmoves a).add (s.holders a - p.connection.locals.engaged a)
    rw [LocalSignals.engaged_faces, LocalSignals.engaged_faces] at hadd
    have hbefore : p.connection.locals.engaged a +
        (s.holders a - p.connection.locals.engaged a) = s.holders a := by omega
    have hafter : p'.connection.locals.engaged a +
        (s.holders a - p.connection.locals.engaged a) = (s.replace i p' outputs).holders a := by
      omega
    rw [hbefore, hafter] at hadd
    exact hadd
  have htally (a : Nat) := (hchange a).tally (h.counts a) (hbound a) a
  have hfold (a : Nat) := Tally.foldl_output a outputs s.tally
  have hevents (a : Nat) : (s.replace i p' outputs).tally.about a =
      s.tally.about a ++ transition a (s.holders a) ((s.replace i p' outputs).holders a) := by
    rw [← (htally a).2]
    exact (hfold a).2
  have hmem (q : Publisher) (hq : q ∈ (s.replace i p' outputs).publishers) :
      q = p' ∨ q ∈ s.publishers := (List.mem_or_eq_of_mem_set hq).symm
  refine ⟨⟨⟨?_, ?_, ?_⟩, ?_⟩, hevents⟩
  · intro q hq e he
    rcases hmem q hq with rfl | hq
    · exact htracks (e.1, e.2.face) (List.mem_map.mpr ⟨e, he, rfl⟩)
    · exact h.faces q hq e he
  · intro a
    change ((outputs.foldl Tally.output s.tally).counts a).toNat = _
    rw [(hfold a).1]
    exact (htally a).1
  · intro a
    rw [hevents a]
    exact Monitor.read_append_of (h.alternate a) (read_transition a _ _)
  · intro q hq
    rcases hmem q hq with rfl | hq
    · exact hregistry
    · exact h.registry q hq

/-- A step of one connection that is described by its outcome. -/
theorem Invariant.on (h : s.Invariant) (hp : s.publishers[i]? = some p) (c : Connection)
    (outputs sends : List Output)
    (hout : LocalSignals.Outcome p.connection.locals c.locals outputs)
    (hsends : ∀ msg ∈ messagesOf sends, ∀ j, msg.subscription? j = none)
    (hsilent : ∀ a, movesOf a sends = [])
    (hclosed : p.closed = true → ∀ msg ∈ messagesOf outputs, ∀ j, msg.subscription? j = none)
    (hbound : ∀ a, true ∈ movesOf a outputs → s.holders a + 1 < 2 ^ 32) :
    (s.replace i (p.emit (c, outputs ++ sends)) (outputs ++ sends)).Invariant ∧
      ∀ a, (s.replace i (p.emit (c, outputs ++ sends)) (outputs ++ sends)).tally.about a =
        s.tally.about a ++ transition a (s.holders a)
          ((s.replace i (p.emit (c, outputs ++ sends)) (outputs ++ sends)).holders a) := by
  have hmoves (a : Nat) : movesOf a (outputs ++ sends) = movesOf a outputs := by
    rw [movesOf_append, hsilent, List.append_nil]
  apply h.replace hp _ _ hout.registry
  · have ht := h.tracks (List.mem_of_getElem? hp)
    unfold Publisher.emit
    cases hc : p.closed with
    | false =>
        intro e he
        rw [if_neg Bool.false_ne_true, messagesOf_append, ← List.append_assoc]
        exact (inStep_append fun msg hmsg => hsends msg hmsg _).mpr (hout.tracks p.sent ht e he)
    | true =>
        intro e he
        rw [if_pos rfl]
        exact (inStep_append fun msg hmsg => hclosed hc msg hmsg _).mp (hout.tracks p.sent ht e he)
  · intro a
    rw [hmoves]
    exact hout.moves a
  · intro a hraise
    rw [hmoves] at hraise
    exact hbound a hraise

end Replace

section Steps

variable {s : Publishers} {i : Nat} {p : Publisher}

theorem transition_self (a n : Nat) : transition a n n = [] := by
  unfold transition
  rw [if_neg (by omega), if_neg (by omega)]

/-- What an emission adds to the sent messages. -/
theorem drop_sent_emit (p : Publisher) (r : Connection × List Output) :
    (p.emit r).sent.drop p.sent.length = if p.closed then [] else messagesOf r.2 := by
  unfold Publisher.emit
  dsimp only
  split
  · exact List.drop_length
  · exact List.drop_left

/-- An operation on all connections that the faces do not show. -/
theorem Invariant.onAll (h : s.Invariant) (operation : Connection → Connection × List Output)
    (hout : ∀ q ∈ s.publishers, LocalSignals.Outcome q.connection.locals
      (operation q.connection).1.locals (operation q.connection).2)
    (hsends : ∀ q ∈ s.publishers, ∀ msg ∈ messagesOf (operation q.connection).2, ∀ j,
      msg.subscription? j = none)
    (hmoves : ∀ q ∈ s.publishers, ∀ a, movesOf a (operation q.connection).2 = []) :
    (s.onAll operation).Invariant ∧ ∀ a, (s.onAll operation).holders a = s.holders a := by
  have hholders (a : Nat) : (s.onAll operation).holders a = s.holders a := by
    unfold holders Publishers.onAll
    rw [List.map_map]
    congr 1
    apply List.map_congr_left
    intro q hq
    have hsame := (hout q hq).moves a
    rw [hmoves q hq a, LocalSignals.engaged_faces, LocalSignals.engaged_faces] at hsame
    generalize hbefore : q.connection.locals.engaged a = n at hsame
    generalize hafter : (operation q.connection).1.locals.engaged a = n' at hsame
    cases hsame
    exact hafter
  refine ⟨⟨⟨?_, ?_, ?_⟩, ?_⟩, hholders⟩
  · intro q' hq' e he
    obtain ⟨q, hq, rfl⟩ := List.mem_map.mp hq'
    have htracks := (hout q hq).tracks q.sent (h.tracks hq) (e.1, e.2.face)
      (List.mem_map.mpr ⟨e, he, rfl⟩)
    unfold Publisher.emit
    dsimp only
    split
    · exact (inStep_append fun msg hmsg => hsends q hq msg hmsg _).mp htracks
    · exact htracks
  · intro a
    rw [hholders]
    exact h.counts a
  · intro a
    rw [hholders]
    exact h.alternate a
  · intro q' hq'
    obtain ⟨q, hq, rfl⟩ := List.mem_map.mp hq'
    exact (hout q hq).registry

/-- Messages about no subscription. -/
theorem subscription?_idsMessage (method : String) (ids : List String)
    (hsub : method ≠ "subscribe") (hunsub : method ≠ "unsubscribe") (j : UInt32) :
    (Connection.idsMessage method ids).subscription? j = none := by
  unfold Connection.idsMessage Message.ofMetadata Message.subscription?
  dsimp only
  rw [if_neg hsub, if_neg hunsub, ite_self]

/-- What the greeting says. -/
theorem doHello_sends (c : Connection) :
    (∀ msg ∈ messagesOf c.doHello.2, ∀ j, msg.subscription? j = none) ∧
      (∀ a, movesOf a c.doHello.2 = []) ∧ LocalSignals.NoData c.doHello.2 := by
  have hall : ∀ o ∈ c.doHello.2, ∃ method params,
      o = .send (.ofMetadata 0 method params) ∧ method ≠ "subscribe" ∧ method ≠ "unsubscribe" := by
    intro o ho
    unfold Connection.doHello at ho
    rcases List.mem_append.mp ho with ho | ho
    · rcases List.mem_cons.mp ho with rfl | ho
      · exact ⟨"apiVersion", _, rfl, by decide, by decide⟩
      · rw [List.mem_singleton.mp ho]
        exact ⟨"init", _, rfl, by decide, by decide⟩
    · split at ho
      · cases ho
      · rw [List.mem_singleton.mp ho]
        exact ⟨"available", _, rfl, by decide, by decide⟩
  refine ⟨?_, ?_, ?_⟩
  · intro msg hmsg j
    obtain ⟨o, ho, hmsg⟩ := List.mem_filterMap.mp hmsg
    obtain ⟨method, params, rfl, hsub, hunsub⟩ := hall o ho
    rw [← Option.some.inj hmsg]
    unfold Message.ofMetadata Message.subscription?
    dsimp only
    rw [if_neg hsub, if_neg hunsub, ite_self]
  · intro a
    apply List.filterMap_eq_nil_iff.mpr
    intro o ho
    obtain ⟨method, params, rfl, -⟩ := hall o ho
    rfl
  · intro msg hmsg
    obtain ⟨o, ho, hmsg⟩ := List.mem_filterMap.mp hmsg
    obtain ⟨method, params, rfl, -⟩ := hall o ho
    rw [← Option.some.inj hmsg]
    rfl

/-- A step that changes nothing. -/
theorem exact_of_same {action : Action} (hstep : s.step action = s) : s.Exact action := by
  constructor
  · intro a
    rw [hstep, transition_self, List.append_nil]
  · intro j q q' hq hq' msg hmsg
    rw [hstep, hq] at hq'
    rw [Option.some.inj hq', List.drop_length] at hmsg
    cases hmsg

/-- A step of one connection that sends no data. -/
theorem exact_of_replace {action : Action} {p' : Publisher} {outputs : List Output}
    (hstep : s.step action = s.replace i p' outputs) (hp : s.publishers[i]? = some p)
    (hevents : ∀ a, (s.replace i p' outputs).tally.about a =
      s.tally.about a ++ transition a (s.holders a) ((s.replace i p' outputs).holders a))
    (hdata : ∀ msg ∈ p'.sent.drop p.sent.length, msg.isData = false) : s.Exact action := by
  constructor
  · rw [hstep]
    exact hevents
  · intro j q q' hq hq' msg hmsg hisData
    rw [hstep] at hq'
    change (s.publishers.set i p')[j]? = some q' at hq'
    by_cases hij : i = j
    · subst hij
      rw [hp] at hq
      obtain rfl := Option.some.inj hq
      have hlt : i < s.publishers.length := (List.getElem?_eq_some_iff.mp hp).1
      rw [List.getElem?_set_self hlt] at hq'
      obtain rfl := Option.some.inj hq'
      rw [hdata msg hmsg] at hisData
      cases hisData
    · rw [List.getElem?_set_ne hij, hq] at hq'
      rw [Option.some.inj hq', List.drop_length] at hmsg
      cases hmsg

theorem noData_emit {r : Connection × List Output} (h : LocalSignals.NoData r.2) :
    ∀ msg ∈ (p.emit r).sent.drop p.sent.length, msg.isData = false := by
  intro msg hmsg
  rw [drop_sent_emit] at hmsg
  split at hmsg
  · cases hmsg
  · exact h msg hmsg

theorem on_of_none (hp : s.publishers[i]? = none)
    (operation : Connection → Connection × List Output) : s.on i operation = s := by
  unfold on
  rw [hp]

/-! ### One lemma for each kind of step -/

theorem step_connect (h : s.Invariant) (isClient : Bool) (localStreamId : String) :
    (s.step (.connect isClient localStreamId)).Invariant ∧
      s.Exact (.connect isClient localStreamId) := by
  have hholders (a : Nat) : (s.step (.connect isClient localStreamId)).holders a =
      s.holders a := by
    unfold holders step
    rw [List.map_append, List.sum_append]
    rfl
  have hmem (q : Publisher) (hq : q ∈ (s.step (.connect isClient localStreamId)).publishers) :
      q ∈ s.publishers ∨ q.connection.locals = {} := by
    rcases List.mem_append.mp hq with hq | hq
    · exact .inl hq
    · rw [List.mem_singleton.mp hq]
      exact .inr rfl
  refine ⟨⟨⟨?_, ?_, ?_⟩, ?_⟩, ⟨?_, ?_⟩⟩
  · intro q hq e he
    rcases hmem q hq with hq | hq
    · exact h.faces q hq e he
    · rw [hq] at he
      cases he
  · intro a
    rw [hholders]
    exact h.counts a
  · intro a
    rw [hholders]
    exact h.alternate a
  · intro q hq
    rcases hmem q hq with hq | hq
    · exact h.registry q hq
    · rw [hq]
      exact ⟨List.nodup_nil, (fun _ he => nomatch he), List.nodup_nil⟩
  · intro a
    rw [hholders, transition_self, List.append_nil]
    rfl
  · intro j q q' hq hq' msg hmsg
    change (s.publishers ++ _)[j]? = some q' at hq'
    rw [List.getElem?_append_left (List.getElem?_eq_some_iff.mp hq).1, hq] at hq'
    rw [Option.some.inj hq', List.drop_length] at hmsg
    cases hmsg

theorem step_hello (h : s.Invariant) (i : Nat) :
    (s.step (.hello i)).Invariant ∧ s.Exact (.hello i) := by
  cases hp : s.publishers[i]? with
  | none =>
      have hsame : s.step (.hello i) = s := on_of_none hp _
      exact ⟨by rw [hsame]; exact h, exact_of_same hsame⟩
  | some p =>
      have hstep : s.step (.hello i) = s.replace i (p.emit p.connection.doHello)
          p.connection.doHello.2 := on_eq hp _
      have hsends := doHello_sends p.connection
      have hnext := h.on hp p.connection.doHello.1 [] p.connection.doHello.2
        (.silent (h.registry p (List.mem_of_getElem? hp)) rfl) hsends.1 hsends.2.1
        (fun _ _ hmsg => nomatch hmsg) (fun _ hraise => nomatch hraise)
      refine ⟨by rw [hstep]; exact hnext.1, exact_of_replace hstep hp hnext.2 ?_⟩
      exact noData_emit hsends.2.2

theorem step_remove (h : s.Invariant) (i : Nat) (signal : LocalSignal) :
    (s.step (.remove i signal)).Invariant ∧ s.Exact (.remove i signal) := by
  cases hp : s.publishers[i]? with
  | none =>
      have hsame : s.step (.remove i signal) = s :=
        on_of_none hp fun c => c.removeLocalSignal signal
      exact ⟨by rw [hsame]; exact h, exact_of_same hsame⟩
  | some p =>
      have hregistry := h.registry p (List.mem_of_getElem? hp)
      have hending := LocalSignals.ending_removeLocalSignal hregistry signal
      have hrelease : messagesOf (p.connection.locals.removeLocalSignal signal).2.1 = [] := by
        unfold LocalSignals.removeLocalSignal
        split
        · exact RegisteredLocalSignal.messagesOf_release _
        · rfl
      have hsends : ∀ msg ∈ messagesOf (if (p.connection.locals.removeLocalSignal signal).2.2 ≠ 0
          then [Output.send (Connection.idsMessage "unavailable" [signal.id])] else []), ∀ j,
          msg.subscription? j = none := by
        intro msg hmsg j
        split at hmsg
        · rw [List.mem_singleton.mp hmsg]
          exact subscription?_idsMessage _ _ (by decide) (by decide) j
        · cases hmsg
      have hstep : s.step (.remove i signal) = s.replace i
          (p.emit (p.connection.removeLocalSignal signal))
          (p.connection.removeLocalSignal signal).2 :=
        on_eq hp fun c => c.removeLocalSignal signal
      have hnext := h.on hp (p.connection.removeLocalSignal signal).1 _ _
        (hending.outcome hregistry) hsends (fun a => by split <;> rfl)
        (fun _ msg hmsg => by rw [hrelease] at hmsg; cases hmsg)
        (fun a hraise => absurd hraise (hending.not_raises a))
      refine ⟨by rw [hstep]; exact hnext.1, exact_of_replace hstep hp hnext.2 ?_⟩
      have hquiet : LocalSignals.NoData
          (if (p.connection.locals.removeLocalSignal signal).2.2 ≠ 0
            then [Output.send (Connection.idsMessage "unavailable" [signal.id])] else []) := by
        split
        · exact LocalSignals.noData_send _
        · exact LocalSignals.noData_nil
      have hnone : LocalSignals.NoData (p.connection.locals.removeLocalSignal signal).2.1 := by
        intro msg hmsg
        rw [hrelease] at hmsg
        cases hmsg
      exact noData_emit (hnone.append hquiet)

theorem step_request (h : s.Invariant) (i : Nat) (r : LocalSignals.Request)
    (hok : s.Unused (.request i r)) :
    (s.step (.request i r)).Invariant ∧ s.Exact (.request i r) := by
  by_cases hclosed : s.isClosed i = true
  · have hsame : s.step (.request i r) = s := if_pos hclosed
    exact ⟨by rw [hsame]; exact h, exact_of_same hsame⟩
  · cases hp : s.publishers[i]? with
    | none =>
        unfold isClosed at hclosed
        rw [hp] at hclosed
        exact absurd rfl hclosed
    | some p =>
        have hopen : ¬ p.closed = true := by
          unfold isClosed at hclosed
          rw [hp] at hclosed
          exact hclosed
        have hregistry := h.registry p (List.mem_of_getElem? hp)
        have hout := LocalSignals.outcome_request hregistry r
        have hbound : ∀ a, true ∈ movesOf a (p.connection.locals.request r).2.1 →
            s.holders a + 1 < 2 ^ 32 := by
          intro a hraise
          cases r with
          | subscribe id =>
              obtain ⟨e, he, rfl⟩ := hout.raises a hraise
              exact hok p hp e he
          | unsubscribe id =>
              exact absurd hraise
                ((LocalSignals.ending_unsubscribe _ id true hregistry).not_raises a)
        have hstep : s.step (.request i r) = s.replace i (p.emit (p.connection.request r))
            (p.connection.request r).2 := by
          change (if s.isClosed i = true then s else s.on i fun c => c.request r) = _
          rw [if_neg hclosed, on_eq hp]
        have hnext := h.on hp (p.connection.request r).1 _ [] hout
          (fun _ hmsg => nomatch hmsg) (fun _ => rfl) (fun hc => absurd hc hopen) hbound
        rw [List.append_nil] at hnext
        refine ⟨by rw [hstep]; exact hnext.1, exact_of_replace hstep hp hnext.2 ?_⟩
        apply noData_emit
        cases r with
        | subscribe id =>
            exact LocalSignals.noData_subscribe (LocalSignals.distinct_of_registry hregistry) id
        | unsubscribe id => exact LocalSignals.noData_unsubscribe _ id true

theorem step_add (h : s.Invariant) (i : Nat) (signal : LocalSignal)
    (hok : s.Unused (.add i signal)) :
    (s.step (.add i signal)).Invariant ∧ s.Exact (.add i signal) := by
  cases hp : s.publishers[i]? with
  | none =>
      have hsame : s.step (.add i signal) = s := on_of_none hp fun c => c.addLocalSignal signal
      exact ⟨by rw [hsame]; exact h, exact_of_same hsame⟩
  | some p =>
      have hmem := List.mem_of_getElem? hp
      have hadded := LocalSignals.registry_addLocalSignal (h.registry p hmem) signal
      have hsends : ∀ o ∈ (p.connection.addLocalSignal signal).2,
          o = .send (Connection.idsMessage "available" [signal.id]) := by
        intro o ho
        unfold Connection.addLocalSignal at ho
        dsimp only at ho
        split at ho
        · exact List.mem_singleton.mp ho
        · cases ho
      have hmoves (a : Nat) : movesOf a (p.connection.addLocalSignal signal).2 = [] := by
        apply List.filterMap_eq_nil_iff.mpr
        intro o ho
        rw [hsends o ho]
        rfl
      have hmessages : ∀ msg ∈ messagesOf (p.connection.addLocalSignal signal).2,
          msg = Connection.idsMessage "available" [signal.id] := by
        intro msg hmsg
        obtain ⟨o, ho, hmsg⟩ := List.mem_filterMap.mp hmsg
        rw [hsends o ho] at hmsg
        exact (Option.some.inj hmsg).symm
      have hstep : s.step (.add i signal) = s.replace i
          (p.emit (p.connection.addLocalSignal signal))
          (p.connection.addLocalSignal signal).2 := on_eq hp fun c => c.addLocalSignal signal
      have htracks := hadded.2.2 p.sent (h.tracks hmem) (hok p hp)
      have hnext := h.replace hp (p.emit (p.connection.addLocalSignal signal))
        (p.connection.addLocalSignal signal).2 hadded.1
        (by
          unfold Publisher.emit
          dsimp only
          split
          · exact htracks
          · intro e he
            apply (inStep_append fun msg hmsg => _).mpr (htracks e he)
            intro msg hmsg
            rw [hmessages msg hmsg]
            exact subscription?_idsMessage _ _ (by decide) (by decide) _)
        (by
          intro a
          rw [hmoves a]
          have hsame := hadded.2.1 a
          change Moves _ (Faces.engaged
            (p.connection.locals.addLocalSignal signal).1.faces a) []
          rw [hsame]
          exact .same _)
        (by
          intro a hraise
          rw [hmoves a] at hraise
          cases hraise)
      refine ⟨by rw [hstep]; exact hnext.1, exact_of_replace hstep hp hnext.2 ?_⟩
      apply noData_emit
      intro msg hmsg
      rw [hmessages msg hmsg]
      rfl

theorem step_setMetadata (h : s.Invariant) (address : Nat) (metadata : Metadata) :
    (s.step (.setMetadata address metadata)).Invariant ∧
      s.Exact (.setMetadata address metadata) := by
  have hout (q : Publisher) (hq : q ∈ s.publishers) :=
    LocalSignals.outcome_setMetadata (h.registry q hq) address metadata
  have hsends (q : Publisher) (hq : q ∈ s.publishers) :
      ∀ o ∈ (q.connection.locals.setMetadata address metadata).2,
        ∃ signo, o = .send (.ofMetadata signo "signal" metadata.json) := by
    intro o ho
    cases hfind : q.connection.locals.findByAddress address with
    | none =>
        rw [LocalSignals.setMetadata, hfind] at ho
        cases ho
    | some found =>
        rw [LocalSignals.setMetadata_of_find
          (LocalSignals.distinct_of_registry (h.registry q hq))
          (show q.connection.locals.findByAddress address = some (found.1, found.2) from hfind)]
          at ho
        split at ho
        · exact ⟨_, List.mem_singleton.mp ho⟩
        · cases ho
  have hmessages (q : Publisher) (hq : q ∈ s.publishers) :
      ∀ msg ∈ messagesOf (q.connection.locals.setMetadata address metadata).2,
        ∃ signo, msg = .ofMetadata signo "signal" metadata.json := by
    intro msg hmsg
    obtain ⟨o, ho, hmsg⟩ := List.mem_filterMap.mp hmsg
    obtain ⟨signo, rfl⟩ := hsends q hq o ho
    exact ⟨signo, (Option.some.inj hmsg).symm⟩
  have hall := h.onAll (fun c => c.setMetadata address metadata) hout
    (by
      intro q hq msg hmsg j
      obtain ⟨signo, rfl⟩ := hmessages q hq msg hmsg
      unfold Message.ofMetadata Message.subscription?
      dsimp only
      rw [if_neg (show ¬ "signal" = "subscribe" by decide),
        if_neg (show ¬ "signal" = "unsubscribe" by decide), ite_self])
    (by
      intro q hq a
      apply List.filterMap_eq_nil_iff.mpr
      intro o ho
      obtain ⟨signo, rfl⟩ := hsends q hq o ho
      rfl)
  refine ⟨hall.1, ?_, ?_⟩
  · intro a
    change s.tally.about a = s.tally.about a ++ transition a (s.holders a) ((s.onAll _).holders a)
    rw [hall.2 a, transition_self, List.append_nil]
  · intro j q q' hq hq' msg hmsg hdata
    change (s.publishers.map _)[j]? = some q' at hq'
    rw [List.getElem?_map, hq, Option.map_some] at hq'
    rw [← Option.some.inj hq', drop_sent_emit] at hmsg
    split at hmsg
    · cases hmsg
    · obtain ⟨signo, rfl⟩ := hmessages q (List.mem_of_getElem? hq) msg hmsg
      cases hdata

theorem step_publish (h : s.Invariant) (address : Nat) (domainValue : Int64) (sampleCount : Nat)
    (data : Bytes) :
    (s.step (.publish address domainValue sampleCount data)).Invariant ∧
      s.Exact (.publish address domainValue sampleCount data) := by
  have hpublished (q : Publisher) (hq : q ∈ s.publishers) :=
    LocalSignals.publishData_cases (LocalSignals.distinct_of_registry (h.registry q hq)) address
      domainValue sampleCount data
  have hall := h.onAll
    (fun c => c.publishData address domainValue sampleCount data)
    (fun q hq => LocalSignals.outcome_publishData (h.registry q hq) address domainValue
      sampleCount data)
    (by
      intro q hq msg hmsg j
      obtain ⟨o, ho, hmsg⟩ := List.mem_filterMap.mp hmsg
      obtain ⟨signo, bytes, rfl⟩ := (hpublished q hq).2.1 o ho
      rw [← Option.some.inj hmsg]
      rfl)
    (by
      intro q hq a
      apply List.filterMap_eq_nil_iff.mpr
      intro o ho
      obtain ⟨signo, bytes, rfl⟩ := (hpublished q hq).2.1 o ho
      rfl)
  refine ⟨hall.1, ?_, ?_⟩
  · intro a
    change s.tally.about a = s.tally.about a ++ transition a (s.holders a) ((s.onAll _).holders a)
    rw [hall.2 a, transition_self, List.append_nil]
  · intro j q q' hq hq' msg hmsg _
    have hmem := List.mem_of_getElem? hq
    change (s.publishers.map _)[j]? = some q' at hq'
    rw [List.getElem?_map, hq, Option.map_some] at hq'
    rw [← Option.some.inj hq', drop_sent_emit] at hmsg
    split at hmsg
    · cases hmsg
    · have hne : (q.connection.locals.publishData address domainValue sampleCount data).2 ≠ [] := by
        intro hnil
        change msg ∈ messagesOf
          (q.connection.locals.publishData address domainValue sampleCount data).2 at hmsg
        rw [hnil] at hmsg
        cases hmsg
      obtain ⟨e, he, haddress, hslot⟩ := (hpublished q hmem).2.2 hne
      have hface := h.faces q hmem e he
      exact ⟨address, domainValue, sampleCount, data, rfl, e, he, haddress,
        hface.slot.mpr hslot, hslot, hface.wire.mp hslot⟩

theorem step_close (h : s.Invariant) (i : Nat) :
    (s.step (.close i)).Invariant ∧ s.Exact (.close i) := by
  by_cases hclosed : s.isClosed i = true
  · have hsame : s.step (.close i) = s := if_pos hclosed
    exact ⟨by rw [hsame]; exact h, exact_of_same hsame⟩
  · cases hp : s.publishers[i]? with
    | none =>
        unfold isClosed at hclosed
        rw [hp] at hclosed
        exact absurd rfl hclosed
    | some p =>
        have hregistry := h.registry p (List.mem_of_getElem? hp)
        have hending := LocalSignals.ending_clearLocalSignals p.connection.locals
        have hout := hending.outcome hregistry
        have hrelease : messagesOf p.connection.locals.clearLocalSignals.2 = [] := by
          apply List.filterMap_eq_nil_iff.mpr
          intro o ho
          obtain ⟨e, -, ho⟩ := List.mem_flatMap.mp ho
          exact List.filterMap_eq_nil_iff.mp e.2.messagesOf_release o ho
        let p' : Publisher :=
          { p.emit (p.connection.onPeerClosed.1, p.connection.onPeerClosed.2.1) with
            closed := true }
        have hstep : s.step (.close i) = s.replace i p' p.connection.onPeerClosed.2.1 := by
          change (if s.isClosed i = true then s else (s.on i _).markClosed i) = _
          rw [if_neg hclosed, on_eq hp]
          unfold markClosed Publishers.replace
          dsimp only
          congr 1
          have hlt : i < s.publishers.length := (List.getElem?_eq_some_iff.mp hp).1
          rw [List.modify_eq_set_getElem?, List.getElem?_set_self hlt]
          exact List.set_set _
        have hsent : p'.sent = p.sent := by
          change (if p.closed then p.sent
            else p.sent ++ messagesOf p.connection.locals.clearLocalSignals.2) = p.sent
          rw [hrelease, List.append_nil, ite_self]
        have hnext := h.replace hp p' p.connection.onPeerClosed.2.1 hout.registry
          (fun _ he => nomatch he) hout.moves
          (fun a hraise => absurd hraise (hending.not_raises a))
        refine ⟨by rw [hstep]; exact hnext.1, exact_of_replace hstep hp hnext.2 ?_⟩
        rw [hsent, List.drop_length]
        exact fun _ hmsg => nomatch hmsg

end Steps

/-- **One step.** -/
theorem step_law {s : Publishers} (action : Action) (h : s.Invariant) (hok : s.Unused action) :
    (s.step action).Invariant ∧ s.Exact action := by
  cases action with
  | connect isClient localStreamId => exact step_connect h isClient localStreamId
  | hello i => exact step_hello h i
  | add i signal => exact step_add h i signal hok
  | remove i signal => exact step_remove h i signal
  | request i r => exact step_request h i r hok
  | setMetadata address metadata => exact step_setMetadata h address metadata
  | publish address domainValue sampleCount data =>
      exact step_publish h address domainValue sampleCount data
  | close i => exact step_close h i

/-- Nothing is open at the start. -/
theorem invariant_empty : Invariant {} :=
  ⟨⟨(fun _ hp => nomatch hp), (fun _ => rfl), (fun _ => rfl)⟩, (fun _ hp => nomatch hp)⟩

/-- **Wire, slots and counts in step.**  Over any run of any number of
connections that share signal objects, in which no registration hands out a
number that was last announced as subscribed: in every state reached the
holder, the slot and the sent messages agree for each registered signal, the
subscribe counts are the numbers of engaged holders and the events alternate;
and each step raises exactly the events of the changed counts, and sends data
only of published signals that are subscribed. -/
theorem in_step_of_unused (actions : List Action) (h : Meets step Unused {} actions) :
    Meets step (fun s action => (s.step action).InStep ∧ s.Exact action) {} actions := by
  refine Meets.law ?_ actions _ invariant_empty h
  intro s action hs hok
  have hnext := step_law action hs hok
  exact ⟨hnext.1, hnext.1.toInStep, hnext.2⟩

/-- A run that subscribes, publishes, unsubscribes and closes. -/
def subscribedRun : List Action :=
  [.connect false "stream", .hello 0, .add 0 LocalSignals.bareSignal,
    .request 0 (.subscribe "signal"), .publish 0 0 1 [1], .request 0 (.unsubscribe "signal"),
    .request 0 (.subscribe "signal"), .close 0]

/-- The law on a run in which a signal is subscribed twice. -/
theorem in_step_subscribedRun :
    Meets step Unused {} subscribedRun ∧
      Meets step (fun s action => (s.step action).InStep ∧ s.Exact action) {} subscribedRun := by
  have hunused : Meets step Unused {} subscribedRun := by decide +kernel
  exact ⟨hunused, in_step_of_unused subscribedRun hunused⟩

/-! ## A number that is handed out again -/

/-- One connection without signals, with the next number `n`, that has said
subscribe last about number one. -/
def Stale (s : Publishers) (n : UInt32) : Prop :=
  ∃ p t, s.publishers = [p] ∧ p.connection.locals = ⟨[], n, t⟩ ∧
    lastSubscription p.sent 1 = some true

theorem lastSubscription_emit {p : Publisher} {r : Connection × List Output} {signo : UInt32}
    (h : ∀ msg ∈ messagesOf r.2, msg.subscription? signo = none) :
    lastSubscription (p.emit r).sent signo = lastSubscription p.sent signo := by
  unfold Publisher.emit lastSubscription
  dsimp only
  split
  · rfl
  · rw [List.filterMap_append, List.filterMap_eq_nil_iff.mpr h, List.append_nil]

/-- A registration of the signal, and its removal. -/
theorem Stale.next {s : Publishers} {n : UInt32} (h : s.Stale n) :
    ((s.step (.add 0 LocalSignals.bareSignal)).step (.remove 0 LocalSignals.bareSignal)).Stale
      (n + 1) := by
  obtain ⟨p, t, hpublishers, hlocals, hlast⟩ := h
  have hp : s.publishers[0]? = some p := by rw [hpublishers]; rfl
  let q := p.emit (p.connection.addLocalSignal LocalSignals.bareSignal)
  have hadded : q.connection.locals =
      ⟨[(n, { signal := LocalSignals.bareSignal, signo := n, isExplicit := true })],
        n + 1, t + 1⟩ := by
    change (p.connection.locals.addLocalSignal LocalSignals.bareSignal).1 = _
    rw [hlocals]
    exact LocalSignals.register_add_bareSignal n t
  have hstep : s.step (.add 0 LocalSignals.bareSignal) =
      s.replace 0 q (p.connection.addLocalSignal LocalSignals.bareSignal).2 :=
    on_eq hp fun c => c.addLocalSignal LocalSignals.bareSignal
  have hq : (s.step (.add 0 LocalSignals.bareSignal)).publishers[0]? = some q := by
    rw [hstep]
    change (s.publishers.set 0 q)[0]? = some q
    rw [hpublishers]
    rfl
  refine ⟨q.emit (q.connection.removeLocalSignal LocalSignals.bareSignal), t + 1, ?_, ?_, ?_⟩
  · change ((s.step (.add 0 LocalSignals.bareSignal)).on 0 fun c =>
      c.removeLocalSignal LocalSignals.bareSignal).publishers = _
    rw [on_eq hq, hstep]
    change ((s.publishers.set 0 q).set 0 _) = _
    rw [hpublishers]
    rfl
  · change (q.connection.locals.removeLocalSignal LocalSignals.bareSignal).1 = _
    rw [hadded]
    exact LocalSignals.register_remove_bareSignal n (n + 1) (t + 1)
  · rw [lastSubscription_emit, lastSubscription_emit, hlast]
    · intro msg hmsg
      unfold Connection.addLocalSignal at hmsg
      dsimp only at hmsg
      split at hmsg
      · rw [List.mem_singleton.mp hmsg]
        exact subscription?_idsMessage _ _ (by decide) (by decide) _
      · cases hmsg
    · intro msg hmsg
      have hout : (q.connection.removeLocalSignal LocalSignals.bareSignal).2 =
          if n ≠ 0 then [.send (Connection.idsMessage "unavailable" ["signal"])] else [] := by
        unfold Connection.removeLocalSignal
        rw [hadded]
        rfl
      rw [hout] at hmsg
      split at hmsg
      · rw [List.mem_singleton.mp hmsg]
        exact subscription?_idsMessage _ _ (by decide) (by decide) _
      · cases hmsg

/-- The signal is registered and removed again, a number of times. -/
def churn : Nat → List Action
  | 0 => []
  | n + 1 => churn n ++ [.add 0 LocalSignals.bareSignal, .remove 0 LocalSignals.bareSignal]

theorem Stale.run {s : Publishers} {m : UInt32} (h : s.Stale m) (n : Nat) :
    ((churn n).foldl step s).Stale (m + UInt32.ofNat n) := by
  induction n with
  | zero => exact (UInt32.add_zero m).symm ▸ h
  | succ n ih =>
      rw [Publishers.churn, List.foldl_append]
      have hnext : m + UInt32.ofNat (n + 1) = m + UInt32.ofNat n + 1 := by
        rw [UInt32.ofNat_add, UInt32.add_assoc]
        rfl
      rw [hnext]
      exact ih.next

/-- A signal that is registered, subscribed and removed, and then registered
and removed as often as it takes for its first number to come again. -/
def reusedNumber : List Action :=
  [.connect false "stream", .add 0 LocalSignals.bareSignal, .request 0 (.subscribe "signal"),
    .remove 0 LocalSignals.bareSignal] ++ churn (2 ^ 32 - 1)

theorem stale_start :
    (List.foldl step {} [.connect false "stream", .add 0 LocalSignals.bareSignal,
      .request 0 (.subscribe "signal"), .remove 0 LocalSignals.bareSignal]).Stale 2 := by
  generalize hs : List.foldl step {} [Action.connect false "stream",
    .add 0 LocalSignals.bareSignal, .request 0 (.subscribe "signal"),
    .remove 0 LocalSignals.bareSignal] = s
  have hviews : s.publishers.map (fun p => (p.connection.locals, lastSubscription p.sent 1)) =
      [(⟨[], 2, 2⟩, some true)] := by
    rw [← hs]
    decide +kernel
  obtain ⟨p, hp⟩ : ∃ p, s.publishers = [p] := by
    apply List.length_eq_one_iff.mp
    rw [← List.length_map, hviews]
    rfl
  rw [hp] at hviews
  have hview := List.singleton_inj.mp hviews
  exact ⟨p, 2, hp, (Prod.mk.inj hview).1, (Prod.mk.inj hview).2⟩

/-- The places do not agree in every run: after 2^32 registrations a signal
that nobody is subscribed to has a number for which the connection has said
subscribe last. -/
theorem reused_number_out_of_step :
    ¬ Meets step (fun s action => (s.step action).InStep ∧ s.Exact action) {}
      (reusedNumber ++ [.add 0 LocalSignals.bareSignal]) := by
  intro hmeets
  have hlaw := hmeets.last
  rw [reusedNumber, List.foldl_append] at hlaw
  have hend := stale_start.run (2 ^ 32 - 1)
  generalize List.foldl step _ (churn (2 ^ 32 - 1)) = s at hlaw hend
  obtain ⟨p, t, hpublishers, hlocals, hlast⟩ := hend
  have hp : s.publishers[0]? = some p := by rw [hpublishers]; rfl
  have hone : (2 : UInt32) + UInt32.ofNat (2 ^ 32 - 1) = 1 := by decide
  rw [hone] at hlocals
  let q := p.emit (p.connection.addLocalSignal LocalSignals.bareSignal)
  have hq : q ∈ (s.step (.add 0 LocalSignals.bareSignal)).publishers := by
    have hstep : s.step (.add 0 LocalSignals.bareSignal) =
        s.replace 0 q (p.connection.addLocalSignal LocalSignals.bareSignal).2 :=
      on_eq hp fun c => c.addLocalSignal LocalSignals.bareSignal
    rw [hstep]
    change q ∈ s.publishers.set 0 q
    rw [hpublishers]
    exact List.mem_cons_self
  have hadded : q.connection.locals =
      ⟨[(1, { signal := LocalSignals.bareSignal, signo := 1, isExplicit := true })], 2, t + 1⟩ := by
    change (p.connection.locals.addLocalSignal LocalSignals.bareSignal).1 = _
    rw [hlocals]
    exact LocalSignals.register_add_bareSignal 1 t
  have hface := hlaw.1.faces q hq
    (1, { signal := LocalSignals.bareSignal, signo := 1, isExplicit := true })
    (by rw [hadded]; exact List.mem_cons_self)
  have hsent : lastSubscription q.sent 1 = some true := by
    rw [← hlast]
    apply lastSubscription_emit
    intro msg hmsg
    unfold Connection.addLocalSignal at hmsg
    dsimp only at hmsg
    split at hmsg
    · rw [List.mem_singleton.mp hmsg]
      exact subscription?_idsMessage _ _ (by decide) (by decide) _
    · cases hmsg
  have hslot := hface.wire.mpr hsent
  cases hslot

end Publishers

end WsStreaming.Ports
