import WsStreaming.Verified.Trace
import WsStreaming.Ports.CommandReplies
import WsStreaming.Ports.Session

/-!
# The greeting comes first

What a connection tells its peer about itself and its local signals begins
with its version and its greeting, and these are sent once.  A server sends
them when it is activated, a client when the `init` message of a server
arrives that has announced version 2.0.0 or later.

`add_local_signal` looks at the hello flag before it sends anything.
`remove_local_signal` does not, the commands of the peer are carried out
whether or not the greeting was sent, and every further `init` message makes a
client greet again.  `greeting_first_iff` says that nothing else goes wrong.
-/

namespace WsStreaming.Ports

open WsStreaming.Verified
open WsStreaming.Verified.Run (MeetsOpt)
open WsStreaming.Verified.Trace (Monitor)

/-! ## The law -/

/-- What a message tells the peer. -/
inductive Topic where
  | version
  | greeting
  | localSignal
  | other
deriving DecidableEq, Repr

/-- The topic of a message. -/
def topicOf : Message → Topic
  | .metadata m =>
      if m.method = "apiVersion" then .version
      else if m.method = "init" then .greeting
      else if m.method ∈ ["available", "unavailable", "subscribe", "signal", "unsubscribe"] then
        .localSignal
      else .other
  | .data _ _ => .other

/-- How far a connection has introduced itself. -/
inductive Stage where
  | fresh
  | versionSent
  | greeted
deriving DecidableEq, Repr

/-- What is observed of a connection: a message that it sends, and the moment
from which on it has to have greeted its peer. -/
inductive Sign where
  | sent (message : Message)
  | settled
deriving DecidableEq, Repr

/-- The version first, right after it the greeting, each once, and nothing
about local signals before. -/
def greetingFirst : Monitor Stage Sign
  | stage, .sent message =>
      match topicOf message, stage with
      | .version, .fresh => some .versionSent
      | .greeting, .versionSent => some .greeted
      | .localSignal, .greeted => some .greeted
      | .other, .fresh => some .fresh
      | .other, .greeted => some .greeted
      | _, _ => none
  | stage, .settled => if stage = .greeted then some stage else none

/-- The messages among outputs. -/
def signs (outputs : List Output) : List Sign := (messagesOf outputs).map .sent

@[simp] theorem signs_nil : signs [] = [] := rfl

@[simp] theorem signs_append (outputs more : List Output) :
    signs (outputs ++ more) = signs outputs ++ signs more := by
  rw [signs, messagesOf_append, List.map_append]
  rfl

theorem topicOf_of_isNews {m : Message} (h : m.isNews = true) : topicOf m = .localSignal := by
  cases m with
  | data signo data => cases h
  | metadata m =>
      have hmethod : m.method = "subscribe" ∨ m.method = "signal" ∨ m.method = "unsubscribe" := by
        simpa [Message.isNews, or_assoc] using h
      unfold topicOf
      dsimp only
      rcases hmethod with hm | hm | hm <;> rw [hm] <;> decide

/-- News about local signals after the greeting. -/
theorem read_news_greeted {outputs : List Output} (h : OnlyNews outputs) :
    greetingFirst.read .greeted (signs outputs) = some .greeted := by
  apply Monitor.read_ignored
  intro e he
  obtain ⟨m, hm, rfl⟩ := List.mem_map.mp he
  unfold greetingFirst
  dsimp only
  rw [topicOf_of_isNews (h m hm)]

/-- News about local signals before the greeting. -/
theorem read_news_fresh {outputs : List Output} (h : OnlyNews outputs) :
    greetingFirst.read .fresh (signs outputs) =
      if messagesOf outputs = [] then some .fresh else none := by
  unfold signs
  unfold OnlyNews at h
  cases hmessages : messagesOf outputs with
  | nil => rfl
  | cons m more =>
      have hnews : m.isNews = true := h m (by rw [hmessages]; exact List.mem_cons_self)
      rw [List.map_cons, Monitor.read_cons, if_neg (List.cons_ne_nil m more)]
      unfold greetingFirst
      dsimp only
      rw [topicOf_of_isNews hnews]
      rfl

/-! ## Commands before any subscription -/

namespace LocalSignals

/-- Nothing is subscribed. -/
def Pristine (c : LocalSignals) : Prop := ∀ e ∈ c.signals, e.2.isSubscribed = false

/-- An operation of a command: it does nothing for an id that is not
registered, and has something to send for one that is. -/
structure Speaks (operation : LocalSignals → String → LocalSignals × List Output × Bool) :
    Prop where
  silent : ∀ c id, c.findById id = none → operation c id = (c, [], false)
  speaks : ∀ c id, c.Pristine → c.findById id ≠ none →
    messagesOf (operation c id).2.1 ≠ []

theorem Pristine.findById {c : LocalSignals} (h : c.Pristine) {id : String} {k : UInt32}
    {entry : RegisteredLocalSignal} (hfind : c.findById id = some (k, entry)) :
    entry.isSubscribed = false :=
  h (k, entry) (List.mem_of_find?_eq_some hfind)

theorem speaks_subscribe : Speaks fun c id => c.subscribe id true where
  silent c id h := subscribe_of_none h true
  speaks := by
    intro c id hpristine hfound
    obtain ⟨⟨k, entry⟩, hfind⟩ := Option.ne_none_iff_exists'.mp hfound
    have hsub : ¬ entry.isSubscribed = true := by
      rw [hpristine.findById hfind]
      exact Bool.false_ne_true
    rw [subscribe_true hfind hsub]
    cases entry.signal.domainId? with
    | none =>
        dsimp only
        rw [messagesOf_append]
        exact List.append_ne_nil_of_right_ne_nil _ (List.cons_ne_nil _ _)
    | some tableId =>
        dsimp only
        rw [messagesOf_append]
        exact List.append_ne_nil_of_right_ne_nil _ (List.cons_ne_nil _ _)

theorem speaks_unsubscribe : Speaks fun c id => c.unsubscribe id true where
  silent c id h := unsubscribe_of_none h
  speaks := by
    intro c id hpristine hfound
    obtain ⟨⟨k, entry⟩, hfind⟩ := Option.ne_none_iff_exists'.mp hfound
    have hsub := hpristine.findById hfind
    have hended : ¬ (entry.dropSubscription true).isSubscribed = true := by
      unfold RegisteredLocalSignal.isSubscribed at hsub ⊢
      rw [Bool.or_eq_false_iff] at hsub
      change ¬ (false || decide (0 < entry.implicitSubscribeCount)) = true
      rw [hsub.2]
      exact Bool.false_ne_true
    have hfarewell : messagesOf entry.farewell ≠ [] := by
      rw [RegisteredLocalSignal.farewell, messagesOf_append]
      exact List.append_ne_nil_of_right_ne_nil _ (List.cons_ne_nil _ _)
    rw [unsubscribe_of_ended hfind hended]
    cases entry.signal.domainId? with
    | none => exact hfarewell
    | some tableId =>
        dsimp only
        rw [messagesOf_append]
        exact List.append_ne_nil_of_left_ne_nil hfarewell _

section Commands

variable {operation : LocalSignals → String → LocalSignals × List Output × Bool}

theorem forEachId_silent (h : Speaks operation) (c : LocalSignals) (ids : List Json)
    (hids : ∀ id ∈ ids.filterMap Json.string?, c.findById id = none) :
    (forEachId operation c ids).1 = c ∧ (forEachId operation c ids).2.1 = [] := by
  induction ids with
  | nil => exact ⟨rfl, rfl⟩
  | cons j ids ih =>
      have hrest : ∀ id ∈ ids.filterMap Json.string?, c.findById id = none := by
        intro id hid
        apply hids
        rw [List.filterMap_cons]
        split
        · exact hid
        · exact List.mem_cons_of_mem _ hid
      cases j with
      | string id =>
          have hnone := h.silent c id (hids id List.mem_cons_self)
          unfold forEachId
          rw [hnone]
          exact ih hrest
      | null => exact ih hrest
      | bool b => exact ih hrest
      | integer n => exact ih hrest
      | float bits => exact ih hrest
      | array elements => exact ih hrest
      | object members => exact ih hrest

theorem forEachId_speaks (h : Speaks operation) {c : LocalSignals} (hc : c.Pristine)
    (ids : List Json) (hids : ∃ id ∈ ids.filterMap Json.string?, c.findById id ≠ none) :
    messagesOf (forEachId operation c ids).2.1 ≠ [] := by
  induction ids with
  | nil => obtain ⟨id, hid, -⟩ := hids; cases hid
  | cons j ids ih =>
      cases j with
      | string id =>
          unfold forEachId
          dsimp only
          rw [messagesOf_append]
          cases hfind : c.findById id with
          | some e =>
              apply List.append_ne_nil_of_left_ne_nil
              exact h.speaks c id hc (by rw [hfind]; exact Option.some_ne_none e)
          | none =>
              obtain ⟨other, hother, hfound⟩ := hids
              have hmem : other ∈ ids.filterMap Json.string? := by
                rcases List.mem_cons.mp hother with rfl | hmem
                · exact absurd hfind hfound
                · exact hmem
              rw [h.silent c id hfind]
              exact ih ⟨other, hmem, hfound⟩
      | null => exact ih hids
      | bool b => exact ih hids
      | integer n => exact ih hids
      | float bits => exact ih hids
      | array elements => exact ih hids
      | object members => exact ih hids

theorem doCommandInterfaceWith_silent (h : Speaks operation) (failure : String)
    (c : LocalSignals) (params : Json) (hids : ∀ id ∈ commandIds params, c.findById id = none) :
    (doCommandInterfaceWith operation failure c params).1 = c ∧
      (doCommandInterfaceWith operation failure c params).2.1 = [] := by
  cases params with
  | string id =>
      have hnone := h.silent c id (hids id List.mem_cons_self)
      unfold doCommandInterfaceWith
      dsimp only
      rw [hnone]
      exact ⟨rfl, rfl⟩
  | array ids => exact forEachId_silent h c ids hids
  | null => exact ⟨rfl, rfl⟩
  | bool b => exact ⟨rfl, rfl⟩
  | integer n => exact ⟨rfl, rfl⟩
  | float bits => exact ⟨rfl, rfl⟩
  | object members => exact ⟨rfl, rfl⟩

theorem doCommandInterfaceWith_speaks (h : Speaks operation) (failure : String)
    {c : LocalSignals} (hc : c.Pristine) (params : Json)
    (hids : ∃ id ∈ commandIds params, c.findById id ≠ none) :
    messagesOf (doCommandInterfaceWith operation failure c params).2.1 ≠ [] := by
  cases params with
  | string id =>
      obtain ⟨other, hother, hfound⟩ := hids
      rw [List.mem_singleton.mp hother] at hfound
      exact h.speaks c id hc hfound
  | array ids => exact forEachId_speaks h hc ids hids
  | null => obtain ⟨id, hid, -⟩ := hids; cases hid
  | bool b => obtain ⟨id, hid, -⟩ := hids; cases hid
  | integer n => obtain ⟨id, hid, -⟩ := hids; cases hid
  | float bits => obtain ⟨id, hid, -⟩ := hids; cases hid
  | object members => obtain ⟨id, hid, -⟩ := hids; cases hid

end Commands

/-! ## Registration and subscriptions -/

theorem Pristine.update {c : LocalSignals} (h : c.Pristine) (k : UInt32)
    {f : RegisteredLocalSignal → RegisteredLocalSignal}
    (hf : ∀ e, (f e).isSubscribed = e.isSubscribed) : (c.update k f).Pristine := by
  intro e he
  obtain ⟨old, hold, rfl⟩ := List.mem_map.mp he
  split
  · rw [hf]
    exact h old hold
  · exact h old hold

theorem Pristine.emplaceSignal {c : LocalSignals} (h : c.Pristine) (signal : LocalSignal) :
    (c.emplaceSignal signal).1.Pristine := by
  unfold LocalSignals.emplaceSignal
  split
  · exact h
  · intro e he
    dsimp only at he
    unfold OrderedMap.emplace at he
    split at he
    · exact h e he
    · rcases OrderedMap.mem_insertBefore.mp he with rfl | he
      · rfl
      · exact h e he

theorem Pristine.addLocalSignal {c : LocalSignals} (h : c.Pristine) (signal : LocalSignal) :
    (c.addLocalSignal signal).1.Pristine := by
  have hemplaced := h.emplaceSignal signal
  unfold LocalSignals.addLocalSignal
  split
  · rename_i c' k heq
    rw [heq] at hemplaced
    exact hemplaced
  · rename_i c' k heq
    rw [heq] at hemplaced
    have hruled : (LocalSignals.update { c' with nextTable := c'.nextTable + 1 } k fun e =>
        e.setRule signal.metadata c'.nextTable).Pristine :=
      Pristine.update (c := { c' with nextTable := c'.nextTable + 1 }) hemplaced k fun _ => rfl
    dsimp only
    split
    · exact hruled.update k fun _ => rfl
    · exact hruled

theorem Pristine.removeLocalSignal {c : LocalSignals} (h : c.Pristine) (signal : LocalSignal) :
    (c.removeLocalSignal signal).1.Pristine := by
  unfold LocalSignals.removeLocalSignal
  split
  · intro e he
    exact h e (OrderedMap.mem_erase.mp he).1
  · exact h

end LocalSignals

/-! ## What a message does -/

namespace Connection

/-- The kinds of messages: three concern the connection itself, all others the
signals of the peer. -/
theorem receive_cases {c : Connection} {m : Message}
    {r : Connection × List Output × List RemoteEvent} (h : c.receive m = some r) :
    Session.globalMethod m = "apiVersion" ∧
        r = (c.handleApiVersion (Session.paramsOf m), [], []) ∨
      Session.globalMethod m = "init" ∧
        r = ((c.handleInit (Session.paramsOf m)).1, (c.handleInit (Session.paramsOf m)).2, []) ∨
      (Session.globalMethod m = "request" ∧
        ∃ q, c.handleCommandInterfaceRequest (Session.paramsOf m) = some q ∧
          r = (q.1, q.2, [])) ∨
      ((Session.globalMethod m ≠ "apiVersion" ∧ Session.globalMethod m ≠ "init" ∧
          Session.globalMethod m ≠ "request") ∧
        ∃ remotes events, r = ({ c with remotes := remotes }, [], events)) := by
  have hremote {o : Option (RemoteSignals × List RemoteEvent)}
      (ho : c.onRemoteSignals o = some r) :
      ∃ remotes events, r = ({ c with remotes := remotes }, [], events) := by
    obtain ⟨q, -, rfl⟩ := Option.map_eq_some_iff.mp ho
    exact ⟨_, _, rfl⟩
  cases m with
  | data signo data =>
      have hglobal : Session.globalMethod (.data signo data) = "" := rfl
      rw [hglobal]
      exact .inr (.inr (.inr ⟨⟨by decide, by decide, by decide⟩, hremote h⟩))
  | metadata m =>
      obtain ⟨signo, method, params⟩ := m
      unfold receive onPeerMetadataReceived at h
      unfold Session.globalMethod Session.paramsOf
      dsimp only at h ⊢
      by_cases hsigno : signo = 0
      · subst hsigno
        rw [if_pos rfl]
        by_cases hsignal : method = "subscribe" ∨ method = "unsubscribe"
        · rw [if_pos (by rw [← or_assoc]; exact .inl hsignal)] at h
          refine .inr (.inr (.inr ⟨?_, hremote h⟩))
          rcases hsignal with rfl | rfl <;> decide
        · rw [if_neg (by rw [← or_assoc]; exact fun ho => ho.elim hsignal fun hne => hne rfl)] at h
          by_cases hversion : method = "apiVersion"
          · rw [if_pos hversion] at h
            exact .inl ⟨hversion, (Option.some.inj h).symm⟩
          · rw [if_neg hversion] at h
            by_cases hinit : method = "init"
            · rw [if_pos hinit] at h
              exact .inr (.inl ⟨hinit, (Option.some.inj h).symm⟩)
            · rw [if_neg hinit] at h
              by_cases hrequest : method = "request"
              · rw [if_pos hrequest] at h
                obtain ⟨q, hq, rfl⟩ := Option.map_eq_some_iff.mp h
                exact .inr (.inr (.inl ⟨hrequest, q, hq, rfl⟩))
              · rw [if_neg hrequest] at h
                exact .inr (.inr (.inr ⟨⟨hversion, hinit, hrequest⟩, hremote h⟩))
      · rw [if_pos (.inr (.inr hsigno))] at h
        rw [if_neg hsigno]
        exact .inr (.inr (.inr ⟨⟨by decide, by decide, by decide⟩, hremote h⟩))

/-- The ids that a request names. -/
def commandedIds (c : Connection) (params : Json) : List String :=
  match params.stringAt? "method" with
  | some method =>
      if method = c.localStreamId ++ ".subscribe" ∨ method = c.localStreamId ++ ".unsubscribe" then
        LocalSignals.commandIds ((params.find? "params").getD .null)
      else []
  | none => []

/-- A command before any subscription: it changes and sends nothing if it names
no registered signal, and else has something to send. -/
theorem doCommandInterface_pristine {c : Connection} (hc : c.locals.Pristine)
    (method : String) (params : Json) :
    let ids := if method = c.localStreamId ++ ".subscribe" ∨
        method = c.localStreamId ++ ".unsubscribe" then LocalSignals.commandIds params else []
    ((∀ id ∈ ids, c.locals.findById id = none) →
        (c.doCommandInterface method params).1.locals = c.locals ∧
          (c.doCommandInterface method params).2.1 = []) ∧
      ((∃ id ∈ ids, c.locals.findById id ≠ none) →
        messagesOf (c.doCommandInterface method params).2.1 ≠ []) := by
  intro ids
  unfold doCommandInterface
  by_cases hsub : method = c.localStreamId ++ ".subscribe"
  · have hids : ids = LocalSignals.commandIds params := if_pos (.inl hsub)
    rw [if_pos hsub, hids]
    exact ⟨LocalSignals.doCommandInterfaceWith_silent LocalSignals.speaks_subscribe _ _ params,
      LocalSignals.doCommandInterfaceWith_speaks LocalSignals.speaks_subscribe _ hc params⟩
  · rw [if_neg hsub]
    by_cases hunsub : method = c.localStreamId ++ ".unsubscribe"
    · have hids : ids = LocalSignals.commandIds params := if_pos (.inr hunsub)
      rw [if_pos hunsub, hids]
      exact ⟨LocalSignals.doCommandInterfaceWith_silent LocalSignals.speaks_unsubscribe _ _ params,
        LocalSignals.doCommandInterfaceWith_speaks LocalSignals.speaks_unsubscribe _ hc params⟩
    · have hids : ids = [] := if_neg (fun h => h.elim hsub hunsub)
      rw [if_neg hunsub, hids]
      refine ⟨fun _ => ⟨rfl, rfl⟩, ?_⟩
      rintro ⟨id, hid, -⟩
      cases hid

/-- A request that is handled: news, then the response. -/
theorem request_spec {c : Connection} {params : Json} {q : Connection × List Output}
    (hq : c.handleCommandInterfaceRequest params = some q) :
    q.1.helloSent = c.helloSent ∧ q.1.isClient = c.isClient ∧
      ∃ before reply, OnlyNews before ∧
        q.2 = before ++ [.send (.ofMetadata 0 "response" reply)] ∧
        (c.locals.Pristine →
          ((∀ id ∈ c.commandedIds params, c.locals.findById id = none) →
            q.1.locals = c.locals ∧ before = []) ∧
          ((∃ id ∈ c.commandedIds params, c.locals.findById id ≠ none) →
            messagesOf before ≠ [])) := by
  obtain ⟨locals, hframe⟩ := handleCommandInterfaceRequest_frame hq
  refine ⟨by rw [hframe], by rw [hframe], ?_⟩
  unfold handleCommandInterfaceRequest at hq
  split at hq
  · obtain rfl := Option.some.inj hq
    unfold commandedIds
    cases params.stringAt? "method" with
    | none =>
        refine ⟨[], _, onlyNews_nil, rfl, fun _ => ⟨fun _ => ⟨rfl, rfl⟩, ?_⟩⟩
        rintro ⟨id, hid, -⟩
        cases hid
    | some method =>
        exact ⟨_, _, c.onlyNews_doCommandInterface method _, rfl, fun hc =>
          doCommandInterface_pristine hc method _⟩
  · cases hq

end Connection

/-! ## Runs -/

/-- A connection, whether it was activated, whether its peer has announced
version 2.0.0 or later, and whether an `init` message has arrived. -/
structure Greeter where
  connection : Connection
  ran : Bool := false
  announced : Bool := false
  initiated : Bool := false

namespace Greeter

/-- What can happen. -/
inductive Input where
  /-- `connection::add_local_signal`. -/
  | add (signal : LocalSignal)
  /-- `connection::remove_local_signal`. -/
  | remove (signal : LocalSignal)
  /-- `connection::run`, which is called once. -/
  | run
  /-- A message of the peer arrives. -/
  | message (m : Message)

/-- A message that announces version 2.0.0 or later. -/
def announces (m : Message) : Bool :=
  Session.globalMethod m = "apiVersion" &&
    ((Session.paramsOf m).stringAt? "version").any fun version =>
      ((Semver.tryParse version).getD {}).atLeast ⟨2, 0, 0⟩

/-- An `init` message. -/
def initiates (m : Message) : Bool :=
  Session.globalMethod m = "init" && (Session.paramsOf m).isObject

/-- A connection has to have greeted its peer: a server once it is active, a
client once its server has announced the version and initiated. -/
def due (w : Greeter) : Bool :=
  if w.connection.isClient then w.announced && w.initiated else w.ran

/-- What is observed at the end of a step. -/
def settle (w : Greeter) (outputs : List Output) : Greeter × List Sign :=
  (w, signs outputs ++ if w.due then [.settled] else [])

/-- A message arrives.  A request that is no object changes nothing; the
exception escapes. -/
def deliver (w : Greeter) (m : Message) : Option (Greeter × List Sign) :=
  if Session.throws m then some (w.settle [])
  else
    (w.connection.receive m).map fun r =>
      settle
        { w with
          connection := r.1
          announced := w.announced || announces m
          initiated := w.initiated || initiates m } r.2.1

/-- One step.  Messages reach a connection only once it is active. -/
def step (w : Greeter) : Input → Option (Greeter × List Sign)
  | .add signal =>
      let (connection, outputs) := w.connection.addLocalSignal signal
      some (settle { w with connection := connection } outputs)
  | .remove signal =>
      let (connection, outputs) := w.connection.removeLocalSignal signal
      some (settle { w with connection := connection } outputs)
  | .run =>
      if w.ran then some (w.settle [])
      else if w.connection.isClient then some (settle { w with ran := true } [])
      else
        let (connection, outputs) := w.connection.doHello
        some (settle { w with connection := connection, ran := true } outputs)
  | .message m => if w.ran then w.deliver m else some (w.settle [])

/-- The ids that a message asks the connection to subscribe or unsubscribe. -/
def commanded (c : Connection) (m : Message) : List String :=
  if Session.globalMethod m = "request" then c.commandedIds (Session.paramsOf m) else []

/-- No signal is removed before the greeting unless it is not registered (or
has the number zero), and a message to a client that has not greeted yet
commands nothing about a registered signal, does not announce the version
after an `init` message, and is an `init` message only once the version stands;
one that has greeted gets no further `init` message. -/
def Orderly (w : Greeter) : Input → Prop
  | .remove signal =>
      w.connection.helloSent = true ∨
        ∀ e, w.connection.locals.findByAddress signal.address = some e → e.1 = 0
  | .message m =>
      w.ran = true → w.connection.isClient = true →
        if w.connection.helloSent then
          initiates m = true → w.connection.apiVersion.atLeast ⟨2, 0, 0⟩ = false
        else
          (∀ id ∈ commanded w.connection m, w.connection.locals.findById id = none) ∧
            (announces m = true → w.initiated = false) ∧
            (initiates m = true → w.announced = true →
              w.connection.apiVersion.atLeast ⟨2, 0, 0⟩ = true)
  | _ => True

/-- How far the connection has introduced itself. -/
def stage (w : Greeter) : Stage := if w.connection.helloSent then .greeted else .fresh

/-- Before the greeting nothing is subscribed, and the flag tells whether the
greeting was sent. -/
structure Sound (w : Greeter) : Prop where
  pristine : w.connection.helloSent = false → w.connection.locals.Pristine
  active : w.connection.helloSent = true → w.ran = true
  settled : w.due = true → w.connection.helloSent = true

/-- A new connection. -/
def new (isClient : Bool) (localStreamId : String) (commandInterfaces : Json) : Greeter :=
  { connection :=
      { isClient := isClient
        localStreamId := localStreamId
        commandInterfaces := commandInterfaces } }

theorem sound_new (isClient : Bool) (localStreamId : String) (commandInterfaces : Json) :
    (new isClient localStreamId commandInterfaces).Sound where
  pristine _ := nofun
  active h := absurd h Bool.false_ne_true
  settled h := by cases isClient <;> exact absurd h Bool.false_ne_true

/-! ## Steps -/

theorem read_hello_fresh (c : Connection) :
    greetingFirst.read .fresh (signs c.doHello.2) = some .greeted := by
  unfold Connection.doHello
  dsimp only
  split
  · rfl
  · rfl

theorem read_hello_greeted (c : Connection) :
    greetingFirst.read .greeted (signs c.doHello.2) = none := rfl

/-- What is observed at the end of a step that leaves the stage right. -/
theorem read_settle {w : Greeter} {stage : Stage} {outputs : List Output}
    (hread : greetingFirst.read stage (signs outputs) = some w.stage)
    (hsettled : w.due = true → w.connection.helloSent = true) :
    greetingFirst.read stage (w.settle outputs).2 = some w.stage := by
  unfold settle
  dsimp only
  cases hdue : w.due with
  | false =>
      rw [if_neg Bool.false_ne_true, List.append_nil]
      exact hread
  | true =>
      rw [if_pos rfl]
      have hstage : w.stage = .greeted := if_pos (hsettled hdue)
      apply Monitor.read_append_of hread
      rw [hstage]
      rfl

/-- What is observed at the end of a step that sends too much. -/
theorem read_settle_of_none {w : Greeter} {stage : Stage} {outputs : List Output}
    (hread : greetingFirst.read stage (signs outputs) = none) :
    greetingFirst.read stage (w.settle outputs).2 = none := by
  unfold settle
  dsimp only
  rw [Monitor.read_append, hread]
  rfl

/-- What is observed at the end of a step after which the greeting is due and
was not sent. -/
theorem read_settle_of_due {w : Greeter} (hdue : w.due = true) :
    greetingFirst.read .fresh (w.settle []).2 = none := by
  unfold settle
  dsimp only
  rw [hdue]
  rfl

theorem stage_of_true {w : Greeter} (h : w.connection.helloSent = true) : w.stage = .greeted :=
  if_pos h

theorem stage_of_false {w : Greeter} (h : w.connection.helloSent = false) : w.stage = .fresh :=
  if_neg (by rw [h]; exact Bool.false_ne_true)

/-- A step that sends nothing and leaves the hello flag alone. -/
theorem read_settle_nil {w w' : Greeter} (hsame : w'.connection.helloSent = w.connection.helloSent)
    (hsettled : w'.due = true → w'.connection.helloSent = true) :
    greetingFirst.read w.stage (w'.settle []).2 = some w'.stage := by
  apply read_settle _ hsettled
  unfold stage
  rw [hsame]
  rfl

theorem signs_release (e : RegisteredLocalSignal) : signs e.release = [] := by
  unfold RegisteredLocalSignal.release
  split <;> rfl

/-- A signal is added. -/
theorem step_add (w : Greeter) (hs : w.Sound) (signal : LocalSignal)
    {r : Greeter × List Sign} (hstep : w.step (.add signal) = some r) :
    r.1.Sound ∧ greetingFirst.read w.stage r.2 = some r.1.stage := by
  cases hstep
  have hsound : Sound { w with connection := (w.connection.addLocalSignal signal).1 } :=
    { pristine := fun h => (hs.pristine h).addLocalSignal signal
      active := hs.active
      settled := hs.settled }
  refine ⟨hsound, read_settle ?_ hsound.settled⟩
  change greetingFirst.read w.stage (signs (w.connection.addLocalSignal signal).2) =
    some w.stage
  unfold Connection.addLocalSignal
  dsimp only
  split
  · rename_i hsent
    rw [stage_of_true (Bool.and_eq_true_iff.mp hsent).2]
    rfl
  · rfl

/-- A signal is removed. -/
theorem step_remove (w : Greeter) (hs : w.Sound) (signal : LocalSignal)
    {r : Greeter × List Sign} (hstep : w.step (.remove signal) = some r) :
    (w.Orderly (.remove signal) →
        r.1.Sound ∧ greetingFirst.read w.stage r.2 = some r.1.stage) ∧
      (¬ w.Orderly (.remove signal) → greetingFirst.read w.stage r.2 = none) := by
  cases hstep
  have hsound : Sound { w with connection := (w.connection.removeLocalSignal signal).1 } :=
    { pristine := fun h => (hs.pristine h).removeLocalSignal signal
      active := hs.active
      settled := hs.settled }
  have hread : greetingFirst.read w.stage (signs (w.connection.removeLocalSignal signal).2) =
      if w.connection.helloSent = true ∨
          ∀ e, w.connection.locals.findByAddress signal.address = some e → e.1 = 0 then
        some w.stage
      else none := by
    unfold Connection.removeLocalSignal LocalSignals.removeLocalSignal
    cases hfind : w.connection.locals.findByAddress signal.address with
    | none => rw [if_pos (.inr nofun)]; rfl
    | some e =>
        obtain ⟨k, entry⟩ := e
        dsimp only
        rw [signs_append, signs_release, List.nil_append]
        by_cases hzero : k = 0
        · have hall : ∀ e, some (k, entry) = some e → e.1 = 0 := by
            intro e he
            rw [← Option.some.inj he]
            exact hzero
          rw [if_neg (not_not.mpr hzero), if_pos (.inr hall)]
          rfl
        · rw [if_pos hzero]
          cases hsent : w.connection.helloSent with
          | true =>
              rw [stage_of_true hsent, if_pos (.inl rfl)]
              rfl
          | false =>
              rw [stage_of_false hsent, if_neg]
              · rfl
              · rintro (h | h)
                · exact Bool.false_ne_true h
                · exact hzero (h _ rfl)
  constructor
  · intro horderly
    have hsent := hread.trans (if_pos horderly)
    exact ⟨hsound, read_settle hsent hsound.settled⟩
  · intro hnot
    have hstuck := hread.trans (if_neg hnot)
    exact read_settle_of_none hstuck

/-- The connection is activated. -/
theorem step_run (w : Greeter) (hs : w.Sound) {r : Greeter × List Sign}
    (hstep : w.step .run = some r) :
    r.1.Sound ∧ greetingFirst.read w.stage r.2 = some r.1.stage := by
  unfold step at hstep
  dsimp only at hstep
  split at hstep
  · cases hstep
    exact ⟨hs, read_settle_nil rfl hs.settled⟩
  · rename_i hran
    have hfresh : w.connection.helloSent = false := by
      cases hsent : w.connection.helloSent with
      | false => rfl
      | true => exact absurd (hs.active hsent) hran
    split at hstep
    · rename_i hclient
      cases hstep
      have hsettled : due { w with ran := true } = true →
          w.connection.helloSent = true := by
        intro hdue
        apply hs.settled
        unfold due at hdue ⊢
        dsimp only at hdue
        rw [if_pos hclient] at hdue ⊢
        exact hdue
      exact ⟨⟨hs.pristine, fun _ => rfl, hsettled⟩, read_settle_nil rfl hsettled⟩
    · cases hstep
      refine ⟨⟨fun h => absurd h.symm Bool.false_ne_true, fun _ => rfl, fun _ => rfl⟩, ?_⟩
      apply read_settle _ (fun _ => rfl)
      rw [stage_of_false hfresh]
      exact read_hello_fresh w.connection

/-! ### Messages -/

section Message

variable {w : Greeter} {m : Message}

/-- A request of any kind, once the greeting was sent. -/
theorem read_request_greeted {before : List Output} (h : OnlyNews before) (reply : Json) :
    greetingFirst.read .greeted
      (signs (before ++ [.send (.ofMetadata 0 "response" reply)])) = some .greeted := by
  rw [signs_append]
  exact Monitor.read_append_of (read_news_greeted h) rfl

/-- A request before the greeting. -/
theorem read_request_fresh {before : List Output} (h : OnlyNews before) (reply : Json) :
    greetingFirst.read .fresh
        (signs (before ++ [.send (.ofMetadata 0 "response" reply)])) =
      if messagesOf before = [] then some .fresh else none := by
  rw [signs_append, Monitor.read_append, read_news_fresh h]
  split <;> rfl

/-- An exception comes from a message that neither announces nor initiates nor
commands anything. -/
theorem quiet_of_throws (h : Session.throws m = true) (c : Connection) :
    announces m = false ∧ initiates m = false ∧ commanded c m = [] := by
  cases m with
  | data signo data => cases h
  | metadata m =>
      obtain ⟨signo, method, params⟩ := m
      unfold Session.throws at h
      simp only [Bool.and_eq_true, decide_eq_true_eq, Bool.not_eq_true'] at h
      obtain ⟨⟨rfl, rfl⟩, hobject⟩ := h
      refine ⟨rfl, rfl, ?_⟩
      change c.commandedIds params = []
      cases params with
      | object members => cases hobject
      | null => rfl
      | bool b => rfl
      | integer n => rfl
      | float bits => rfl
      | string s => rfl
      | array elements => rfl

theorem handleInit_flags (c : Connection) (params : Json) :
    (c.handleInit params).1.isClient = c.isClient ∧
      (c.handleInit params).1.locals = c.locals := by
  obtain ⟨streamId, helloSent, hframe⟩ := c.handleInit_frame params
  rw [hframe]
  exact ⟨rfl, rfl⟩

/-- An `init` message makes a client say hello whose server is new enough. -/
theorem handleInit_of_hello {c : Connection} {params : Json} (hobject : params.isObject = true)
    (hclient : c.isClient = true) (hversion : c.apiVersion.atLeast ⟨2, 0, 0⟩ = true) :
    ∃ c' : Connection, c.handleInit params = c'.doHello ∧
      (c.handleInit params).1.helloSent = true := by
  unfold Connection.handleInit
  rw [if_pos hobject]
  dsimp only
  rw [hclient, hversion]
  exact ⟨_, rfl, rfl⟩

theorem handleInit_of_quiet {c : Connection} {params : Json}
    (h : ¬ (params.isObject = true ∧ c.isClient = true ∧
      c.apiVersion.atLeast ⟨2, 0, 0⟩ = true)) :
    (c.handleInit params).2 = [] ∧ (c.handleInit params).1.helloSent = c.helloSent := by
  unfold Connection.handleInit
  by_cases hobject : params.isObject = true
  · rw [if_pos hobject]
    dsimp only
    have hno : ¬ (c.isClient && c.apiVersion.atLeast ⟨2, 0, 0⟩) = true := by
      intro hand
      rw [Bool.and_eq_true] at hand
      exact h ⟨hobject, hand⟩
    rw [if_neg hno]
    exact ⟨rfl, rfl⟩
  · rw [if_neg hobject]
    exact ⟨rfl, rfl⟩

theorem handleApiVersion_flags (c : Connection) (params : Json) :
    (c.handleApiVersion params).isClient = c.isClient ∧
      (c.handleApiVersion params).locals = c.locals ∧
      (c.handleApiVersion params).helloSent = c.helloSent := by
  obtain ⟨version, hframe⟩ := c.handleApiVersion_frame params
  rw [hframe]
  exact ⟨rfl, rfl, rfl⟩

/-- A message that makes the connection send nothing: it goes wrong exactly if
it makes the greeting due. -/
theorem quiet_step (hs : w.Sound) {c : Connection}
    (hsent : c.helloSent = w.connection.helloSent) (hlocals : c.locals = w.connection.locals)
    (announced initiated : Bool) :
    let w' : Greeter :=
      { w with connection := c, announced := announced, initiated := initiated }
    ((w'.due = true → w.connection.helloSent = true) →
        w'.Sound ∧ greetingFirst.read w.stage (w'.settle []).2 = some w'.stage) ∧
      (¬ (w'.due = true → w.connection.helloSent = true) →
        greetingFirst.read w.stage (w'.settle []).2 = none) := by
  intro w'
  constructor
  · intro hdue
    have hsettled : w'.due = true → w'.connection.helloSent = true := by
      intro h
      exact hsent.trans (hdue h)
    refine ⟨⟨?_, ?_, hsettled⟩, read_settle_nil hsent hsettled⟩
    · intro hfresh
      change c.locals.Pristine
      rw [hlocals]
      exact hs.pristine (hsent.symm.trans hfresh)
    · intro hgreeted
      exact hs.active (hsent.symm.trans hgreeted)
  · intro hnot
    obtain ⟨hdue, hfresh⟩ := Classical.not_imp.mp hnot
    rw [stage_of_false (Bool.eq_false_iff.mpr hfresh)]
    exact read_settle_of_due hdue

/-- An active server has greeted its peer. -/
theorem Sound.server (hs : w.Sound) (hran : w.ran = true)
    (hserver : w.connection.isClient = false) : w.connection.helloSent = true := by
  apply hs.settled
  unfold due
  rw [hserver, if_neg Bool.false_ne_true]
  exact hran

/-- A client that has not greeted its peer need not have. -/
theorem Sound.client (hs : w.Sound) (hclient : w.connection.isClient = true)
    (hfresh : w.connection.helloSent = false) : (w.announced && w.initiated) = false := by
  cases hboth : w.announced && w.initiated with
  | false => rfl
  | true =>
      have hdue : w.due = true := by
        unfold due
        rw [if_pos hclient]
        exact hboth
      rw [hs.settled hdue] at hfresh
      cases hfresh

/-- The condition on a message, for the connections that it is about. -/
theorem orderly_iff_fresh (hran : w.ran = true) (hclient : w.connection.isClient = true)
    (hfresh : w.connection.helloSent = false) :
    w.Orderly (.message m) ↔
      (∀ id ∈ commanded w.connection m, w.connection.locals.findById id = none) ∧
        (announces m = true → w.initiated = false) ∧
        (initiates m = true → w.announced = true →
          w.connection.apiVersion.atLeast ⟨2, 0, 0⟩ = true) := by
  unfold Orderly
  dsimp only
  rw [if_neg (by rw [hfresh]; exact Bool.false_ne_true)]
  exact ⟨fun h => h hran hclient, fun h _ _ => h⟩

theorem orderly_iff_greeted (hran : w.ran = true) (hclient : w.connection.isClient = true)
    (hsent : w.connection.helloSent = true) :
    w.Orderly (.message m) ↔
      (initiates m = true → w.connection.apiVersion.atLeast ⟨2, 0, 0⟩ = false) := by
  unfold Orderly
  dsimp only
  rw [if_pos hsent]
  exact ⟨fun h => h hran hclient, fun h _ _ => h⟩

theorem orderly_of_server (hserver : w.connection.isClient = false) :
    w.Orderly (.message m) := by
  intro _ hclient
  rw [hserver] at hclient
  cases hclient

/-- A message that sends nothing: the condition is that the greeting does not
become due. -/
theorem orderly_iff_due (hs : w.Sound) (hran : w.ran = true)
    (hcommanded : commanded w.connection m = [])
    (hquiet : ¬ (initiates m = true ∧ w.connection.isClient = true ∧
      w.connection.apiVersion.atLeast ⟨2, 0, 0⟩ = true)) {c : Connection}
    (hisClient : c.isClient = w.connection.isClient) :
    w.Orderly (.message m) ↔
      (due { w with
          connection := c
          announced := w.announced || announces m
          initiated := w.initiated || initiates m } = true →
        w.connection.helloSent = true) := by
  cases hclient : w.connection.isClient with
  | false => exact iff_of_true (orderly_of_server hclient) fun _ => hs.server hran hclient
  | true =>
      cases hfresh : w.connection.helloSent with
      | true =>
          refine iff_of_true ((orderly_iff_greeted hran hclient hfresh).mpr ?_) fun _ => rfl
          intro hinit
          cases hversion : w.connection.apiVersion.atLeast ⟨2, 0, 0⟩ with
          | false => rfl
          | true => exact absurd ⟨hinit, hclient, hversion⟩ hquiet
      | false =>
          have hboth := hs.client hclient hfresh
          rw [orderly_iff_fresh hran hclient hfresh, hcommanded]
          unfold due
          dsimp only
          rw [hisClient, if_pos hclient]
          have hlate : initiates m = true →
              w.connection.apiVersion.atLeast ⟨2, 0, 0⟩ = false := by
            intro hinit
            cases hversion : w.connection.apiVersion.atLeast ⟨2, 0, 0⟩ with
            | false => rfl
            | true => exact absurd ⟨hinit, hclient, hversion⟩ hquiet
          -- A message is not both of a kind that announces and of one that initiates.
          have hone : announces m = true → initiates m = false := by
            intro hann
            have hglobal : Session.globalMethod m = "apiVersion" := by
              simpa using (Bool.and_eq_true_iff.mp hann).1
            unfold initiates
            rw [hglobal]
            rfl
          cases hann : announces m with
          | true =>
              rw [hone hann]
              revert hboth
              cases w.announced <;> cases w.initiated <;> simp
          | false =>
              cases hinit : initiates m with
              | true =>
                  rw [hlate hinit]
                  revert hboth
                  cases w.announced <;> cases w.initiated <;> simp
              | false =>
                  revert hboth
                  cases w.announced <;> cases w.initiated <;> simp

/-- A message that sends nothing. -/
theorem quiet_message (hs : w.Sound) (hran : w.ran = true)
    (hcommanded : commanded w.connection m = [])
    (hquiet : ¬ (initiates m = true ∧ w.connection.isClient = true ∧
      w.connection.apiVersion.atLeast ⟨2, 0, 0⟩ = true)) {c : Connection}
    (hisClient : c.isClient = w.connection.isClient)
    (hsent : c.helloSent = w.connection.helloSent) (hlocals : c.locals = w.connection.locals) :
    let w' : Greeter :=
      { w with
        connection := c
        announced := w.announced || announces m
        initiated := w.initiated || initiates m }
    (w.Orderly (.message m) →
        w'.Sound ∧ greetingFirst.read w.stage (w'.settle []).2 = some w'.stage) ∧
      (¬ w.Orderly (.message m) → greetingFirst.read w.stage (w'.settle []).2 = none) := by
  rw [orderly_iff_due hs hran hcommanded hquiet hisClient]
  exact quiet_step hs hsent hlocals _ _

/-- The flags of a message that is neither of the two. -/
theorem flags_of_other (hversion : Session.globalMethod m ≠ "apiVersion")
    (hinit : Session.globalMethod m ≠ "init") :
    announces m = false ∧ initiates m = false := by
  unfold announces initiates
  rw [decide_eq_false hversion, decide_eq_false hinit]
  exact ⟨rfl, rfl⟩

/-- A request of the peer. -/
theorem step_request (hs : w.Sound) (hran : w.ran = true)
    (hglobal : Session.globalMethod m = "request") {q : Connection × List Output}
    (hq : w.connection.handleCommandInterfaceRequest (Session.paramsOf m) = some q) :
    (w.Orderly (.message m) →
        Sound { w with connection := q.1 } ∧
          greetingFirst.read w.stage (settle { w with connection := q.1 } q.2).2 =
            some (stage { w with connection := q.1 })) ∧
      (¬ w.Orderly (.message m) →
        greetingFirst.read w.stage (settle { w with connection := q.1 } q.2).2 = none) := by
  obtain ⟨hsent, hisClient, before, reply, hnews, houtputs, hpristine⟩ :=
    Connection.request_spec hq
  obtain ⟨hann, hinit⟩ := flags_of_other (m := m) (by rw [hglobal]; decide)
    (by rw [hglobal]; decide)
  have hdue : due { w with connection := q.1 } = w.due := by
    unfold due
    rw [hisClient]
  have hsettled : due { w with connection := q.1 } = true → q.1.helloSent = true := by
    rw [hdue, hsent]
    exact hs.settled
  have hactive : q.1.helloSent = true → w.ran = true := by
    rw [hsent]
    exact hs.active
  have hstage : stage { w with connection := q.1 } = w.stage := by
    unfold stage
    rw [hsent]
  rw [houtputs]
  cases hfresh : w.connection.helloSent with
  | true =>
      have horderly : w.Orderly (.message m) := by
        cases hclient : w.connection.isClient with
        | false => exact orderly_of_server hclient
        | true =>
            rw [orderly_iff_greeted hran hclient hfresh, hinit]
            exact nofun
      refine ⟨fun _ => ⟨⟨?_, hactive, hsettled⟩, ?_⟩, fun hnot => absurd horderly hnot⟩
      · intro hno
        rw [hsent, hfresh] at hno
        cases hno
      · apply read_settle _ hsettled
        rw [hstage, stage_of_true hfresh]
        exact read_request_greeted hnews reply
  | false =>
      have hclient : w.connection.isClient = true := by
        cases hclient : w.connection.isClient with
        | true => rfl
        | false =>
            rw [hs.server hran hclient] at hfresh
            cases hfresh
      have hids : commanded w.connection m =
          w.connection.commandedIds (Session.paramsOf m) := if_pos hglobal
      have horderly : w.Orderly (.message m) ↔
          ∀ id ∈ w.connection.commandedIds (Session.paramsOf m),
            w.connection.locals.findById id = none := by
        rw [orderly_iff_fresh hran hclient hfresh, hids, hann, hinit]
        exact ⟨fun h => h.1, fun h => ⟨h, nofun, nofun⟩⟩
      obtain ⟨hsilent, hspeaks⟩ := hpristine (hs.pristine hfresh)
      rw [horderly]
      constructor
      · intro hnone
        obtain ⟨hlocals, hbefore⟩ := hsilent hnone
        refine ⟨⟨?_, hactive, hsettled⟩, ?_⟩
        · intro _
          change q.1.locals.Pristine
          rw [hlocals]
          exact hs.pristine hfresh
        · apply read_settle _ hsettled
          rw [hstage, stage_of_false hfresh, read_request_fresh hnews, hbefore]
          rfl
      · intro hsome
        apply read_settle_of_none
        have hspoken : messagesOf before ≠ [] := by
          apply hspeaks
          by_contra hno
          apply hsome
          intro id hid
          by_contra hfound
          exact hno ⟨id, hid, hfound⟩
        rw [stage_of_false hfresh, read_request_fresh hnews, if_neg hspoken]

/-- A message that arrives. -/
theorem step_message (hs : w.Sound) {r : Greeter × List Sign}
    (hstep : w.step (.message m) = some r) :
    (w.Orderly (.message m) → r.1.Sound ∧ greetingFirst.read w.stage r.2 = some r.1.stage) ∧
      (¬ w.Orderly (.message m) → greetingFirst.read w.stage r.2 = none) := by
  unfold step at hstep
  dsimp only at hstep
  split at hstep
  rotate_left
  · rename_i hran
    obtain rfl := Option.some.inj hstep
    exact ⟨fun _ => ⟨hs, read_settle_nil rfl hs.settled⟩,
      fun hnot => absurd (fun h => absurd h hran) hnot⟩
  rename_i hran
  have hserves (h : Session.throws m = true) := quiet_of_throws h w.connection
  unfold deliver at hstep
  split at hstep
  · rename_i hthrows
    obtain ⟨hann, hinit, hcommanded⟩ := hserves hthrows
    obtain rfl := Option.some.inj hstep
    have hsame := quiet_message hs hran hcommanded (by rw [hinit]; exact fun h => nomatch h.1)
      (c := w.connection) rfl rfl rfl
    rw [hann, hinit, Bool.or_false, Bool.or_false] at hsame
    exact hsame
  obtain ⟨q, hq, rfl⟩ := Option.map_eq_some_iff.mp hstep
  have hcommandless (h : Session.globalMethod m ≠ "request") : commanded w.connection m = [] :=
    if_neg h
  rcases Connection.receive_cases hq with ⟨hglobal, rfl⟩ | ⟨hglobal, rfl⟩ | ⟨hglobal, p, hp, rfl⟩ |
    ⟨⟨hversion, hinit, hrequest⟩, remotes, events, rfl⟩
  · obtain ⟨hisClient, hlocals, hsent⟩ :=
      handleApiVersion_flags w.connection (Session.paramsOf m)
    have hnot : initiates m = false := by
      unfold initiates
      rw [hglobal]
      rfl
    exact quiet_message hs hran (hcommandless (by rw [hglobal]; decide))
      (by rw [hnot]; exact fun h => nomatch h.1) hisClient hsent hlocals
  · obtain ⟨hisClient, hlocals⟩ := handleInit_flags w.connection (Session.paramsOf m)
    have hinitiates : initiates m = (Session.paramsOf m).isObject := by
      unfold initiates
      rw [hglobal]
      rfl
    have hann : announces m = false := by
      unfold announces
      rw [hglobal]
      rfl
    by_cases hhello : (Session.paramsOf m).isObject = true ∧ w.connection.isClient = true ∧
        w.connection.apiVersion.atLeast ⟨2, 0, 0⟩ = true
    · obtain ⟨hobject, hclient, hversion⟩ := hhello
      obtain ⟨c', heq, hsent⟩ := handleInit_of_hello hobject hclient hversion
      cases hfresh : w.connection.helloSent with
      | true =>
          have hnot : ¬ w.Orderly (.message m) := by
            rw [orderly_iff_greeted hran hclient hfresh, hinitiates, hobject, hversion]
            exact fun h => nomatch h rfl
          refine ⟨fun h => absurd h hnot, fun _ => ?_⟩
          apply read_settle_of_none
          dsimp only
          rw [stage_of_true hfresh, heq]
          exact read_hello_greeted c'
      | false =>
          have horderly : w.Orderly (.message m) := by
            rw [orderly_iff_fresh hran hclient hfresh, hcommandless (by rw [hglobal]; decide),
              hann]
            exact ⟨nofun, nofun, fun _ _ => hversion⟩
          refine ⟨fun _ => ⟨⟨?_, fun _ => hran, fun _ => hsent⟩, ?_⟩,
            fun hnot => absurd horderly hnot⟩
          · intro hno
            exact nomatch hsent.symm.trans hno
          · apply read_settle _ fun _ => hsent
            dsimp only
            rw [stage_of_false hfresh, stage_of_true (by exact hsent), heq]
            exact read_hello_fresh c'
    · obtain ⟨houtputs, hsent⟩ := handleInit_of_quiet hhello
      dsimp only
      rw [houtputs]
      exact quiet_message hs hran (hcommandless (by rw [hglobal]; decide))
        (by rw [hinitiates]; exact hhello) hisClient hsent hlocals
  · obtain ⟨hann, hinit⟩ := flags_of_other (m := m) (by rw [hglobal]; decide)
      (by rw [hglobal]; decide)
    have hrequest := step_request hs hran hglobal hp
    dsimp only
    rw [hann, hinit, Bool.or_false, Bool.or_false]
    exact hrequest
  · obtain ⟨hann, hnot⟩ := flags_of_other (m := m) hversion hinit
    exact quiet_message hs hran (hcommandless hrequest)
      (by rw [hnot]; exact fun h => nomatch h.1) rfl rfl rfl

end Message

/-- **The greeting comes first, exactly in the orderly runs**: in every run of
a new connection in either role, the version and the greeting come first, in
this order and once, and they have come when they are due. -/
theorem greeting_first_iff (isClient : Bool) (localStreamId : String)
    (commandInterfaces : Json) (inputs : List Input) {r : Greeter × List Sign}
    (hrun : Trace.run step (new isClient localStreamId commandInterfaces) inputs = some r) :
    (greetingFirst.read .fresh r.2).isSome = true ↔
      MeetsOpt (fun w i => (step w i).map Prod.fst) Orderly
        (new isClient localStreamId commandInterfaces) inputs := by
  refine Trace.read_iff_of_run stage ?_ inputs _ r (sound_new isClient localStreamId
    commandInterfaces) hrun
  intro w i r hs hstep
  cases i with
  | add signal => exact ⟨fun _ => step_add w hs signal hstep, fun hnot => absurd trivial hnot⟩
  | remove signal => exact step_remove w hs signal hstep
  | run => exact ⟨fun _ => step_run w hs hstep, fun hnot => absurd trivial hnot⟩
  | message m => exact step_message hs hstep

/-- A signal. -/
def sampleSignal : LocalSignal := { address := 0, id := "a", metadata := .ofJson (.object []) }

/-- The messages of a server. -/
def versionArrives : Input :=
  .message (.ofMetadata 0 "apiVersion" (.object [("version", .string "2.0.0")]))

def initArrives : Input := .message (.ofMetadata 0 "init" (.object []))

/-- A client that registers a signal before the handshake and removes it after
it. -/
theorem greeting_first_client :
    ∃ r, Trace.run step (new true "c" .null)
        [.add sampleSignal, .run, versionArrives, initArrives, .remove sampleSignal] = some r ∧
      (greetingFirst.read .fresh r.2).isSome = true := by
  obtain ⟨r, hrun⟩ : ∃ r, Trace.run step (new true "c" .null)
      [.add sampleSignal, .run, versionArrives, initArrives, .remove sampleSignal] = some r :=
    ⟨_, rfl⟩
  refine ⟨r, hrun, (greeting_first_iff true "c" .null _ hrun).mpr ⟨trivial, ?_⟩⟩
  rintro _ ⟨⟩
  refine ⟨trivial, ?_⟩
  rintro _ ⟨⟩
  refine ⟨fun _ _ => ⟨nofun, fun _ => rfl, nofun⟩, ?_⟩
  rintro _ ⟨⟩
  refine ⟨fun _ _ => ⟨nofun, nofun, fun _ _ => by decide +kernel⟩, ?_⟩
  rintro _ ⟨⟩
  exact ⟨.inl (by decide +kernel), fun _ _ => trivial⟩

/-- **The greeting does not come first, or not once**: a signal is withdrawn
before a server has greeted its client, and a client greets again at every
`init` message. -/
theorem greeting_not_first :
    ((Trace.run step (new false "s" .null) [.add sampleSignal, .remove sampleSignal, .run]).map
        fun r => (greetingFirst.read .fresh r.2).isSome) = some false ∧
      ((Trace.run step (new true "c" .null)
          [.run, versionArrives, initArrives, initArrives]).map
        fun r => (greetingFirst.read .fresh r.2).isSome) = some false := by
  constructor <;> decide +kernel

end Greeter

end WsStreaming.Ports
