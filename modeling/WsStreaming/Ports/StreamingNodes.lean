import WsStreaming.Ports.Streaming
import WsStreaming.Verified.Layers

/-!
# Connections as message handlers

A connection with its application is an end that handles messages.  With queues
between them, two of them are a dialogue.  Over any reliable transport they do
nothing else: what the peer mirrors and what its application is handed is the
same, and no message that arrives throws.

## Main results

* `step_dialogue` — the queues are those of the dialogue.
* `stack_streams` — two connections over a reliable transport.
-/

namespace WsStreaming.Ports

open WsStreaming.Verified.Run
open WsStreaming.Verified.Layers

namespace Mirroring

open LocalSignals (Act)
open Advertisement (UniqueId SameId Side)

instance : Paired Side where
  other := Side.other
  other_other := by
    intro side
    cases side <;> rfl
  other_ne := by
    intro side
    cases side <;> decide

/-- A connection, what was published on its connected signals, and what its
application was handed. -/
structure Node where
  connection : Connection
  published : List Publication := []
  heard : List Publication := []

/-- What happens to a connection apart from messages. -/
inductive Local where
  /-- `connection::run`. -/
  | run
  /-- `connection::add_local_signal`. -/
  | add (signal : LocalSignal)
  /-- `connection::remove_local_signal`. -/
  | remove (signal : LocalSignal)
  /-- The command interface client sends a request. -/
  | request (client : InBandClient Unit) (method : String) (params : Json)
  /-- `connection::do_command_interface`, called for an HTTP request. -/
  | command (method : String) (params : Json)
  /-- `local_signal::set_metadata`. -/
  | setMetadata (address : Nat) (metadata : Metadata)
  /-- `local_signal::publish_data`. -/
  | publish (address : Nat) (domainValue : Int64) (sampleCount : Nat) (data : List UInt8)

namespace Node

/-- What an operation of the connection leaves and sends. -/
def tells (n : Node) (r : Connection × List Output) : Node × List Message :=
  ({ n with connection := r.1 }, messagesOf r.2)

/-- What happens to a local signal. -/
def acts (n : Node) (i : Act) : Node × List Message :=
  let c := n.connection
  ({ n with
      connection := { c with locals := (c.locals.act i).1 }
      published := n.published ++ publications c.locals i }, (c.locals.act i).2)

def act (n : Node) : Local → Node × List Message
  | .run => if n.connection.isClient then (n, []) else n.tells n.connection.doHello
  | .add signal => n.tells (n.connection.addLocalSignal signal)
  | .remove signal => n.tells (n.connection.removeLocalSignal signal)
  | .request client method params =>
      n.tells (n.connection, [.send (.metadata (client.asyncRequest method params ()).2)])
  | .command method params =>
      let (connection, outputs, _) := n.connection.doCommandInterface method params
      n.tells (connection, outputs)
  | .setMetadata address metadata => n.acts (.setMetadata address metadata)
  | .publish address domainValue sampleCount data =>
      n.acts (.publish address domainValue sampleCount data)

/-- `on_peer_metadata_received` and `on_peer_data_received`. -/
def take (n : Node) (m : Message) : Option (Node × List Message) :=
  (n.connection.receive m).map fun r =>
    ({ n with
        connection := r.1
        heard := n.heard ++ handed r.1.remotes r.2.2 }, messagesOf r.2.1)

def behaviour : Behaviour Node Local Message := ⟨act, take⟩

/-- The ids are unique, and a registration finds its number free, which is not
zero. -/
def Admits (n : Node) : Local → Prop
  | .add signal =>
      UniqueId n.connection.locals signal ∧ Numbered n.connection.locals signal
  | .remove signal => SameId n.connection.locals signal
  | _ => True

instance (n : Node) : (action : Local) → Decidable (n.Admits action)
  | .add _ => inferInstanceAs (Decidable (_ ∧ _))
  | .remove _ => inferInstanceAs (Decidable (SameId _ _))
  | .run => isTrue trivial
  | .request _ _ _ => isTrue trivial
  | .command _ _ => isTrue trivial
  | .setMetadata _ _ => isTrue trivial
  | .publish _ _ _ _ => isTrue trivial

end Node

/-! ## The dialogue -/

/-- The new connections of a dialogue. -/
def nodes (clientId serverId : String) (clientInterfaces serverInterfaces : Json) (side : Side) :
    Node :=
  { connection :=
      ((Advertisement.Link.new clientId serverId clientInterfaces serverInterfaces).endpoint
        side).connection }

/-- Two connections and their queues as a dialogue. -/
def dialogue (w : Network Side Node Message) : Dialogue :=
  { link :=
      { client := { connection := (w.node .client).connection, outgoing := w.queue .client }
        server := { connection := (w.node .server).connection, outgoing := w.queue .server } }
    published := fun side => (w.node side).published
    heard := fun side => (w.node side).heard }

/-- A move of the queues as an action of the dialogue. -/
def actionOf : Move Side Local → Action
  | .act side .run => .link (.run side)
  | .act side (.add signal) => .link (.add side signal)
  | .act side (.remove signal) => .link (.remove side signal)
  | .act side (.request client method params) => .link (.request side client method params)
  | .act side (.command method params) => .link (.command side method params)
  | .act side (.setMetadata address metadata) => .setMetadata side address metadata
  | .act side (.publish address domainValue sampleCount data) =>
      .publish side address domainValue sampleCount data
  | .deliver side => .link (.deliver side)

section Dialogue

variable {w : Network Side Node Message}

theorem endpoint_dialogue (w : Network Side Node Message) (side : Side) :
    (dialogue w).link.endpoint side = ⟨(w.node side).connection, w.queue side⟩ := by
  cases side <;> rfl

/-- A side that keeps what it has. -/
theorem ite_side_self {α : Type} (f : Side → α) (side : Side) :
    (fun s => if s = side then f side else f s) = f := by
  funext s
  split
  · rename_i hs
    rw [hs]
  · rfl

/-- A node that becomes and sends something, which hands nothing on. -/
theorem dialogue_tells (w : Network Side Node Message) (side : Side) (n : Node)
    (messages : List Message) :
    dialogue (w.tells side (n, messages)) =
      { link := (dialogue w).link.put ⟨n.connection, w.queue side ++ messages⟩ side
        published := fun s => if s = side then n.published else (w.node s).published
        heard := fun s => if s = side then n.heard else (w.node s).heard } := by
  have hnode (s : Side) : (w.tells side (n, messages)).node s = if s = side then n else w.node s :=
    Function.update_apply ..
  unfold dialogue
  congr 1
  · cases side <;> rfl
  · funext s
    rw [hnode]
    split <;> rfl
  · funext s
    rw [hnode]
    split <;> rfl

/-- An operation of a connection, in the queues and in the dialogue. -/
theorem dialogue_node_tells (w : Network Side Node Message) (side : Side)
    (r : Connection × List Output) :
    dialogue (w.tells side ((w.node side).tells r)) =
      { dialogue w with link := (dialogue w).link.tells side r } := by
  have hpublished := ite_side_self (fun s => (w.node s).published) side
  have hheard := ite_side_self (fun s => (w.node s).heard) side
  rw [Node.tells, dialogue_tells]
  dsimp only at hpublished hheard ⊢
  rw [hpublished, hheard, Advertisement.Link.tells, endpoint_dialogue]
  rfl

/-- What happens to a local signal, in the queues and in the dialogue. -/
theorem dialogue_node_acts (w : Network Side Node Message) (side : Side) (i : Act) :
    dialogue (w.tells side ((w.node side).acts i)) = (dialogue w).acts side i := by
  have hheard := ite_side_self (fun s => (w.node s).heard) side
  rw [Node.acts, dialogue_tells]
  unfold Dialogue.acts
  dsimp only at hheard ⊢
  rw [hheard, endpoint_dialogue]
  dsimp only
  congr 1
  funext s
  split
  · rename_i hs
    rw [hs]
    rfl
  · rfl

/-- An operation of a connection is an action of the dialogue. -/
theorem step_link_tells {side : Side} {action : Advertisement.Action} {r : Connection × List Output}
    (hstep : (dialogue w).link.step action = some ((dialogue w).link.tells side r))
    (hhands : ∀ s, Dialogue.hands (dialogue w).link action s = []) :
    (dialogue w).step (.link action) =
      some (dialogue (w.tells side ((w.node side).tells r))) := by
  have hheard : (fun s => (dialogue w).heard s ++ Dialogue.hands (dialogue w).link action s) =
      (dialogue w).heard := by
    funext s
    rw [hhands, List.append_nil]
  unfold Dialogue.step
  dsimp only
  rw [hstep, Option.map_some, hheard, dialogue_node_tells]

/-- What an end does on its own. -/
theorem step_dialogue_act (w : Network Side Node Message) (side : Side) (action : Local) :
    (dialogue w).step (actionOf (.act side action)) =
      some (dialogue (w.tells side ((w.node side).act action))) := by
  cases action with
  | run =>
      unfold Node.act
      dsimp only
      cases hclient : (w.node side).connection.isClient with
      | true =>
          -- A client does not greet.
          refine step_link_tells (r := ((w.node side).connection, [])) ?_ fun _ => rfl
          unfold Advertisement.Link.step Advertisement.Link.tells
          dsimp only
          rw [endpoint_dialogue]
          dsimp only
          rw [hclient, if_pos rfl, show messagesOf [] = [] from rfl, List.append_nil]
          cases side <;> rfl
      | false =>
          refine step_link_tells ?_ fun _ => rfl
          unfold Advertisement.Link.step
          dsimp only
          rw [endpoint_dialogue]
          dsimp only
          rw [hclient, if_neg Bool.false_ne_true]
  | add signal =>
      refine step_link_tells ?_ fun _ => rfl
      rw [Advertisement.Link.step, endpoint_dialogue]
  | remove signal =>
      refine step_link_tells ?_ fun _ => rfl
      rw [Advertisement.Link.step, endpoint_dialogue]
  | request client method params =>
      refine step_link_tells ?_ fun _ => rfl
      rw [Advertisement.Link.step, endpoint_dialogue]
  | command method params =>
      let answer := (w.node side).connection.doCommandInterface method params
      refine step_link_tells (r := (answer.1, answer.2.1)) ?_ fun _ => rfl
      rw [Advertisement.Link.step, endpoint_dialogue]
  | setMetadata address metadata => exact congrArg some (dialogue_node_acts w side _).symm
  | publish address domainValue sampleCount data =>
      exact congrArg some (dialogue_node_acts w side _).symm

theorem hands_deliver_nil {side : Side} (hqueue : w.queue side = []) (s : Side) :
    Dialogue.hands (dialogue w).link (.deliver side) s = [] := by
  unfold Dialogue.hands
  dsimp only
  rw [endpoint_dialogue]
  dsimp only
  rw [hqueue]
  split <;> rfl

/-- What the next message of a side hands to the applications. -/
theorem hands_deliver {side : Side} {m : Message} {rest : List Message}
    {r : Connection × List Output × List RemoteEvent} (hqueue : w.queue side = m :: rest)
    (hr : (w.node side.other).connection.receive m = some r) (s : Side) :
    Dialogue.hands (dialogue w).link (.deliver side) s =
      if s = side.other then handed r.1.remotes r.2.2 else [] := by
  unfold Dialogue.hands
  dsimp only
  rw [endpoint_dialogue, endpoint_dialogue]
  dsimp only
  rw [hqueue]
  dsimp only
  by_cases hs : s = side.other
  · have hother : side = s.other := by
      rw [hs]
      cases side <;> rfl
    rw [if_pos hother, if_pos hs, hs, hr]
  · have hother : side ≠ s.other := by
      rintro rfl
      exact hs (by cases s <;> rfl)
    rw [if_neg hother, if_neg hs]

/-- The next message of a side reaches the other one. -/
theorem step_dialogue_deliver (w : Network Side Node Message) (side : Side) :
    (dialogue w).step (actionOf (.deliver side)) =
      (w.step Node.behaviour (.deliver side)).map dialogue := by
  show (((dialogue w).link.step (.deliver side)).map _) = _
  unfold Advertisement.Link.step Network.step
  dsimp only
  rw [endpoint_dialogue]
  dsimp only
  cases hqueue : w.queue side with
  | nil =>
      have hheard : (fun s => (dialogue w).heard s ++
          Dialogue.hands (dialogue w).link (.deliver side) s) = (dialogue w).heard := by
        funext s
        rw [hands_deliver_nil hqueue, List.append_nil]
      rw [Option.map_some, Option.map_some, hheard]
  | cons m rest =>
      -- The other side takes the message.
      let w₁ : Network Side Node Message := { w with queue := Function.update w.queue side rest }
      show ((((dialogue w).link.endpoint side.other).connection.receive m).map _).map _ =
        (((w.node side.other).take m).map (w₁.tells side.other)).map dialogue
      rw [endpoint_dialogue, Node.take]
      dsimp only
      cases hr : (w.node side.other).connection.receive m with
      | none => rfl
      | some r =>
          rw [Option.map_some, Option.map_some, Option.map_some, Option.map_some,
            Option.map_some, dialogue_tells]
          have hheard : (fun s => (dialogue w).heard s ++
              Dialogue.hands (dialogue w).link (.deliver side) s) =
                fun s => if s = side.other then
                  (w.node side.other).heard ++ handed r.1.remotes r.2.2
                else (w₁.node s).heard := by
            funext s
            rw [hands_deliver hqueue hr]
            by_cases hs : s = side.other
            · rw [if_pos hs, if_pos hs, hs]
              rfl
            · rw [if_neg hs, if_neg hs, List.append_nil]
              rfl
          rw [hheard]
          congr 1
          congr 1
          · cases side <;> rfl
          · exact (ite_side_self (fun s => (w.node s).published) side.other).symm

/-- **The queues are those of the dialogue.** -/
theorem step_dialogue (w : Network Side Node Message) (move : Move Side Local) :
    (dialogue w).step (actionOf move) = (w.step Node.behaviour move).map dialogue := by
  cases move with
  | act side action => exact step_dialogue_act w side action
  | deliver side => exact step_dialogue_deliver w side

theorem admits_dialogue {move : Move Side Local} (h : w.Admits Node.Admits move) :
    (dialogue w).Admits (actionOf move) := by
  cases move with
  | deliver side => trivial
  | act side action =>
      cases action with
      | add signal =>
          show UniqueId ((dialogue w).link.endpoint side).connection.locals signal ∧
            Numbered ((dialogue w).link.endpoint side).connection.locals signal
          rw [endpoint_dialogue]
          exact h
      | remove signal =>
          show SameId ((dialogue w).link.endpoint side).connection.locals signal
          rw [endpoint_dialogue]
          exact h
      | run => trivial
      | request client method params => trivial
      | command method params => trivial
      | setMetadata address metadata => trivial
      | publish address domainValue sampleCount data => trivial

/-- New connections, and nothing on the way. -/
def startOfQueues (clientId serverId : String) (clientInterfaces serverInterfaces : Json) :
    Network Side Node Message :=
  { node := nodes clientId serverId clientInterfaces serverInterfaces, queue := fun _ => [] }

theorem dialogue_start (clientId serverId : String) (clientInterfaces serverInterfaces : Json) :
    dialogue (startOfQueues clientId serverId clientInterfaces serverInterfaces) =
      .new clientId serverId clientInterfaces serverInterfaces := rfl

end Dialogue

/-! ## Over a transport -/

section Stack

variable {τ σ θ : Type} {T : Transport τ Side σ θ Message}

/-- The connections show what they show in a run of the dialogue, and what a
side has sent and the other one has not heard is on its way there. -/
def RefinesDialogue (T : Transport τ Side σ θ Message) (s : Stack Side Node τ)
    (start : Dialogue) : Prop :=
  ∃ actions w, MeetsOpt Dialogue.step Dialogue.Admits start actions ∧
    actions.foldlM Dialogue.step start = some (dialogue w) ∧ Refines T s w

/-- **Streaming.**  What an application is handed begins what was published on
the other side.  Once everything of a side is through, it is all of it, and the
signals of the side are replicated. -/
structure Streams (s : Stack Side Node τ) (through : Side → Prop) : Prop where
  handed : ∀ side, (s.node side.other).heard <+: (s.node side).published
  delivered : ∀ side, through side → (s.node side.other).heard = (s.node side).published
  replicated : ∀ side, through side → Replicated (s.node side).connection.locals
    (s.node side.other).connection.remotes

/-- No message throws that a turn of the receive path would hand on next. -/
def NoThrow (T : Transport τ Side σ θ Message) (s : Stack Side Node τ) : Prop :=
  ∀ side o, (Node.behaviour.answers (s.node side) (T.calls s.transport side o)).isSome

/-- The sides follow each other in a dialogue that a run of the queues shows. -/
theorem follows_of_moves {clientId serverId : String} {clientInterfaces serverInterfaces : Json}
    {moves : List (Move Side Local)} {w : Network Side Node Message}
    (hadmits : MeetsOpt (Network.step Node.behaviour) (Network.Admits Node.Admits)
      (startOfQueues clientId serverId clientInterfaces serverInterfaces) moves)
    (hmoves : moves.foldlM (Network.step Node.behaviour)
      (startOfQueues clientId serverId clientInterfaces serverInterfaces) = some w) :
    (∃ actions, MeetsOpt Dialogue.step Dialogue.Admits
        (.new clientId serverId clientInterfaces serverInterfaces) actions ∧
      actions.foldlM Dialogue.step (.new clientId serverId clientInterfaces serverInterfaces) =
        some (dialogue w)) ∧
      ∀ side, (dialogue w).Follows side := by
  have hadmits' : MeetsOpt Dialogue.step Dialogue.Admits
      (.new clientId serverId clientInterfaces serverInterfaces) (moves.map actionOf) := by
    rw [← dialogue_start]
    exact hadmits.map step_dialogue (fun _ _ => admits_dialogue) moves
  have hrun : (moves.map actionOf).foldlM Dialogue.step
      (.new clientId serverId clientInterfaces serverInterfaces) = some (dialogue w) := by
    rw [← dialogue_start, foldlM_map step_dialogue, hmoves, Option.map_some]
  obtain ⟨w', hw', hfollows⟩ :=
    follows_run clientId serverId clientInterfaces serverInterfaces _ hadmits'
  rw [hrun] at hw'
  rw [← Option.some.inj hw'] at hfollows
  exact ⟨⟨_, hadmits', hrun⟩, hfollows⟩

section Refined

variable {s : Stack Side Node τ} {w : Network Side Node Message}

theorem streams_of_follows {through : Side → Prop} (href : Refines T s w)
    (hfollows : ∀ side, (dialogue w).Follows side)
    (hthrough : ∀ side, through side → T.heard s.transport side.other = T.sent s.transport side) :
    Streams s through := by
  have hdrained (side : Side) (hside : through side) :
      ((dialogue w).link.endpoint side).outgoing = [] := by
    have hqueue := href.queue side
    rw [show Paired.other side = side.other from rfl, hthrough side hside] at hqueue
    rw [endpoint_dialogue]
    exact List.append_right_eq_self.mp hqueue.symm
  constructor
  · intro side
    rw [← href.node]
    exact (hfollows side).handed
  · intro side hside
    rw [← href.node]
    exact (hfollows side).delivered (hdrained side hside)
  · intro side hside
    have hreplicated := (hfollows side).replicated (hdrained side hside)
    rw [endpoint_dialogue, endpoint_dialogue] at hreplicated
    rw [← href.node]
    exact hreplicated

theorem noThrow_of_follows {Good : τ → Prop} {Fits : Side → Message → Prop}
    (hT : T.Reliable Good Fits) (hgood : Good s.transport) (href : Refines T s w)
    (hfollows : ∀ side, (dialogue w).Follows side) : NoThrow T s := by
  -- From a queue, a message does not throw.
  have hdeliver : ∀ w : Network Side Node Message, (∀ side, (dialogue w).Follows side) →
      ∀ k, ∃ w', w.step Node.behaviour (.deliver k) = some w' ∧
        ∀ side, (dialogue w').Follows side := by
    intro w hw k
    obtain ⟨w', hstep, hw'⟩ := follows_deliver hw k
    rw [show Action.link (.deliver k) = actionOf (.deliver k) from rfl, step_dialogue] at hstep
    obtain ⟨v, hv, rfl⟩ := Option.map_eq_some_iff.mp hstep
    exact ⟨v, hv, hw'⟩
  exact fun side o => answers_isSome hT hgood href hfollows hdeliver side o

end Refined

/-- **Two connections over a reliable transport.** -/
theorem stack_streams {Good : τ → Prop} {Fits : Side → Message → Prop} (hT : T.Reliable Good Fits)
    {clientId serverId : String} {clientInterfaces serverInterfaces : Json} {start : τ}
    (hstart : Good start) (hnothing : ∀ side, T.sent start side = [] ∧ T.heard start side = [])
    (inputs : List (Input Side Local σ θ))
    (hadmits : MeetsOpt (Stack.step Node.behaviour T)
      (Stack.Admits Node.behaviour T Node.Admits Fits)
      ⟨nodes clientId serverId clientInterfaces serverInterfaces, start⟩ inputs)
    {s : Stack Side Node τ}
    (hrun : inputs.foldlM (Stack.step Node.behaviour T)
      ⟨nodes clientId serverId clientInterfaces serverInterfaces, start⟩ = some s)
    {through : Side → Prop}
    (hthrough : Good s.transport → ∀ side, through side →
      T.heard s.transport side.other = T.sent s.transport side) :
    RefinesDialogue T s (.new clientId serverId clientInterfaces serverInterfaces) ∧
      Streams s through ∧ NoThrow T s := by
  have hstart' : Good (Stack.mk (nodes clientId serverId clientInterfaces serverInterfaces)
      start).transport := hstart
  have hnew : Refines T ⟨nodes clientId serverId clientInterfaces serverInterfaces, start⟩
      (startOfQueues clientId serverId clientInterfaces serverInterfaces) := by
    refine ⟨rfl, fun side => ?_⟩
    rw [(hnothing side).1, (hnothing (Paired.other side)).2]
    rfl
  obtain ⟨hgood, moves, w, hmeets, hmoves, href⟩ :=
    refines_run hT hstart' hnew inputs hadmits hrun
  obtain ⟨⟨actions, hactions, hdialogue⟩, hfollows⟩ := follows_of_moves hmeets hmoves
  exact ⟨⟨actions, w, hactions, hdialogue, href⟩,
    streams_of_follows href hfollows (hthrough hgood),
    noThrow_of_follows hT hgood href hfollows⟩

end Stack

end Mirroring

end WsStreaming.Ports
