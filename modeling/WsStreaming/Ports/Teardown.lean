import WsStreaming.Ports.SignalEvents
import WsStreaming.Ports.Session

/-!
# Teardown is final

What `connection::on_peer_closed` leaves behind when it runs inside a call out
of a handler.  The loop of `handle_available` is the only one that puts signals
into a container after such a call; it goes on over a connection that is gone.

Along a run two monitors read the calls: one for what comes after
`on_disconnected`, and for each id the one of `SignalEvents` that lets
`on_available` and `on_unavailable` alternate.

## Main results

* `lawful_callouts` — calls that are behind a handler, with anything that
  happens during them.
* `teardown_final_of_announcedLast` — the law over every run in which no call
  of `on_available` closes the connection while further ids of the message are
  still to come, none closes it before a withdrawal is told, and no local signal
  is added once it is closed.
-/

namespace WsStreaming.Ports

open WsStreaming.Verified
open WsStreaming.Verified.OrderedMap (Distinct)
open WsStreaming.Verified.Run (MeetsOpt)
open WsStreaming.Verified.Trace (Monitor)
open RemoteSignals (availability)

/-- A call that tells of no signal of the peer, and not of the end. -/
def Notice.isSilent : Notice → Bool
  | .remote (.available _ _) | .remote (.unavailable _ _) | .disconnected => false
  | _ => true

/-- After `on_disconnected` nothing is announced or withdrawn, and it is not
raised again; the state is whether it was raised. -/
def finality : Monitor Bool Notice
  | ended, .disconnected => if ended then none else some true
  | ended, .remote (.available _ _) => if ended then none else some false
  | ended, .remote (.unavailable _ _) => if ended then none else some false
  | ended, _ => some ended

namespace Session

/-- Both containers are empty. -/
structure Empty (s : Session) : Prop where
  byId : s.connection.remotes.byId = []
  bySigno : s.connection.remotes.bySigno = []
  signals : s.connection.locals.signals = []

/-- The state of a connection with calls out of it so far is final: nothing was
announced or withdrawn after `on_disconnected`, announcements and withdrawals of
each id alternate, and once `on_disconnected` was raised both containers are
empty and no id is still announced. -/
structure Final (r : Session × List Notice) : Prop where
  finality : (finality.read false r.2).isSome = true
  alternates : ∀ id, ((availability id).read false (remoteEvents r.2)).isSome = true
  empty : .disconnected ∈ r.2 → r.1.Empty
  withdrawn : .disconnected ∈ r.2 → ∀ id,
    (availability id).read false (remoteEvents r.2) = some false

/-! ## Conditions -/

/-- No local signal is added by changes that come after the end. -/
def AddsNothing (actions : List LocalAction) : Prop :=
  ∀ signal, LocalAction.add signal ∉ actions

/-- A reaction adds no local signal to a closed connection. -/
def ReactsOpen (s : Session) : Reaction → Prop
  | .act (.add _) => s.connected = true
  | .act (.remove _) => True
  | .close inner =>
      s.connected = true → AddsNothing (inner s.connection.remotes.clearRemoteSignals.2.length)

/-- None of the reactions during a call does. -/
def ReactAllOpen (s : Session) : List Reaction → Prop
  | [] => True
  | reaction :: reactions =>
      s.ReactsOpen reaction ∧ (s.react reaction).1.ReactAllOpen reactions

/-- None of the reactions during the calls behind a handler does. -/
def CalloutsOpen (s : Session) (answers : Nat → List Reaction) : List Notice → Prop
  | [] => True
  | _ :: notices =>
      s.ReactAllOpen (answers 0) ∧
        (s.reacts (answers 0)).1.CalloutsOpen (fun n => answers (n + 1)) notices

/-- The same for the rounds of a loop over ids. -/
def ForEachOpen (f : RemoteSignals → String → RemoteSignals × List RemoteEvent) (s : Session)
    (answers : Nat → Nat → List Reaction) : List String → Prop
  | [] => True
  | id :: ids =>
      let (remotes, events) := f s.connection.remotes id
      (s.withRemotes remotes).CalloutsOpen (answers 0) (events.map .remote) ∧
        ((s.withRemotes remotes).callouts (answers 0) (events.map .remote)).1.ForEachOpen f
          (fun n => answers (n + 1)) ids

/-- No reaction closes the connection. -/
def StaysConnected (reactions : List Reaction) : Prop := ∀ inner, .close inner ∉ reactions

/-- No call that announces an id closes the connection, unless it is the last id
of the message. -/
def AnnouncedLast (s : Session) (answers : Nat → Nat → List Reaction) : List String → Prop
  | [] => True
  | id :: ids =>
      let (remotes, events) := s.connection.remotes.announce id
      (events ≠ [] → ids ≠ [] → StaysConnected (answers 0 0)) ∧
        ((s.withRemotes remotes).callouts (answers 0) (events.map .remote)).1.AnnouncedLast
          (fun n => answers (n + 1)) ids

/-- No call that closes the connection comes before one that tells of a
signal. -/
def Timely (answers : Nat → List Reaction) : List Notice → Prop
  | [] => True
  | _ :: notices =>
      (StaysConnected (answers 0) ∨ ∀ n ∈ notices, n.isSilent = true) ∧
        Timely (fun n => answers (n + 1)) notices

/-- In no round of a loop over ids does a call close the connection before the
id is told of. -/
def ForEachTimely (f : RemoteSignals → String → RemoteSignals × List RemoteEvent) (s : Session)
    (answers : Nat → Nat → List Reaction) : List String → Prop
  | [] => True
  | id :: ids =>
      let (remotes, events) := f s.connection.remotes id
      (s.connected = true → Timely (answers 0) (events.map .remote)) ∧
        ((s.withRemotes remotes).callouts (answers 0) (events.map .remote)).1.ForEachTimely f
          (fun n => answers (n + 1)) ids

/-- What is asked of a message: no pointer that dangles is followed, no local
signal is added once the connection is closed, no announcement but the last one
closes it, and nothing does before a withdrawal is told. -/
def MessageOrderly (s : Session) (answers : Nat → Nat → List Reaction) (m : Message) : Prop :=
  if globalMethod m = "available" then
    s.AnnouncedLast answers (RemoteSignals.signalIds (paramsOf m)) ∧
      s.ForEachOpen RemoteSignals.announce answers (RemoteSignals.signalIds (paramsOf m))
  else if globalMethod m = "unavailable" then
    s.ForEachTimely RemoteSignals.withdraw answers (RemoteSignals.signalIds (paramsOf m)) ∧
      s.ForEachOpen RemoteSignals.withdraw answers (RemoteSignals.signalIds (paramsOf m))
  else
    s.connection.remotes.FollowsNoDangling (.message m) ∧
      ∀ r, s.connection.receive m = some r →
        CalloutsOpen { s with connection := r.1 } (answers 0)
          (r.2.1.map Notice.output ++ r.2.2.map Notice.remote)

/-- What is asked of a step. -/
def Orderly (s : Session) : Input → Prop
  | .message m answers => s.connected = true → s.MessageOrderly answers m
  | .hello answers =>
      CalloutsOpen { s with connection := s.connection.doHello.1 } answers
        (s.connection.doHello.2.map .output)
  | .react reaction => s.ReactsOpen reaction

/-! ## Reactions -/

/-- What holds of a connection between any two calls. -/
structure Sound (s : Session) : Prop where
  wellFormed : s.connection.remotes.WellFormed
  empty : s.connected = false → s.Empty

/-- Whether an id is announced. -/
def announced (s : Session) (id : String) : Bool := s.connection.remotes.announced id

/-- An id that the peer has not told of. -/
def Unknown (s : Session) (id : String) : Prop :=
  OrderedMap.find? s.connection.remotes.byId id = none

/-- An event that the monitor of an id does not see. -/
def Ignores (id : String) (event : RemoteEvent) : Prop :=
  ∀ b, availability id b event = some b

/-- The monitors read some calls. -/
structure Keeps (s : Session) (r : Session × List Notice) : Prop where
  sound : r.1.Sound
  finality : Monitor.read finality (!s.connected) r.2 = some (!r.1.connected)
  availability : ∀ id, (availability id).read (s.announced id) (remoteEvents r.2) =
    some (r.1.announced id)

/-- What happens during calls is lawful, and nothing new becomes known. -/
structure Lawful (s : Session) (r : Session × List Notice) : Prop extends Keeps s r where
  unknown : ∀ id, s.Unknown id → r.1.Unknown id ∧ ∀ e ∈ remoteEvents r.2, Ignores id e

section React

variable {s : Session}

theorem announced_of_unknown {id : String} (h : s.Unknown id) : s.announced id = false := by
  unfold Unknown at h
  unfold announced RemoteSignals.announced
  rw [h]
  rfl

theorem Sound.unknown (h : s.Sound) (hclosed : s.connected = false) (id : String) :
    s.Unknown id := by
  unfold Unknown
  rw [(h.empty hclosed).byId]
  rfl

theorem Lawful.refl (h : s.Sound) : s.Lawful (s, []) :=
  ⟨⟨h, rfl, fun _ => rfl⟩, fun _ hid => ⟨hid, fun _ he => nomatch he⟩⟩

theorem Keeps.append {r r' : Session × List Notice} (h : s.Keeps r) (h' : r.1.Keeps r') :
    s.Keeps (r'.1, r.2 ++ r'.2) := by
  refine ⟨h'.sound, Monitor.read_append_of h.finality h'.finality, ?_⟩
  intro id
  rw [remoteEvents_append]
  exact Monitor.read_append_of (h.availability id) (h'.availability id)

theorem Lawful.append {r r' : Session × List Notice} (h : s.Lawful r) (h' : r.1.Lawful r') :
    s.Lawful (r'.1, r.2 ++ r'.2) := by
  refine ⟨h.toKeeps.append h'.toKeeps, ?_⟩
  intro id hid
  obtain ⟨hid', hevents⟩ := h.unknown id hid
  obtain ⟨hid'', hevents'⟩ := h'.unknown id hid'
  refine ⟨hid'', ?_⟩
  intro e he
  rw [remoteEvents_append] at he
  rcases List.mem_append.mp he with he | he
  · exact hevents e he
  · exact hevents' e he

@[simp] theorem remotes_act (s : Session) (action : LocalAction) :
    (s.act action).connection.remotes = s.connection.remotes := by
  cases action <;> rfl

@[simp] theorem connected_act (s : Session) (action : LocalAction) :
    (s.act action).connected = s.connected := by
  cases action <;> rfl

theorem remotes_acts (actions : List LocalAction) :
    ∀ s : Session, (s.acts actions).connection.remotes = s.connection.remotes ∧
      (s.acts actions).connected = s.connected := by
  induction actions with
  | nil => exact fun s => ⟨rfl, rfl⟩
  | cons action actions ih =>
      intro s
      have hrest := ih (s.act action)
      rw [remotes_act, connected_act] at hrest
      exact hrest

/-- What `onPeerClosed` leaves of the signals of the peer. -/
theorem remotes_onPeerClosed (s : Session) (inner : Nat → List LocalAction) :
    (s.onPeerClosed inner).1.connection.remotes = s.connection.remotes.clearRemoteSignals.1 ∧
      (s.onPeerClosed inner).1.connected = false :=
  ⟨(remotes_acts _ _).1.trans (remotes_acts _ _).1, (remotes_acts _ _).2.trans (remotes_acts _ _).2⟩

/-- The calls out of `onPeerClosed`: the signals of the peer are withdrawn, the
holders of the local signals are closed, and `on_disconnected` comes last. -/
theorem notices_onPeerClosed (s : Session) (inner : Nat → List LocalAction) :
    ∃ outputs : List Output, (s.onPeerClosed inner).2 =
      s.connection.remotes.clearRemoteSignals.2.map Notice.remote ++
        outputs.map Notice.output ++ [.disconnected] :=
  ⟨_, rfl⟩

/-- Nothing is removed from an empty container. -/
theorem signals_act_remove (h : s.connection.locals.signals = []) (signal : LocalSignal) :
    (s.act (.remove signal)).connection.locals.signals = [] := by
  have hfind : s.connection.locals.findByAddress signal.address = none := by
    unfold LocalSignals.findByAddress
    rw [h]
    rfl
  have hremove : s.connection.locals.removeLocalSignal signal = (s.connection.locals, [], 0) := by
    unfold LocalSignals.removeLocalSignal
    rw [hfind]
  have hact : (s.act (.remove signal)).connection.locals =
      (s.connection.locals.removeLocalSignal signal).1 := rfl
  rw [hact, hremove]
  exact h

theorem signals_acts (actions : List LocalAction) :
    ∀ {s : Session}, s.connection.locals.signals = [] → AddsNothing actions →
      (s.acts actions).connection.locals.signals = [] := by
  induction actions with
  | nil => exact fun h _ => h
  | cons action actions ih =>
      intro s h hadds
      have hrest : AddsNothing actions := fun signal hmem =>
        hadds signal (List.mem_cons_of_mem _ hmem)
      cases action with
      | add signal => exact absurd List.mem_cons_self (hadds signal)
      | remove signal => exact ih (signals_act_remove h signal) hrest

/-- **`connection::on_peer_closed`.** -/
theorem lawful_onPeerClosed (h : s.Sound) (hconnected : s.connected = true)
    {inner : Nat → List LocalAction}
    (hadds : AddsNothing (inner s.connection.remotes.clearRemoteSignals.2.length)) :
    s.Lawful (s.onPeerClosed inner) := by
  have hempty := RemoteSignals.clearRemoteSignals_empty s.connection.remotes
  have hobeys := RemoteSignals.obeys_clearRemoteSignals h.wellFormed
  obtain ⟨hremotes, hconnected'⟩ := s.remotes_onPeerClosed inner
  obtain ⟨outputs, hnotices⟩ := s.notices_onPeerClosed inner
  have hevents : remoteEvents (s.onPeerClosed inner).2 =
      s.connection.remotes.clearRemoteSignals.2 := by
    rw [hnotices]
    simp only [remoteEvents_append, remoteEvents_remote, remoteEvents_output, List.append_nil]
    exact List.append_nil _
  have hnone : ∀ e ∈ s.connection.remotes.clearRemoteSignals.2.map Notice.remote ++
      outputs.map Notice.output, finality false e = some false := by
    intro e he
    rcases List.mem_append.mp he with he | he
    · obtain ⟨event, hevent, rfl⟩ := List.mem_map.mp he
      rcases RemoteSignals.mem_clearRemoteSignals hevent with ⟨a, event, rfl⟩ | ⟨id, a, rfl⟩
      · rfl
      · rfl
    · obtain ⟨output, -, rfl⟩ := List.mem_map.mp he
      rfl
  refine ⟨⟨?_, ?_, ?_⟩, ?_⟩
  · refine ⟨?_, fun _ => ⟨?_, ?_, ?_⟩⟩
    · rw [hremotes]
      exact h.wellFormed.step (i := .close) rfl
    · rw [hremotes]
      exact hempty.1
    · rw [hremotes]
      exact hempty.2
    · exact signals_acts _ rfl hadds
  · rw [hnotices, hconnected, hconnected', Monitor.read_append]
    change ((Monitor.read finality false _).bind _) = _
    rw [Monitor.read_ignored hnone]
    rfl
  · intro id
    have hannounced : (s.onPeerClosed inner).1.announced id =
        s.connection.remotes.clearRemoteSignals.1.announced id :=
      congrArg (RemoteSignals.announced · id) hremotes
    rw [hevents, hannounced]
    exact hobeys.availability id
  · intro id hid
    constructor
    · rw [Unknown, hremotes, hempty.1]
      rfl
    · intro e he b
      rw [hevents] at he
      rcases List.mem_append.mp he with he | he
      · obtain ⟨a, event, rfl⟩ := RemoteSignals.mem_detachAll _ _ he
        rfl
      · obtain ⟨entry, hentry, rfl⟩ := List.mem_map.mp he
        have hne : entry.1 ≠ id := by
          rintro rfl
          apply OrderedMap.find?_eq_none_iff.mp hid
          exact List.mem_map.mpr ⟨entry, (List.mem_filter.mp hentry).1, rfl⟩
        unfold RemoteSignals.availability
        dsimp only
        rw [if_neg hne]

/-- **One reaction.** -/
theorem lawful_react (h : s.Sound) {reaction : Reaction} (hopen : s.ReactsOpen reaction) :
    s.Lawful (s.react reaction) := by
  cases reaction with
  | act action =>
      have hremotes := remotes_act s action
      have hconnected := connected_act s action
      refine ⟨⟨⟨?_, ?_⟩, ?_, ?_⟩, ?_⟩
      · change (s.act action).connection.remotes.WellFormed
        rw [hremotes]
        exact h.wellFormed
      · intro hclosed
        change (s.act action).connected = false at hclosed
        rw [hconnected] at hclosed
        have hempty := h.empty hclosed
        refine ⟨?_, ?_, ?_⟩
        · change (s.act action).connection.remotes.byId = []
          rw [hremotes]
          exact hempty.byId
        · change (s.act action).connection.remotes.bySigno = []
          rw [hremotes]
          exact hempty.bySigno
        · cases action with
          | add signal =>
              rw [show s.connected = true from hopen] at hclosed
              cases hclosed
          | remove signal => exact signals_act_remove hempty.signals signal
      · change some (!s.connected) = some (!(s.act action).connected)
        rw [hconnected]
      · intro id
        change some (s.connection.remotes.announced id) =
          some ((s.act action).connection.remotes.announced id)
        rw [hremotes]
      · intro id hid
        refine ⟨?_, fun _ he => nomatch he⟩
        change OrderedMap.find? (s.act action).connection.remotes.byId id = none
        rw [hremotes]
        exact hid
  | close inner =>
      unfold react
      dsimp only
      cases hconnected : s.connected with
      | false => exact .refl h
      | true => exact lawful_onPeerClosed h hconnected (hopen hconnected)

/-- **What happens during one call.** -/
theorem lawful_reacts (reactions : List Reaction) :
    ∀ {s : Session}, s.Sound → s.ReactAllOpen reactions → s.Lawful (s.reacts reactions) := by
  induction reactions with
  | nil => exact fun h _ => .refl h
  | cons reaction reactions ih =>
      intro s h hopen
      have hfirst := lawful_react h hopen.1
      exact hfirst.append (ih hfirst.sound hopen.2)

/-- A connection that nothing closes stays connected. -/
theorem connected_reacts (reactions : List Reaction) :
    ∀ {s : Session}, s.connected = true → StaysConnected reactions →
      (s.reacts reactions).1.connected = true := by
  induction reactions with
  | nil => exact fun h _ => h
  | cons reaction reactions ih =>
      intro s h hstays
      cases reaction with
      | close inner => exact absurd List.mem_cons_self (hstays inner)
      | act action =>
          have hnext : (s.act action).connected = true := (connected_act s action).trans h
          exact ih hnext fun inner hmem => hstays inner (List.mem_cons_of_mem _ hmem)

end React

/-! ## Calls behind a handler -/

/-- Calls that a handler leaves behind: none that tells of a signal comes after
one that closes the connection, and none is `on_disconnected`. -/
structure Behind (s : Session) (answers : Nat → List Reaction) (notices : List Notice) :
    Prop where
  timely : Timely answers notices
  closed : s.connected = false → ∀ n ∈ notices, n.isSilent = true
  inside : .disconnected ∉ notices

/-- An id is not seen by what is still to come, or unknown already. -/
def Settled (s : Session) (id : String) (notices : List Notice) : Prop :=
  (∀ e ∈ remoteEvents notices, Ignores id e) ∨ s.Unknown id

section Callouts

variable {s : Session}

theorem read_ignores {id : String} {b : Bool} {events : List RemoteEvent}
    (h : ∀ e ∈ events, Ignores id e) : (availability id).read b events = some b :=
  Monitor.read_ignored fun e he => h e he b

theorem finality_of_isSilent {ended : Bool} {n : Notice} (h : n.isSilent = true) :
    finality ended n = some ended := by
  cases n with
  | output o => rfl
  | disconnected => cases h
  | remote event =>
      cases event with
      | available id a => cases h
      | unavailable id a => cases h
      | signal a event => rfl

theorem timely_of_isSilent (notices : List Notice) :
    ∀ answers : Nat → List Reaction, (∀ n ∈ notices.tail, n.isSilent = true) →
      Timely answers notices := by
  induction notices with
  | nil => exact fun _ _ => trivial
  | cons n notices ih =>
      exact fun answers h => ⟨.inr h, ih _ fun n' hn' => h n' (List.mem_of_mem_tail hn')⟩

/-- Silent calls do not concern an id. -/
theorem read_of_isSilent {notices : List Notice} (h : ∀ n ∈ notices, n.isSilent = true)
    (id : String) (b : Bool) : (availability id).read b (remoteEvents notices) = some b := by
  apply read_ignores
  intro e he
  obtain ⟨n, hn, heq⟩ := List.mem_filterMap.mp he
  have hsilent := h n hn
  cases n with
  | output o => cases heq
  | disconnected => cases heq
  | remote event =>
      rw [← Option.some.inj heq]
      cases event with
      | available id' a => cases hsilent
      | unavailable id' a => cases hsilent
      | signal a event => exact fun _ => rfl

theorem output_isSilent {outputs : List Output} :
    ∀ n ∈ outputs.map Notice.output, n.isSilent = true := by
  intro n hn
  obtain ⟨o, -, rfl⟩ := List.mem_map.mp hn
  rfl

theorem behind_of_isSilent {answers : Nat → List Reaction} {notices : List Notice}
    (h : ∀ n ∈ notices, n.isSilent = true) : s.Behind answers notices := by
  refine ⟨timely_of_isSilent _ _ fun n hn => h n (List.mem_of_mem_tail hn), fun _ => h, ?_⟩
  intro hmem
  cases h _ hmem

/-- The first of some calls, while the connection can still tell of signals. -/
theorem Behind.read_head {answers : Nat → List Reaction} {n : Notice} {notices : List Notice}
    (h : s.Behind answers (n :: notices)) :
    finality (!s.connected) n = some (!s.connected) := by
  cases hconnected : s.connected with
  | false => exact finality_of_isSilent (h.closed hconnected n List.mem_cons_self)
  | true =>
      cases n with
      | output o => rfl
      | disconnected => exact absurd List.mem_cons_self h.inside
      | remote event => cases event <;> rfl

/-- The calls after the first one: if that has closed the connection, they tell
of nothing. -/
theorem Behind.tail {answers : Nat → List Reaction} {n : Notice} {notices : List Notice}
    (h : s.Behind answers (n :: notices)) :
    (s.reacts (answers 0)).1.Behind (fun i => answers (i + 1)) notices := by
  refine ⟨h.timely.2, ?_, fun hmem => h.inside (List.mem_cons_of_mem _ hmem)⟩
  intro hclosed
  cases hconnected : s.connected with
  | false => exact fun m hm => h.closed hconnected m (List.mem_cons_of_mem _ hm)
  | true =>
      apply h.timely.1.resolve_left
      intro hstays
      rw [connected_reacts (answers 0) hconnected hstays] at hclosed
      cases hclosed

/-- **Calls behind a handler**: soundness, and what comes after the end. -/
theorem sound_callouts (notices : List Notice) :
    ∀ {s : Session} (answers : Nat → List Reaction), s.Sound → s.CalloutsOpen answers notices →
      s.Behind answers notices →
      (s.callouts answers notices).1.Sound ∧
        Monitor.read finality (!s.connected) (s.callouts answers notices).2 =
          some (!(s.callouts answers notices).1.connected) := by
  induction notices with
  | nil => exact fun answers h _ _ => ⟨h, rfl⟩
  | cons n notices ih =>
      intro s answers h hopen hbehind
      have hduring := lawful_reacts (answers 0) h hopen.1
      have hrest := ih (fun i => answers (i + 1)) hduring.sound hopen.2 hbehind.tail
      refine ⟨hrest.1, ?_⟩
      change Monitor.read finality (!s.connected) (n :: ((s.reacts (answers 0)).2 ++
        ((s.reacts (answers 0)).1.callouts (fun i => answers (i + 1)) notices).2)) = _
      rw [Monitor.read_cons, hbehind.read_head, Option.bind_some]
      exact Monitor.read_append_of hduring.finality hrest.2

/-- **Calls behind a handler**: an id.  Its monitor has read what came before
the calls, and would read the calls if nothing happened during them. -/
theorem availability_callouts (id : String) (notices : List Notice) :
    ∀ {s : Session} (answers : Nat → List Reaction) (before : Bool), s.Sound →
      s.CalloutsOpen answers notices → s.Settled id notices.tail →
      (availability id).read before (remoteEvents notices) = some (s.announced id) →
      (availability id).read before (remoteEvents (s.callouts answers notices).2) =
        some ((s.callouts answers notices).1.announced id) := by
  induction notices with
  | nil => exact fun answers before _ _ _ hread => hread
  | cons n notices ih =>
      intro s answers before h hopen hsettled hread
      have hduring := lawful_reacts (answers 0) h hopen.1
      -- What the monitor has read after the first call.
      obtain ⟨b, hfirst, hrest⟩ : ∃ b,
          (availability id).read before (remoteEvents [n]) = some b ∧
            (availability id).read b (remoteEvents notices) = some (s.announced id) := by
        rw [show n :: notices = [n] ++ notices from rfl, remoteEvents_append,
          Monitor.read_append] at hread
        exact Option.bind_eq_some_iff.mp hread
      change s.Settled id notices at hsettled
      -- It reads what happens during the call, and then what is still to come.
      obtain ⟨b', hreacts, hrest'⟩ : ∃ b',
          (availability id).read b (remoteEvents (s.reacts (answers 0)).2) = some b' ∧
            (availability id).read b' (remoteEvents notices) =
              some ((s.reacts (answers 0)).1.announced id) := by
        rcases hsettled with hignores | hunknown
        · rw [read_ignores hignores] at hrest
          rw [Option.some.inj hrest]
          exact ⟨_, hduring.availability id, read_ignores hignores⟩
        · obtain ⟨hunknown', hignores⟩ := hduring.unknown id hunknown
          refine ⟨b, read_ignores hignores, ?_⟩
          rw [hrest, announced_of_unknown hunknown, announced_of_unknown hunknown']
      have hsettled' : (s.reacts (answers 0)).1.Settled id notices.tail := by
        rcases hsettled with hignores | hunknown
        · left
          intro e he
          apply hignores e
          obtain ⟨m, hm, heq⟩ := List.mem_filterMap.mp he
          exact List.mem_filterMap.mpr ⟨m, List.mem_of_mem_tail hm, heq⟩
        · exact .inr (hduring.unknown id hunknown).1
      have hafter := ih (fun i => answers (i + 1)) b' hduring.sound hopen.2 hsettled' hrest'
      change (availability id).read before (remoteEvents ([n] ++ ((s.reacts (answers 0)).2 ++
        ((s.reacts (answers 0)).1.callouts (fun i => answers (i + 1)) notices).2))) = _
      rw [remoteEvents_append, remoteEvents_append]
      exact Monitor.read_append_of hfirst (Monitor.read_append_of hreacts hafter)

/-- **A piece of a handler and the calls behind it.** -/
theorem keeps_callouts {t : Session} {notices : List Notice} {answers : Nat → List Reaction}
    (ht : t.Sound) (hconnected : t.connected = s.connected)
    (hopen : t.CalloutsOpen answers notices) (hbehind : t.Behind answers notices)
    (hread : ∀ id, (availability id).read (s.announced id) (remoteEvents notices) =
      some (t.announced id))
    (hsettled : ∀ id, t.Settled id notices.tail) : s.Keeps (t.callouts answers notices) := by
  obtain ⟨hsound, hfinality⟩ := sound_callouts notices answers ht hopen hbehind
  refine ⟨hsound, ?_, ?_⟩
  · rw [← hconnected]
    exact hfinality
  · intro id
    exact availability_callouts id notices answers (s.announced id) ht hopen (hsettled id)
      (hread id)

/-- A call of an object is not about an id. -/
theorem ignores_signal (id : String) (a : Nat) (event : SignalEvent) :
    Ignores id (.signal a event) := fun _ => rfl

theorem ignores_unavailable {id id' : String} (hne : id' ≠ id) (a : Nat) :
    Ignores id (.unavailable id' a) := by
  intro b
  unfold RemoteSignals.availability
  dsimp only
  rw [if_neg hne]

end Callouts

/-! ## Messages -/

section Messages

variable {s : Session}

/-- Remote signals that are as well formed, and as empty if the connection is
closed. -/
theorem Sound.withRemotes (h : s.Sound) {remotes : RemoteSignals} (hw : remotes.WellFormed)
    (hsame : s.connected = false → remotes = s.connection.remotes) :
    (s.withRemotes remotes).Sound := by
  refine ⟨hw, fun hclosed => ?_⟩
  have hempty := h.empty hclosed
  have hremotes : (s.withRemotes remotes).connection.remotes = s.connection.remotes :=
    hsame hclosed
  refine ⟨?_, ?_, hempty.signals⟩
  · rw [hremotes]
    exact hempty.byId
  · rw [hremotes]
    exact hempty.bySigno

/-- One id of `handle_unavailable`. -/
theorem keeps_withdraw (h : s.Sound) {id : String} {answers : Nat → List Reaction}
    (htimely : s.connected = true →
      Timely answers ((s.connection.remotes.withdraw id).2.map .remote))
    (hopen : (s.withRemotes (s.connection.remotes.withdraw id).1).CalloutsOpen answers
      ((s.connection.remotes.withdraw id).2.map .remote)) :
    s.Keeps ((s.withRemotes (s.connection.remotes.withdraw id).1).callouts answers
      ((s.connection.remotes.withdraw id).2.map .remote)) := by
  have hobeys := RemoteSignals.obeys_withdraw h.wellFormed id
  -- A connection that is closed has nothing to withdraw.
  have hnone : s.connected = false → (s.connection.remotes.withdraw id).2 = [] := by
    intro hclosed
    rw [RemoteSignals.withdraw_of_none (h.unknown hclosed id)]
  apply keeps_callouts
  · apply h.withRemotes (h.wellFormed.withdraw id)
    intro hclosed
    rw [RemoteSignals.withdraw_of_none (h.unknown hclosed id)]
  · rfl
  · exact hopen
  · refine ⟨?_, ?_, ?_⟩
    · cases hconnected : s.connected with
      | true => exact htimely hconnected
      | false =>
          rw [hnone hconnected]
          trivial
    · intro hclosed n hn
      rw [hnone hclosed] at hn
      cases hn
    · intro hmem
      obtain ⟨event, -, heq⟩ := List.mem_map.mp hmem
      cases heq
  · intro id'
    rw [remoteEvents_remote]
    exact hobeys.availability id'
  · intro id'
    by_cases hid : id' = id
    · right
      change OrderedMap.find? (s.connection.remotes.withdraw id).1.byId id' = none
      rw [RemoteSignals.find?_withdraw, if_pos hid.symm]
    · left
      intro e he
      obtain ⟨n, hn, heq⟩ := List.mem_filterMap.mp he
      obtain ⟨event, hevent, rfl⟩ := List.mem_map.mp (List.mem_of_mem_tail hn)
      obtain rfl := Option.some.inj heq
      rcases RemoteSignals.mem_withdraw hevent with ⟨a, event, rfl⟩ | ⟨a, rfl⟩
      · exact ignores_signal id' a event
      · exact ignores_unavailable (fun heq => hid heq.symm) a

/-- **`connection::handle_unavailable`.** -/
theorem keeps_withdrawals (ids : List String) :
    ∀ {s : Session} (answers : Nat → Nat → List Reaction), s.Sound →
      s.ForEachTimely RemoteSignals.withdraw answers ids →
      s.ForEachOpen RemoteSignals.withdraw answers ids →
      s.Keeps (s.forEach RemoteSignals.withdraw answers ids) := by
  induction ids with
  | nil => exact fun answers h _ _ => (Lawful.refl h).toKeeps
  | cons id ids ih =>
      intro s answers h htimely hopen
      have hfirst := keeps_withdraw h htimely.1 hopen.1
      exact hfirst.append (ih (fun n => answers (n + 1)) hfirst.sound htimely.2 hopen.2)

/-- One id of `handle_available`, on a connection that is not closed. -/
theorem keeps_announce (h : s.Sound) (hconnected : s.connected = true) {id : String}
    {answers : Nat → List Reaction}
    (hopen : (s.withRemotes (s.connection.remotes.announce id).1).CalloutsOpen answers
      ((s.connection.remotes.announce id).2.map .remote)) :
    s.Keeps ((s.withRemotes (s.connection.remotes.announce id).1).callouts answers
      ((s.connection.remotes.announce id).2.map .remote)) := by
  have hobeys := RemoteSignals.obeys_announce h.wellFormed id
  have htail : ((s.connection.remotes.announce id).2.map Notice.remote).tail = [] := by
    rw [RemoteSignals.announce_snd]
    split <;> rfl
  apply keeps_callouts
  · apply h.withRemotes (h.wellFormed.announce id)
    intro hclosed
    rw [hconnected] at hclosed
    cases hclosed
  · rfl
  · exact hopen
  · refine ⟨?_, ?_, ?_⟩
    · apply timely_of_isSilent
      rw [htail]
      exact fun n hn => nomatch hn
    · intro hclosed
      change s.connected = false at hclosed
      rw [hconnected] at hclosed
      cases hclosed
    · intro hmem
      obtain ⟨event, -, heq⟩ := List.mem_map.mp hmem
      cases heq
  · intro id'
    rw [remoteEvents_remote]
    exact hobeys.availability id'
  · intro id'
    rw [htail]
    exact .inl fun e he => nomatch he

/-- A round that leaves the connection open. -/
theorem connected_announce (hconnected : s.connected = true) {id : String}
    {answers : Nat → List Reaction}
    (hstays : (s.connection.remotes.announce id).2 ≠ [] → StaysConnected (answers 0)) :
    ((s.withRemotes (s.connection.remotes.announce id).1).callouts answers
      ((s.connection.remotes.announce id).2.map .remote)).1.connected = true := by
  rw [RemoteSignals.announce_snd] at hstays ⊢
  split at hstays
  · rename_i hknown
    rw [if_pos hknown]
    exact hconnected
  · rename_i hknown
    rw [if_neg hknown]
    exact connected_reacts (answers 0) hconnected (hstays (List.cons_ne_nil _ _))

/-- **`connection::handle_available`**, if only the last announcement closes the
connection. -/
theorem keeps_announcements (ids : List String) :
    ∀ {s : Session} (answers : Nat → Nat → List Reaction), s.Sound →
      (ids ≠ [] → s.connected = true) → s.AnnouncedLast answers ids →
      s.ForEachOpen RemoteSignals.announce answers ids →
      s.Keeps (s.forEach RemoteSignals.announce answers ids) := by
  induction ids with
  | nil => exact fun answers h _ _ _ => (Lawful.refl h).toKeeps
  | cons id ids ih =>
      intro s answers h hconnected hlast hopen
      have hconnected := hconnected (List.cons_ne_nil _ _)
      have hfirst := keeps_announce h hconnected hopen.1
      refine hfirst.append (ih (fun n => answers (n + 1)) hfirst.sound ?_ hlast.2 hopen.2)
      intro hids
      exact connected_announce hconnected fun hevents => hlast.1 hevents hids

/-- What a message does to the remote signals. -/
theorem remotes_receive {c : Connection} {m : Message}
    {r : Connection × List Output × List RemoteEvent} (h : c.receive m = some r) :
    c.remotes.step (.message m) = some (r.1.remotes, r.2.2) := by
  have hon {q : Option (RemoteSignals × List RemoteEvent)} (hq : c.onRemoteSignals q = some r) :
      q = some (r.1.remotes, r.2.2) := by
    obtain ⟨r', hr', rfl⟩ := Option.map_eq_some_iff.mp hq
    exact hr'
  cases m with
  | data signo data => exact hon h
  | metadata m =>
      change c.onPeerMetadataReceived m = some r at h
      unfold Connection.onPeerMetadataReceived at h
      split at h
      · exact hon h
      rename_i hglobal
      rw [not_or, not_or, not_not] at hglobal
      obtain ⟨hsub, hunsub, hsigno⟩ := hglobal
      -- Such a message does not concern the remote signals.
      have hother (havailable : m.method ≠ "available") (hunavailable : m.method ≠ "unavailable") :
          c.remotes.step (.message (.metadata m)) = some (c.remotes, []) := by
        change c.remotes.onPeerMetadataReceived m = _
        rw [RemoteSignals.onPeerMetadataReceived, if_neg hsub, if_neg hunsub,
          if_neg (not_not.mpr hsigno), if_neg havailable, if_neg hunavailable]
      split at h
      · rename_i hmethod
        rw [hother (by rw [hmethod]; decide) (by rw [hmethod]; decide), ← Option.some.inj h]
        obtain ⟨version, hframe⟩ := c.handleApiVersion_frame m.params
        rw [hframe]
      split at h
      · rename_i hmethod
        rw [hother (by rw [hmethod]; decide) (by rw [hmethod]; decide), ← Option.some.inj h]
        obtain ⟨streamId, helloSent, hframe⟩ := c.handleInit_frame m.params
        rw [hframe]
      split at h
      · rename_i hmethod
        rw [hother (by rw [hmethod]; decide) (by rw [hmethod]; decide)]
        obtain ⟨r', hr', rfl⟩ := Option.map_eq_some_iff.mp h
        obtain ⟨locals, hframe⟩ := Connection.handleCommandInterfaceRequest_frame hr'
        rw [hframe]
      · exact hon h

/-- A message that neither announces nor withdraws raises only events of
objects. -/
theorem signal_of_step {c : RemoteSignals} {m : Message} {r : RemoteSignals × List RemoteEvent}
    (havailable : globalMethod m ≠ "available") (hunavailable : globalMethod m ≠ "unavailable")
    (h : c.step (.message m) = some r) {e : RemoteEvent} (he : e ∈ r.2) :
    ∃ a event, e = .signal a event := by
  have hdispatch {signo : UInt32} {method : String} {params : Json}
      {r : RemoteSignals × List RemoteEvent}
      (hr : c.dispatchMetadata signo method params = some r) (he : e ∈ r.2) :
      ∃ a event, e = .signal a event := by
    obtain ⟨a, ha⟩ := RemoteSignals.mem_dispatch hr he
    exact ⟨a, RemoteSignals.mem_handleMetadata ha⟩
  cases m with
  | data signo data =>
      obtain ⟨a, ha⟩ := RemoteSignals.mem_dispatch h he
      exact ⟨a, RemoteSignals.mem_handleData ha⟩
  | metadata m =>
      change c.onPeerMetadataReceived m = some r at h
      unfold RemoteSignals.onPeerMetadataReceived at h
      split at h
      · rw [← Option.some.inj h, RemoteSignals.handleSubscribe] at he
        split at he
        · cases he
        · exact ⟨_, RemoteSignals.mem_handleMetadata he⟩
      split at h
      · obtain ⟨r', hr', rfl⟩ := Option.map_eq_some_iff.mp h
        exact hdispatch hr' he
      split at h
      · exact hdispatch h he
      rename_i hsigno
      have hmethod : globalMethod (.metadata m) = m.method := if_pos (not_not.mp hsigno)
      rw [hmethod] at havailable hunavailable
      rw [if_neg havailable, if_neg hunavailable] at h
      rw [← Option.some.inj h] at he
      cases he

/-- A message whose pointer does not dangle has a result, unless it throws. -/
theorem receive_isSome {c : Connection} {m : Message} (hthrows : throws m = false)
    (hfollow : c.remotes.FollowsNoDangling (.message m)) : ∃ r, c.receive m = some r := by
  obtain ⟨q, hq⟩ := (RemoteSignals.step_isSome_iff (.message m)).mpr hfollow
  cases m with
  | data signo data =>
      exact ⟨_, congrArg (Option.map _) hq⟩
  | metadata m =>
      have hremotes : c.onRemoteSignals (c.remotes.onPeerMetadataReceived m) =
          some ({ c with remotes := q.1 }, [], q.2) := congrArg (Option.map _) hq
      change ∃ r, c.onPeerMetadataReceived m = some r
      unfold Connection.onPeerMetadataReceived
      split
      · exact ⟨_, hremotes⟩
      rename_i hglobal
      rw [not_or, not_or, not_not] at hglobal
      split
      · exact ⟨_, rfl⟩
      split
      · exact ⟨_, rfl⟩
      split
      · rename_i hmethod
        have hobject : m.params.isObject = true := by
          unfold throws at hthrows
          dsimp only at hthrows
          rw [hglobal.2.2, hmethod] at hthrows
          simpa using hthrows
        unfold Connection.handleCommandInterfaceRequest
        rw [if_pos hobject]
        exact ⟨_, rfl⟩
      · exact ⟨_, hremotes⟩

/-- **A message.** -/
theorem keeps_message (h : s.Sound) (hconnected : s.connected = true) {m : Message}
    {answers : Nat → Nat → List Reaction} (hok : s.MessageOrderly answers m) :
    ∃ r, s.message answers m = some r ∧ s.Keeps r := by
  unfold MessageOrderly at hok
  unfold message
  by_cases havailable : globalMethod m = "available"
  · rw [if_pos havailable] at hok ⊢
    exact ⟨_, rfl, keeps_announcements _ answers h (fun _ => hconnected) hok.1 hok.2⟩
  rw [if_neg havailable] at hok ⊢
  by_cases hunavailable : globalMethod m = "unavailable"
  · rw [if_pos hunavailable] at hok ⊢
    exact ⟨_, rfl, keeps_withdrawals _ answers h hok.1 hok.2⟩
  rw [if_neg hunavailable] at hok ⊢
  cases hthrows : throws m with
  | true => exact ⟨_, if_pos rfl, (Lawful.refl h).toKeeps⟩
  | false =>
      obtain ⟨r, hr⟩ := receive_isSome hthrows hok.1
      have hremotes := remotes_receive hr
      have hobeys := RemoteSignals.obeys_step h.wellFormed hremotes
      have hsignal {n : Notice} (hn : n ∈ r.2.1.map Notice.output ++ r.2.2.map Notice.remote) :
          (∃ o, n = .output o) ∨ ∃ a event, n = .remote (.signal a event) := by
        rcases List.mem_append.mp hn with hn | hn
        · obtain ⟨o, -, rfl⟩ := List.mem_map.mp hn
          exact .inl ⟨o, rfl⟩
        · obtain ⟨e, he, rfl⟩ := List.mem_map.mp hn
          obtain ⟨a, event, rfl⟩ := signal_of_step havailable hunavailable hremotes he
          exact .inr ⟨a, event, rfl⟩
      have hsilent : ∀ n ∈ r.2.1.map Notice.output ++ r.2.2.map Notice.remote,
          n.isSilent = true := by
        intro n hn
        rcases hsignal hn with ⟨o, rfl⟩ | ⟨a, event, rfl⟩
        · rfl
        · rfl
      rw [if_neg Bool.false_ne_true, hr]
      refine ⟨_, rfl, ?_⟩
      apply keeps_callouts
      · refine ⟨h.wellFormed.step hremotes, ?_⟩
        intro hclosed
        change s.connected = false at hclosed
        rw [hconnected] at hclosed
        cases hclosed
      · rfl
      · exact hok.2 r hr
      · exact behind_of_isSilent hsilent
      · intro id
        rw [remoteEvents_append, remoteEvents_output, remoteEvents_remote, List.nil_append]
        exact hobeys.availability id
      · intro id
        left
        intro e he
        obtain ⟨n, hn, heq⟩ := List.mem_filterMap.mp he
        rcases hsignal (List.mem_of_mem_tail hn) with ⟨o, rfl⟩ | ⟨a, event, rfl⟩
        · cases heq
        · obtain rfl := Option.some.inj heq
          exact ignores_signal id a event

end Messages

/-! ## Runs -/

/-- **One step.** -/
theorem keeps_step {s : Session} (h : s.Sound) {input : Input} (hok : s.Orderly input) :
    ∃ r, s.step input = some r ∧ s.Keeps r := by
  cases input with
  | message m answers =>
      unfold step
      dsimp only
      cases hconnected : s.connected with
      | true => exact keeps_message h hconnected (hok hconnected)
      | false => exact ⟨_, rfl, (Lawful.refl h).toKeeps⟩
  | react reaction => exact ⟨_, rfl, (lawful_react h hok).toKeeps⟩
  | hello answers =>
      have houtput {n : Notice} (hn : n ∈ s.connection.doHello.2.map Notice.output) :
          ∃ o, n = .output o := by
        obtain ⟨o, -, rfl⟩ := List.mem_map.mp hn
        exact ⟨o, rfl⟩
      refine ⟨_, rfl, ?_⟩
      apply keeps_callouts
      · refine ⟨h.wellFormed, fun hclosed => ?_⟩
        have hempty := h.empty hclosed
        exact ⟨hempty.byId, hempty.bySigno, hempty.signals⟩
      · rfl
      · exact hok
      · exact behind_of_isSilent output_isSilent
      · intro id
        rw [remoteEvents_output]
        rfl
      · intro id
        left
        intro e he
        obtain ⟨n, hn, heq⟩ := List.mem_filterMap.mp he
        obtain ⟨o, rfl⟩ := houtput (List.mem_of_mem_tail hn)
        cases heq

/-- The state after a step. -/
def advance (s : Session) (input : Input) : Option Session := (s.step input).map Prod.fst

theorem keeps_run (inputs : List Input) :
    ∀ {s : Session}, s.Sound → MeetsOpt advance Orderly s inputs →
      ∃ r, Trace.run step s inputs = some r ∧ s.Keeps r := by
  induction inputs with
  | nil => exact fun h _ => ⟨_, rfl, (Lawful.refl h).toKeeps⟩
  | cons input inputs ih =>
      intro s h hmeets
      obtain ⟨r₁, h₁, hfirst⟩ := keeps_step h hmeets.1
      have hadvance : s.advance input = some r₁.1 := by
        rw [advance, h₁, Option.map_some]
      obtain ⟨r₂, h₂, hrest⟩ := ih hfirst.sound (hmeets.2 r₁.1 hadvance)
      exact ⟨_, Trace.run_cons_eq_some.mpr ⟨r₁, r₂, h₁, h₂, rfl⟩, hfirst.append hrest⟩

/-- Once `on_disconnected` was raised its monitor knows. -/
theorem ended_of_mem {notices : List Notice} :
    ∀ {ended ended' : Bool}, Monitor.read finality ended notices = some ended' →
      (ended = true ∨ .disconnected ∈ notices) → ended' = true := by
  induction notices with
  | nil =>
      intro ended ended' hread h
      rcases h with h | h
      · rw [← Option.some.inj hread]
        exact h
      · cases h
  | cons n notices ih =>
      intro ended ended' hread h
      rw [Monitor.read_cons] at hread
      obtain ⟨between, hn, hrest⟩ := Option.bind_eq_some_iff.mp hread
      apply ih hrest
      by_cases hend : n = .disconnected
      · left
        rw [hend] at hn
        cases ended with
        | true => cases hn
        | false => exact (Option.some.inj hn).symm
      · rcases h with h | h
        · left
          rw [h] at hn
          cases n with
          | output o => exact (Option.some.inj hn).symm
          | disconnected => exact absurd rfl hend
          | remote event =>
              cases event with
              | available id a => cases hn
              | unavailable id a => cases hn
              | signal a event => exact (Option.some.inj hn).symm
        · rcases List.mem_cons.mp h with h | h
          · exact absurd h.symm hend
          · exact .inr h

/-- **Teardown is final.**  Over any run of a new connection with anything that
the application does during its calls, including what closes the peer: if no
announcement but the last of its message closes the connection, no call does
before a withdrawal is told, no local signal is added once it is closed, and no
pointer that dangles is followed, then every announcement has been withdrawn
once when `on_disconnected` is raised, nothing is announced or withdrawn after
it, and both containers are empty from then on. -/
theorem teardown_final_of_announcedLast (c : Connection) (hc : c.remotes = {})
    (inputs : List Input) (h : MeetsOpt advance Orderly { connection := c } inputs) :
    ∃ r, Trace.run step { connection := c } inputs = some r ∧ Final r := by
  have hsound : Session.Sound { connection := c } := by
    refine ⟨?_, fun hclosed => nomatch hclosed⟩
    rw [hc]
    exact RemoteSignals.wellFormed_empty
  have hannounced (id : String) : Session.announced { connection := c } id = false := by
    unfold announced
    rw [hc]
    rfl
  obtain ⟨r, hr, hkeeps⟩ := keeps_run inputs hsound h
  have hfinality : Monitor.read Ports.finality false r.2 = some (!r.1.connected) := hkeeps.finality
  have hread (id : String) : (availability id).read false (remoteEvents r.2) =
      some (r.1.announced id) := by
    rw [← hannounced id]
    exact hkeeps.availability id
  have hclosed (hmem : .disconnected ∈ r.2) : r.1.connected = false := by
    have hover := ended_of_mem hfinality (.inr hmem)
    simpa using hover
  refine ⟨r, hr, ?_, ?_, ?_, ?_⟩
  · rw [hfinality]
    rfl
  · intro id
    rw [hread id]
    rfl
  · exact fun hmem => hkeeps.sound.empty (hclosed hmem)
  · intro hmem id
    rw [hread id, announced_of_unknown (hkeeps.sound.unknown (hclosed hmem) id)]

/-- A message about some ids; the call `n` of the first round closes the peer. -/
def closingMessage (method : String) (ids : List String) (n : Nat) : Input :=
  .message (.ofMetadata 0 method (.object [("signalIds", .array (ids.map .string))]))
    fun round call => if round = 0 ∧ call = n then [.close fun _ => []] else []

/-- The law on a connection that is closed in the call that withdraws one of two
ids. -/
theorem teardown_final_withdrawal :
    MeetsOpt advance Orderly { connection := {} }
        [closingMessage "available" ["a", "b"] 1, closingMessage "unavailable" ["a"] 1] ∧
      ∃ r, Trace.run step { connection := {} }
          [closingMessage "available" ["a", "b"] 1, closingMessage "unavailable" ["a"] 1] =
            some r ∧ Final r := by
  have hstays : StaysConnected [] := fun _ hmem => nomatch hmem
  have hmeets : MeetsOpt advance Orderly { connection := {} }
      [closingMessage "available" ["a", "b"] 1, closingMessage "unavailable" ["a"] 1] := by
    refine ⟨fun _ => ⟨⟨fun _ _ => hstays, fun _ _ => hstays, trivial⟩,
      ⟨⟨trivial, trivial⟩, ⟨trivial, trivial⟩, trivial⟩⟩, ?_⟩
    intro s hs
    obtain rfl := Option.some.inj hs
    refine ⟨fun _ => ⟨⟨fun _ => ⟨.inl hstays, .inr (fun _ hmem => nomatch hmem), trivial⟩,
      trivial⟩, ⟨⟨trivial, ⟨?_, trivial⟩, trivial⟩, trivial⟩⟩, fun _ _ => trivial⟩
    exact fun _ signal hmem => nomatch hmem
  exact ⟨hmeets, teardown_final_of_announcedLast {} rfl _ hmeets⟩

/-- Teardown is not final in every run: the call that announces the first of
two ids closes the connection, and the second one is announced after
`on_disconnected`. -/
theorem announced_after_disconnected :
    ¬ ∃ r, Trace.run step { connection := {} } [closingMessage "available" ["a", "b"] 0] =
      some r ∧ Final r := by
  rintro ⟨r, hr, hfinal⟩
  have htrace : (Trace.run step { connection := {} }
      [closingMessage "available" ["a", "b"] 0]).map Prod.snd =
        some [.remote (.available "a" 0), .remote (.signal 0 .unavailable),
          .remote (.unavailable "a" 0), .disconnected, .remote (.available "b" 1)] := by
    decide +kernel
  rw [hr, Option.map_some] at htrace
  have hread := hfinal.finality
  rw [Option.some.inj htrace] at hread
  cases hread

-- Nor is it where the call of the object closes the connection before the
-- withdrawal is told.
example : (Trace.run step { connection := {} }
    [closingMessage "available" ["a"] 1, closingMessage "unavailable" ["a"] 0]).map Prod.snd =
      some [.remote (.available "a" 0), .remote (.signal 0 .unavailable), .disconnected,
        .remote (.unavailable "a" 0)] := by
  decide +kernel

end Session

end WsStreaming.Ports
