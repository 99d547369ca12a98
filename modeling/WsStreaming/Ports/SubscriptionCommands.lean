import WsStreaming.Ports.SubscribeFaces
import WsStreaming.Ports.TableSubscriptions

/-!
# Commands that fail

A subscribe or unsubscribe command of the peer reports for each id whether it
succeeded.  An id that is reported as failed should not have been there: the
subscriptions, the slots and the messages are those of the command without it.
An id that is reported as done is subscribed on the wire afterwards, or not
subscribed any more.

`subscribe` sets the explicit flag before it looks whether the signal was
subscribed already, and `unsubscribe` clears it before it looks whether the
signal still is.  So a request can fail and change the flag all the same: where
the signal is held implicitly, for a signal that names it as its table.

## Main results

* `request_of_harmless`, `request_of_harmful` — a failed request changes
  nothing exactly if the flag is what the request asks for.
* `request_done` — a request that is done is told to the peer.
* `honest_iff_harmless` — the law over all runs of a connection.
-/

namespace WsStreaming.Ports

open WsStreaming.Verified
open WsStreaming.Verified.OrderedMap (OMap Distinct)
open WsStreaming.Verified.Run (Meets)

/-- The subscription of a registered signal and what is connected for it. -/
structure Standing where
  isExplicitlySubscribed : Bool
  implicitSubscribeCount : UInt32
  onMetadataChanged : Bool
  onDataPublished : Bool
  holder : Bool
deriving DecidableEq, Repr

/-- The standing of a registered signal. -/
def RegisteredLocalSignal.standing (e : RegisteredLocalSignal) : Standing :=
  { isExplicitlySubscribed := e.isExplicitlySubscribed
    implicitSubscribeCount := e.implicitSubscribeCount
    onMetadataChanged := e.onMetadataChanged
    onDataPublished := e.onDataPublished
    holder := e.holder }

namespace LocalSignals

/-- The standings of the registered signals. -/
def standings (c : LocalSignals) : OMap UInt32 Standing :=
  c.signals.map fun e => (e.1, e.2.standing)

/-! ## Commands -/

namespace Command

/-- The parameters of a command. -/
def params : Command → Json
  | .subscribe params => params
  | .unsubscribe params => params

/-- The same command for an array. -/
def withIds : Command → List Json → Command
  | .subscribe _, ids => .subscribe (.array ids)
  | .unsubscribe _, ids => .unsubscribe (.array ids)

/-- What a command asks for. -/
def subscribes : Command → Bool
  | .subscribe _ => true
  | .unsubscribe _ => false

/-- What a command asks for one id. -/
def request : Command → String → Request
  | .subscribe _, id => .subscribe id
  | .unsubscribe _, id => .unsubscribe id

end Command

/-- The standings after a command, and what it sends. -/
def effect (c : LocalSignals) (command : Command) : OMap UInt32 Standing × List Message :=
  ((c.command command).1.standings, messagesOf (c.command command).2.1)

/-- The command is as it is without the id, whether it ends there or not. -/
def LeavesNoTrace (c : LocalSignals) (command : Command) (before : List Json) (id : String)
    (after : List Json) : Prop :=
  c.effect (command.withIds (before ++ [.string id])) = c.effect (command.withIds before) ∧
    c.effect (command.withIds (before ++ .string id :: after)) =
      c.effect (command.withIds (before ++ after))

/-- What the peer is told last about the subscription of a signal is what the
command asks for. -/
def IsTold (command : Command) (signal : Option (UInt32 × RegisteredLocalSignal))
    (outputs : List Output) : Prop :=
  ∃ e, signal = some e ∧
    lastSubscription (messagesOf outputs) e.2.signo = some command.subscribes

/-- What a command reports is true: an id that failed leaves no trace, and for
one that is done the peer is told so. -/
def Honest (c : LocalSignals) (command : Command) : Prop :=
  match command.params with
  | .string id =>
      match (c.command command).2.2 with
      | .ok _ => IsTold command (c.findById id) (c.command command).2.1
      | .error _ => c.effect command = (c.standings, [])
  | .array ids =>
      ∀ before id after, ids = before ++ .string id :: after →
        ∃ results done, (c.command command).2.2 = .ok (.array results) ∧
          results[before.length]? = some (.bool done) ∧
          if done then
            IsTold command ((c.command (command.withIds before)).1.findById id)
              (c.command command).2.1
          else c.LeavesNoTrace command before id after
  | _ => True

/-- A signal that is held implicitly has the explicit flag that the request
asks for. -/
def Harmless (c : LocalSignals) : Request → Prop
  | .subscribe id => ∀ e, c.findById id = some e → 0 < e.2.implicitSubscribeCount →
      e.2.isExplicitlySubscribed = true
  | .unsubscribe id => ∀ e, c.findById id = some e → 0 < e.2.implicitSubscribeCount →
      e.2.isExplicitlySubscribed = false

/-- The request for each id of a command is harmless when its turn comes. -/
def AllHarmless (c : LocalSignals) (command : Command) : Prop :=
  match command.params with
  | .string id => c.Harmless (command.request id)
  | .array ids =>
      ∀ before id after, ids = before ++ .string id :: after →
        (c.command (command.withIds before)).1.Harmless (command.request id)
  | _ => True

/-! ## Requests -/

section Request

variable {c : LocalSignals} {k : UInt32} {entry : RegisteredLocalSignal}

theorem update_eq_self (hd : Distinct c.signals) (hk : OrderedMap.find? c.signals k = some entry)
    {f : RegisteredLocalSignal → RegisteredLocalSignal} (h : f entry = entry) :
    c.update k f = c := by
  have hid : c.update k (fun e => e) = c := by
    simp only [update, OrderedMap.modify, ite_self, List.map_id']
  rw [update_congr hd hk (g := fun e => e) h, hid]

theorem standings_update_ne (hk : OrderedMap.find? c.signals k = some entry)
    {new : RegisteredLocalSignal} (h : new.standing ≠ entry.standing) :
    (c.update k fun _ => new).standings ≠ c.standings := by
  intro heq
  have hfind := congrArg (fun m => OrderedMap.find? m k) heq
  have hnew : OrderedMap.find? (c.update k fun _ => new).signals k = some new := by
    rw [find?_update, if_pos rfl, hk]
    rfl
  dsimp only [standings] at hfind
  rw [OrderedMap.find?_map RegisteredLocalSignal.standing,
    OrderedMap.find?_map RegisteredLocalSignal.standing, hnew, hk] at hfind
  exact h (Option.some.inj hfind)

theorem isSubscribed_iff (e : RegisteredLocalSignal) :
    e.isSubscribed = true ↔ e.isExplicitlySubscribed = true ∨ 0 < e.implicitSubscribeCount := by
  rw [RegisteredLocalSignal.isSubscribed, Bool.or_eq_true, decide_eq_true_eq]

/-- A subscription that begins is a success. -/
theorem subscribe_of_new {id : String} (hfind : c.findById id = some (k, entry))
    (hsub : ¬ entry.isSubscribed = true) : (c.subscribe id true).2.2 = true := by
  rw [subscribe_true hfind hsub]
  split
  · rfl
  · rfl

/-- So is one that ends. -/
theorem unsubscribe_of_last {id : String} (hfind : c.findById id = some (k, entry))
    (hsub : ¬ (entry.dropSubscription true).isSubscribed = true) :
    (c.unsubscribe id true).2.2 = true := by
  rw [unsubscribe_of_ended hfind hsub]
  split
  · rfl
  · rfl

/-- **A harmless request that fails does nothing.** -/
theorem request_of_harmless (hd : Distinct c.signals) {r : Request} (hr : c.Harmless r)
    (hfail : (c.request r).2.2 = false) : c.request r = (c, [], false) := by
  cases r with
  | subscribe id =>
      change (c.subscribe id true).2.2 = false at hfail
      change c.subscribe id true = _
      cases hfind : c.findById id with
      | none => exact subscribe_of_none hfind true
      | some found =>
          obtain ⟨k, entry⟩ := found
          by_cases hsub : entry.isSubscribed = true
          · have hflag : entry.isExplicitlySubscribed = true := by
              rcases (isSubscribed_iff entry).mp hsub with hflag | hcount
              · exact hflag
              · exact hr (k, entry) hfind hcount
            have hsame : entry.addSubscription true = entry := by
              rw [RegisteredLocalSignal.addSubscription, if_pos rfl, ← hflag]
            rw [subscribe_of_subscribed hfind hsub,
              update_eq_self hd (find?_of_findById hd hfind) hsame]
          · rw [subscribe_of_new hfind hsub] at hfail
            cases hfail
  | unsubscribe id =>
      change (c.unsubscribe id true).2.2 = false at hfail
      change c.unsubscribe id true = _
      cases hfind : c.findById id with
      | none => exact unsubscribe_of_none hfind
      | some found =>
          obtain ⟨k, entry⟩ := found
          by_cases hsub : (entry.dropSubscription true).isSubscribed = true
          · have hcount : 0 < entry.implicitSubscribeCount := by
              rcases (isSubscribed_iff _).mp hsub with hflag | hcount
              · cases hflag
              · exact hcount
            have hflag : entry.isExplicitlySubscribed = false := hr (k, entry) hfind hcount
            have hsame : entry.dropSubscription true = entry := by
              rw [RegisteredLocalSignal.dropSubscription, if_pos rfl, ← hflag]
            rw [unsubscribe_of_subscribed hfind hsub,
              update_eq_self hd (find?_of_findById hd hfind) hsame]
          · rw [unsubscribe_of_last hfind hsub] at hfail
            cases hfail

/-- **Any other request fails and changes the explicit flag.** -/
theorem request_of_harmful (hd : Distinct c.signals) {r : Request} (hr : ¬ c.Harmless r) :
    (c.request r).2.2 = false ∧ (c.request r).1.standings ≠ c.standings := by
  cases r with
  | subscribe id =>
      simp only [Harmless, not_forall] at hr
      obtain ⟨⟨k, entry⟩, hfind, hcount, hflag⟩ := hr
      have hsub : entry.isSubscribed = true := (isSubscribed_iff entry).mpr (.inr hcount)
      change (c.subscribe id true).2.2 = false ∧ (c.subscribe id true).1.standings ≠ _
      rw [subscribe_of_subscribed hfind hsub]
      refine ⟨rfl, standings_update_ne (find?_of_findById hd hfind) ?_⟩
      intro heq
      exact hflag (congrArg Standing.isExplicitlySubscribed heq).symm
  | unsubscribe id =>
      simp only [Harmless, not_forall] at hr
      obtain ⟨⟨k, entry⟩, hfind, hcount, hflag⟩ := hr
      have hsub : (entry.dropSubscription true).isSubscribed = true :=
        (isSubscribed_iff _).mpr (.inr hcount)
      change (c.unsubscribe id true).2.2 = false ∧ (c.unsubscribe id true).1.standings ≠ _
      rw [unsubscribe_of_subscribed hfind hsub]
      refine ⟨rfl, standings_update_ne (find?_of_findById hd hfind) ?_⟩
      intro heq
      exact hflag (congrArg Standing.isExplicitlySubscribed heq).symm

/-! ## What the peer is told -/

/-- What a subscription that begins tells the peer. -/
theorem says_announcement (e : RegisteredLocalSignal) {m : Message}
    (hm : m ∈ messagesOf (e.hold ++ e.announcement)) (j : UInt32) :
    m.subscription? j ≠ some false := by
  rw [messagesOf_append, e.messagesOf_hold, e.messagesOf_announcement, List.nil_append] at hm
  rcases List.mem_cons.mp hm with rfl | hm
  · rw [subscription?_subscribeMessage]
    split
    · exact fun h => nomatch h
    · exact fun h => nomatch h
  · rw [List.mem_singleton.mp hm, subscription?_signalMessage]
    exact fun h => nomatch h

/-- Subscribing tells the peer of no signal that it is unsubscribed. -/
theorem says_subscribe (c : LocalSignals) (id : String) (isExplicit : Bool) :
    ∀ m ∈ messagesOf (c.subscribe id isExplicit).2.1, ∀ j, m.subscription? j ≠ some false := by
  have himplicit (c : LocalSignals) (id : String) :
      ∀ m ∈ messagesOf (c.subscribe id false).2.1, ∀ j, m.subscription? j ≠ some false := by
    cases hfind : c.findById id with
    | none =>
        rw [subscribe_of_none hfind]
        exact nofun
    | some found =>
        obtain ⟨k, entry⟩ := found
        by_cases hsub : entry.isSubscribed = true
        · rw [subscribe_of_subscribed hfind hsub]
          exact nofun
        · rw [subscribe_false hfind hsub]
          exact fun m hm => says_announcement entry hm
  cases isExplicit with
  | false => exact himplicit c id
  | true =>
      cases hfind : c.findById id with
      | none =>
          rw [subscribe_of_none hfind]
          exact nofun
      | some found =>
          obtain ⟨k, entry⟩ := found
          by_cases hsub : entry.isSubscribed = true
          · rw [subscribe_of_subscribed hfind hsub]
            exact nofun
          · rw [subscribe_true hfind hsub]
            cases entry.signal.domainId? with
            | none => exact fun m hm => says_announcement entry hm
            | some tableId =>
                intro m hm
                dsimp only at hm
                rw [messagesOf_append, messagesOf_append, List.append_assoc] at hm
                rcases List.mem_append.mp hm with hm | hm
                · rw [entry.messagesOf_hold] at hm
                  cases hm
                · rcases List.mem_append.mp hm with hm | hm
                  · exact himplicit _ tableId m hm
                  · apply says_announcement entry
                    rw [messagesOf_append]
                    exact List.mem_append_right _ hm

/-- Unsubscribing tells the peer of no signal that it is subscribed. -/
theorem says_unsubscribe (c : LocalSignals) (id : String) (isExplicit : Bool) :
    ∀ m ∈ messagesOf (c.unsubscribe id isExplicit).2.1, ∀ j, m.subscription? j ≠ some true := by
  have hfarewell (e : RegisteredLocalSignal) {m : Message} (hm : m ∈ messagesOf e.farewell)
      (j : UInt32) : m.subscription? j ≠ some true := by
    rw [e.messagesOf_farewell] at hm
    rw [List.mem_singleton.mp hm, subscription?_unsubscribeMessage]
    split
    · exact fun h => nomatch h
    · exact fun h => nomatch h
  induction c, id, isExplicit using unsubscribe_induction with
  | none c id isExplicit hfind =>
      rw [unsubscribe_of_none hfind]
      exact nofun
  | subscribed c id isExplicit k entry hfind hsub =>
      rw [unsubscribe_of_subscribed hfind hsub]
      exact nofun
  | ended c id isExplicit k entry hfind hsub ih =>
      rw [unsubscribe_of_ended hfind hsub]
      cases hdomain : entry.signal.domainId? with
      | none => exact fun m hm => hfarewell entry hm
      | some tableId =>
          intro m hm
          dsimp only at hm
          rw [messagesOf_append] at hm
          rcases List.mem_append.mp hm with hm | hm
          · exact hfarewell entry hm
          · exact ih tableId hdomain m hm

/-- **A request that is done tells the peer so.** -/
theorem request_done (command : Command) {id : String}
    (hdone : (c.request (command.request id)).2.2 = true) :
    ∃ e, c.findById id = some e ∧
      ∃ m ∈ messagesOf (c.request (command.request id)).2.1,
        m.subscription? e.2.signo = some command.subscribes := by
  cases command with
  | subscribe params =>
      change (c.subscribe id true).2.2 = true at hdone
      change ∃ e, _ ∧ ∃ m ∈ messagesOf (c.subscribe id true).2.1, _
      cases hfind : c.findById id with
      | none =>
          rw [subscribe_of_none hfind] at hdone
          cases hdone
      | some found =>
          obtain ⟨k, entry⟩ := found
          by_cases hsub : entry.isSubscribed = true
          · rw [subscribe_of_subscribed hfind hsub] at hdone
            cases hdone
          · refine ⟨(k, entry), rfl, entry.subscribeMessage, ?_, ?_⟩
            · rw [subscribe_true hfind hsub]
              split
              · rw [messagesOf_append]
                exact List.mem_append_right _ List.mem_cons_self
              · rw [messagesOf_append]
                exact List.mem_append_right _ List.mem_cons_self
            · rw [subscription?_subscribeMessage, if_pos rfl]
              rfl
  | unsubscribe params =>
      change (c.unsubscribe id true).2.2 = true at hdone
      change ∃ e, _ ∧ ∃ m ∈ messagesOf (c.unsubscribe id true).2.1, _
      cases hfind : c.findById id with
      | none =>
          rw [unsubscribe_of_none hfind] at hdone
          cases hdone
      | some found =>
          obtain ⟨k, entry⟩ := found
          by_cases hsub : (entry.dropSubscription true).isSubscribed = true
          · rw [unsubscribe_of_subscribed hfind hsub] at hdone
            cases hdone
          · have hmem : entry.unsubscribeMessage ∈ messagesOf entry.farewell := by
              rw [entry.messagesOf_farewell]
              exact List.mem_singleton.mpr rfl
            refine ⟨(k, entry), rfl, entry.unsubscribeMessage, ?_, ?_⟩
            · rw [unsubscribe_of_ended hfind hsub]
              split
              · exact hmem
              · rw [messagesOf_append]
                exact List.mem_append_left _ hmem
            · rw [subscription?_unsubscribeMessage, if_pos rfl]
              rfl

/-- A request tells the peer of no signal the opposite of what it asks for. -/
theorem says_request (c : LocalSignals) (command : Command) (id : String) :
    ∀ m ∈ messagesOf (c.request (command.request id)).2.1, ∀ j,
      m.subscription? j ≠ some (!command.subscribes) := by
  cases command with
  | subscribe params => exact says_subscribe c id true
  | unsubscribe params => exact says_unsubscribe c id true

end Request

/-! ## Arrays of ids -/

section Array

variable (operation : LocalSignals → String → LocalSignals × List Output × Bool)

theorem forEachId_string (c : LocalSignals) (id : String) (ids : List Json) :
    forEachId operation c (.string id :: ids) =
      let first := operation c id
      let rest := forEachId operation first.1 ids
      (rest.1, first.2.1 ++ rest.2.1, .bool first.2.2 :: rest.2.2) := rfl

theorem forEachId_other (c : LocalSignals) {j : Json} (h : j.string? = none) (ids : List Json) :
    forEachId operation c (j :: ids) =
      let rest := forEachId operation c ids
      (rest.1, rest.2.1, .bool false :: rest.2.2) := by
  cases j with
  | string id => cases h
  | null => rfl
  | bool b => rfl
  | integer n => rfl
  | float bits => rfl
  | array elements => rfl
  | object members => rfl

theorem eq_string {j : Json} {id : String} (h : j.string? = some id) : j = .string id := by
  cases j with
  | string id' => rw [Option.some.inj h]
  | null => cases h
  | bool b => cases h
  | integer n => cases h
  | float bits => cases h
  | array elements => cases h
  | object members => cases h

theorem forEachId_append (before after : List Json) :
    ∀ c : LocalSignals, forEachId operation c (before ++ after) =
      let first := forEachId operation c before
      let rest := forEachId operation first.1 after
      (rest.1, first.2.1 ++ rest.2.1, first.2.2 ++ rest.2.2) := by
  induction before with
  | nil => exact fun c => rfl
  | cons j before ih =>
      intro c
      rw [List.cons_append]
      cases hj : j.string? with
      | none =>
          rw [forEachId_other operation c hj, forEachId_other operation c hj, ih]
          rfl
      | some id =>
          rw [eq_string hj, forEachId_string, forEachId_string]
          dsimp only
          rw [ih, List.append_assoc]
          rfl

theorem length_forEachId (ids : List Json) :
    ∀ c : LocalSignals, (forEachId operation c ids).2.2.length = ids.length := by
  induction ids with
  | nil => exact fun c => rfl
  | cons j ids ih =>
      intro c
      cases hj : j.string? with
      | none =>
          rw [forEachId_other operation c hj]
          exact congrArg (· + 1) (ih c)
      | some id =>
          rw [eq_string hj, forEachId_string]
          exact congrArg (· + 1) (ih _)

/-- What holds of all messages of an operation holds of those for an array. -/
theorem messages_forEachId {p : Message → Prop}
    (h : ∀ c id, ∀ m ∈ messagesOf (operation c id).2.1, p m) (ids : List Json) :
    ∀ c : LocalSignals, ∀ m ∈ messagesOf (forEachId operation c ids).2.1, p m := by
  induction ids with
  | nil => exact fun c m hm => nomatch hm
  | cons j ids ih =>
      intro c m hm
      cases hj : j.string? with
      | none =>
          rw [forEachId_other operation c hj] at hm
          exact ih c m hm
      | some id =>
          rw [eq_string hj, forEachId_string] at hm
          dsimp only at hm
          rw [messagesOf_append] at hm
          rcases List.mem_append.mp hm with hm | hm
          · exact h c id m hm
          · exact ih _ m hm

end Array

/-- The request that a command makes for an id. -/
def each (command : Command) (c : LocalSignals) (id : String) : LocalSignals × List Output × Bool :=
  c.request (command.request id)

/-- A command for an array is its requests one after another. -/
theorem command_withIds (c : LocalSignals) (command : Command) (ids : List Json) :
    c.command (command.withIds ids) =
      ((forEachId (each command) c ids).1, (forEachId (each command) c ids).2.1,
        .ok (.array (forEachId (each command) c ids).2.2)) := by
  cases command with
  | subscribe params => rfl
  | unsubscribe params => rfl

/-- A command for one id is its request. -/
theorem command_of_string {c : LocalSignals} {command : Command} {id : String}
    (hparams : command.params = .string id) :
    ∃ failure, c.command command =
      ((each command c id).1, (each command c id).2.1,
        if (each command c id).2.2 then .ok (.bool true) else .error failure) := by
  cases command with
  | subscribe params =>
      change params = .string id at hparams
      rw [hparams]
      exact ⟨_, rfl⟩
  | unsubscribe params =>
      change params = .string id at hparams
      rw [hparams]
      exact ⟨_, rfl⟩

theorem withIds_of_params {command : Command} {ids : List Json}
    (hparams : command.params = .array ids) : command.withIds ids = command := by
  cases command with
  | subscribe params =>
      change params = .array ids at hparams
      rw [hparams]
      rfl
  | unsubscribe params =>
      change params = .array ids at hparams
      rw [hparams]
      rfl

/-- Messages of which none tells the opposite, and one tells. -/
theorem lastSubscription_eq {ms : List Message} {signo : UInt32} {b : Bool}
    (hnone : ∀ m ∈ ms, m.subscription? signo ≠ some (!b))
    (hsome : ∃ m ∈ ms, m.subscription? signo = some b) :
    lastSubscription ms signo = some b := by
  have hall : ∀ x ∈ ms.filterMap (Message.subscription? signo), x = b := by
    intro x hx
    obtain ⟨m, hm, hmx⟩ := List.mem_filterMap.mp hx
    have hne := hnone m hm
    rw [hmx] at hne
    cases x <;> cases b <;> simp_all
  obtain ⟨m, hm, hmb⟩ := hsome
  have hmem : b ∈ ms.filterMap (Message.subscription? signo) := List.mem_filterMap.mpr ⟨m, hm, hmb⟩
  have hne : ms.filterMap (Message.subscription? signo) ≠ [] := List.ne_nil_of_mem hmem
  rw [lastSubscription, List.getLast?_eq_some_getLast hne, hall _ (List.getLast_mem hne)]

/-! ## Commands -/

section Command

variable {c : LocalSignals}

/-- A command for one id. -/
theorem honest_of_string {command : Command} {id : String}
    (hparams : command.params = .string id) :
    c.Honest command ↔
      if (each command c id).2.2 then IsTold command (c.findById id) (c.command command).2.1
      else c.effect command = (c.standings, []) := by
  obtain ⟨failure, hcommand⟩ := command_of_string (c := c) hparams
  unfold Honest
  rw [hparams]
  dsimp only
  rw [congrArg (fun r => r.2.2) hcommand]
  dsimp only
  cases (each command c id).2.2 with
  | true => rw [if_pos rfl, if_pos rfl]
  | false => rw [if_neg Bool.false_ne_true, if_neg Bool.false_ne_true]

theorem honest_iff_of_string (hd : Distinct c.signals) {command : Command} {id : String}
    (hparams : command.params = .string id) : c.Honest command ↔ c.AllHarmless command := by
  obtain ⟨failure, hcommand⟩ := command_of_string (c := c) hparams
  have hall : c.AllHarmless command ↔ c.Harmless (command.request id) := by
    unfold AllHarmless
    rw [hparams]
  rw [honest_of_string hparams, hall, effect, hcommand]
  dsimp only
  cases hdone : (each command c id).2.2 with
  | true =>
      rw [if_pos rfl]
      constructor
      · intro _
        by_contra hharmful
        have hfail := (request_of_harmful hd hharmful).1
        rw [each, hfail] at hdone
        cases hdone
      · intro _
        obtain ⟨e, hfind, htold⟩ := request_done command hdone
        exact ⟨e, hfind, lastSubscription_eq
          (fun m hm => says_request c command id m hm e.2.signo) htold⟩
  | false =>
      rw [if_neg Bool.false_ne_true]
      constructor
      · intro heffect
        by_contra hharmful
        exact (request_of_harmful hd hharmful).2 (congrArg Prod.fst heffect)
      · intro hharmless
        have hidle : each command c id = (c, [], false) := request_of_harmless hd hharmless hdone
        rw [hidle]
        rfl

/-- An id of a command for an array. -/
theorem leavesNoTrace_iff (command : Command) (before : List Json) (id : String)
    (after : List Json) (hd : Distinct (c.command (command.withIds before)).1.signals)
    (hfail : (each command (c.command (command.withIds before)).1 id).2.2 = false) :
    c.LeavesNoTrace command before id after ↔
      (c.command (command.withIds before)).1.Harmless (command.request id) := by
  rw [command_withIds] at hd hfail ⊢
  dsimp only at hd hfail ⊢
  unfold LeavesNoTrace effect
  rw [command_withIds, command_withIds, command_withIds, command_withIds,
    forEachId_append (each command) before [.string id] c,
    forEachId_append (each command) before (.string id :: after) c,
    forEachId_append (each command) before after c]
  dsimp only
  rw [forEachId_string, forEachId_string]
  dsimp only
  constructor
  · intro htrace
    by_contra hharmful
    exact (request_of_harmful hd hharmful).2 (congrArg Prod.fst htrace.1)
  · intro hharmless
    have hidle := request_of_harmless hd hharmless hfail
    change each command (forEachId (each command) c before).1 id = _ at hidle
    rw [hidle]
    exact ⟨by rw [forEachId, List.append_nil, List.append_nil], rfl⟩

/-- Requests register and remove nothing. -/
theorem distinct_request (hd : Distinct c.signals) (r : Request) :
    Distinct (c.request r).1.signals := by
  rw [← distinct_subscriptions] at hd ⊢
  rw [subscriptions_request]
  exact (Subscriptions.sameSignals_request hd r).distinct hd

theorem distinct_command (hd : Distinct c.signals) (command : Command) :
    Distinct (c.command command).1.signals := by
  have hstep (c : LocalSignals) (r : Request) (hc : Distinct c.signals) :
      Distinct (c.request r).1.signals := distinct_request hc r
  rw [command_fst]
  exact Run.foldl_invariant hstep command.requests c hd

/-- What a command reports for one id of an array. -/
theorem report_of_array (command : Command) (before : List Json) (id : String)
    (after : List Json) :
    ∃ results, (c.command (command.withIds (before ++ .string id :: after))).2.2 =
        .ok (.array results) ∧
      results[before.length]? =
        some (.bool (each command (c.command (command.withIds before)).1 id).2.2) := by
  rw [command_withIds, command_withIds]
  refine ⟨_, rfl, ?_⟩
  rw [forEachId_append]
  dsimp only
  rw [forEachId_string, List.getElem?_append_right (by rw [length_forEachId]),
    length_forEachId, Nat.sub_self]
  rfl

/-- An id of an array that is done. -/
theorem isTold_of_array (command : Command) (before : List Json) (id : String)
    (after : List Json)
    (hdone : (each command (c.command (command.withIds before)).1 id).2.2 = true) :
    IsTold command ((c.command (command.withIds before)).1.findById id)
      (c.command (command.withIds (before ++ .string id :: after))).2.1 := by
  obtain ⟨e, hfind, m, hm, htold⟩ := request_done command hdone
  refine ⟨e, hfind, lastSubscription_eq ?_ ⟨m, ?_, htold⟩⟩
  · rw [command_withIds]
    intro m hm
    exact messages_forEachId (each command)
      (p := fun m => m.subscription? e.2.signo ≠ some (!command.subscribes))
      (fun c id m hm => says_request c command id m hm e.2.signo) _ c m hm
  · rw [command_withIds] at hm ⊢
    dsimp only at hm ⊢
    rw [forEachId_append]
    dsimp only
    rw [forEachId_string]
    dsimp only
    rw [messagesOf_append, messagesOf_append]
    exact List.mem_append_right _ (List.mem_append_left _ hm)

/-- A command for an array. -/
theorem honest_iff_of_array (hd : Distinct c.signals) {command : Command} {ids : List Json}
    (hparams : command.params = .array ids) : c.Honest command ↔ c.AllHarmless command := by
  unfold Honest AllHarmless
  rw [hparams]
  dsimp only
  apply forall_congr'
  intro before
  apply forall_congr'
  intro id
  apply forall_congr'
  intro after
  apply forall_congr'
  intro hids
  have hcommand : command = command.withIds (before ++ .string id :: after) := by
    rw [← hids, withIds_of_params hparams]
  have hd' : Distinct (c.command (command.withIds before)).1.signals := distinct_command hd _
  have htrace := leavesNoTrace_iff command before id after hd'
  have htold := isTold_of_array (c := c) command before id after
  obtain ⟨results, hresult, hreport⟩ := report_of_array (c := c) command before id after
  rw [← hcommand] at hresult htold
  cases hdone : (each command (c.command (command.withIds before)).1 id).2.2 with
  | true =>
      rw [hdone] at hreport
      constructor
      · intro _
        by_contra hharmful
        have hfail := (request_of_harmful hd' hharmful).1
        rw [each, hfail] at hdone
        cases hdone
      · intro _
        refine ⟨results, true, hresult, hreport, ?_⟩
        rw [if_pos rfl]
        exact htold hdone
  | false =>
      rw [hdone] at hreport
      rw [← htrace hdone]
      constructor
      · rintro ⟨results', done, hresult', hreport', hlaw⟩
        have hresults : results' = results := by
          rw [hresult] at hresult'
          exact (Json.array.inj (Except.ok.inj hresult')).symm
        rw [hresults, hreport] at hreport'
        rw [← Json.bool.inj (Option.some.inj hreport'), if_neg Bool.false_ne_true] at hlaw
        exact hlaw
      · intro hlaw
        refine ⟨results, false, hresult, hreport, ?_⟩
        rw [if_neg Bool.false_ne_true]
        exact hlaw

/-- **One command.** -/
theorem honest_iff (hd : Distinct c.signals) (command : Command) :
    c.Honest command ↔ c.AllHarmless command := by
  cases hparams : command.params with
  | string id => exact honest_iff_of_string hd hparams
  | array ids => exact honest_iff_of_array hd hparams
  | null => unfold Honest AllHarmless; rw [hparams]
  | bool b => unfold Honest AllHarmless; rw [hparams]
  | integer n => unfold Honest AllHarmless; rw [hparams]
  | float bits => unfold Honest AllHarmless; rw [hparams]
  | object members => unfold Honest AllHarmless; rw [hparams]

end Command

/-! ## Runs -/

/-- What happens to the local signals of a connection. -/
inductive Turn where
  | operation (operation : Operation)
  | command (command : Command)
  /-- The peer is closed. -/
  | close

/-- The local signals after that. -/
def turn (c : LocalSignals) : Turn → LocalSignals
  | .operation operation => (c.perform operation).1
  | .command command => (c.command command).1
  | .close => c.clearLocalSignals.1

/-- Every command reports the truth. -/
def HonestTurn (c : LocalSignals) : Turn → Prop
  | .command command => c.Honest command
  | .operation _ => True
  | .close => True

/-- Every command makes harmless requests only. -/
def HarmlessTurn (c : LocalSignals) : Turn → Prop
  | .command command => c.AllHarmless command
  | .operation _ => True
  | .close => True

/-- The numbers stay distinct. -/
theorem distinct_turn {c : LocalSignals} (hd : Distinct c.signals) (t : Turn) :
    Distinct (c.turn t).signals := by
  cases t with
  | command command => exact distinct_command hd command
  | close => exact List.nodup_nil
  | operation operation =>
      cases operation with
      | request r => exact distinct_request hd r
      | publish address domainValue sampleCount data =>
          rw [← distinct_subscriptions] at hd ⊢
          change Distinct (c.publishData address domainValue sampleCount data).1.subscriptions
          rw [subscriptions_publishData]
          exact hd
      | remove signal =>
          change Distinct (c.removeLocalSignal signal).1.signals
          unfold removeLocalSignal
          split
          · exact hd.erase _
          · exact hd
      | add signal =>
          change Distinct (c.addLocalSignal signal).1.signals
          cases hfind : c.findByAddress signal.address with
          | some e =>
              rw [addLocalSignal_of_some hfind]
              exact hd
          | none =>
              rw [← distinct_subscriptions] at hd ⊢
              rw [subscriptions_addLocalSignal hfind]
              exact hd.emplace _ _
      | setMetadata address metadata =>
          change Distinct (c.setMetadata address metadata).1.signals
          cases hfind : c.findByAddress address with
          | none =>
              unfold setMetadata
              rw [hfind]
              exact hd
          | some e =>
              rw [setMetadata_of_find hd
                (show c.findByAddress address = some (e.1, e.2) from hfind)]
              split
              · exact distinct_update hd e.1 _
              · exact distinct_update hd e.1 _

/-- **Commands report the truth exactly if their requests are harmless.**  In
every run of a new connection: for every command and every id in its
parameters, an id that is reported as failed leaves the flags, counts, slots
and messages as they are without it, and for an id that is reported as done the
last message about the signal says that it is subscribed (or unsubscribed); if
and only if no command subscribes a signal that is subscribed implicitly only,
and none unsubscribes a signal that is subscribed both ways. -/
theorem honest_iff_harmless (turns : List Turn) :
    Meets turn HonestTurn {} turns ↔ Meets turn HarmlessTurn {} turns := by
  have hstep (c : LocalSignals) (t : Turn) (hd : Distinct c.signals) (_ : c.HarmlessTurn t) :
      Distinct (c.turn t).signals := distinct_turn hd t
  have hiff (c : LocalSignals) (t : Turn) (hd : Distinct c.signals) :
      c.HonestTurn t ↔ c.HarmlessTurn t := by
    cases t with
    | command command => exact honest_iff hd command
    | operation operation => exact Iff.rfl
    | close => exact Iff.rfl
  have hnew : Distinct ({} : LocalSignals).signals := List.nodup_nil
  exact Run.meets_iff (fun c : LocalSignals => Distinct c.signals) hstep hiff turns {} hnew

/-- A connection with a time signal and a signal that names it. -/
def timed : List Turn := [.operation (.add (timeSignal 0)), .operation (.add (valueSignal 1))]

/-- A command for one id that fails and leaves a trace. -/
theorem not_honestTurn {c : LocalSignals} {command : Command} {id : String}
    (hparams : command.params = .string id) (hfail : (each command c id).2.2 = false)
    (htrace : c.effect command ≠ (c.standings, [])) : ¬ c.HonestTurn (.command command) := by
  intro h
  have hhonest := (honest_of_string hparams).mp h
  rw [hfail, if_neg Bool.false_ne_true] at hhonest
  exact htrace hhonest

/-- After a subscribe command for the other signal. -/
def heldImplicitly : List Turn := timed ++ [.command (.subscribe (.string "value"))]

/-- After subscribe commands for the time signal and the other one. -/
def heldBothWays : List Turn :=
  timed ++ [.command (.subscribe (.string "time")), .command (.subscribe (.string "value"))]

/-- Not every command reports the truth: where the time signal is held for the
other one, a subscribe command for it fails and sets its explicit flag, and an
unsubscribe command fails and clears it. -/
theorem failed_commands_set_flags :
    ¬ Meets turn HonestTurn {} (heldImplicitly ++ [.command (.subscribe (.string "time"))]) ∧
    ¬ Meets turn HonestTurn {} (heldBothWays ++ [.command (.unsubscribe (.string "time"))]) := by
  constructor
  · intro h
    have hlast := @Meets.last _ _ turn HonestTurn (.command (.subscribe (.string "time")))
      heldImplicitly {}
    exact not_honestTurn rfl (by decide +kernel) (by decide +kernel) (hlast h)
  · intro h
    have hlast := @Meets.last _ _ turn HonestTurn (.command (.unsubscribe (.string "time")))
      heldBothWays {}
    exact not_honestTurn rfl (by decide +kernel) (by decide +kernel) (hlast h)

end LocalSignals

end WsStreaming.Ports
