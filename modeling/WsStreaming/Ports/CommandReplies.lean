import WsStreaming.Ports.Connection
import WsStreaming.Ports.MetadataWire

/-!
# Replies to the commands of the peer

A request of the in-band command interface is answered with one response,
which carries the id of the request and either the result of the command or
its error.  Whatever the command sends on the way, no part of it is a
response.

The response is put together outside of the `try` block, and there the id is
looked up once more.  That is fine for an object and throws for anything else,
so a request is answered exactly if its parameters are an object
(`request_answered_iff`).  A message without parameters is delivered with an
array for them, and is one of those that are not.
-/

namespace WsStreaming.Ports

open WsStreaming.Verified
open WsStreaming.Verified.Wire (Bytes)
open LocalSignals (JsonRpcException)

/-- The responses among the messages that are sent. -/
def responsesOf (outputs : List Output) : List MetadataMessage :=
  (messagesOf outputs).filterMap fun
    | .metadata m => if m.method = "response" then some m else none
    | .data _ _ => none

@[simp] theorem responsesOf_nil : responsesOf [] = [] := rfl

@[simp] theorem responsesOf_append (outputs more : List Output) :
    responsesOf (outputs ++ more) = responsesOf outputs ++ responsesOf more := by
  simp only [responsesOf, messagesOf, List.filterMap_append]

/-- A message about a subscription of a local signal. -/
def Message.isNews : Message → Bool
  | .metadata m => m.method = "subscribe" || m.method = "signal" || m.method = "unsubscribe"
  | .data _ _ => false

/-- All that is sent is about subscriptions of local signals. -/
def OnlyNews (outputs : List Output) : Prop := ∀ m ∈ messagesOf outputs, m.isNews = true

theorem onlyNews_nil : OnlyNews [] := nofun

theorem OnlyNews.append {outputs more : List Output} (h : OnlyNews outputs)
    (hmore : OnlyNews more) : OnlyNews (outputs ++ more) := by
  intro m hm
  rw [messagesOf_append] at hm
  rcases List.mem_append.mp hm with hm | hm
  · exact h m hm
  · exact hmore m hm

theorem responsesOf_of_onlyNews {outputs : List Output} (h : OnlyNews outputs) :
    responsesOf outputs = [] := by
  rw [responsesOf, List.filterMap_eq_nil_iff]
  intro m hm
  have hnews := h m hm
  cases m with
  | data signo data => rfl
  | metadata m =>
      have hother : ¬ m.method = "response" := by
        intro heq
        unfold Message.isNews at hnews
        dsimp only at hnews
        rw [heq] at hnews
        exact absurd hnews (by decide)
      exact if_neg hother

namespace RegisteredLocalSignal

theorem onlyNews_release (e : RegisteredLocalSignal) : OnlyNews e.release := by
  unfold release
  split <;> exact nofun

theorem onlyNews_hold (e : RegisteredLocalSignal) : OnlyNews e.hold :=
  e.onlyNews_release

theorem onlyNews_announcement (e : RegisteredLocalSignal) : OnlyNews e.announcement := by
  intro m hm
  have hcases : m = e.subscribeMessage ∨ m = e.signalMessage := by
    simpa [announcement, messagesOf, Output.message?] using hm
  rcases hcases with rfl | rfl <;> rfl

theorem onlyNews_farewell (e : RegisteredLocalSignal) : OnlyNews e.farewell := by
  apply e.onlyNews_release.append
  intro m hm
  have heq : m = e.unsubscribeMessage := by
    simpa [messagesOf, Output.message?] using hm
  rw [heq]
  rfl

end RegisteredLocalSignal

namespace LocalSignals

open RegisteredLocalSignal (onlyNews_hold onlyNews_announcement onlyNews_farewell)

/-! ## What a command sends on the way -/

theorem onlyNews_subscribeWith
    {nested : LocalSignals → String → LocalSignals × List Output × Bool}
    (hnested : ∀ c id, OnlyNews (nested c id).2.1) (c : LocalSignals) (id : String)
    (isExplicit : Bool) : OnlyNews (c.subscribeWith nested id isExplicit).2.1 := by
  unfold subscribeWith
  split
  · exact onlyNews_nil
  · rename_i k entry _
    split
    · exact onlyNews_nil
    · dsimp only
      split
      · exact ((onlyNews_hold entry).append (hnested _ _)).append (onlyNews_announcement entry)
      · exact ((onlyNews_hold entry).append onlyNews_nil).append (onlyNews_announcement entry)

theorem onlyNews_subscribe (c : LocalSignals) (id : String) (isExplicit : Bool) :
    OnlyNews (c.subscribe id isExplicit).2.1 := by
  have himplicit (c : LocalSignals) (id : String) :
      OnlyNews (c.subscribeImplicitly id).2.1 :=
    onlyNews_subscribeWith (fun _ _ => onlyNews_nil) c id false
  cases isExplicit with
  | false => exact himplicit c id
  | true => exact onlyNews_subscribeWith himplicit c id true

theorem onlyNews_unsubscribe (c : LocalSignals) (id : String) (isExplicit : Bool) :
    OnlyNews (c.unsubscribe id isExplicit).2.1 := by
  induction c, id, isExplicit using unsubscribe_induction with
  | none c id isExplicit hfind =>
      rw [unsubscribe_of_none hfind]
      exact onlyNews_nil
  | subscribed c id isExplicit k entry hfind hsub =>
      rw [unsubscribe_of_subscribed hfind hsub]
      exact onlyNews_nil
  | ended c id isExplicit k entry hfind hsub ih =>
      rw [unsubscribe_of_ended hfind hsub]
      cases hdomain : entry.signal.domainId? with
      | none => exact onlyNews_farewell entry
      | some tableId => exact (onlyNews_farewell entry).append (ih tableId hdomain)

section Commands

variable {operation : LocalSignals → String → LocalSignals × List Output × Bool}

theorem onlyNews_forEachId (hop : ∀ c id, OnlyNews (operation c id).2.1)
    (c : LocalSignals) (ids : List Json) : OnlyNews (forEachId operation c ids).2.1 := by
  induction ids generalizing c with
  | nil => exact onlyNews_nil
  | cons j ids ih =>
      cases j with
      | string id => exact (hop c id).append (ih _)
      | null => exact ih c
      | bool b => exact ih c
      | integer n => exact ih c
      | float bits => exact ih c
      | array elements => exact ih c
      | object members => exact ih c

theorem onlyNews_doCommandInterfaceWith (hop : ∀ c id, OnlyNews (operation c id).2.1)
    (failure : String) (c : LocalSignals) (params : Json) :
    OnlyNews (doCommandInterfaceWith operation failure c params).2.1 := by
  cases params with
  | string id => exact hop c id
  | array ids => exact onlyNews_forEachId hop c ids
  | null => exact onlyNews_nil
  | bool b => exact onlyNews_nil
  | integer n => exact onlyNews_nil
  | float bits => exact onlyNews_nil
  | object members => exact onlyNews_nil

end Commands

end LocalSignals

namespace Connection

theorem onlyNews_doCommandInterface (c : Connection) (method : String) (params : Json) :
    OnlyNews (c.doCommandInterface method params).2.1 := by
  unfold doCommandInterface
  split
  · exact LocalSignals.onlyNews_doCommandInterfaceWith
      (fun c id => c.onlyNews_subscribe id true) _ c.locals params
  · split
    · exact LocalSignals.onlyNews_doCommandInterfaceWith
        (fun c id => c.onlyNews_unsubscribe id true) _ c.locals params
    · exact onlyNews_nil

/-! ## The response -/

/-- How the command of a request ends. -/
def commandResult (c : Connection) (params : Json) : Except JsonRpcException Json :=
  match params.stringAt? "method" with
  | some method => (c.doCommandInterface method ((params.find? "params").getD .null)).2.2
  | none => .error ⟨JsonRpcException.invalidRequest, "invalid request object"⟩

/-- A reply carries the result of a command that succeeded, and the error of
one that failed. -/
def Carries (reply : Json) : Except JsonRpcException Json → Prop
  | .ok result => reply.find? "result" = some result ∧ reply.find? "error" = none
  | .error e => reply.find? "error" = some e.json ∧ reply.find? "result" = none

/-- A request is answered: no exception escapes, and one response is sent, with
the id of the request and the outcome of the command. -/
def Answered (c : Connection) (m : MetadataMessage) : Prop :=
  ∃ c' outputs reply, c.receive (.metadata m) = some (c', outputs, []) ∧
    responsesOf outputs = [{ signo := 0, method := "response", params := reply }] ∧
    reply.find? "id" = some ((m.params.find? "id").getD .null) ∧
    Carries reply (c.commandResult m.params)

theorem find?_response_id (id : Json) (result : Except JsonRpcException Json) :
    (response id result).find? "id" = some id := by
  cases result <;> rfl

theorem carries_response (id : Json) (result : Except JsonRpcException Json) :
    Carries (response id result) result := by
  cases result with
  | ok result => exact ⟨rfl, rfl⟩
  | error e => exact ⟨rfl, rfl⟩

/-- A request with an object: the response comes last. -/
theorem handleCommandInterfaceRequest_of_object (c : Connection) {params : Json}
    (h : params.isObject = true) :
    ∃ c' before, OnlyNews before ∧
      c.handleCommandInterfaceRequest params = some (c', before ++
        [.send (.ofMetadata 0 "response"
          (response ((params.find? "id").getD .null) (c.commandResult params)))]) := by
  unfold handleCommandInterfaceRequest commandResult
  rw [if_pos h]
  cases params.stringAt? "method" with
  | none => exact ⟨c, [], onlyNews_nil, rfl⟩
  | some method =>
      exact ⟨_, _, c.onlyNews_doCommandInterface method _, rfl⟩

theorem receive_request (c : Connection) {m : MetadataMessage} (hsigno : m.signo = 0)
    (hmethod : m.method = "request") :
    c.receive (.metadata m) =
      (c.handleCommandInterfaceRequest m.params).map fun r => (r.1, r.2, []) := by
  obtain ⟨signo, method, params⟩ := m
  dsimp only at hsigno hmethod
  subst hsigno hmethod
  rfl

/-- **A request is answered exactly if its parameters are an object.** -/
theorem request_answered_iff (c : Connection) {m : MetadataMessage} (hsigno : m.signo = 0)
    (hmethod : m.method = "request") : c.Answered m ↔ m.params.isObject = true := by
  unfold Answered
  rw [receive_request c hsigno hmethod]
  cases hobject : m.params.isObject with
  | false =>
      have hthrows : c.handleCommandInterfaceRequest m.params = none := by
        unfold handleCommandInterfaceRequest
        rw [if_neg (by rw [hobject]; exact Bool.false_ne_true)]
      constructor
      · rintro ⟨c', outputs, reply, hreceive, -⟩
        rw [hthrows] at hreceive
        cases hreceive
      · exact fun h => absurd h Bool.false_ne_true
  | true =>
      obtain ⟨c', before, hbefore, hhandle⟩ :=
        c.handleCommandInterfaceRequest_of_object hobject
      refine iff_of_true ⟨c', _, _, by rw [hhandle]; rfl, ?_, find?_response_id _ _,
        carries_response _ _⟩ rfl
      rw [responsesOf_append, responsesOf_of_onlyNews hbefore]
      rfl

/-- A request for a signal that is not there is answered with an error. -/
theorem request_answered_unknown :
    Answered {} { signo := 0, method := "request"
                  params := .object [("id", .integer 7), ("method", .string ".subscribe"),
                    ("params", .string "none")] } :=
  (request_answered_iff {} rfl rfl).mpr rfl

/-- The text of an object whose only member is a method, `request`. -/
def bareRequest : Bytes :=
  [0x7B, 0x22, 0x6D, 0x65, 0x74, 0x68, 0x6F, 0x64, 0x22, 0x3A, 0x22, 0x72, 0x65, 0x71, 0x75,
    0x65, 0x73, 0x74, 0x22, 0x7D]

/-- A codec that knows this text. -/
def bareRequestCodec : JsonCodec where
  toMsgpack _ := []
  fromMsgpack _ := none
  parse data :=
    if data = bareRequest then some (.object [("method", .string "request")]) else none

/-- **A request without parameters is not answered**: the exception escapes
when the id is looked up. -/
theorem bare_request_throws :
    ∃ m, processMetadataPacket bareRequestCodec false 0 (1 :: 0 :: 0 :: 0 :: bareRequest) =
        some m ∧
      m.signo = 0 ∧ m.method = "request" ∧
      ({} : Connection).receive (.metadata m) = none ∧ ¬ Answered {} m := by
  refine ⟨{ signo := 0, method := "request", params := .array [.null] }, by decide +kernel,
    rfl, rfl, by decide +kernel, ?_⟩
  rintro ⟨c', outputs, reply, hreceive, -⟩
  have hnone : ({} : Connection).receive
      (.metadata { signo := 0, method := "request", params := .array [.null] }) = none := by
    decide +kernel
  rw [hnone] at hreceive
  cases hreceive

end Connection

end WsStreaming.Ports
