import Mathlib.Data.List.Nodup
import WsStreaming.Verified.Trace
import WsStreaming.Ports.LocalEntries
import WsStreaming.Ports.LocalNumbers

/-!
# Faces of registered signals

That a peer is subscribed to a signal is kept in several places: the messages
that the connection has sent, the slot that publishing calls, the holder of the
registered signal, and the subscribe count of the signal object.  The *face* of
a registered signal is what it says about that itself.

Each operation of a connection has an outcome on the faces, on the messages and
on the counts, and here it is proved that they go together.

## Main results

* `Moves.tally` — a subscribe count follows the number of holders.
* `outcome_request` — requests of the peer, with all nested calls.
* `registry_addLocalSignal`, `ending_removeLocalSignal`,
  `ending_clearLocalSignals`, `outcome_setMetadata`, `publishData_cases` — the
  other operations.
-/

namespace WsStreaming.Ports

open WsStreaming.Verified
open WsStreaming.Verified.OrderedMap (OMap Distinct)
open WsStreaming.Verified.Trace
open WsStreaming.Verified.Wire (Bytes)

/-! ## Subscribe counts -/

/-- The events of a `local_signal` about its subscribers. -/
inductive SubscribeEvent where
  | subscribed (address : Nat)
  | unsubscribed (address : Nat)
deriving DecidableEq, Repr

/-- The object that raises an event. -/
def SubscribeEvent.address : SubscribeEvent → Nat
  | .subscribed a => a
  | .unsubscribed a => a

/-- The subscribe counts of the signal objects, and the events they have
raised. -/
structure Tally where
  counts : Nat → UInt32 := fun _ => 0
  events : List SubscribeEvent := []

namespace Tally

/-- What an output does to the signal objects: the constructor and the
`close()` of a `subscribe_holder`. -/
def output (t : Tally) : Output → Tally
  | .send _ => t
  | .increment a =>
      { counts := fun b => if b = a then t.counts a + 1 else t.counts b
        events := t.events ++ if t.counts a = 0 then [.subscribed a] else [] }
  | .decrement a =>
      { counts := fun b => if b = a then t.counts a - 1 else t.counts b
        events := t.events ++ if t.counts a - 1 = 0 then [.unsubscribed a] else [] }

/-- The events about one object. -/
def about (t : Tally) (a : Nat) : List SubscribeEvent :=
  t.events.filter fun e => e.address = a

end Tally

/-! ## What is to agree -/

/-- What a message says about the subscription of a signal number. -/
def Message.subscription? (signo : UInt32) : Message → Option Bool
  | .metadata m =>
      if m.signo = signo then
        if m.method = "subscribe" then some true
        else if m.method = "unsubscribe" then some false else none
      else none
  | .data _ _ => none

/-- A data packet. -/
def Message.isData : Message → Bool
  | .metadata _ => false
  | .data _ _ => true

/-- The last subscribe or unsubscribe message for a number: true for subscribe. -/
def lastSubscription (sent : List Message) (signo : UInt32) : Option Bool :=
  (sent.filterMap (Message.subscription? signo)).getLast?

/-- What is said about a registered signal in four places. -/
structure Face where
  signo : UInt32
  address : Nat
  holder : Bool
  slot : Bool
deriving DecidableEq, Repr

/-- The holder, the slot and the messages agree. -/
structure Face.InStep (f : Face) (sent : List Message) : Prop where
  slot : f.holder = true ↔ f.slot = true
  wire : f.slot = true ↔ lastSubscription sent f.signo = some true

/-- The face of a registered signal. -/
def RegisteredLocalSignal.face (e : RegisteredLocalSignal) : Face :=
  { signo := e.signo
    address := e.signal.address
    holder := e.holder
    slot := e.onDataPublished }

/-- The number of holders that track an object. -/
def LocalSignals.engaged (c : LocalSignals) (a : Nat) : Nat :=
  c.signals.countP fun e => e.2.holder && decide (e.2.signal.address = a)

/-- The event of a change from one number of holders to another. -/
def transition (a : Nat) (before after : Nat) : List SubscribeEvent :=
  if before = 0 ∧ 0 < after then [.subscribed a]
  else if 0 < before ∧ after = 0 then [.unsubscribed a]
  else []

/-- The law that the events of one object alternate, beginning with
`subscribed`. -/
def alternation : Monitor Bool SubscribeEvent
  | false, .subscribed _ => some true
  | true, .unsubscribed _ => some false
  | _, _ => none

/-! ## Holders and counts -/

/-- What an output does to the count of one object. -/
def Output.move? (a : Nat) : Output → Option Bool
  | .send _ => none
  | .increment b => if b = a then some true else none
  | .decrement b => if b = a then some false else none

/-- What outputs do to the count of one object, in order. -/
def movesOf (a : Nat) (outputs : List Output) : List Bool := outputs.filterMap (Output.move? a)

/-- How an operation may change the number of holders of one object: a holder
that is replaced is released after the new one is made. -/
inductive Moves : Nat → Nat → List Bool → Prop where
  | same (n : Nat) : Moves n n []
  | begins (n : Nat) : Moves n (n + 1) [true]
  | ends (n : Nat) : Moves (n + 1) n [false]
  | renews (n : Nat) : Moves (n + 1) (n + 1) [true, false]

theorem Moves.add {n n' : Nat} {moves : List Bool} (h : Moves n n' moves) (b : Nat) :
    Moves (n + b) (n' + b) moves := by
  cases h with
  | same => exact .same _
  | begins =>
      rw [Nat.add_right_comm]
      exact .begins _
  | ends =>
      rw [Nat.add_right_comm]
      exact .ends _
  | renews =>
      rw [Nat.add_right_comm]
      exact .renews _

/-- Two changes of which one is none; their outputs may come in any order. -/
theorem Moves.trans {n n' n'' : Nat} {moves more : List Bool} (h : Moves n n' moves)
    (h' : Moves n' n'' more) (hnil : moves = [] ∨ more = []) : Moves n n'' (more ++ moves) := by
  rcases hnil with rfl | rfl
  · cases h
    rw [List.append_nil]
    exact h'
  · cases h'
    exact h

section Outputs

variable (a : Nat) (outputs more : List Output)

theorem movesOf_append : movesOf a (outputs ++ more) = movesOf a outputs ++ movesOf a more :=
  List.filterMap_append

end Outputs

namespace RegisteredLocalSignal

variable (e : RegisteredLocalSignal) (a : Nat)

theorem messagesOf_release : messagesOf e.release = [] := by
  unfold release
  split <;> rfl

theorem movesOf_release :
    movesOf a e.release = if e.holder && decide (e.signal.address = a) then [false] else [] := by
  unfold release
  cases e.holder with
  | false => rfl
  | true =>
      simp only [if_true, movesOf, List.filterMap_cons, Output.move?, Bool.true_and,
        decide_eq_true_eq, List.filterMap_nil]
      by_cases ha : e.signal.address = a
      · simp only [if_pos ha]
      · simp only [if_neg ha]

theorem messagesOf_hold : messagesOf e.hold = [] := e.messagesOf_release

theorem movesOf_hold :
    movesOf a e.hold =
      if e.signal.address = a then if e.holder then [true, false] else [true] else [] := by
  have hrelease := e.movesOf_release a
  unfold movesOf at hrelease
  unfold hold movesOf
  rw [List.filterMap_cons, hrelease]
  by_cases ha : e.signal.address = a
  · cases e.holder <;> simp [Output.move?, ha]
  · cases e.holder <;> simp [Output.move?, ha]

theorem messagesOf_announcement :
    messagesOf e.announcement = [e.subscribeMessage, e.signalMessage] := rfl

theorem movesOf_announcement : movesOf a e.announcement = [] := rfl

theorem messagesOf_farewell : messagesOf e.farewell = [e.unsubscribeMessage] := by
  rw [farewell, messagesOf_append, messagesOf_release]
  rfl

theorem movesOf_farewell : movesOf a e.farewell = movesOf a e.release := by
  rw [farewell, movesOf_append]
  exact List.append_nil _

end RegisteredLocalSignal

namespace Tally

/-- The events of one object while its count moves. -/
def eventsOf (a : Nat) : UInt32 → List Bool → List SubscribeEvent
  | _, [] => []
  | n, true :: moves => (if n = 0 then [.subscribed a] else []) ++ eventsOf a (n + 1) moves
  | n, false :: moves => (if n - 1 = 0 then [.unsubscribed a] else []) ++ eventsOf a (n - 1) moves

/-- The count of one object after moves. -/
def countAfter (n : UInt32) (moves : List Bool) : UInt32 :=
  moves.foldl (fun n up => if up then n + 1 else n - 1) n

/-- One object sees only the moves of its own count. -/
theorem foldl_output (a : Nat) (outputs : List Output) :
    ∀ t : Tally,
      (outputs.foldl output t).counts a = countAfter (t.counts a) (movesOf a outputs) ∧
        (outputs.foldl output t).about a =
          t.about a ++ eventsOf a (t.counts a) (movesOf a outputs) := by
  induction outputs with
  | nil => exact fun t => ⟨rfl, (List.append_nil _).symm⟩
  | cons o outputs ih =>
      intro t
      have hrest := ih (t.output o)
      rw [List.foldl_cons, hrest.1, hrest.2]
      cases o with
      | send m => exact ⟨rfl, rfl⟩
      | increment b =>
          by_cases hb : b = a
          · subst hb
            have hmoves : movesOf b (.increment b :: outputs) = true :: movesOf b outputs := by
              simp [movesOf, Output.move?]
            have hcount : (t.output (.increment b)).counts b = t.counts b + 1 := if_pos rfl
            have habout : (t.output (.increment b)).about b =
                t.about b ++ if t.counts b = 0 then [.subscribed b] else [] := by
              unfold about output
              rw [List.filter_append]
              split <;> simp [SubscribeEvent.address]
            rw [hmoves, hcount, habout, List.append_assoc]
            exact ⟨rfl, rfl⟩
          · have hmoves : movesOf a (.increment b :: outputs) = movesOf a outputs := by
              simp [movesOf, Output.move?, hb]
            have hcount : (t.output (.increment b)).counts a = t.counts a :=
              if_neg fun h => hb h.symm
            have habout : (t.output (.increment b)).about a = t.about a := by
              unfold about output
              rw [List.filter_append]
              split <;> simp [SubscribeEvent.address, hb]
            rw [hmoves, hcount, habout]
            exact ⟨rfl, rfl⟩
      | decrement b =>
          by_cases hb : b = a
          · subst hb
            have hmoves : movesOf b (.decrement b :: outputs) = false :: movesOf b outputs := by
              simp [movesOf, Output.move?]
            have hcount : (t.output (.decrement b)).counts b = t.counts b - 1 := if_pos rfl
            have habout : (t.output (.decrement b)).about b =
                t.about b ++ if t.counts b - 1 = 0 then [.unsubscribed b] else [] := by
              unfold about output
              rw [List.filter_append]
              split <;> simp [SubscribeEvent.address]
            rw [hmoves, hcount, habout, List.append_assoc]
            exact ⟨rfl, rfl⟩
          · have hmoves : movesOf a (.decrement b :: outputs) = movesOf a outputs := by
              simp [movesOf, Output.move?, hb]
            have hcount : (t.output (.decrement b)).counts a = t.counts a :=
              if_neg fun h => hb h.symm
            have habout : (t.output (.decrement b)).about a = t.about a := by
              unfold about output
              rw [List.filter_append]
              split <;> simp [SubscribeEvent.address, hb]
            rw [hmoves, hcount, habout]
            exact ⟨rfl, rfl⟩

end Tally

/-- **A count follows the number of holders**, as long as it does not reach
2^32, and the events are those of the change. -/
theorem Moves.tally {n n' : Nat} {moves : List Bool} (h : Moves n n' moves) {count : UInt32}
    (hcount : count.toNat = n) (hbound : true ∈ moves → n + 1 < 2 ^ 32) (a : Nat) :
    (Tally.countAfter count moves).toNat = n' ∧
      Tally.eventsOf a count moves = transition a n n' := by
  have hzero : count = 0 ↔ n = 0 := by
    rw [← hcount, ← UInt32.toNat_inj]
    rfl
  cases h with
  | same =>
      refine ⟨hcount, ?_⟩
      unfold transition
      rw [if_neg (by omega), if_neg (by omega)]
      rfl
  | begins =>
      have hlt := hbound List.mem_cons_self
      constructor
      · change (count + 1).toNat = n + 1
        rw [UInt32.toNat_add, hcount]
        exact Nat.mod_eq_of_lt hlt
      · change (if count = 0 then [SubscribeEvent.subscribed a] else []) ++ [] = _
        rw [List.append_nil]
        unfold transition
        by_cases hn : n = 0
        · rw [if_pos (hzero.mpr hn), if_pos ⟨hn, by omega⟩]
        · rw [if_neg fun hc => hn (hzero.mp hc), if_neg (by omega), if_neg (by omega)]
  | ends =>
      have hsub : (count - 1).toNat = n' := by
        rw [UInt32.toNat_sub, hcount]
        have hlt := count.toNat_lt
        rw [hcount] at hlt
        change (2 ^ 32 - 1 + (n' + 1)) % 2 ^ 32 = n'
        omega
      constructor
      · exact hsub
      · change (if count - 1 = 0 then [SubscribeEvent.unsubscribed a] else []) ++ [] = _
        rw [List.append_nil]
        have hlast : count - 1 = 0 ↔ n' = 0 := by
          rw [← hsub, ← UInt32.toNat_inj]
          rfl
        unfold transition
        by_cases hn : n' = 0
        · rw [if_pos (hlast.mpr hn), if_neg (by omega), if_pos (by omega)]
        · rw [if_neg fun hc => hn (hlast.mp hc), if_neg (by omega), if_neg (by omega)]
  | renews =>
      rename_i m
      have hback : count + 1 - 1 = count := UInt32.add_sub_cancel count 1
      have hne : count ≠ 0 := by
        intro hc
        have hm := hzero.mp hc
        omega
      constructor
      · change (count + 1 - 1).toNat = m + 1
        rw [hback, hcount]
      · change (if count = 0 then [SubscribeEvent.subscribed a] else []) ++
          ((if count + 1 - 1 = 0 then [SubscribeEvent.unsubscribed a] else []) ++ []) = _
        rw [hback, if_neg hne, if_neg hne]
        unfold transition
        rw [if_neg (by omega), if_neg (by omega)]
        rfl

/-! ## Faces of the registered signals -/

/-- The faces of the registered signals. -/
def LocalSignals.faces (c : LocalSignals) : OMap UInt32 Face :=
  c.signals.map fun e => (e.1, e.2.face)

namespace Faces

/-- Each signal is kept under its own number, and no object is registered
twice. -/
structure Registry (m : OMap UInt32 Face) : Prop where
  distinct : Distinct m
  signo : ∀ e ∈ m, e.2.signo = e.1
  addresses : (m.map fun e => e.2.address).Nodup

/-- All faces are in step. -/
def Tracks (m : OMap UInt32 Face) (sent : List Message) : Prop := ∀ e ∈ m, e.2.InStep sent

/-- The number of holders that track an object. -/
def engaged (m : OMap UInt32 Face) (a : Nat) : Nat :=
  m.countP fun e => e.2.holder && decide (e.2.address = a)

section

variable {m : OMap UInt32 Face} {k : UInt32} {f : Face} {sent ms : List Message}

theorem engaged_le_one (h : Registry m) (a : Nat) : engaged m a ≤ 1 := by
  have hle : engaged m a ≤ (m.map fun e => e.2.address).countP fun b => decide (b = a) := by
    unfold engaged
    rw [List.countP_map]
    apply List.countP_mono_left
    intro e _ he
    rw [Bool.and_eq_true] at he
    exact he.2
  have hone := List.nodup_iff_count.mp h.addresses a
  have hcount : (m.map fun e => e.2.address).countP (fun b => decide (b = a)) =
      (m.map fun e => e.2.address).count a := by
    unfold List.count
    apply List.countP_congr
    intro b _
    simp
  omega

/-- The holders after a change of one signal. -/
theorem engaged_modify (h : Registry m) (hk : OrderedMap.find? m k = some f) (new : Face)
    (haddress : new.address = f.address) (a : Nat) :
    engaged (OrderedMap.modify m k fun _ => new) a +
        (if f.holder && decide (f.address = a) then 1 else 0) =
      engaged m a + if new.holder && decide (f.address = a) then 1 else 0 := by
  have hcount := OrderedMap.countP_modify h.distinct hk (fun _ => new)
    (p := fun e => e.2.holder && decide (e.2.address = a))
    (q := fun e => e.2.holder && decide (e.2.address = a)) (fun _ _ _ => rfl)
  dsimp only at hcount
  rw [haddress] at hcount
  exact hcount

theorem Registry.modify (h : Registry m) (hk : OrderedMap.find? m k = some f) (new : Face)
    (hsigno : new.signo = f.signo) (haddress : new.address = f.address) :
    Registry (OrderedMap.modify m k fun _ => new) := by
  have hface : ∀ e ∈ m, e.1 = k → e.2 = f := by
    intro e he hkey
    have hfind := (OrderedMap.find?_eq_some_iff h.distinct).mpr (show (e.1, e.2) ∈ m from he)
    rw [hkey, hk] at hfind
    exact (Option.some.inj hfind).symm
  constructor
  · exact h.distinct.modify k _
  · intro e he
    obtain ⟨e', he', rfl⟩ := List.mem_map.mp he
    split
    · rename_i hkey
      have hsame := h.signo e' he'
      rw [hface e' he' hkey] at hsame
      exact hsigno.trans hsame
    · exact h.signo e' he'
  · have hsame : (OrderedMap.modify m k fun _ => new).map (fun e => e.2.address) =
        m.map fun e => e.2.address := by
      rw [OrderedMap.modify, List.map_map]
      apply List.map_congr_left
      intro e he
      simp only [Function.comp_apply]
      split
      · rename_i hkey
        rw [hface e he hkey]
        exact haddress
      · rfl
    rw [hsame]
    exact h.addresses

/-- Messages about other numbers change nothing. -/
theorem inStep_append (hms : ∀ msg ∈ ms, msg.subscription? f.signo = none) :
    f.InStep (sent ++ ms) ↔ f.InStep sent := by
  have hlast : lastSubscription (sent ++ ms) f.signo = lastSubscription sent f.signo := by
    unfold lastSubscription
    rw [List.filterMap_append, List.filterMap_eq_nil_iff.mpr hms, List.append_nil]
  constructor
  · intro h
    exact ⟨h.slot, hlast ▸ h.wire⟩
  · intro h
    exact ⟨h.slot, hlast.symm ▸ h.wire⟩

/-- A change of one signal, with messages about it. -/
theorem Tracks.modify {new : Face} (h : Registry m) (ht : Tracks m sent)
    (hms : ∀ j, j ≠ k → ∀ msg ∈ ms, msg.subscription? j = none)
    (hnew : new.InStep (sent ++ ms)) :
    Tracks (OrderedMap.modify m k fun _ => new) (sent ++ ms) := by
  intro e he
  obtain ⟨e', he', rfl⟩ := List.mem_map.mp he
  split
  · exact hnew
  · rename_i hkey
    have hother : ∀ msg ∈ ms, msg.subscription? e'.2.signo = none := by
      rw [h.signo e' he']
      exact hms e'.1 hkey
    exact (inStep_append hother).mpr (ht e' he')

/-- No other signal has the address. -/
theorem engaged_eq_holder (h : Registry m) (hk : OrderedMap.find? m k = some f) :
    engaged m f.address = if f.holder then 1 else 0 := by
  have hle := engaged_le_one h f.address
  have hoff := engaged_modify h hk { f with holder := false } rfl f.address
  have hon := engaged_modify h hk { f with holder := true } rfl f.address
  have honle := engaged_le_one
    (h.modify hk { f with holder := true } rfl rfl) f.address
  simp only [decide_true, Bool.and_true, Bool.false_eq_true, if_false, if_true] at hoff hon
  cases hh : f.holder with
  | false =>
      rw [hh] at hon
      simp only [Bool.false_eq_true, if_false] at hon ⊢
      omega
  | true =>
      rw [hh] at hoff
      simp only [if_true] at hoff ⊢
      omega

end

end Faces

section Operations

open Faces

namespace LocalSignals

variable {c : LocalSignals} {k : UInt32} {entry : RegisteredLocalSignal}

theorem engaged_faces (c : LocalSignals) (a : Nat) : Faces.engaged c.faces a = c.engaged a := by
  unfold Faces.engaged engaged faces
  rw [List.countP_map]
  rfl

theorem find?_faces (c : LocalSignals) (k : UInt32) :
    OrderedMap.find? c.faces k =
      (OrderedMap.find? c.signals k).map RegisteredLocalSignal.face :=
  OrderedMap.find?_map RegisteredLocalSignal.face c.signals k

theorem distinct_of_registry (h : Registry c.faces) : Distinct c.signals := by
  have hdistinct := h.distinct
  rw [Distinct, faces, List.map_map] at hdistinct
  exact hdistinct

theorem faces_withNextTable (c : LocalSignals) (n : Nat) :
    (c.withNextTable n).faces = c.faces := rfl

theorem faces_update_const (c : LocalSignals) (k : UInt32) (new : RegisteredLocalSignal) :
    (c.update k fun _ => new).faces = OrderedMap.modify c.faces k fun _ => new.face := by
  simp only [faces, update, OrderedMap.modify, List.map_map]
  apply List.map_congr_left
  intro e _
  simp only [Function.comp_apply]
  split <;> rfl

theorem faces_update_of_eq (c : LocalSignals) (k : UInt32)
    {f : RegisteredLocalSignal → RegisteredLocalSignal}
    (hf : ∀ e, OrderedMap.find? c.signals k = some e → (f e).face = e.face)
    (hd : Distinct c.signals) : (c.update k f).faces = c.faces := by
  simp only [faces, update, OrderedMap.modify, List.map_map]
  apply List.map_congr_left
  intro e he
  simp only [Function.comp_apply]
  split
  · rename_i hkey
    rw [hf e.2]
    rw [← hkey]
    exact (OrderedMap.find?_eq_some_iff hd).mpr he
  · rfl

theorem faces_modifyTable (c : LocalSignals) (address : Nat) (f : LinearTable → LinearTable) :
    (c.modifyTable address f).faces = c.faces := by
  simp only [faces, modifyTable, List.map_map]
  exact List.map_congr_left fun e _ => rfl

theorem face_of_find (hk : OrderedMap.find? c.signals k = some entry) :
    OrderedMap.find? c.faces k = some entry.face := by
  rw [find?_faces, hk, Option.map_some]

theorem signo_of_find (h : Registry c.faces) (hk : OrderedMap.find? c.signals k = some entry) :
    entry.signo = k :=
  h.signo (k, entry.face) (OrderedMap.mem_of_find?_eq_some (face_of_find hk))

/-- What an operation does, as the peer and the signal objects see it. -/
structure Outcome (c c' : LocalSignals) (outputs : List Output) : Prop where
  registry : Registry c'.faces
  tracks : ∀ sent, Tracks c.faces sent → Tracks c'.faces (sent ++ messagesOf outputs)
  moves : ∀ a, Moves (Faces.engaged c.faces a) (Faces.engaged c'.faces a) (movesOf a outputs)
  raises : ∀ a, true ∈ movesOf a outputs → ∃ e ∈ c.signals, e.2.signal.address = a

/-- An operation that the faces do not show. -/
theorem Outcome.of_faces {c' : LocalSignals} {outputs : List Output} (h : Registry c.faces)
    (hfaces : c'.faces = c.faces)
    (hms : ∀ msg ∈ messagesOf outputs, ∀ j, msg.subscription? j = none)
    (hmoves : ∀ a, movesOf a outputs = []) : Outcome c c' outputs := by
  constructor
  · rw [hfaces]
    exact h
  · intro sent ht e he
    rw [hfaces] at he
    exact (inStep_append fun msg hmsg => hms msg hmsg _).mpr (ht e he)
  · intro a
    rw [hfaces, hmoves]
    exact .same _
  · intro a hraise
    rw [hmoves] at hraise
    cases hraise

theorem Outcome.silent {c' : LocalSignals} (h : Registry c.faces) (hfaces : c'.faces = c.faces) :
    Outcome c c' [] :=
  .of_faces h hfaces (fun _ hmsg => nomatch hmsg) fun _ => rfl

/-! ### Unsubscribing -/

theorem subscription?_unsubscribeMessage (e : RegisteredLocalSignal) (j : UInt32) :
    e.unsubscribeMessage.subscription? j = if e.signo = j then some false else none := by
  unfold RegisteredLocalSignal.unsubscribeMessage Message.ofMetadata Message.subscription?
  dsimp only
  rw [if_neg (show ¬ "unsubscribe" = "subscribe" by decide), if_pos rfl]

theorem subscription?_subscribeMessage (e : RegisteredLocalSignal) (j : UInt32) :
    e.subscribeMessage.subscription? j = if e.signo = j then some true else none := by
  unfold RegisteredLocalSignal.subscribeMessage Message.ofMetadata Message.subscription?
  dsimp only
  rw [if_pos rfl]

theorem subscription?_signalMessage (e : RegisteredLocalSignal) (j : UInt32) :
    e.signalMessage.subscription? j = none := by
  unfold RegisteredLocalSignal.signalMessage Message.ofMetadata Message.subscription?
  dsimp only
  rw [if_neg (show ¬ "signal" = "subscribe" by decide),
    if_neg (show ¬ "signal" = "unsubscribe" by decide), ite_self]

/-- What ending subscriptions does. -/
structure Ending (c c' : LocalSignals) (outputs : List Output) : Prop where
  registry : Registry c'.faces
  tracks : ∀ sent, Tracks c.faces sent → Tracks c'.faces (sent ++ messagesOf outputs)
  moves : ∀ a, ∃ n, movesOf a outputs = List.replicate n false ∧
    Faces.engaged c'.faces a + n = Faces.engaged c.faces a

theorem Ending.of_faces {c' : LocalSignals} (h : Registry c.faces) (hfaces : c'.faces = c.faces) :
    Ending c c' [] := by
  have hout : Outcome c c' [] := .silent h hfaces
  refine ⟨hout.registry, hout.tracks, fun a => ⟨0, rfl, ?_⟩⟩
  rw [hfaces, Nat.add_zero]

theorem Ending.trans {c' c'' : LocalSignals} {outputs more : List Output}
    (h : Ending c c' outputs) (h' : Ending c' c'' more) : Ending c c'' (outputs ++ more) := by
  constructor
  · exact h'.registry
  · intro sent ht
    rw [messagesOf_append, ← List.append_assoc]
    exact h'.tracks _ (h.tracks sent ht)
  · intro a
    obtain ⟨n, hmoves, hcount⟩ := h.moves a
    obtain ⟨n', hmoves', hcount'⟩ := h'.moves a
    refine ⟨n + n', ?_, by omega⟩
    rw [movesOf_append, hmoves, hmoves', List.replicate_append_replicate]

theorem Ending.not_raises {c' : LocalSignals} {outputs : List Output} (h : Ending c c' outputs)
    (a : Nat) : true ∉ movesOf a outputs := by
  obtain ⟨n, hmoves, -⟩ := h.moves a
  rw [hmoves]
  intro hraise
  exact Bool.false_ne_true (List.eq_of_mem_replicate hraise).symm

/-- No object has more than one holder of a connection. -/
theorem Ending.outcome {c' : LocalSignals} {outputs : List Output} (hc : Registry c.faces)
    (h : Ending c c' outputs) : Outcome c c' outputs := by
  refine ⟨h.registry, h.tracks, ?_, ?_⟩
  · intro a
    obtain ⟨n, hmoves, hcount⟩ := h.moves a
    have hle := engaged_le_one hc a
    rw [hmoves]
    rcases Nat.lt_or_ge n 1 with hn | hn
    · have hzero : n = 0 := by omega
      subst hzero
      rw [← hcount]
      exact .same _
    · have hone : n = 1 := by omega
      subst hone
      rw [← hcount]
      exact .ends _
  · intro a hraise
    exact absurd hraise (h.not_raises a)

/-- One subscription ends. -/
theorem Ending.disconnect (h : Registry c.faces)
    (hk : OrderedMap.find? c.signals k = some entry) (isExplicit : Bool) :
    Ending c (c.update k fun _ => (entry.dropSubscription isExplicit).disconnect)
      entry.farewell := by
  have hface := face_of_find hk
  have hsigno := signo_of_find h hk
  have hnew : (entry.dropSubscription isExplicit).disconnect.face =
      ⟨entry.signo, entry.signal.address, false, false⟩ := by
    cases isExplicit <;> rfl
  constructor
  · rw [faces_update_const, hnew]
    exact h.modify hface _ rfl rfl
  · intro sent ht
    rw [faces_update_const, hnew, RegisteredLocalSignal.messagesOf_farewell]
    apply Tracks.modify h ht
    · intro j hj msg hmsg
      rw [List.mem_singleton.mp hmsg, subscription?_unsubscribeMessage,
        if_neg fun heq => hj (heq.symm.trans hsigno)]
    · have hlast : lastSubscription (sent ++ [entry.unsubscribeMessage]) entry.signo =
          some false := by
        unfold lastSubscription
        rw [List.filterMap_append, List.filterMap_cons, subscription?_unsubscribeMessage,
          if_pos rfl]
        exact List.getLast?_append_cons _ false []
      refine ⟨Iff.rfl, ?_⟩
      dsimp only
      rw [hlast]
      exact ⟨fun hf => Option.some_inj.mpr hf, fun hf => Option.some_inj.mp hf⟩
  · intro a
    have hcount : Faces.engaged (OrderedMap.modify c.faces k fun _ =>
          ⟨entry.signo, entry.signal.address, false, false⟩) a +
        (if entry.holder && decide (entry.signal.address = a) then 1 else 0) =
          Faces.engaged c.faces a :=
      engaged_modify h hface ⟨entry.signo, entry.signal.address, false, false⟩ rfl a
    rw [RegisteredLocalSignal.movesOf_farewell, RegisteredLocalSignal.movesOf_release,
      faces_update_const, hnew]
    by_cases hheld : (entry.holder && decide (entry.signal.address = a)) = true
    · refine ⟨1, if_pos hheld, ?_⟩
      rw [if_pos hheld] at hcount
      exact hcount
    · refine ⟨0, if_neg hheld, ?_⟩
      rw [if_neg hheld] at hcount
      exact hcount

/-- **Unsubscribing**, with all nested calls. -/
theorem ending_unsubscribe (c : LocalSignals) (id : String) (isExplicit : Bool) :
    Registry c.faces →
      Ending c (c.unsubscribe id isExplicit).1 (c.unsubscribe id isExplicit).2.1 := by
  induction c, id, isExplicit using unsubscribe_induction with
  | none c id isExplicit hfind =>
      intro h
      rw [unsubscribe_of_none hfind]
      exact .of_faces h rfl
  | subscribed c id isExplicit k entry hfind hsub =>
      intro h
      have hd := distinct_of_registry h
      have hk := find?_of_findById hd hfind
      rw [unsubscribe_of_subscribed hfind hsub]
      apply Ending.of_faces h
      apply faces_update_of_eq _ _ _ hd
      intro e he
      rw [hk] at he
      obtain rfl := Option.some.inj he
      cases isExplicit <;> rfl
  | ended c id isExplicit k entry hfind hsub ih =>
      intro h
      have hk := find?_of_findById (distinct_of_registry h) hfind
      have hends := Ending.disconnect h hk isExplicit
      rw [unsubscribe_of_ended hfind hsub]
      cases htable : entry.signal.domainId? with
      | none => exact hends
      | some tableId => exact hends.trans (ih tableId htable hends.registry)

/-! ### Subscribing -/

/-- One subscription begins. -/
theorem Outcome.opens (h : Registry c.faces) (hk : OrderedMap.find? c.signals k = some entry)
    (new : RegisteredLocalSignal)
    (hnew : new.face = ⟨entry.signo, entry.signal.address, true, true⟩) (n : Nat) :
    Outcome c ((c.withNextTable n).update k fun _ => new) (entry.hold ++ entry.announcement) := by
  have hface := face_of_find hk
  have hsigno := signo_of_find h hk
  have hms : messagesOf (entry.hold ++ entry.announcement) =
      [entry.subscribeMessage, entry.signalMessage] := by
    rw [messagesOf_append, RegisteredLocalSignal.messagesOf_hold]
    rfl
  constructor
  · rw [faces_update_const, faces_withNextTable, hnew]
    exact h.modify hface _ rfl rfl
  · intro sent ht
    rw [faces_update_const, faces_withNextTable, hnew, hms]
    apply Tracks.modify h ht
    · intro j hj msg hmsg
      rcases List.mem_cons.mp hmsg with rfl | hmsg
      · rw [subscription?_subscribeMessage, if_neg fun heq => hj (heq.symm.trans hsigno)]
      · rw [List.mem_singleton.mp hmsg, subscription?_signalMessage]
    · have hlast : lastSubscription (sent ++ [entry.subscribeMessage, entry.signalMessage])
          entry.signo = some true := by
        unfold lastSubscription
        rw [List.filterMap_append, List.filterMap_cons, subscription?_subscribeMessage,
          if_pos rfl, List.filterMap_cons, subscription?_signalMessage]
        exact List.getLast?_append_cons _ true []
      exact ⟨Iff.rfl, iff_of_true rfl hlast⟩
  · intro a
    have hcount := engaged_modify h hface
      ⟨entry.signo, entry.signal.address, true, true⟩ rfl a
    rw [movesOf_append, RegisteredLocalSignal.movesOf_announcement, List.append_nil,
      RegisteredLocalSignal.movesOf_hold, faces_update_const, faces_withNextTable, hnew]
    by_cases ha : entry.signal.address = a
    · have hheld := engaged_eq_holder h hface
      change Faces.engaged c.faces entry.signal.address = if entry.holder then 1 else 0 at hheld
      subst ha
      rw [if_pos rfl]
      simp only [RegisteredLocalSignal.face, decide_true, Bool.and_true, if_true] at hcount
      cases hholder : entry.holder with
      | false =>
          rw [hholder] at hcount
          simp only [Bool.false_eq_true, if_false, Nat.add_zero] at hcount ⊢
          rw [hcount]
          exact .begins _
      | true =>
          rw [hholder] at hcount hheld
          simp only [if_true] at hcount hheld ⊢
          rw [Nat.add_right_cancel hcount, hheld]
          exact .renews 0
    · have hno : decide (entry.face.address = a) = false := decide_eq_false ha
      rw [hno, Bool.and_false, Bool.and_false] at hcount
      simp only [Bool.false_eq_true, if_false, Nat.add_zero] at hcount
      rw [if_neg ha, hcount]
      exact .same _
  · intro a hraise
    refine ⟨(k, entry), OrderedMap.mem_of_find?_eq_some hk, ?_⟩
    rw [movesOf_append, RegisteredLocalSignal.movesOf_announcement, List.append_nil,
      RegisteredLocalSignal.movesOf_hold] at hraise
    by_contra ha
    rw [if_neg ha] at hraise
    cases hraise

/-- Signals under two numbers are two objects. -/
theorem address_ne (h : Registry c.faces) {d : UInt32} {domain : RegisteredLocalSignal}
    (hk : OrderedMap.find? c.signals k = some entry)
    (hdk : OrderedMap.find? c.signals d = some domain) (hne : d ≠ k) :
    domain.signal.address ≠ entry.signal.address := by
  intro heq
  have hsame := List.inj_on_of_nodup_map h.addresses
    (OrderedMap.mem_of_find?_eq_some (face_of_find hdk))
    (OrderedMap.mem_of_find?_eq_some (face_of_find hk)) heq
  exact hne (Prod.mk.inj hsame).1

theorem movesOf_takenOutputs_of_ne {a : Nat} (h : entry.signal.address ≠ a) :
    movesOf a (takenOutputs entry) = [] := by
  unfold takenOutputs
  split
  · rfl
  · rw [movesOf_append, RegisteredLocalSignal.movesOf_announcement,
      RegisteredLocalSignal.movesOf_hold, if_neg h]
    rfl

/-- The implicit subscription of a domain. -/
theorem Outcome.takes (h : Registry c.faces)
    (hk : OrderedMap.find? c.signals k = some entry) (n : Nat) :
    Outcome c ((c.withNextTable n).update k fun _ => c.taken entry) (takenOutputs entry) := by
  unfold taken takenOutputs
  by_cases hsub : entry.isSubscribed = true
  · rw [if_pos hsub, if_pos hsub]
    apply Outcome.silent h
    apply faces_update_of_eq (c.withNextTable n) k _ (distinct_of_registry h)
    intro e he
    change OrderedMap.find? c.signals k = some e at he
    rw [hk] at he
    obtain rfl := Option.some.inj he
    rfl
  · rw [if_neg hsub, if_neg hsub]
    exact Outcome.opens h hk _ rfl n

/-- **Subscribing**, with the nested call. -/
theorem outcome_subscribe (h : Registry c.faces) (id : String) :
    Outcome c (c.subscribe id true).1 (c.subscribe id true).2.1 := by
  have hd := distinct_of_registry h
  cases hfind : c.findById id with
  | none =>
      rw [subscribe_of_none hfind]
      exact .silent h rfl
  | some found =>
      obtain ⟨k, entry⟩ := found
      have hk := find?_of_findById hd hfind
      by_cases hsub : entry.isSubscribed = true
      · rw [subscribe_of_subscribed hfind hsub]
        apply Outcome.silent h
        apply faces_update_of_eq _ _ _ hd
        intro e he
        rw [hk] at he
        obtain rfl := Option.some.inj he
        rfl
      · cases hdomain : c.domainOf entry with
        | none =>
            rw [subscribe_begins hd hfind hsub hdomain]
            exact Outcome.opens h hk _ rfl _
        | some found =>
            obtain ⟨d, domain⟩ := found
            have hne := ne_of_domainOf hd hk hdomain
            obtain ⟨tableId, -, hfound⟩ := Option.bind_eq_some_iff.mp hdomain
            have hdk := find?_of_findById hd hfound
            have haddress := address_ne h hk hdk hne
            have htakes := Outcome.takes h hdk (c.takenTable domain + 1)
            have hk' : OrderedMap.find? ((c.withNextTable (c.takenTable domain + 1)).update d
                fun _ => c.taken domain).signals k = some entry := by
              rw [find?_update, if_neg hne]
              exact hk
            have hopens := Outcome.opens htakes.registry hk'
              (openedTo entry true (c.takenTable domain) (some (c.taken domain))) rfl
              (c.takenTable domain + 1)
            rw [subscribe_begins_with hd hfind hsub hdomain]
            constructor
            · exact hopens.registry
            · intro sent ht
              have hms : messagesOf (entry.hold ++ takenOutputs domain ++ entry.announcement) =
                  messagesOf (takenOutputs domain) ++
                    messagesOf (entry.hold ++ entry.announcement) := by
                simp only [messagesOf_append, RegisteredLocalSignal.messagesOf_hold,
                  List.nil_append]
              rw [hms, ← List.append_assoc]
              exact hopens.tracks _ (htakes.tracks sent ht)
            · intro a
              have hmoves : movesOf a (entry.hold ++ takenOutputs domain ++ entry.announcement) =
                  movesOf a (entry.hold ++ entry.announcement) ++
                    movesOf a (takenOutputs domain) := by
                simp only [movesOf_append, RegisteredLocalSignal.movesOf_announcement,
                  List.append_nil]
              rw [hmoves]
              apply (htakes.moves a).trans (hopens.moves a)
              by_cases ha : entry.signal.address = a
              · left
                exact movesOf_takenOutputs_of_ne fun hda => haddress (hda.trans ha.symm)
              · right
                rw [movesOf_append, RegisteredLocalSignal.movesOf_announcement,
                  RegisteredLocalSignal.movesOf_hold, if_neg ha]
                rfl
            · intro a hraise
              simp only [movesOf_append, RegisteredLocalSignal.movesOf_announcement,
                List.append_nil, List.mem_append] at hraise
              rcases hraise with hraise | hraise
              · refine ⟨(k, entry), OrderedMap.mem_of_find?_eq_some hk, ?_⟩
                rw [RegisteredLocalSignal.movesOf_hold] at hraise
                by_contra ha
                rw [if_neg ha] at hraise
                cases hraise
              · exact htakes.raises a hraise

/-- A request of the peer. -/
theorem outcome_request (h : Registry c.faces) (r : Request) :
    Outcome c (c.request r).1 (c.request r).2.1 := by
  cases r with
  | subscribe id => exact outcome_subscribe h id
  | unsubscribe id => exact (ending_unsubscribe c id true h).outcome h

/-! ### Removal -/

theorem ending_removeLocalSignal (h : Registry c.faces) (signal : LocalSignal) :
    Ending c (c.removeLocalSignal signal).1 (c.removeLocalSignal signal).2.1 := by
  unfold removeLocalSignal
  cases hfind : c.findByAddress signal.address with
  | none => exact .of_faces h rfl
  | some found =>
      obtain ⟨k, entry⟩ := found
      have hk := find?_of_findByAddress (distinct_of_registry h) hfind
      have hfaces : LocalSignals.faces { c with signals := OrderedMap.erase c.signals k } =
          OrderedMap.erase c.faces k := by
        unfold faces OrderedMap.erase
        rw [List.filter_map]
        rfl
      have hsub : ∀ e ∈ OrderedMap.erase c.faces k, e ∈ c.faces := fun e he =>
        (OrderedMap.mem_erase.mp he).1
      dsimp only
      constructor
      · rw [hfaces]
        refine ⟨h.distinct.erase k, fun e he => h.signo e (hsub e he), ?_⟩
        exact (List.filter_sublist.map _).nodup h.addresses
      · intro sent ht e he
        rw [hfaces] at he
        rw [RegisteredLocalSignal.messagesOf_release, List.append_nil]
        exact ht e (hsub e he)
      · intro a
        have hcount : Faces.engaged (OrderedMap.erase c.faces k) a +
            (if entry.holder && decide (entry.signal.address = a) then 1 else 0) =
              Faces.engaged c.faces a :=
          OrderedMap.countP_erase h.distinct (face_of_find hk)
            fun e => e.2.holder && decide (e.2.address = a)
        rw [hfaces, RegisteredLocalSignal.movesOf_release]
        by_cases hheld : (entry.holder && decide (entry.signal.address = a)) = true
        · rw [if_pos hheld] at hcount
          exact ⟨1, if_pos hheld, hcount⟩
        · rw [if_neg hheld] at hcount
          exact ⟨0, if_neg hheld, hcount⟩

theorem ending_clearLocalSignals (c : LocalSignals) :
    Ending c c.clearLocalSignals.1 c.clearLocalSignals.2 := by
  unfold clearLocalSignals
  constructor
  · exact ⟨List.nodup_nil, nofun, List.nodup_nil⟩
  · exact fun _ _ => nofun
  · intro a
    refine ⟨Faces.engaged c.faces a, ?_, Nat.zero_add _⟩
    rw [engaged_faces]
    unfold engaged
    dsimp only
    induction c.signals with
    | nil => rfl
    | cons e signals ih =>
        rw [List.flatMap_cons, movesOf_append, RegisteredLocalSignal.movesOf_release, ih,
          List.countP_cons]
        split
        · rw [Nat.add_comm, List.replicate_add]
          rfl
        · rfl

/-! ### Metadata and data -/

theorem outcome_setMetadata (h : Registry c.faces) (address : Nat) (metadata : Metadata) :
    Outcome c (c.setMetadata address metadata).1 (c.setMetadata address metadata).2 := by
  have hd := distinct_of_registry h
  cases hfind : c.findByAddress address with
  | none =>
      unfold setMetadata
      rw [hfind]
      exact .silent h rfl
  | some found =>
      obtain ⟨k, entry⟩ := found
      have hk := find?_of_findByAddress hd hfind
      have hsame (n : Nat) (new : RegisteredLocalSignal) (hnew : new.face = entry.face) :
          ((c.withNextTable n).update k fun _ => new).faces = c.faces := by
        apply faces_update_of_eq (c.withNextTable n) k _ hd
        intro e he
        change OrderedMap.find? c.signals k = some e at he
        rw [hk] at he
        rw [← Option.some.inj he]
        exact hnew
      rw [setMetadata_of_find hd hfind]
      split
      · apply Outcome.of_faces h (hsame _ (c.changed entry metadata) rfl)
        · intro msg hmsg j
          rw [List.mem_singleton.mp hmsg]
          unfold Message.ofMetadata Message.subscription?
          dsimp only
          rw [if_neg (show ¬ "signal" = "subscribe" by decide),
            if_neg (show ¬ "signal" = "unsubscribe" by decide), ite_self]
        · exact fun _ => rfl
      · exact .silent h (hsame c.nextTable (entry.described metadata) rfl)

/-- Publishing changes no face and sends only data. -/
theorem faces_onLocalSignalDataPublished (hd : Distinct c.signals) (k : UInt32)
    (entry : RegisteredLocalSignal) (domainValue : Int64) (sampleCount : Nat) (data : Bytes) :
    (c.onLocalSignalDataPublished k entry domainValue sampleCount data).1.faces = c.faces ∧
      ∀ o ∈ (c.onLocalSignalDataPublished k entry domainValue sampleCount data).2,
        ∃ signo data, o = .send (.data signo data) := by
  have hvalue (c : LocalSignals) (hd : Distinct c.signals) (valueIndex : Int64) :
      (c.update k fun e => e.withValueIndex valueIndex).faces = c.faces :=
    faces_update_of_eq c k (fun _ _ => rfl) hd
  have hdist (address : Nat) (f : LinearTable → LinearTable) :
      Distinct (c.modifyTable address f).signals := by
    rw [Distinct, modifyTable, List.map_map]
    exact hd
  unfold onLocalSignalDataPublished
  dsimp only
  split
  · refine ⟨hvalue c hd _, ?_⟩
    intro o ho
    exact ⟨_, _, List.mem_singleton.mp ho⟩
  · constructor
    · split
      · split
        · rw [faces_modifyTable, hvalue _ (hdist _ _), faces_modifyTable]
        · rw [faces_modifyTable, hvalue _ hd]
      · split
        · rw [hvalue _ (hdist _ _), faces_modifyTable]
        · rw [hvalue _ hd]
    · intro o ho
      rcases List.mem_append.mp ho with ho | ho
      · split at ho
        · split at ho
          · exact ⟨_, _, List.mem_singleton.mp ho⟩
          · cases ho
        · split at ho
          · exact ⟨_, _, List.mem_singleton.mp ho⟩
          · cases ho
      · exact ⟨_, _, List.mem_singleton.mp ho⟩

/-- Publishing an object sends something only if it is registered and its slot
is connected. -/
theorem publishData_cases (hd : Distinct c.signals) (address : Nat) (domainValue : Int64)
    (sampleCount : Nat) (data : Bytes) :
    (c.publishData address domainValue sampleCount data).1.faces = c.faces ∧
      (∀ o ∈ (c.publishData address domainValue sampleCount data).2,
        ∃ signo data, o = .send (.data signo data)) ∧
      ((c.publishData address domainValue sampleCount data).2 ≠ [] →
        ∃ e ∈ c.signals, e.2.signal.address = address ∧ e.2.onDataPublished = true) := by
  unfold publishData
  cases hfind : (c.findByAddress address).filter fun e => e.2.onDataPublished with
  | none => exact ⟨rfl, nofun, fun hne => absurd rfl hne⟩
  | some found =>
      obtain ⟨k, entry⟩ := found
      have hpublished := faces_onLocalSignalDataPublished hd k entry domainValue sampleCount data
      refine ⟨hpublished.1, hpublished.2, fun _ => ⟨(k, entry), ?_⟩⟩
      obtain ⟨hsome, hslot⟩ := Option.filter_eq_some_iff.mp hfind
      exact ⟨List.mem_of_find?_eq_some hsome, address_of_findByAddress hsome, hslot⟩

theorem outcome_publishData (h : Registry c.faces) (address : Nat) (domainValue : Int64)
    (sampleCount : Nat) (data : Bytes) :
    Outcome c (c.publishData address domainValue sampleCount data).1
      (c.publishData address domainValue sampleCount data).2 := by
  have hpublished := publishData_cases (distinct_of_registry h) address domainValue sampleCount data
  apply Outcome.of_faces h hpublished.1
  · intro msg hmsg j
    obtain ⟨o, ho, hmsg⟩ := List.mem_filterMap.mp hmsg
    obtain ⟨signo, data, rfl⟩ := hpublished.2.1 o ho
    rw [← Option.some.inj hmsg]
    rfl
  · intro a
    apply List.filterMap_eq_nil_iff.mpr
    intro o ho
    obtain ⟨signo, data, rfl⟩ := hpublished.2.1 o ho
    rfl

/-! ### Registration -/

theorem faces_addLocalSignal (hd : Distinct c.signals) {signal : LocalSignal}
    (hfind : c.findByAddress signal.address = none) :
    (c.addLocalSignal signal).1.faces =
      OrderedMap.emplace c.faces c.nextSigno ⟨c.nextSigno, signal.address, false, false⟩ := by
  have hplaced := hd.emplace c.nextSigno { signal := signal, signo := c.nextSigno }
  rw [addLocalSignal, emplaceSignal, hfind]
  dsimp only
  have hemplace := OrderedMap.emplace_map RegisteredLocalSignal.face c.signals c.nextSigno
    { signal := signal, signo := c.nextSigno }
  have hrule (c : LocalSignals) (hd : Distinct c.signals) (k : UInt32) (metadata : Metadata)
      (fresh : Nat) : (c.update k fun e => e.setRule metadata fresh).faces = c.faces :=
    faces_update_of_eq c k (fun _ _ => rfl) hd
  have hbind (c : LocalSignals) (hd : Distinct c.signals) (k : UInt32)
      (domain : RegisteredLocalSignal) : (c.update k fun e => e.bindTo domain).faces = c.faces :=
    faces_update_of_eq c k (fun _ _ => rfl) hd
  split
  · exact (hbind _ (distinct_update hplaced _ _) _ _).trans ((hrule _ hplaced _ _ _).trans hemplace)
  · exact (hrule _ hplaced _ _ _).trans hemplace

/-- **A registration** keeps the faces in step if the connection has not said
subscribe last about the number that it hands out. -/
theorem registry_addLocalSignal (h : Registry c.faces) (signal : LocalSignal) :
    Registry (c.addLocalSignal signal).1.faces ∧
      (∀ a, Faces.engaged (c.addLocalSignal signal).1.faces a = Faces.engaged c.faces a) ∧
      ∀ sent, Tracks c.faces sent →
        (c.findByAddress signal.address = none → OrderedMap.find? c.signals c.nextSigno = none →
          lastSubscription sent c.nextSigno ≠ some true) →
        Tracks (c.addLocalSignal signal).1.faces sent := by
  have hd := distinct_of_registry h
  cases hfind : c.findByAddress signal.address with
  | some e =>
      rw [addLocalSignal_of_some hfind]
      exact ⟨h, fun _ => rfl, fun _ ht _ => ht⟩
  | none =>
      rw [faces_addLocalSignal hd hfind]
      have hface := find?_faces c c.nextSigno
      unfold OrderedMap.emplace
      cases hnext : OrderedMap.find? c.signals c.nextSigno with
      | some e =>
          rw [hface, hnext, Option.map_some, Option.isSome_some, if_pos rfl]
          exact ⟨h, fun _ => rfl, fun _ ht _ => ht⟩
      | none =>
          rw [hface, hnext, Option.map_none, Option.isSome_none, if_neg Bool.false_ne_true]
          rw [hnext, Option.map_none] at hface
          refine ⟨⟨h.distinct.insertBefore hface _, ?_, ?_⟩, ?_, ?_⟩
          · intro e he
            rcases OrderedMap.mem_insertBefore.mp he with rfl | he
            · rfl
            · exact h.signo e he
          · rw [((OrderedMap.insertBefore_perm _ _ _).map _).nodup_iff, List.map_cons,
              List.nodup_cons]
            refine ⟨?_, h.addresses⟩
            intro hmem
            obtain ⟨e, he, haddress⟩ := List.mem_map.mp hmem
            obtain ⟨e', he', rfl⟩ := List.mem_map.mp he
            have hnot := List.find?_eq_none.mp hfind e' he'
            exact hnot (decide_eq_true haddress)
          · intro a
            unfold Faces.engaged
            rw [(OrderedMap.insertBefore_perm _ _ _).countP_eq, List.countP_cons]
            exact Nat.add_zero _
          · intro sent ht hlast e he
            rcases OrderedMap.mem_insertBefore.mp he with rfl | he
            · exact ⟨Iff.rfl, iff_of_false Bool.false_ne_true (hlast rfl rfl)⟩
            · exact ht e he

/-! ### Requests send no data -/

/-- No data packet is among the outputs. -/
def NoData (outputs : List Output) : Prop := ∀ msg ∈ messagesOf outputs, msg.isData = false

theorem NoData.append {outputs more : List Output} (h : NoData outputs) (h' : NoData more) :
    NoData (outputs ++ more) := by
  intro msg hmsg
  rw [messagesOf_append] at hmsg
  rcases List.mem_append.mp hmsg with hmsg | hmsg
  · exact h msg hmsg
  · exact h' msg hmsg

theorem noData_nil : NoData [] := fun _ hmsg => nomatch hmsg

theorem noData_send (m : MetadataMessage) : NoData [.send (.metadata m)] := by
  intro msg hmsg
  rw [List.mem_singleton.mp hmsg]
  rfl

theorem noData_release (e : RegisteredLocalSignal) : NoData e.release := by
  intro msg hmsg
  rw [e.messagesOf_release] at hmsg
  cases hmsg

theorem noData_opening (e : RegisteredLocalSignal) : NoData (e.hold ++ e.announcement) := by
  intro msg hmsg
  rw [messagesOf_append, e.messagesOf_hold] at hmsg
  rcases List.mem_cons.mp hmsg with rfl | hmsg
  · rfl
  · rw [List.mem_singleton.mp hmsg]
    rfl

theorem noData_subscribe (hd : Distinct c.signals) (id : String) :
    NoData (c.subscribe id true).2.1 := by
  cases hfind : c.findById id with
  | none =>
      rw [subscribe_of_none hfind]
      exact noData_nil
  | some found =>
      obtain ⟨k, entry⟩ := found
      by_cases hsub : entry.isSubscribed = true
      · rw [subscribe_of_subscribed hfind hsub]
        exact noData_nil
      · cases hdomain : c.domainOf entry with
        | none =>
            rw [subscribe_begins hd hfind hsub hdomain]
            exact noData_opening entry
        | some found =>
            rw [subscribe_begins_with hd hfind hsub (show c.domainOf entry = some (found.1, found.2)
              from hdomain)]
            have htaken : NoData (takenOutputs found.2) := by
              unfold takenOutputs
              split
              · exact noData_nil
              · exact noData_opening found.2
            intro msg hmsg
            simp only [messagesOf_append, RegisteredLocalSignal.messagesOf_hold, List.nil_append,
              List.mem_append] at hmsg
            rcases hmsg with hmsg | hmsg
            · exact htaken msg hmsg
            · apply noData_opening entry msg
              rw [messagesOf_append, RegisteredLocalSignal.messagesOf_hold]
              exact hmsg

theorem noData_unsubscribe (c : LocalSignals) (id : String) (isExplicit : Bool) :
    NoData (c.unsubscribe id isExplicit).2.1 := by
  induction c, id, isExplicit using unsubscribe_induction with
  | none c id isExplicit hfind =>
      rw [unsubscribe_of_none hfind]
      exact noData_nil
  | subscribed c id isExplicit k entry hfind hsub =>
      rw [unsubscribe_of_subscribed hfind hsub]
      exact noData_nil
  | ended c id isExplicit k entry hfind hsub ih =>
      have hfarewell : NoData entry.farewell := (noData_release entry).append (noData_send _)
      rw [unsubscribe_of_ended hfind hsub]
      cases htable : entry.signal.domainId? with
      | none => exact hfarewell
      | some tableId => exact hfarewell.append (ih tableId htable)

end LocalSignals

end Operations

end WsStreaming.Ports
