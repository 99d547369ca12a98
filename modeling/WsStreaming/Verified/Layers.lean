import Mathlib.Data.List.ReduceOption
import Mathlib.Logic.Function.Basic
import WsStreaming.Verified.Run

/-!
# Message handlers over a transport

Ends in pairs.  What an end does on its own, and what it does with a message of
the other end of its pair, changes its state and has it send messages.  Seen
from above, either direction of a pair is a queue.

In a *stack* the ends hand their messages to a transport instead.  Its receive
path works in turns: it makes a number of calls, some of which hand a message
on, and each call is answered before the next one is made.

A transport is *reliable* if an end hears what the other one has sent, in order,
and nothing else.  A stack over it then does nothing that the queues would not
do: what is proved about the queues holds of the stack.

## Main results

* `delivers` — a turn is a number of deliveries.
* `refines_run` — every run of a stack refines a run of the queues.
* `answers_isSome` — no message that arrives throws if none does from a queue.
-/

namespace WsStreaming.Verified.Layers

open WsStreaming.Verified.Run

variable {κ ν ι μ τ σ θ : Type _}

/-- Ends in pairs. -/
class Paired (κ : Type _) where
  other : κ → κ
  other_other : ∀ k, other (other k) = k
  other_ne : ∀ k, other k ≠ k

open Paired

/-- What an end does with an input and with a message, and what it sends; there
is no result where an exception is thrown. -/
structure Behaviour (ν ι μ : Type _) where
  act : ν → ι → ν × List μ
  take : ν → μ → Option (ν × List μ)

/-! ## Queues -/

/-- The ends, and what each has sent and the other one has not received. -/
structure Network (κ ν μ : Type _) where
  node : κ → ν
  queue : κ → List μ

inductive Move (κ ι : Type _) where
  | act (k : κ) (input : ι)
  /-- The next message of an end reaches the other one. -/
  | deliver (k : κ)

section Queues

variable [DecidableEq κ]

/-- What an end becomes and sends. -/
def Network.tells (w : Network κ ν μ) (k : κ) (r : ν × List μ) : Network κ ν μ :=
  { node := Function.update w.node k r.1
    queue := Function.update w.queue k (w.queue k ++ r.2) }

/-- One move; an empty queue delivers nothing. -/
def Network.step [Paired κ] (b : Behaviour ν ι μ) (w : Network κ ν μ) :
    Move κ ι → Option (Network κ ν μ)
  | .act k input => some (w.tells k (b.act (w.node k) input))
  | .deliver k =>
      match w.queue k with
      | [] => some w
      | m :: rest =>
          (b.take (w.node (other k)) m).map fun r =>
            Network.tells { w with queue := Function.update w.queue k rest } (other k) r

/-- A condition on what the ends do on their own. -/
def Network.Admits (admits : ν → ι → Prop) (w : Network κ ν μ) : Move κ ι → Prop
  | .act k input => admits (w.node k) input
  | .deliver _ => True

end Queues

/-! ## Stacks -/

/-- A transport of messages: how it sends them, the calls that its receive path
makes in a turn with the messages they hand on, and the turn itself, given the
answers; what each end was told to send, what it was handed, and whether it is
open. -/
structure Transport (τ κ σ θ μ : Type _) where
  send : τ → κ → σ → List μ → Option τ
  calls : τ → κ → θ → List (Option μ)
  turn : τ → κ → θ → (Nat → List μ) → Option τ
  sent : τ → κ → List μ
  heard : τ → κ → List μ
  isOpen : τ → κ → Bool

/-- The ends, and the transport under them. -/
structure Stack (κ ν τ : Type _) where
  node : κ → ν
  transport : τ

inductive Input (κ ι σ θ : Type _) where
  | act (k : κ) (input : ι) (sending : σ)
  | turn (k : κ) (receiving : θ)

/-- An end answers calls one after another. -/
def Behaviour.answers (b : Behaviour ν ι μ) : ν → List (Option μ) → Option (ν × List (List μ))
  | n, [] => some (n, [])
  | n, none :: calls => (b.answers n calls).map fun r => (r.1, [] :: r.2)
  | n, some m :: calls =>
      (b.take n m).bind fun q => (b.answers q.1 calls).map fun r => (r.1, q.2 :: r.2)

/-- What is sent in answer to the calls that hand a message on. -/
def answered : (Nat → List μ) → List (Option μ) → List μ
  | _, [] => []
  | replies, c :: calls =>
      (if c.isSome then replies 0 else []) ++ answered (fun n => replies (n + 1)) calls

namespace Stack

variable [DecidableEq κ] (b : Behaviour ν ι μ) (T : Transport τ κ σ θ μ)

/-- What an end becomes, unless its transport is closed: the run ends there. -/
def goesOn (s : Stack κ ν τ) (k : κ) (n : ν) (transport : Option τ) : Option (Stack κ ν τ) :=
  (transport.filter fun t => T.isOpen t k).map fun t => ⟨Function.update s.node k n, t⟩

theorem goesOn_eq_some {T : Transport τ κ σ θ μ} {s s' : Stack κ ν τ} {k : κ} {n : ν}
    {transport : Option τ} (h : s.goesOn T k n transport = some s') :
    transport = some s'.transport ∧ s'.node = Function.update s.node k n := by
  obtain ⟨t, ht, rfl⟩ := Option.map_eq_some_iff.mp h
  exact ⟨(Option.filter_eq_some_iff.mp ht).1, rfl⟩

/-- One input. -/
def step (s : Stack κ ν τ) : Input κ ι σ θ → Option (Stack κ ν τ)
  | .act k input sending =>
      let r := b.act (s.node k) input
      s.goesOn T k r.1 (T.send s.transport k sending r.2)
  | .turn k receiving =>
      (b.answers (s.node k) (T.calls s.transport k receiving)).bind fun r =>
        s.goesOn T k r.1 (T.turn s.transport k receiving fun n => r.2.getD n [])

/-- The messages that an input has its end send. -/
def utters (s : Stack κ ν τ) : Input κ ι σ θ → List μ
  | .act k input _ => (b.act (s.node k) input).2
  | .turn k receiving =>
      ((b.answers (s.node k) (T.calls s.transport k receiving)).map fun r => r.2.flatten).getD []

/-- What is sent fits the transport, and a condition on what the ends do on
their own. -/
def Admits (admits : ν → ι → Prop) (Fits : κ → μ → Prop) (s : Stack κ ν τ) :
    Input κ ι σ θ → Prop
  | .act k input sending =>
      admits (s.node k) input ∧ ∀ m ∈ s.utters b T (.act k input sending), Fits k m
  | .turn k receiving => ∀ m ∈ s.utters b T (.turn k receiving), Fits k m

instance {admits : ν → ι → Prop} {Fits : κ → μ → Prop} [∀ n i, Decidable (admits n i)]
    [∀ k m, Decidable (Fits k m)] (s : Stack κ ν τ) :
    (input : Input κ ι σ θ) → Decidable (s.Admits b T admits Fits input)
  | .act _ _ _ => inferInstanceAs (Decidable (_ ∧ _))
  | .turn _ _ => inferInstanceAs (Decidable (∀ m ∈ _, _))

end Stack

/-! ## Reliable transports -/

/-- An end has sent messages and was handed others. -/
structure Transport.Advances (T : Transport τ κ σ θ μ) (k : κ) (sent heard : List μ) (t t' : τ) :
    Prop where
  sent : T.sent t' k = T.sent t k ++ sent
  heard : T.heard t' k = T.heard t k ++ heard
  sent_of_ne : ∀ j, j ≠ k → T.sent t' j = T.sent t j
  heard_of_ne : ∀ j, j ≠ k → T.heard t' j = T.heard t j

section Advances

variable {T : Transport τ κ σ θ μ} {k : κ}

theorem Transport.Advances.refl (t : τ) : T.Advances k [] [] t t where
  sent := (List.append_nil _).symm
  heard := (List.append_nil _).symm
  sent_of_ne _ _ := rfl
  heard_of_ne _ _ := rfl

theorem Transport.Advances.trans {sent heard sent' heard' : List μ} {t t' t'' : τ}
    (h : T.Advances k sent heard t t') (h' : T.Advances k sent' heard' t' t'') :
    T.Advances k (sent ++ sent') (heard ++ heard') t t'' where
  sent := by rw [h'.sent, h.sent, List.append_assoc]
  heard := by rw [h'.heard, h.heard, List.append_assoc]
  sent_of_ne j hj := (h'.sent_of_ne j hj).trans (h.sent_of_ne j hj)
  heard_of_ne j hj := (h'.heard_of_ne j hj).trans (h.heard_of_ne j hj)

/-- **Messages that are sent one after another**, if each of them can be. -/
theorem Transport.sends_each {α : Type _} {Good : τ → Prop} {step : τ → α → Option τ}
    (message : α → μ) {Fits : μ → Prop}
    (hone : ∀ {t a t'}, Good t → Fits (message a) → step t a = some t' →
      Good t' ∧ T.Advances k [message a] [] t t')
    (as : List α) :
    ∀ {t t' : τ}, Good t → (∀ a ∈ as, Fits (message a)) → as.foldlM step t = some t' →
      Good t' ∧ T.Advances k (as.map message) [] t t' := by
  induction as with
  | nil =>
      intro t t' hgood _ hrun
      obtain rfl : t = t' := Option.some.inj hrun
      exact ⟨hgood, .refl t⟩
  | cons a as ih =>
      intro t t' hgood hfits hrun
      obtain ⟨hfirst, hrest⟩ := List.forall_mem_cons.mp hfits
      rw [List.foldlM_cons] at hrun
      obtain ⟨t₁, ht₁, hmore⟩ := Option.bind_eq_some_iff.mp hrun
      obtain ⟨hgood₁, hadvances₁⟩ := hone hgood hfirst ht₁
      obtain ⟨hgood', hadvances⟩ := ih hgood₁ hrest hmore
      exact ⟨hgood', hadvances₁.trans hadvances⟩

end Advances

/-- **A reliable transport.**  Messages that fit are sent; and what an end is
handed, its next turn included, begins what the other end has sent. -/
structure Transport.Reliable [Paired κ] (T : Transport τ κ σ θ μ) (Good : τ → Prop)
    (Fits : κ → μ → Prop) : Prop where
  ahead : ∀ {t k o}, Good t → T.heard t k ++ (T.calls t k o).reduceOption <+: T.sent t (other k)
  send : ∀ {t k o messages t'}, Good t → (∀ m ∈ messages, Fits k m) →
    T.send t k o messages = some t' → Good t' ∧ T.Advances k messages [] t t'
  turn : ∀ {t k o replies t'}, Good t → (∀ n, ∀ m ∈ replies n, Fits k m) →
    T.turn t k o replies = some t' →
      Good t' ∧ T.Advances k (answered replies (T.calls t k o)) (T.calls t k o).reduceOption t t'

/-- What is sent in answer is one of the replies. -/
theorem forall_mem_answered {P : μ → Prop} {calls : List (Option μ)} :
    ∀ {replies : Nat → List μ}, (∀ n, ∀ m ∈ replies n, P m) →
      ∀ m ∈ answered replies calls, P m := by
  induction calls with
  | nil => exact fun _ m hm => absurd hm List.not_mem_nil
  | cons c calls ih =>
      intro replies h m hm
      rcases List.mem_append.mp hm with hfirst | hrest
      · cases hc : c.isSome with
        | true =>
            rw [hc, if_pos rfl] at hfirst
            exact h 0 m hfirst
        | false =>
            rw [hc, if_neg Bool.false_ne_true] at hfirst
            cases hfirst
      · exact ih (fun n => h (n + 1)) m hrest

/-! ## Refinement -/

/-- The ends are the same, and what an end has sent and the other one was not
handed is in its queue. -/
structure Refines [Paired κ] (T : Transport τ κ σ θ μ) (s : Stack κ ν τ) (w : Network κ ν μ) :
    Prop where
  node : w.node = s.node
  queue : ∀ k, T.sent s.transport k = T.heard s.transport (other k) ++ w.queue k

/-- What an end is handed next is in the queue of the other one. -/
theorem Refines.ahead [Paired κ] {T : Transport τ κ σ θ μ} {Good : τ → Prop}
    {Fits : κ → μ → Prop} {s : Stack κ ν τ} {w : Network κ ν μ} (hT : T.Reliable Good Fits)
    (hgood : Good s.transport) (h : Refines T s w) (k : κ) (o : θ) :
    ∃ rest, w.queue (other k) = (T.calls s.transport k o).reduceOption ++ rest := by
  obtain ⟨rest, hrest⟩ := hT.ahead (k := k) (o := o) hgood
  refine ⟨rest, ?_⟩
  rw [h.queue, other_other, List.append_assoc] at hrest
  exact (List.append_cancel_left hrest).symm

section Answers

variable {b : Behaviour ν ι μ} {n n' : ν} {replies : List (List μ)}

/-- What is sent in a turn. -/
theorem answered_answers {calls : List (Option μ)} (h : b.answers n calls = some (n', replies)) :
    answered (fun i => replies.getD i []) calls = replies.flatten := by
  induction calls generalizing n replies with
  | nil =>
      obtain ⟨-, rfl⟩ := Prod.mk.inj (Option.some.inj h)
      rfl
  | cons c calls ih =>
      cases c with
      | none =>
          obtain ⟨⟨n₁, rest⟩, hrest, heq⟩ := Option.map_eq_some_iff.mp h
          obtain ⟨rfl, rfl⟩ := Prod.mk.inj heq
          exact ih hrest
      | some m =>
          obtain ⟨q, -, hanswers⟩ := Option.bind_eq_some_iff.mp h
          obtain ⟨⟨n₁, rest⟩, hrest, heq⟩ := Option.map_eq_some_iff.mp hanswers
          obtain ⟨rfl, rfl⟩ := Prod.mk.inj heq
          exact congrArg (q.2 ++ ·) (ih hrest)

end Answers

section Queues

variable [DecidableEq κ] [Paired κ] {b : Behaviour ν ι μ} {w : Network κ ν μ}

/-- An end has received a message of the other one, which has `rest` left. -/
def Network.receives (w : Network κ ν μ) (k : κ) (rest : List μ) (r : ν × List μ) :
    Network κ ν μ :=
  Network.tells { w with queue := Function.update w.queue (other k) rest } k r

theorem receives_node (w : Network κ ν μ) (k : κ) (rest : List μ) (r : ν × List μ) :
    (w.receives k rest r).node = Function.update w.node k r.1 := rfl

theorem receives_queue_other (w : Network κ ν μ) (k : κ) (rest : List μ) (r : ν × List μ) :
    (w.receives k rest r).queue (other k) = rest := by
  show Function.update (Function.update w.queue (other k) rest) k _ (other k) = rest
  rw [Function.update_of_ne (other_ne k), Function.update_self]

theorem receives_queue_self (w : Network κ ν μ) (k : κ) (rest : List μ) (r : ν × List μ) :
    (w.receives k rest r).queue k = w.queue k ++ r.2 := by
  show Function.update (Function.update w.queue (other k) rest) k
    (Function.update w.queue (other k) rest k ++ r.2) k = _
  rw [Function.update_self, Function.update_of_ne (other_ne k).symm]

theorem receives_queue_of_ne (w : Network κ ν μ) {k j : κ} (rest : List μ) (r : ν × List μ)
    (hk : j ≠ k) (hj : j ≠ other k) : (w.receives k rest r).queue j = w.queue j := by
  show Function.update (Function.update w.queue (other k) rest) k _ j = _
  rw [Function.update_of_ne hk, Function.update_of_ne hj]

/-- The first message of the other end is taken. -/
theorem step_deliver {k : κ} {m : μ} {rest : List μ} (hqueue : w.queue (other k) = m :: rest) :
    w.step b (.deliver (other k)) = (b.take (w.node k) m).map (w.receives k rest) := by
  unfold Network.step
  dsimp only
  rw [hqueue]
  dsimp only
  rw [other_other]
  rfl

/-- The messages that arrive at `k` in a turn are taken from a queue one by one.
What it sends meanwhile goes to its own queue. -/
theorem delivers (k : κ) (calls : List (Option μ)) :
    ∀ {w : Network κ ν μ} {rest : List μ} {n : ν} {replies : List (List μ)},
      w.queue (other k) = calls.reduceOption ++ rest →
      b.answers (w.node k) calls = some (n, replies) →
      ∃ w', (List.replicate calls.reduceOption.length (.deliver (other k))).foldlM
          (Network.step b) w = some w' ∧
        w'.node = Function.update w.node k n ∧
        w'.queue (other k) = rest ∧
        w'.queue k = w.queue k ++ replies.flatten ∧
        ∀ j, j ≠ k → j ≠ other k → w'.queue j = w.queue j := by
  induction calls with
  | nil =>
      intro w rest n replies hqueue hanswers
      obtain ⟨rfl, rfl⟩ := Prod.mk.inj (Option.some.inj hanswers)
      exact ⟨w, rfl, (Function.update_eq_self k w.node).symm, hqueue, (List.append_nil _).symm,
        fun _ _ _ => rfl⟩
  | cons c calls ih =>
      intro w rest n replies hqueue hanswers
      cases c with
      | none =>
          obtain ⟨⟨n₁, more⟩, hmore, heq⟩ := Option.map_eq_some_iff.mp hanswers
          obtain ⟨rfl, rfl⟩ := Prod.mk.inj heq
          obtain ⟨w', hrun⟩ := ih hqueue hmore
          exact ⟨w', hrun⟩
      | some m =>
          obtain ⟨q, hq, hrest⟩ := Option.bind_eq_some_iff.mp hanswers
          obtain ⟨⟨n₁, more⟩, hmore, heq⟩ := Option.map_eq_some_iff.mp hrest
          obtain ⟨rfl, rfl⟩ := Prod.mk.inj heq
          -- The first message is delivered, and then the others.
          rw [List.reduceOption_cons_of_some, List.cons_append] at hqueue
          have hstep := step_deliver (b := b) hqueue
          rw [hq, Option.map_some] at hstep
          have hnode : (w.receives k (calls.reduceOption ++ rest) q).node k = q.1 :=
            Function.update_self ..
          obtain ⟨w', hrun, hnode', hother', hself', hframe⟩ :=
            ih (receives_queue_other w k _ q) (by rw [hnode]; exact hmore)
          refine ⟨w', ?_, ?_, hother', ?_, ?_⟩
          · rw [List.reduceOption_cons_of_some, List.length_cons, List.replicate_succ,
              List.foldlM_cons, hstep]
            exact hrun
          · rw [hnode', receives_node]
            exact Function.update_idem ..
          · rw [hself', receives_queue_self, List.append_assoc, List.flatten_cons]
          · intro j hk hj
            rw [hframe j hk hj, receives_queue_of_ne w _ q hk hj]

end Queues

section Steps

variable [DecidableEq κ] [Paired κ] {b : Behaviour ν ι μ} {T : Transport τ κ σ θ μ}
  {Good : τ → Prop} {Fits : κ → μ → Prop} {admits : ν → ι → Prop}
  {s s' : Stack κ ν τ} {w : Network κ ν μ}

/-- An end does something on its own. -/
theorem refines_act (hT : T.Reliable Good Fits) (hgood : Good s.transport) (h : Refines T s w)
    {k : κ} {input : ι} {sending : σ}
    (hadmits : s.Admits b T admits Fits (.act k input sending))
    (hstep : s.step b T (.act k input sending) = some s') :
    Good s'.transport ∧ w.Admits admits (.act k input) ∧
      ∃ w', w.step b (.act k input) = some w' ∧ Refines T s' w' := by
  obtain ⟨hsend, hnode⟩ := Stack.goesOn_eq_some hstep
  obtain ⟨hgood', hadvances⟩ := hT.send hgood hadmits.2 hsend
  refine ⟨hgood', by rw [Network.Admits, h.node]; exact hadmits.1, _, rfl, ?_, ?_⟩
  · rw [hnode]
    show Function.update w.node k (b.act (w.node k) input).1 = _
    rw [h.node]
  · intro j
    have hheard : T.heard s'.transport (other j) = T.heard s.transport (other j) := by
      by_cases hj : other j = k
      · rw [hj, hadvances.heard, List.append_nil]
      · exact hadvances.heard_of_ne _ hj
    show _ = _ ++ Function.update w.queue k (w.queue k ++ (b.act (w.node k) input).2) j
    rw [hheard]
    by_cases hj : j = k
    · rw [hj, hadvances.sent, h.queue, Function.update_self, List.append_assoc, h.node]
      rfl
    · rw [hadvances.sent_of_ne j hj, h.queue, Function.update_of_ne hj]

/-- A turn of the receive path. -/
theorem refines_turn (hT : T.Reliable Good Fits) (hgood : Good s.transport) (h : Refines T s w)
    {k : κ} {o : θ} (hfits : s.Admits b T admits Fits (.turn k o))
    (hstep : s.step b T (.turn k o) = some s') :
    Good s'.transport ∧ ∃ (count : Nat) (w' : Network κ ν μ),
      (List.replicate count (.deliver (other k))).foldlM (Network.step b) w = some w' ∧
        Refines T s' w' := by
  obtain ⟨⟨n, replies⟩, hanswers, hgoes⟩ := Option.bind_eq_some_iff.mp hstep
  obtain ⟨hturn, hnode⟩ := Stack.goesOn_eq_some hgoes
  have hreplies : ∀ i, ∀ m ∈ replies.getD i [], Fits k m := by
    intro i m hm
    apply hfits
    show m ∈ ((b.answers (s.node k) (T.calls s.transport k o)).map fun r => r.2.flatten).getD []
    rw [hanswers, Option.map_some, Option.getD_some]
    cases hi : replies[i]? with
    | none =>
        rw [List.getD_eq_getElem?_getD, hi] at hm
        cases hm
    | some messages =>
        rw [List.getD_eq_getElem?_getD, hi] at hm
        exact List.mem_flatten.mpr ⟨messages, List.mem_of_getElem? hi, hm⟩
  obtain ⟨hgood', hadvances⟩ := hT.turn hgood hreplies hturn
  rw [answered_answers hanswers] at hadvances
  obtain ⟨rest, hrest⟩ := h.ahead hT hgood k o
  rw [← h.node] at hanswers
  obtain ⟨w', hrun, hnode', hother, hself, hframe⟩ := delivers k _ hrest hanswers
  refine ⟨hgood', _, w', hrun, ?_, ?_⟩
  · rw [hnode', hnode, h.node]
  · intro j
    by_cases hj : j = k
    · rw [hj, hadvances.sent, hadvances.heard_of_ne _ (other_ne k), hself, h.queue,
        List.append_assoc]
    · rw [hadvances.sent_of_ne j hj]
      by_cases hjk : j = other k
      · rw [hjk, other_other, hother, hadvances.heard, h.queue, other_other, hrest,
          List.append_assoc]
      · have hne : other j ≠ k := by
          intro heq
          rw [← heq, other_other] at hjk
          exact hjk rfl
        rw [hadvances.heard_of_ne _ hne, hframe j hj hjk, h.queue]

/-- **One input.** -/
theorem refines_step (hT : T.Reliable Good Fits) (hgood : Good s.transport) (h : Refines T s w)
    {input : Input κ ι σ θ} (hadmits : s.Admits b T admits Fits input)
    (hstep : s.step b T input = some s') :
    Good s'.transport ∧ ∃ moves w', MeetsOpt (Network.step b) (Network.Admits admits) w moves ∧
      moves.foldlM (Network.step b) w = some w' ∧ Refines T s' w' := by
  cases input with
  | act k input sending =>
      obtain ⟨hgood', hmove, w', hw', href⟩ := refines_act hT hgood h hadmits hstep
      refine ⟨hgood', [.act k input], w', ⟨hmove, fun _ _ => trivial⟩, ?_, href⟩
      rw [List.foldlM_cons, hw']
      rfl
  | turn k receiving =>
      obtain ⟨hgood', count, w', hrun, href⟩ := refines_turn hT hgood h hadmits hstep
      refine ⟨hgood', _, w', ?_, hrun, href⟩
      have hdeliveries (count : Nat) : ∀ w : Network κ ν μ,
          MeetsOpt (Network.step b) (Network.Admits admits) w
            (List.replicate count (.deliver (other k))) := by
        induction count with
        | zero => exact fun _ => trivial
        | succ count ih => exact fun _ => ⟨trivial, fun w' _ => ih w'⟩
      exact hdeliveries count w

/-- **Whole runs.**  Over a reliable transport, every run of a stack refines a
run of the queues. -/
theorem refines_run (hT : T.Reliable Good Fits) {s₀ : Stack κ ν τ} {w₀ : Network κ ν μ}
    (hgood : Good s₀.transport) (h : Refines T s₀ w₀) (inputs : List (Input κ ι σ θ))
    (hadmits : MeetsOpt (Stack.step b T) (Stack.Admits b T admits Fits) s₀ inputs)
    (hrun : inputs.foldlM (Stack.step b T) s₀ = some s) :
    Good s.transport ∧ ∃ moves w, MeetsOpt (Network.step b) (Network.Admits admits) w₀ moves ∧
      moves.foldlM (Network.step b) w₀ = some w ∧ Refines T s w := by
  let Inv (s : Stack κ ν τ) : Prop := Good s.transport ∧ ∃ moves w,
    MeetsOpt (Network.step b) (Network.Admits admits) w₀ moves ∧
      moves.foldlM (Network.step b) w₀ = some w ∧ Refines T s w
  have hone : ∀ s input s', Inv s → s.Admits b T admits Fits input →
      s.step b T input = some s' → Inv s' := by
    rintro s input s' ⟨hgood, moves, w, hmeets, hmoves, href⟩ hadmits hstep
    obtain ⟨hgood', more, w', hmeets', hmore, href'⟩ := refines_step hT hgood href hadmits hstep
    refine ⟨hgood', moves ++ more, w', hmeets.append fun v hv => ?_, ?_, href'⟩
    · rw [hmoves] at hv
      rw [← Option.some.inj hv]
      exact hmeets'
    · rw [List.foldlM_append, hmoves]
      exact hmore
  exact foldlM_preserves_of_meets hone inputs s₀ s ⟨hgood, [], w₀, trivial, rfl, h⟩ hadmits hrun

/-- **No message throws**, if none does that is delivered from a queue. -/
theorem answers_isSome (hT : T.Reliable Good Fits) (hgood : Good s.transport) (h : Refines T s w)
    {Inv : Network κ ν μ → Prop} (hinv : Inv w)
    (hdeliver : ∀ w, Inv w → ∀ k, ∃ w', w.step b (.deliver k) = some w' ∧ Inv w')
    (k : κ) (o : θ) : (b.answers (s.node k) (T.calls s.transport k o)).isSome := by
  have hall (calls : List (Option μ)) : ∀ {w : Network κ ν μ} {rest : List μ}, Inv w →
      w.queue (other k) = calls.reduceOption ++ rest → (b.answers (w.node k) calls).isSome := by
    induction calls with
    | nil => exact fun _ _ => rfl
    | cons c calls ih =>
        intro w rest hw hqueue
        cases c with
        | none =>
            rw [Behaviour.answers, Option.isSome_map]
            exact ih hw hqueue
        | some m =>
            obtain ⟨w', hw', hinv'⟩ := hdeliver w hw (other k)
            rw [List.reduceOption_cons_of_some, List.cons_append] at hqueue
            rw [step_deliver hqueue] at hw'
            obtain ⟨q, hq, rfl⟩ := Option.map_eq_some_iff.mp hw'
            have hrest := ih hinv' (receives_queue_other w k _ q)
            have hnode : (w.receives k (calls.reduceOption ++ rest) q).node k = q.1 :=
              Function.update_self ..
            rw [hnode] at hrest
            rw [Behaviour.answers, hq, Option.bind_some, Option.isSome_map]
            exact hrest
  obtain ⟨rest, hrest⟩ := h.ahead hT hgood k o
  rw [← h.node]
  exact hall _ hinv hrest

end Steps

end WsStreaming.Verified.Layers
