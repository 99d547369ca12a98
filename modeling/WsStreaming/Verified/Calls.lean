import Mathlib.Algebra.Ring.Int.Defs
import Mathlib.Algebra.Ring.Nat
import Mathlib.Data.List.Basic

/-!
# Calls over two queues

A caller sends requests through a queue, the other side serves them in the
order in which they arrive, and its responses come back through another queue.
A request is known by its place among all that were sent, which is what the
caller keeps for it until the response is there.

On the way the request has an id of 32 bits, which repeats.  The caller finds
the place again as long as no more than `2 ^ 32` requests are open.

## Main results

* `InStep.asks`, `InStep.serves`, `InStep.answers` — the three steps.
* `InStep.drained` — once both queues are empty, every request was served and
  answered.
* `Open.asks`, `Open.answers` — the table of the open requests.
-/

namespace WsStreaming.Verified.Calls

variable {ρ σ : Type _}

/-- The outcomes of what was served, each with its place. -/
def numbered (served : List (ρ × σ)) : List (Nat × σ) := served.zipIdx.map fun x => (x.2, x.1.2)

theorem length_numbered (served : List (ρ × σ)) : (numbered served).length = served.length := by
  rw [numbered, List.length_map, List.length_zipIdx]

theorem numbered_concat (served : List (ρ × σ)) (x : ρ × σ) :
    numbered (served ++ [x]) = numbered served ++ [(served.length, x.2)] := by
  simp [numbered, List.zipIdx_append]

theorem getElem?_numbered (served : List (ρ × σ)) (n : Nat) :
    (numbered served)[n]? = (served[n]?).map fun x => (n, x.2) := by
  simp [numbered, Function.comp_def]

/-- What was served begins what was asked and the rest is on its way, and so
it is for the responses. -/
structure InStep (asked requests : List ρ) (served : List (ρ × σ))
    (responses called : List (Nat × σ)) : Prop where
  asked : asked = served.map Prod.fst ++ requests
  served : numbered served = called ++ responses

section InStep

variable {asked requests : List ρ} {served : List (ρ × σ)} {responses called : List (Nat × σ)}

theorem inStep_nil : InStep ([] : List ρ) [] ([] : List (ρ × σ)) [] [] := ⟨rfl, rfl⟩

theorem InStep.length_asked (h : InStep asked requests served responses called) :
    asked.length = served.length + requests.length := by
  rw [h.asked, List.length_append, List.length_map]

theorem InStep.length_served (h : InStep asked requests served responses called) :
    served.length = called.length + responses.length := by
  rw [← length_numbered, h.served, List.length_append]

/-- **A request is sent.** -/
theorem InStep.asks (h : InStep asked requests served responses called) (r : ρ) :
    InStep (asked ++ [r]) (requests ++ [r]) served responses called := by
  refine ⟨?_, h.served⟩
  rw [h.asked, List.append_assoc]

/-- **The next request is served.** -/
theorem InStep.serves {r : ρ} (h : InStep asked (r :: requests) served responses called) (s : σ) :
    InStep asked requests (served ++ [(r, s)]) (responses ++ [(served.length, s)]) called := by
  constructor
  · rw [h.asked, List.map_append, List.append_assoc]
    rfl
  · rw [numbered_concat, h.served, List.append_assoc]

/-- **The next response arrives.** -/
theorem InStep.answers {x : Nat × σ} (h : InStep asked requests served (x :: responses) called) :
    InStep asked requests served responses (called ++ [x]) := by
  refine ⟨h.asked, ?_⟩
  rw [h.served, List.append_assoc]
  rfl

/-- It is the response to the first request that is open. -/
theorem InStep.first {x : Nat × σ} (h : InStep asked requests served (x :: responses) called) :
    x.1 = called.length := by
  have hget := congrArg (fun l => l[called.length]?) h.served
  rw [getElem?_numbered, List.getElem?_append_right (Nat.le_refl _), Nat.sub_self] at hget
  obtain ⟨y, -, hy⟩ := Option.map_eq_some_iff.mp hget
  rw [← hy]

theorem InStep.served_prefix (h : InStep asked requests served responses called) :
    served.map Prod.fst <+: asked := by
  rw [h.asked]
  exact List.prefix_append _ _

theorem InStep.called_prefix (h : InStep asked requests served responses called) :
    called <+: numbered served := by
  rw [h.served]
  exact List.prefix_append _ _

/-- **Nothing is on its way.** -/
theorem InStep.drained (h : InStep asked [] served [] called) :
    served.map Prod.fst = asked ∧ called = numbered served := by
  rw [h.asked, h.served, List.append_nil, List.append_nil]
  exact ⟨rfl, rfl⟩

end InStep

/-! ## Ids that repeat -/

/-- The id under which the request with a place is sent. -/
def ident (place : Nat) : UInt32 := UInt32.ofNat (place + 1)

theorem toNat_ident (place : Nat) : (ident place).toNat = (place + 1) % 2 ^ 32 := by
  rw [ident, UInt32.toNat_ofNat']

theorem ident_succ (place : Nat) : ident (place + 1) = ident place + 1 :=
  UInt32.ofNat_add (place + 1) 1

/-- Two places that are not too far apart have different ids. -/
theorem ident_inj {m n : Nat} (h : ident m = ident n) (hmn : m < n + 2 ^ 32)
    (hnm : n < m + 2 ^ 32) : m = n := by
  have hmod := congrArg UInt32.toNat h
  rw [toNat_ident, toNat_ident] at hmod
  omega

/-- A table of the open requests: those whose places lie between two. -/
def Open (table : UInt32 → Option Nat) (first next : Nat) : Prop :=
  ∀ id place, table id = some place ↔ first ≤ place ∧ place < next ∧ id = ident place

section Open

variable {table : UInt32 → Option Nat} {first next : Nat}

theorem open_none (n : Nat) : Open (fun _ => none) n n := by
  intro id place
  constructor
  · intro h
    cases h
  · rintro ⟨hfirst, hnext, -⟩
    omega

/-- **Another request.** -/
theorem Open.asks (h : Open table first next) (hle : first ≤ next) (hroom : next < first + 2 ^ 32) :
    table (ident next) = none ∧
      Open (fun id => if ident next = id then some next else table id) first (next + 1) := by
  have hfree : table (ident next) = none := by
    cases htable : table (ident next) with
    | none => rfl
    | some place =>
        obtain ⟨hfirst, hnext, hid⟩ := (h _ _).mp htable
        have hsame := ident_inj hid (by omega) (by omega)
        omega
  refine ⟨hfree, fun id place => ?_⟩
  show (if ident next = id then some next else table id) = some place ↔ _
  by_cases hid : ident next = id
  · rw [if_pos hid]
    constructor
    · intro hplace
      obtain rfl := Option.some.inj hplace
      exact ⟨hle, Nat.lt_succ_self _, hid.symm⟩
    · rintro ⟨hfirst, hnext, hplace⟩
      have hsame := ident_inj (hid.trans hplace) (by omega) (by omega)
      rw [hsame]
  · rw [if_neg hid, h]
    constructor
    · rintro ⟨hfirst, hnext, hplace⟩
      exact ⟨hfirst, by omega, hplace⟩
    · rintro ⟨hfirst, hnext, hplace⟩
      refine ⟨hfirst, ?_, hplace⟩
      rcases Nat.lt_succ_iff_lt_or_eq.mp hnext with hlt | rfl
      · exact hlt
      · exact absurd hplace.symm hid

/-- **The first open request is answered.** -/
theorem Open.answers (h : Open table first next) (hlt : first < next)
    (hroom : next ≤ first + 2 ^ 32) :
    table (ident first) = some first ∧
      Open (fun id => if ident first = id then none else table id) (first + 1) next := by
  refine ⟨(h _ _).mpr ⟨Nat.le_refl _, hlt, rfl⟩, fun id place => ?_⟩
  show (if ident first = id then none else table id) = some place ↔ _
  by_cases hid : ident first = id
  · rw [if_pos hid]
    constructor
    · intro hplace
      cases hplace
    · rintro ⟨hfirst, hnext, hplace⟩
      have hsame := ident_inj (hid.trans hplace) (by omega) (by omega)
      omega
  · rw [if_neg hid, h]
    constructor
    · rintro ⟨hfirst, hnext, hplace⟩
      refine ⟨?_, hnext, hplace⟩
      rcases Nat.lt_or_eq_of_le hfirst with hlt' | rfl
      · exact hlt'
      · exact absurd hplace.symm hid
    · rintro ⟨hfirst, hnext, hplace⟩
      exact ⟨by omega, hnext, hplace⟩

end Open

end WsStreaming.Verified.Calls
