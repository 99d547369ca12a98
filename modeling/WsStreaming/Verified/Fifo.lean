import WsStreaming.Verified.Run

/-!
# FIFO channels

A sender and a receiver that are joined by a channel.  What the sender does
adds messages at the end, and the receiver takes them from the front, in any
interleaving.

The receiver only lags.  In *lockstep*, where the messages of an input are
taken before the next input comes, sender and receiver are in some relation
between any two inputs.  In an interleaving the relation holds of the sender
and of what the receiver will be once it has taken what is on its way, and
whatever is lawful about taking a message in lockstep is lawful in every
interleaving.
-/

namespace WsStreaming.Verified.Fifo

open WsStreaming.Verified.Run (MeetsOpt)

variable {σ ι μ ρ : Type _}

/-- A sender, what is on its way, and a receiver. -/
structure Channel (σ μ ρ : Type _) where
  sender : σ
  queue : List μ
  receiver : ρ

/-- The sender does something, or the receiver takes a message. -/
inductive Move (ι : Type _) where
  | send (input : ι)
  | deliver

/-- The inputs of the sender. -/
def inputs (moves : List (Move ι)) : List ι :=
  moves.filterMap fun
    | .send input => some input
    | .deliver => none

section Step

variable (send : σ → ι → σ × List μ) (receive : ρ → μ → Option ρ)

/-- One move.  There may be nothing to take. -/
def step (w : Channel σ μ ρ) : Move ι → Option (Channel σ μ ρ)
  | .send input =>
      some { w with
        sender := (send w.sender input).1
        queue := w.queue ++ (send w.sender input).2 }
  | .deliver =>
      match w.queue with
      | [] => some w
      | m :: queue => (receive w.receiver m).map fun r => { w with queue := queue, receiver := r }

/-- An input whose messages are taken at once. -/
def lockstep (w : σ × ρ) (input : ι) : Option (σ × ρ) :=
  ((send w.1 input).2.foldlM receive w.2).map fun r => ((send w.1 input).1, r)

/-- If the next move takes a message, it is a lawful one. -/
def Delivers (law : ρ → μ → Prop) (w : Channel σ μ ρ) : Move ι → Prop
  | .send _ => True
  | .deliver => ∀ m ∈ w.queue.head?, law w.receiver m

end Step

/-- Messages that are taken one after another, each lawfully. -/
def Carries (receive : ρ → μ → Option ρ) (law : ρ → μ → Prop) : ρ → List μ → ρ → Prop
  | r, [], r' => r' = r
  | r, m :: ms, r' => law r m ∧ ∃ r₁, receive r m = some r₁ ∧ Carries receive law r₁ ms r'

section

variable {receive : ρ → μ → Option ρ} {law : ρ → μ → Prop} {r r' r'' : ρ} {ms ms' : List μ}

theorem Carries.append (h : Carries receive law r ms r') (h' : Carries receive law r' ms' r'') :
    Carries receive law r (ms ++ ms') r'' := by
  induction ms generalizing r with
  | nil =>
      rw [show r' = r from h] at h'
      exact h'
  | cons m ms ih =>
      obtain ⟨hlaw, r₁, hr₁, hrest⟩ := h
      exact ⟨hlaw, r₁, hr₁, ih hrest⟩

theorem Carries.foldlM (h : Carries receive law r ms r') : ms.foldlM receive r = some r' := by
  induction ms generalizing r with
  | nil => exact congrArg some (show r' = r from h).symm
  | cons m ms ih =>
      obtain ⟨-, r₁, hr₁, hrest⟩ := h
      rw [List.foldlM_cons, hr₁]
      exact ih hrest

theorem Carries.single {m : μ} (hlaw : law r m) (h : receive r m = some r') :
    Carries receive law r [m] r' :=
  ⟨hlaw, r', h, rfl⟩

theorem Carries.cons {m : μ} (hlaw : law r m) (h : receive r m = some r')
    (hrest : Carries receive law r' ms r'') : Carries receive law r (m :: ms) r'' :=
  ⟨hlaw, r', h, hrest⟩

end

section Settled

variable {send : σ → ι → σ × List μ} {receive : ρ → μ → Option ρ} {law : ρ → μ → Prop}
  {Inv : σ → ρ → Prop} {ok : σ × ρ → ι → Prop}

/-- The relation holds once everything is taken, and all of it is taken
lawfully. -/
def Settles (receive : ρ → μ → Option ρ) (law : ρ → μ → Prop) (Inv : σ → ρ → Prop)
    (w : Channel σ μ ρ) (settled : ρ) : Prop :=
  Carries receive law w.receiver w.queue settled ∧ Inv w.sender settled

/-- Nothing is on its way. -/
theorem Settles.of_drained {w : Channel σ μ ρ} {settled : ρ} (h : Settles receive law Inv w settled)
    (hqueue : w.queue = []) : Inv w.sender w.receiver := by
  obtain ⟨hcarries, hinv⟩ := h
  rw [hqueue] at hcarries
  rw [show settled = w.receiver from hcarries] at hinv
  exact hinv

/-- What is sent is carried over after what is on its way. -/
theorem Settles.sends {w : Channel σ μ ρ} {settled settled' : ρ} {s : σ} {ms : List μ}
    (h : Settles receive law Inv w settled) (hcarries : Carries receive law settled ms settled')
    (hinv : Inv s settled') :
    Settles receive law Inv { w with sender := s, queue := w.queue ++ ms } settled' :=
  ⟨h.1.append hcarries, hinv⟩

/-- The receiver takes the first message, which brings it closer to what it
settles to. -/
theorem Settles.delivers {w : Channel σ μ ρ} {settled : ρ} {m : μ} {queue : List μ}
    (h : Settles receive law Inv w settled) (hqueue : w.queue = m :: queue) :
    law w.receiver m ∧ ∃ r, receive w.receiver m = some r ∧
      Settles receive law Inv { w with queue := queue, receiver := r } settled := by
  obtain ⟨hcarries, hinv⟩ := h
  rw [hqueue] at hcarries
  obtain ⟨hm, r, hr, hrest⟩ := hcarries
  exact ⟨hm, r, hr, hrest, hinv⟩

/-- **Lockstep is enough.**  If an admitted input is carried over lawfully and
keeps the relation, every interleaving of admitted inputs with deliveries is
defined, every delivery in it is lawful, and the relation holds of what it
settles to. -/
theorem settles_run
    (hstep : ∀ s r input, Inv s r → ok (s, r) input →
      ∃ r', Carries receive law r (send s input).2 r' ∧ Inv (send s input).1 r')
    (moves : List (Move ι)) :
    ∀ (w : Channel σ μ ρ) (settled : ρ), Settles receive law Inv w settled →
      MeetsOpt (lockstep send receive) ok (w.sender, settled) (inputs moves) →
      (∃ w' settled', moves.foldlM (step send receive) w = some w' ∧
        Settles receive law Inv w' settled') ∧
      MeetsOpt (step send receive) (Delivers law) w moves := by
  induction moves with
  | nil => exact fun w settled h _ => ⟨⟨w, settled, rfl, h⟩, trivial⟩
  | cons move moves ih =>
      intro w settled hsettles hmeets
      cases move with
      | send input =>
          obtain ⟨hok, hnext⟩ := hmeets
          obtain ⟨r', hcarries', hinv'⟩ := hstep w.sender settled input hsettles.2 hok
          have hlockstep : lockstep send receive (w.sender, settled) input =
              some ((send w.sender input).1, r') := by
            unfold lockstep
            rw [hcarries'.foldlM]
            rfl
          obtain ⟨hrun, hlaw⟩ := ih { w with
              sender := (send w.sender input).1
              queue := w.queue ++ (send w.sender input).2 } r'
            (hsettles.sends hcarries' hinv') (hnext _ hlockstep)
          refine ⟨hrun, trivial, fun w' hw' => ?_⟩
          rw [← Option.some.inj hw']
          exact hlaw
      | deliver =>
          cases hqueue : w.queue with
          | nil =>
              have hdeliver : step send receive w .deliver = some w := by
                unfold step
                dsimp only
                rw [hqueue]
              obtain ⟨hrun, hlaw⟩ := ih w settled hsettles hmeets
              refine ⟨?_, ?_, fun w' hw' => ?_⟩
              · rw [List.foldlM_cons, hdeliver]
                exact hrun
              · intro m hm
                rw [hqueue] at hm
                cases hm
              · rw [hdeliver] at hw'
                rw [← Option.some.inj hw']
                exact hlaw
          | cons m queue =>
              obtain ⟨hm, r₁, hr₁, hrest⟩ := hsettles.delivers hqueue
              have hdeliver : step send receive w .deliver =
                  some { w with queue := queue, receiver := r₁ } := by
                unfold step
                dsimp only
                rw [hqueue]
                dsimp only
                rw [hr₁]
                rfl
              obtain ⟨hrun, hlaw⟩ := ih { w with queue := queue, receiver := r₁ } settled
                hrest hmeets
              refine ⟨?_, ?_, fun w' hw' => ?_⟩
              · rw [List.foldlM_cons, hdeliver]
                exact hrun
              · intro m' hm'
                rw [hqueue] at hm'
                rw [← Option.some.inj hm']
                exact hm
              · rw [hdeliver] at hw'
                rw [← Option.some.inj hw']
                exact hlaw

end Settled

end WsStreaming.Verified.Fifo
