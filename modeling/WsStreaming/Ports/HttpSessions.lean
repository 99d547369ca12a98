import Mathlib.Data.List.Nodup
import WsStreaming.Verified.Run
import WsStreaming.Ports.HttpServicer

/-!
# The HTTP sessions of a server

`wss::server` keeps the servicers of accepted connections in `_sessions` until
they raise `on_closed`.  No other shared pointer refers to a servicer, so its
handlers run only as long as it is kept there.

## Main results

* `sessions_released_iff` — the list holds exactly the servicers whose HTTP
  phase is in progress, in every state, exactly as long as no connection is
  handed over to a WebSocket peer and no exception escapes from a request.
-/

namespace WsStreaming.Ports

open WsStreaming.Verified.Run

/-- The servicers a server has made, and those in `_sessions`. -/
structure HttpSessions where
  servicers : List HttpServicer := []
  sessions : List Nat := []
  isClosed : Bool := false
deriving Repr, DecidableEq

namespace HttpSessions

/-- What can happen to the sessions of a server. -/
inductive Event where
  /-- A listener accepts a connection. -/
  | accept (isTls : Bool)
  /-- The handler of the operation of a servicer runs. -/
  | complete (i : Nat) (completion : HttpServicer.Completion)
  /-- The deadline of a servicer passes. -/
  | expire (i : Nat)
  /-- The application closes the server. -/
  | close

/-- `server::start_session`. -/
def startSession (s : HttpSessions) (v : HttpServicer) : HttpSessions :=
  { s with
    servicers := s.servicers ++ [v.run]
    sessions := s.sessions ++ [s.servicers.length] }

/-- `server::on_servicer_closed`. -/
def onServicerClosed (s : HttpSessions) (i : Nat) : HttpSessions :=
  { s with sessions := s.sessions.filter fun j => j ≠ i }

/-- The server's part in what a servicer raises.  The slot of
`on_websocket_upgrade` makes a connection of the stream and has nothing to do
with the sessions. -/
def onRaised (i : Nat) (s : HttpSessions) : Raised → HttpSessions
  | .closed => s.onServicerClosed i
  | .websocketUpgrade => s

/-- The HTTP part of `server::close`: `stop` posts a call to each servicer, but
clearing the list destroys it before that call. -/
def close (s : HttpSessions) : HttpSessions :=
  if s.isClosed then s
  else { servicers := s.servicers.map HttpServicer.destroy, sessions := [], isClosed := true }

/-- One event. -/
def step (s : HttpSessions) : Event → HttpSessions
  | .accept isTls => s.startSession { isTls := isTls }
  | .complete i completion =>
      match s.servicers[i]? with
      | none => s
      | some v =>
          if i ∈ s.sessions then
            (v.complete completion).2.foldl (onRaised i)
              { s with servicers := s.servicers.set i (v.complete completion).1 }
          else s
  | .expire i =>
      match s.servicers[i]? with
      | none => s
      | some v =>
          if i ∈ s.sessions then { s with servicers := s.servicers.set i v.expire } else s
  | .close => s.close

/-- `_sessions` holds each servicer once whose HTTP phase is in progress, and
no other one. -/
structure Exact (s : HttpSessions) : Prop where
  nodup : s.sessions.Nodup
  mem_iff : ∀ i, i ∈ s.sessions ↔ ∃ v, s.servicers[i]? = some v ∧ v.InProgress

/-- Whether an event ends the HTTP phase of a servicer and does not say so: its
connection is handed over to a WebSocket peer, or an exception escapes. -/
def EndsUntold (s : HttpSessions) : Event → Prop
  | .complete i completion =>
      i ∈ s.sessions ∧
        ∃ v, s.servicers[i]? = some v ∧ (v.Upgrades completion ∨ v.Escapes completion)
  | _ => False

/-- What holds in every state before such an event. -/
structure Tidy (s : HttpSessions) : Prop extends Exact s where
  sound : ∀ v ∈ s.servicers, v.Sound

end HttpSessions

/-! ## Servicers -/

namespace HttpServicer

variable {v : HttpServicer}

theorem sound_run (isTls : Bool) : ({ isTls := isTls } : HttpServicer).run.Sound := by
  cases isTls <;> exact ⟨nofun, nofun⟩

theorem inProgress_run (isTls : Bool) : ({ isTls := isTls } : HttpServicer).run.InProgress := by
  cases isTls <;> exact Option.some_ne_none _

theorem Sound.expire (h : v.Sound) : v.expire.Sound := by
  unfold HttpServicer.expire
  by_cases hp : v.pending.isSome = true
  · rw [if_pos hp]
    exact ⟨fun _ => rfl, fun _ _ => rfl⟩
  · rw [if_neg hp]
    exact h

theorem inProgress_expire : v.expire.InProgress ↔ v.InProgress := by
  unfold HttpServicer.expire
  split <;> rfl

theorem sound_destroy (v : HttpServicer) : v.destroy.Sound :=
  ⟨fun _ => rfl, fun _ hp => absurd rfl hp⟩

theorem not_inProgress_destroy : ¬ v.destroy.InProgress := fun hp => hp rfl

/-- What a handler may do to a servicer: go on, or close it and say so. -/
inductive Outcome (r : HttpServicer × List Raised) : Prop where
  | goesOn (sound : r.1.Sound) (progress : r.1.InProgress) (raised : r.2 = [])
  | closes (sound : r.1.Sound) (ended : ¬ r.1.InProgress) (raised : r.2 = [.closed])

/-- Closing with an operation just completed says so on every path. -/
theorem outcome_close (h : v.Sound) (hpending : v.pending = none)
    {ec : Option HttpError} (hec : v.timedOut = true ↔ ec = some .timeout)
    (hopen : v.timedOut = false → v.socketOpen = true) : Outcome (v.close ec) := by
  rw [HttpServicer.close]
  by_cases ht : v.timedOut = true
  · rw [if_pos (hec.mp ht)]
    exact .closes h (fun hp => hp hpending) rfl
  · have hfalse := Bool.eq_false_iff.mpr ht
    rw [if_neg fun he => ht (hec.mpr he), if_neg (not_not.mpr (hopen hfalse))]
    exact .closes ⟨fun h => absurd h ht, fun _ hp => absurd hpending hp⟩
      (fun hp => hp hpending) rfl

/-- Starting the next operation on an open socket. -/
theorem Outcome.next (htimed : v.timedOut = false) (hopen : v.socketOpen = true)
    (op : Operation) : Outcome ({ v with pending := some op }, []) := by
  refine .goesOn ⟨fun h => ?_, fun h => ?_⟩ (Option.some_ne_none op) rfl
  · rw [htimed] at h
    cases h
  · rw [hopen] at h
    cases h

theorem Completion.error_timeout (timedOut : Bool) (completion : Completion) :
    timedOut = true ↔ completion.error timedOut = some .timeout := by
  cases completion <;> cases timedOut <;> simp [Completion.error]

/-- **Every handler** that neither hands over nor lets an exception escape goes
on or closes. -/
theorem outcome_complete (h : v.Sound) (hpending : v.pending ≠ none) {completion : Completion}
    (hup : ¬ v.Upgrades completion) (hescape : ¬ v.Escapes completion) :
    Outcome (v.complete completion) := by
  have hec := Completion.error_timeout v.timedOut completion
  have hopen : v.timedOut = false → v.socketOpen = true := by
    intro htimed
    by_contra hclosed
    rw [h.closed (Bool.eq_false_iff.mpr hclosed) hpending] at htimed
    cases htimed
  have hsound : ({ v with pending := none } : HttpServicer).Sound :=
    ⟨h.expired, fun _ hp => absurd rfl hp⟩
  have hclose : Outcome (({ v with pending := none } : HttpServicer).close
      (completion.error v.timedOut)) := outcome_close hsound rfl hec hopen
  have htimed : ¬ (completion.error v.timedOut).isSome = true → v.timedOut = false := by
    intro hnone
    by_contra ht
    rw [hec.mp (Bool.eq_true_of_not_eq_false ht)] at hnone
    exact hnone rfl
  have hnext : ¬ (completion.error v.timedOut).isSome = true → ∀ op,
      Outcome ({ v with pending := some op }, []) := fun hnone op =>
    .next (htimed hnone) (hopen (htimed hnone)) op
  rw [complete]
  cases hop : v.pending with
  | none => exact absurd hop hpending
  | some op =>
      cases op with
      | handshake =>
          dsimp only
          rw [finishHandshake]
          split
          · exact hclose
          · rename_i hnone
            exact hnext hnone .read
      | read =>
          dsimp only
          unfold finishRead
          split
          · exact hclose
          · rename_i hnone
            cases hresponse : completion.response with
            | none => exact absurd ⟨hop, Option.not_isSome_iff_eq_none.mp hnone, hresponse⟩ hescape
            | some res => exact hnext hnone (.write res.action)
      | write action =>
          dsimp only
          unfold finishWrite
          split
          · exact hclose
          · rename_i hnone
            cases action with
            | keepalive => exact hnext hnone .read
            | upgrade =>
                exact absurd ⟨hop, Option.not_isSome_iff_eq_none.mp hnone⟩ hup
            | close =>
                refine outcome_close hsound rfl (iff_of_false ?_ (by simp)) hopen
                exact Bool.eq_false_iff.mp (htimed hnone)

/-- A stream that is handed over is not closed, and nothing says that the HTTP
phase is over. -/
theorem complete_of_upgrades {completion : Completion} (h : v.Upgrades completion) :
    .closed ∉ (v.complete completion).2 ∧ ¬ (v.complete completion).1.InProgress := by
  obtain ⟨hop, hec⟩ := h
  rw [complete, hop]
  dsimp only
  rw [hec]
  refine ⟨?_, fun hp => hp rfl⟩
  show Raised.closed ∉ [Raised.websocketUpgrade]
  decide

/-- Nor does anything say so once an exception has escaped. -/
theorem complete_of_escapes {completion : Completion} (h : v.Escapes completion) :
    .closed ∉ (v.complete completion).2 ∧ ¬ (v.complete completion).1.InProgress := by
  obtain ⟨hop, hec, hresponse⟩ := h
  rw [complete, hop]
  dsimp only
  rw [hec, hresponse]
  exact ⟨List.not_mem_nil, fun hp => hp rfl⟩

end HttpServicer

/-! ## Sessions -/

namespace HttpSessions

variable {s : HttpSessions}

theorem Tidy.startSession (h : s.Tidy) (isTls : Bool) :
    (s.startSession { isTls := isTls }).Tidy := by
  have hnew : s.servicers.length ∉ s.sessions := by
    intro hmem
    obtain ⟨v, hv, -⟩ := (h.mem_iff _).mp hmem
    rw [List.getElem?_eq_none (Nat.le_refl _)] at hv
    cases hv
  refine ⟨⟨?_, fun i => ?_⟩, fun v hv => ?_⟩
  · exact List.nodup_append.mpr ⟨h.nodup, List.nodup_singleton _, fun i hi j hj => by
      rintro rfl
      exact hnew (by rw [← List.mem_singleton.mp hj]; exact hi)⟩
  · show i ∈ s.sessions ++ [_] ↔ ∃ v, (s.servicers ++ [_])[i]? = some v ∧ v.InProgress
    rw [List.mem_append, List.mem_singleton, h.mem_iff]
    rcases Nat.lt_trichotomy i s.servicers.length with hlt | rfl | hgt
    · rw [List.getElem?_append_left hlt]
      exact ⟨fun hi => hi.resolve_right (Nat.ne_of_lt hlt), .inl⟩
    · rw [List.getElem?_concat_length]
      exact iff_of_true (.inr rfl) ⟨_, rfl, HttpServicer.inProgress_run isTls⟩
    · have hbeyond : (s.servicers ++ [({ isTls := isTls } : HttpServicer).run])[i]? = none := by
        rw [List.getElem?_eq_none_iff, List.length_append, List.length_singleton]
        exact hgt
      rw [hbeyond, List.getElem?_eq_none (Nat.le_of_lt hgt)]
      simp only [reduceCtorEq, false_and, exists_false, false_or, iff_false]
      exact Nat.ne_of_gt hgt
  · rcases List.mem_append.mp hv with hv | hv
    · exact h.sound v hv
    · rw [List.mem_singleton.mp hv]
      exact HttpServicer.sound_run isTls

/-- Replacing a servicer in the list of sessions by one that goes on. -/
theorem Tidy.set (h : s.Tidy) {i : Nat} {v w : HttpServicer} (hv : s.servicers[i]? = some v)
    (hsound : w.Sound) (hprogress : w.InProgress ↔ v.InProgress) :
    Tidy { s with servicers := s.servicers.set i w } := by
  have hlt := (List.getElem?_eq_some_iff.mp hv).1
  refine ⟨⟨h.nodup, fun j => ?_⟩, fun u hu => ?_⟩
  · show j ∈ s.sessions ↔ ∃ u, (s.servicers.set i w)[j]? = some u ∧ u.InProgress
    rw [h.mem_iff]
    by_cases hj : i = j
    · subst hj
      rw [List.getElem?_set_self hlt, hv]
      constructor
      · rintro ⟨u, hu, hup⟩
        obtain rfl := Option.some.inj hu
        exact ⟨w, rfl, hprogress.mpr hup⟩
      · rintro ⟨u, hu, hup⟩
        obtain rfl := Option.some.inj hu
        exact ⟨v, rfl, hprogress.mp hup⟩
    · rw [List.getElem?_set_ne hj]
  · rcases List.mem_or_eq_of_mem_set hu with hu | rfl
    · exact h.sound u hu
    · exact hsound

/-- Replacing one by one that is over, and removing it from the list. -/
theorem Tidy.remove (h : s.Tidy) {i : Nat} {v w : HttpServicer}
    (hv : s.servicers[i]? = some v) (hsound : w.Sound) (hover : ¬ w.InProgress) :
    Tidy (onServicerClosed { s with servicers := s.servicers.set i w } i) := by
  have hlt := (List.getElem?_eq_some_iff.mp hv).1
  refine ⟨⟨h.nodup.filter _, fun j => ?_⟩, fun u hu => ?_⟩
  · show j ∈ s.sessions.filter _ ↔ ∃ u, (s.servicers.set i w)[j]? = some u ∧ u.InProgress
    rw [List.mem_filter, decide_eq_true_eq, h.mem_iff]
    by_cases hj : i = j
    · subst hj
      rw [List.getElem?_set_self hlt]
      refine iff_of_false (fun hmem => hmem.2 rfl) ?_
      rintro ⟨u, hu, hup⟩
      obtain rfl := Option.some.inj hu
      exact hover hup
    · rw [List.getElem?_set_ne hj]
      exact ⟨fun hmem => hmem.1, fun hmem => ⟨hmem, fun h => hj h.symm⟩⟩
  · rcases List.mem_or_eq_of_mem_set hu with hu | rfl
    · exact h.sound u hu
    · exact hsound

theorem Tidy.close (h : s.Tidy) : s.close.Tidy := by
  rw [HttpSessions.close]
  split
  · exact h
  · refine ⟨⟨List.nodup_nil, fun i => ?_⟩, fun v hv => ?_⟩
    · refine iff_of_false List.not_mem_nil ?_
      rintro ⟨v, hv, hprogress⟩
      rw [List.getElem?_map, Option.map_eq_some_iff] at hv
      obtain ⟨u, -, rfl⟩ := hv
      exact HttpServicer.not_inProgress_destroy hprogress
    · obtain ⟨u, -, rfl⟩ := List.mem_map.mp hv
      exact HttpServicer.sound_destroy u

/-- **Every other event keeps the sessions exact.** -/
theorem Tidy.step (h : s.Tidy) {e : Event} (htold : ¬ s.EndsUntold e) : (s.step e).Tidy := by
  cases e with
  | accept isTls => exact h.startSession isTls
  | complete i completion =>
      rw [HttpSessions.step]
      cases hv : s.servicers[i]? with
      | none => exact h
      | some v =>
          dsimp only
          by_cases hi : i ∈ s.sessions
          · rw [if_pos hi]
            have hsound := h.sound v (List.mem_of_getElem? hv)
            obtain ⟨u, hu, hprogress⟩ := (h.mem_iff i).mp hi
            obtain rfl : v = u := Option.some.inj (hv.symm.trans hu)
            have hup : ¬ v.Upgrades completion := fun hup => htold ⟨hi, v, hv, .inl hup⟩
            have hescape : ¬ v.Escapes completion := fun hesc => htold ⟨hi, v, hv, .inr hesc⟩
            cases HttpServicer.outcome_complete hsound hprogress hup hescape with
            | goesOn hsound' hprogress' hraised =>
                rw [hraised]
                exact h.set hv hsound' (iff_of_true hprogress' hprogress)
            | closes hsound' hover hraised =>
                rw [hraised]
                exact h.remove hv hsound' hover
          · rw [if_neg hi]
            exact h
  | expire i =>
      rw [HttpSessions.step]
      cases hv : s.servicers[i]? with
      | none => exact h
      | some v =>
          dsimp only
          by_cases hi : i ∈ s.sessions
          · rw [if_pos hi]
            have hsound := h.sound v (List.mem_of_getElem? hv)
            exact h.set hv hsound.expire HttpServicer.inProgress_expire
          · rw [if_neg hi]
            exact h
  | close => exact h.close

/-- What does not say `on_closed` leaves the list as it is. -/
theorem foldl_onRaised {i : Nat} (raised : List Raised) :
    ∀ {s : HttpSessions}, .closed ∉ raised → raised.foldl (onRaised i) s = s := by
  induction raised with
  | nil => exact fun _ => rfl
  | cons r raised ih =>
      intro s h
      cases r with
      | closed => exact absurd List.mem_cons_self h
      | websocketUpgrade => exact ih fun hmem => h (List.mem_cons_of_mem _ hmem)

/-- A servicer whose HTTP phase ends untold stays in the list. -/
theorem not_exact_of_endsUntold {e : Event} (h : s.EndsUntold e) : ¬ (s.step e).Exact := by
  cases e with
  | complete i completion =>
      obtain ⟨hi, v, hv, hends⟩ := h
      obtain ⟨hraised, hover⟩ :=
        hends.elim HttpServicer.complete_of_upgrades HttpServicer.complete_of_escapes
      have hlt := (List.getElem?_eq_some_iff.mp hv).1
      have hstep : s.step (.complete i completion) =
          { s with servicers := s.servicers.set i (v.complete completion).1 } := by
        rw [HttpSessions.step, hv]
        dsimp only
        rw [if_pos hi, foldl_onRaised _ hraised]
      rw [hstep]
      intro hexact
      obtain ⟨u, hu, hprogress⟩ := (hexact.mem_iff i).mp hi
      dsimp only at hu
      rw [List.getElem?_set_self hlt] at hu
      obtain rfl := Option.some.inj hu
      exact hover hprogress
  | accept isTls => exact h.elim
  | expire i => exact h.elim
  | close => exact h.elim

/-- **Sessions are released exactly without WebSocket upgrades and exceptions
that escape.** -/
theorem sessions_released_iff (events : List Event) :
    Meets step (fun s e => Exact (s.step e)) {} events ↔
      Meets step (fun s e => ¬ s.EndsUntold e) {} events := by
  apply meets_iff Tidy
  · exact fun s e h htold => h.step htold
  · intro s e h
    exact ⟨fun hexact hover => not_exact_of_endsUntold hover hexact,
      fun htold => (h.step htold).toExact⟩
  · refine ⟨⟨List.nodup_nil, fun i => ?_⟩, nofun⟩
    refine iff_of_false List.not_mem_nil ?_
    rintro ⟨v, hv, -⟩
    cases hv

/-- A WebSocket client that connects. -/
def websocketClient (i : Nat) : List Event :=
  [.accept false,
    .complete i (.done ⟨"websocket", "dGhlIHNhbXBsZSBub25jZQ==", .other, true, .error ""⟩
      (fun _ _ => .ok none) false),
    .complete i (.done ⟨"", "", .other, true, .error ""⟩ (fun _ _ => .ok none) false)]

/-- After its upgrade a WebSocket client has left the HTTP phase, and not the
list of sessions. -/
theorem upgraded_client_stays :
    ¬ ∀ events : List Event, Exact (events.foldl step {}) := by
  intro hclaim
  have hexact := hclaim (websocketClient 0)
  obtain ⟨v, hv, hprogress⟩ := (hexact.mem_iff 0).mp (by decide +kernel)
  have hlast : ((websocketClient 0).foldl step {}).servicers =
      [{ isTls := false, socketOpen := false }] := by decide +kernel
  rw [hlast] at hv
  obtain rfl := Option.some.inj hv
  exact hprogress rfl

end HttpSessions

end WsStreaming.Ports
