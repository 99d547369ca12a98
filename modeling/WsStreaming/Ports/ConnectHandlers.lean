import Mathlib.Data.List.Nodup
import WsStreaming.Verified.Run
import WsStreaming.Ports.Client

/-!
# Every connect handler is called once

The application starts an attempt only when the handler of the last one has
been entered; it may do so from inside that handler.  Each attempt that is over
has its handler called once, and no stored handler goes before it was called,
exactly as long as three things do not happen: a handler starts an attempt on
the HTTP client that is calling it, the remote endpoint of an established
connection cannot be obtained, and a TLS stream that was moved from is used.
-/

namespace WsStreaming.Ports.Client

open WsStreaming.Verified.Run

/-! ## Laws -/

/-- Handlers are called exactly once. -/
structure Good (s : Client) : Prop where
  atMostOnce : s.called.Nodup
  once : ∀ k ∈ s.ended, s.called.count k = 1
  kept : s.lost = []
  defined : s.undefined = false

/-- Under what condition an operation leaves the handlers alone. -/
def Careful (s : Client) : Event → Prop
  | .connect _ => True
  | .http tls o reconnect =>
      match (s.http tls).request with
      | none => True
      | some (_, stage) =>
          if isLast stage o then
            (o.ec = .success → o.status = 101 → o.endpoint = true) ∧
              reconnect ≠ some (schemeOf tls)
          else ¬ (stage = .connect ∧ tls = true ∧ (s.http tls).streamMoved = true)
  | .direct i o _ =>
      match s.direct[i]? with
      | some (_, .connect) => o.ec = .success → o.endpoint = true
      | _ => True

/-- At most one attempt is under way, and its handler has not been called. -/
inductive Busy (s : Client) : Prop where
  | idle (http : ∀ tls, (s.http tls).Idle) (direct : s.direct = [])
  | http (tls : Bool) (k : Nat) (stage : RequestStage)
      (handler : (s.http tls).handler = some k) (request : (s.http tls).request = some (k, stage))
      (others : ∀ t, t ≠ tls → (s.http t).Idle) (direct : s.direct = [])
      (last : k + 1 = s.next) (new : k ∉ s.called)
  | direct (k : Nat) (stage : DirectStage) (http : ∀ tls, (s.http tls).Idle)
      (direct : s.direct = [(k, stage)]) (last : k + 1 = s.next) (new : k ∉ s.called)

/-- What holds in every state of a careful run. -/
structure Inv (s : Client) : Prop extends Good s where
  bound : ∀ k ∈ s.called, k < s.next
  busy : s.Busy

/-! ## Starting an attempt -/

variable {s : Client}

@[simp] theorem http_setHttp_self (s : Client) (tls : Bool) (c : HttpClient) :
    (s.setHttp tls c).http tls = c := Function.update_self _ _ _

theorem http_setHttp_ne (s : Client) {tls t : Bool} (h : t ≠ tls) (c : HttpClient) :
    (s.setHttp tls c).http t = s.http t := Function.update_of_ne h _ _

@[simp] theorem lose_none (s : Client) : s.lose none = s := rfl

theorem lose_of_called {k : Nat} (h : k ∈ s.called) : s.lose (some k) = s := by
  rw [lose, if_pos h]

/-- With nothing under way a new attempt is the only one. -/
theorem Inv.asyncConnect (h : s.Inv) (hhttp : ∀ tls, (s.http tls).Idle)
    (hdirect : s.direct = []) (scheme : String) : (s.asyncConnect scheme).Inv := by
  have hnew : s.next ∉ s.called := fun hmem => Nat.lt_irrefl _ (h.bound _ hmem)
  have hbound : ∀ k ∈ s.called, k < s.next + 1 := fun k hk => Nat.lt_succ_of_lt (h.bound k hk)
  have hrequest (tls : Bool) :
      Inv (asyncRequest { s with next := s.next + 1 } tls s.next) := by
    rw [asyncRequest, show ({ s with next := s.next + 1 } : Client).http = s.http from rfl,
      (hhttp tls).1, lose_none]
    refine ⟨⟨h.atMostOnce, h.once, h.kept, h.defined⟩, hbound, ?_⟩
    refine .http tls s.next .resolve ?_ ?_ (fun t ht => ?_) hdirect rfl hnew
    · rw [http_setHttp_self]
    · rw [http_setHttp_self]
    · rw [http_setHttp_ne _ ht]
      exact hhttp t
  rw [Client.asyncConnect]
  dsimp only
  split
  · exact hrequest false
  · split
    · exact hrequest true
    · refine ⟨⟨h.atMostOnce, h.once, h.kept, h.defined⟩, hbound, ?_⟩
      refine .direct s.next .resolve hhttp ?_ rfl hnew
      show s.direct ++ [(s.next, .resolve)] = _
      rw [hdirect, List.nil_append]

theorem not_entered {k : Nat} (hlast : k + 1 = s.next) (hnew : k ∉ s.called) :
    s.entered = false := by
  rw [entered, ← hlast]
  exact decide_eq_false hnew

theorem entered_of_called {k : Nat} (hlast : k + 1 = s.next) (hcalled : k ∈ s.called) :
    s.entered = true := by
  rw [entered, ← hlast]
  exact decide_eq_true hcalled

/-- **The application may start attempts at any time.** -/
theorem Inv.start (h : s.Inv) (reconnect : Option String) : (s.start reconnect).Inv := by
  cases reconnect with
  | none => exact h
  | some scheme =>
      rw [Client.start]
      cases h.busy with
      | idle hhttp hdirect =>
          split
          · exact h.asyncConnect hhttp hdirect scheme
          · exact h
      | http tls k stage _ _ _ _ hlast hnew =>
          rw [not_entered hlast hnew, if_neg Bool.false_ne_true]
          exact h
      | direct k stage _ _ hlast hnew =>
          rw [not_entered hlast hnew, if_neg Bool.false_ne_true]
          exact h

/-! ## Attempts on another HTTP client -/

theorem setHttp_comm (s : Client) {tls t : Bool} (h : tls ≠ t) (c d : HttpClient) :
    (s.setHttp tls c).setHttp t d = (s.setHttp t d).setHttp tls c := by
  unfold setHttp
  dsimp only
  rw [Function.update_comm h]

theorem lose_setHttp (s : Client) (tls : Bool) (c : HttpClient) (stored : Option Nat) :
    (s.setHttp tls c).lose stored = (s.lose stored).setHttp tls c := by
  cases stored with
  | none => rfl
  | some k =>
      by_cases hk : k ∈ s.called
      · rw [lose_of_called hk, lose_of_called (by exact hk)]
      · rw [lose, lose, if_neg hk, if_neg (by exact hk)]
        rfl

theorem asyncRequest_setHttp (s : Client) {tls t : Bool} (h : t ≠ tls) (c : HttpClient)
    (k : Nat) : (s.setHttp tls c).asyncRequest t k = (s.asyncRequest t k).setHttp tls c := by
  rw [asyncRequest, asyncRequest]
  dsimp only
  rw [lose_setHttp, http_setHttp_ne _ h, http_setHttp_ne _ h, setHttp_comm _ h.symm]

/-- An attempt on another HTTP client leaves this one alone. -/
theorem start_setHttp (s : Client) {tls : Bool} {reconnect : Option String}
    (h : reconnect ≠ some (schemeOf tls)) (c : HttpClient) :
    (s.setHttp tls c).start reconnect = (s.start reconnect).setHttp tls c := by
  cases reconnect with
  | none => rfl
  | some scheme =>
      have hother : ∀ t, scheme = schemeOf t → t ≠ tls := by
        rintro t rfl rfl
        exact h rfl
      have hnext (t : Bool) (hs : scheme = schemeOf t) :
          asyncRequest { s.setHttp tls c with next := s.next + 1 } t s.next =
            (asyncRequest { s with next := s.next + 1 } t s.next).setHttp tls c :=
        asyncRequest_setHttp { s with next := s.next + 1 } (hother t hs) c s.next
      rw [Client.start, Client.start, show (s.setHttp tls c).entered = s.entered from rfl]
      by_cases hentered : s.entered = true
      · rw [if_pos hentered, if_pos hentered, Client.asyncConnect, Client.asyncConnect]
        dsimp only
        by_cases hfalse : scheme = schemeOf false
        · rw [if_pos hfalse, if_pos hfalse]
          exact hnext false hfalse
        · rw [if_neg hfalse, if_neg hfalse]
          by_cases htrue : scheme = schemeOf true
          · rw [if_pos htrue, if_pos htrue]
            exact hnext true htrue
          · rw [if_neg htrue, if_neg htrue]
            rfl
      · rw [if_neg hentered, if_neg hentered]

theorem call_setHttp (s : Client) {tls : Bool} {reconnect : Option String}
    (h : reconnect ≠ some (schemeOf tls)) (c : HttpClient) (k : Nat) (result : ConnectResult) :
    (s.setHttp tls c).call k result reconnect = (s.call k result reconnect).setHttp tls c :=
  start_setHttp { s with calls := s.calls ++ [(k, result)] } h c

/-! ## Calling a handler -/

@[simp] theorem called_lose (s : Client) (stored : Option Nat) :
    (s.lose stored).called = s.called := by
  cases stored with
  | none => rfl
  | some k =>
      rw [lose]
      split <;> rfl

@[simp] theorem called_start (s : Client) (reconnect : Option String) :
    (s.start reconnect).called = s.called := by
  have hrequest (tls : Bool) :
      (asyncRequest { s with next := s.next + 1 } tls s.next).called = s.called :=
    called_lose { s with next := s.next + 1 } _
  cases reconnect with
  | none => rfl
  | some scheme =>
      rw [Client.start]
      split
      · rw [Client.asyncConnect]
        dsimp only
        split
        · exact hrequest false
        · split
          · exact hrequest true
          · rfl
      · rfl

@[simp] theorem called_call (s : Client) (k : Nat) (result : ConnectResult)
    (reconnect : Option String) : (s.call k result reconnect).called = s.called ++ [k] := by
  rw [Client.call, called_start]
  simp [called]

/-- A call of the handler of an attempt that is over. -/
theorem Inv.call (h : s.Inv) (hhttp : ∀ tls, (s.http tls).Idle) (hdirect : s.direct = [])
    {k : Nat} (hlast : k + 1 = s.next) (hnew : k ∉ s.called) (result : ConnectResult)
    (reconnect : Option String) : ((s.call k result reconnect).finish k).Inv := by
  have hcalled : ({ s with calls := s.calls ++ [(k, result)] } : Client).called =
      s.called ++ [k] := by
    simp [called]
  have hnodup : (s.called ++ [k]).Nodup := by
    rw [List.nodup_append]
    refine ⟨h.atMostOnce, List.nodup_singleton k, ?_⟩
    rintro i hi j hj rfl
    exact hnew (by rw [← List.mem_singleton.mp hj]; exact hi)
  have hcall : Inv { s with calls := s.calls ++ [(k, result)] } := by
    refine ⟨⟨?_, fun j hj => ?_, h.kept, h.defined⟩, fun j hj => ?_, .idle hhttp hdirect⟩
    · rw [hcalled]
      exact hnodup
    · rw [hcalled]
      refine List.count_eq_one_of_mem hnodup (List.mem_append_left _ ?_)
      exact List.count_pos_iff.mp (h.once j hj ▸ Nat.one_pos)
    · rw [hcalled] at hj
      rcases List.mem_append.mp hj with hj | hj
      · exact h.bound j hj
      · rw [List.mem_singleton.mp hj]
        exact hlast ▸ Nat.lt_succ_self k
  have hstart : (s.call k result reconnect).Inv := hcall.start reconnect
  refine ⟨⟨hstart.atMostOnce, fun j hj => ?_, hstart.kept, hstart.defined⟩, hstart.bound, ?_⟩
  · rcases List.mem_append.mp hj with hj | hj
    · exact hstart.once j hj
    · rw [List.mem_singleton.mp hj]
      show (s.call k result reconnect).called.count k = 1
      rw [called_call]
      exact List.count_eq_one_of_mem hnodup (List.mem_append_right _ (List.mem_singleton_self k))
  · cases hstart.busy with
    | idle hh hd => exact .idle hh hd
    | http tls j stage h1 h2 h3 h4 h5 h6 => exact .http tls j stage h1 h2 h3 h4 h5 h6
    | direct j stage h1 h2 h3 h4 => exact .direct j stage h1 h2 h3 h4

/-! ## The end of an HTTP request -/

@[simp] theorem setHttp_setHttp (s : Client) (tls : Bool) (c d : HttpClient) :
    (s.setHttp tls c).setHttp tls d = s.setHttp tls d := by
  unfold setHttp
  dsimp only
  rw [Function.update_idem]

theorem setHttp_self (s : Client) (tls : Bool) : s.setHttp tls (s.http tls) = s := by
  rw [setHttp, Function.update_eq_self]

/-- The endpoint is there where it is asked for. -/
def Obtainable (o : Completed) : Prop :=
  o.ec = .success → o.status = 101 → o.endpoint = true

/-- Then the handler of the attempt is called. -/
theorem respond_eq_call (s : Client) (tls : Bool) (k : Nat) {o : Completed}
    (ho : Obtainable o) (reconnect : Option String) :
    ∃ result moved, s.respond tls k o reconnect =
      (s.setHttp tls { s.http tls with streamMoved := moved }).call k result reconnect := by
  have hsame : s.setHttp tls { s.http tls with streamMoved := (s.http tls).streamMoved } = s :=
    setHttp_self s tls
  rw [respond]
  by_cases hec : o.ec = .success
  · rw [if_neg (not_not.mpr hec)]
    by_cases hstatus : o.status = 101
    · rw [if_neg (not_not.mpr hstatus), if_neg (not_not.mpr (ho hec hstatus))]
      exact ⟨.connected, tls, rfl⟩
    · rw [if_pos hstatus]
      exact ⟨.badStatus, (s.http tls).streamMoved, by rw [hsame]⟩
  · rw [if_pos hec]
    exact ⟨.failed o.ec, (s.http tls).streamMoved, by rw [hsame]⟩

/-- **Completing a request** whose handler does not start another one here. -/
theorem complete_eq_call (s : Client) {tls : Bool} {k : Nat} {o : Completed}
    (hhandler : (s.http tls).handler = some k) (ho : Obtainable o) {reconnect : Option String}
    (hother : reconnect ≠ some (schemeOf tls)) :
    ∃ result moved, s.complete tls o reconnect =
      (s.setHttp tls { s.http tls with handler := none, streamMoved := moved }).call k result
        reconnect := by
  obtain ⟨result, moved, hrespond⟩ := respond_eq_call s tls k ho reconnect
  rw [call_setHttp s hother] at hrespond
  have hcalled : k ∈ (s.respond tls k o reconnect).called := by
    rw [hrespond]
    show k ∈ (s.call k result reconnect).called
    rw [called_call]
    exact List.mem_append_right _ (List.mem_singleton_self k)
  have hhttp : (s.respond tls k o reconnect).http tls =
      { s.http tls with streamMoved := moved } := by
    rw [hrespond, http_setHttp_self]
  refine ⟨result, moved, ?_⟩
  rw [call_setHttp s hother, complete, hhandler]
  dsimp only
  rw [hhttp, show ({ s.http tls with streamMoved := moved } : HttpClient).handler = some k from
    hhandler, lose_of_called hcalled, hhttp, hrespond, setHttp_setHttp]

/-- What is under way if an HTTP client has a request. -/
theorem Inv.request (h : s.Inv) {tls : Bool} {k : Nat} {stage : RequestStage}
    (hrequest : (s.http tls).request = some (k, stage)) :
    (s.http tls).handler = some k ∧ (∀ t, t ≠ tls → (s.http t).Idle) ∧ s.direct = [] ∧
      k + 1 = s.next ∧ k ∉ s.called := by
  cases h.busy with
  | idle hhttp _ =>
      rw [(hhttp tls).2] at hrequest
      cases hrequest
  | direct _ _ hhttp _ _ _ =>
      rw [(hhttp tls).2] at hrequest
      cases hrequest
  | http t j stage' hhandler hreq hothers hdirect hlast hnew =>
      by_cases ht : tls = t
      · subst ht
        rw [hreq] at hrequest
        obtain ⟨rfl, rfl⟩ := Prod.mk.inj (Option.some.inj hrequest)
        exact ⟨hhandler, hothers, hdirect, hlast, hnew⟩
      · rw [(hothers tls ht).2] at hrequest
        cases hrequest

/-- An HTTP client that is done. -/
theorem Inv.setHttp_idle (h : s.Inv) {tls : Bool} (hothers : ∀ t, t ≠ tls → (s.http t).Idle)
    (hdirect : s.direct = []) {c : HttpClient} (hc : c.Idle) :
    (s.setHttp tls c).Inv ∧ ∀ t, ((s.setHttp tls c).http t).Idle := by
  have hidle : ∀ t, ((s.setHttp tls c).http t).Idle := by
    intro t
    by_cases ht : t = tls
    · rw [ht, http_setHttp_self]
      exact hc
    · rw [http_setHttp_ne s ht]
      exact hothers t ht
  exact ⟨⟨⟨h.atMostOnce, h.once, h.kept, h.defined⟩, h.bound, .idle hidle hdirect⟩, hidle⟩

/-- **An operation of an HTTP client** that is careful keeps the invariant. -/
theorem Inv.httpStep (h : s.Inv) {tls : Bool} {o : Completed} {reconnect : Option String}
    (hcareful : s.Careful (.http tls o reconnect)) : (s.httpStep tls o reconnect).Inv := by
  rw [Client.httpStep]
  rw [Careful] at hcareful
  cases hrequest : (s.http tls).request with
  | none => exact h
  | some entry =>
      obtain ⟨k, stage⟩ := entry
      obtain ⟨hhandler, hothers, hdirect, hlast, hnew⟩ := h.request hrequest
      rw [hrequest] at hcareful
      dsimp only at hcareful ⊢
      by_cases hend : isLast stage o = true
      · rw [if_pos hend] at hcareful ⊢
        have hstored : ((s.setHttp tls { s.http tls with request := none }).http tls).handler =
            some k := by
          rw [http_setHttp_self]
          exact hhandler
        obtain ⟨result, moved, hcomplete⟩ := complete_eq_call
          (s.setHttp tls { s.http tls with request := none }) hstored hcareful.1 hcareful.2
        rw [setHttp_setHttp, http_setHttp_self] at hcomplete
        rw [hcomplete]
        obtain ⟨hinv, hidle⟩ := h.setHttp_idle hothers hdirect
          (c := ⟨none, none, moved⟩) ⟨rfl, rfl⟩
        exact hinv.call hidle hdirect hlast hnew result reconnect
      · rw [if_neg hend] at hcareful ⊢
        rw [if_neg hcareful]
        refine ⟨⟨h.atMostOnce, h.once, h.kept, h.defined⟩, h.bound, ?_⟩
        refine .http tls k (stage.next tls) ?_ ?_ (fun t ht => ?_) hdirect hlast hnew
        · rw [http_setHttp_self]
          exact hhandler
        · rw [http_setHttp_self]
        · rw [http_setHttp_ne s ht]
          exact hothers t ht

/-! ## Direct attempts -/

/-- What is under way if there is a direct attempt. -/
theorem Inv.directEntry (h : s.Inv) {i k : Nat} {stage : DirectStage}
    (hentry : s.direct[i]? = some (k, stage)) :
    i = 0 ∧ s.direct = [(k, stage)] ∧ (∀ tls, (s.http tls).Idle) ∧ k + 1 = s.next ∧
      k ∉ s.called := by
  cases h.busy with
  | idle _ hdirect =>
      rw [hdirect] at hentry
      cases hentry
  | http _ _ _ _ _ _ hdirect _ _ =>
      rw [hdirect] at hentry
      cases hentry
  | direct j stage' hhttp hdirect hlast hnew =>
      rw [hdirect] at hentry
      cases i with
      | zero =>
          obtain ⟨rfl, rfl⟩ := Prod.mk.inj (Option.some.inj hentry)
          exact ⟨rfl, hdirect, hhttp, hlast, hnew⟩
      | succ i => cases hentry

/-- **An operation of a direct attempt** that is careful keeps the invariant. -/
theorem Inv.directStep (h : s.Inv) {i : Nat} {o : Completed} {reconnect : Option String}
    (hcareful : s.Careful (.direct i o reconnect)) : (s.directStep i o reconnect).Inv := by
  rw [Client.directStep]
  rw [Careful] at hcareful
  cases hentry : s.direct[i]? with
  | none => exact h
  | some entry =>
      obtain ⟨k, stage⟩ := entry
      obtain ⟨rfl, hdirect, hhttp, hlast, hnew⟩ := h.directEntry hentry
      rw [hentry] at hcareful
      have herase : s.direct.eraseIdx 0 = [] := by
        rw [hdirect, List.eraseIdx_cons_zero]
      have hrest : Inv { s with direct := s.direct.eraseIdx 0 } :=
        ⟨⟨h.atMostOnce, h.once, h.kept, h.defined⟩, h.bound, .idle hhttp herase⟩
      dsimp only at hcareful ⊢
      by_cases hec : o.ec = .success
      · rw [if_neg (not_not.mpr hec)]
        cases stage with
        | resolve =>
            refine ⟨⟨h.atMostOnce, h.once, h.kept, h.defined⟩, h.bound, ?_⟩
            refine .direct k .connect hhttp ?_ hlast hnew
            show s.direct.set 0 (k, .connect) = _
            rw [hdirect, List.set_cons_zero]
        | connect =>
            have hendpoint : o.endpoint = true := hcareful hec
            dsimp only
            rw [if_pos hendpoint]
            exact hrest.call hhttp herase hlast hnew .connected reconnect
      · rw [if_pos hec]
        exact hrest.call hhttp herase hlast hnew (.failed o.ec) reconnect

/-- **Every careful event keeps the invariant.** -/
theorem Inv.step (h : s.Inv) {e : Event} (hcareful : s.Careful e) : (s.step e).Inv := by
  cases e with
  | connect scheme => exact h.start (some scheme)
  | http tls o reconnect => exact h.httpStep hcareful
  | direct i o reconnect => exact h.directStep hcareful

/-! ## Careless events -/

theorem not_good_finish {k : Nat} (hnew : k ∉ s.called) : ¬ (s.finish k).Good := by
  intro hgood
  have hcount : s.called.count k = 1 :=
    hgood.once k (List.mem_append_right _ (List.mem_singleton_self k))
  rw [List.count_eq_zero_of_not_mem hnew] at hcount
  cases hcount

theorem lost_lose_of_new {k : Nat} (hnew : k ∉ s.called) : (s.lose (some k)).lost ≠ [] := by
  rw [lose, if_neg hnew]
  exact List.append_ne_nil_of_right_ne_nil _ (List.cons_ne_nil _ _)

theorem called_respond_of_unobtainable {tls : Bool} {k : Nat} {o : Completed}
    (ho : ¬ Obtainable o) (reconnect : Option String) : s.respond tls k o reconnect = s := by
  have hall : o.ec = .success ∧ o.status = 101 ∧ ¬ o.endpoint = true := by
    by_contra hnot
    exact ho fun hec hstatus => by_contra fun hendpoint => hnot ⟨hec, hstatus, hendpoint⟩
  rw [respond, if_neg (not_not.mpr hall.1), if_neg (not_not.mpr hall.2.1), if_pos hall.2.2]

/-- A handler that starts an attempt on the HTTP client that is calling it. -/
theorem handler_call_again {tls : Bool} {k : Nat} (hlast : k + 1 = s.next)
    (result : ConnectResult) :
    ((s.call k result (some (schemeOf tls))).http tls).handler = some s.next := by
  have hentered : ({ s with calls := s.calls ++ [(k, result)] } : Client).entered = true :=
    entered_of_called (s := { s with calls := s.calls ++ [(k, result)] }) hlast
      (by simp [called])
  have hrequest (t : Client) (j : Nat) : ((t.asyncRequest tls j).http tls).handler = some j := by
    rw [asyncRequest]
    dsimp only
    rw [http_setHttp_self]
  rw [Client.call, Client.start, if_pos hentered, Client.asyncConnect]
  dsimp only
  cases tls with
  | false =>
      rw [if_pos rfl]
      exact hrequest _ _
  | true =>
      rw [if_neg (by decide), if_pos rfl]
      exact hrequest _ _

/-- What completing a request leaves of the record. -/
theorem complete_record {tls : Bool} {k : Nat} (hhandler : (s.http tls).handler = some k)
    (o : Completed) (reconnect : Option String) :
    (s.complete tls o reconnect).called = (s.respond tls k o reconnect).called ∧
    (s.complete tls o reconnect).lost = ((s.respond tls k o reconnect).lose
      ((s.respond tls k o reconnect).http tls).handler).lost := by
  rw [complete, hhandler]
  exact ⟨called_lose _ _, rfl⟩

/-- **Careless operations of an HTTP client** break a law. -/
theorem not_good_httpStep (h : s.Inv) {tls : Bool} {o : Completed} {reconnect : Option String}
    (hcareless : ¬ s.Careful (.http tls o reconnect)) : ¬ (s.httpStep tls o reconnect).Good := by
  rw [Client.httpStep]
  rw [Careful] at hcareless
  cases hrequest : (s.http tls).request with
  | none =>
      rw [hrequest] at hcareless
      exact absurd trivial hcareless
  | some entry =>
      obtain ⟨k, stage⟩ := entry
      obtain ⟨hhandler, hothers, hdirect, hlast, hnew⟩ := h.request hrequest
      rw [hrequest] at hcareless
      dsimp only at hcareless ⊢
      by_cases hend : isLast stage o = true
      · rw [if_pos hend] at hcareless ⊢
        have hstored : ((s.setHttp tls { s.http tls with request := none }).http tls).handler =
            some k := by
          rw [http_setHttp_self]
          exact hhandler
        obtain ⟨hcalled, hlost⟩ := complete_record hstored o reconnect
        by_cases ho : Obtainable o
        · -- The handler is called, and what it has started is cleared.
          have hagain : reconnect = some (schemeOf tls) :=
            by_contra fun hother => hcareless ⟨ho, hother⟩
          obtain ⟨result, moved, hrespond⟩ := respond_eq_call
            (s.setHttp tls { s.http tls with request := none }) tls k ho reconnect
          rw [hrespond, hagain, handler_call_again (by exact hlast)] at hlost
          intro hgood
          have hkept := hgood.kept
          rw [← hagain] at hlost
          refine lost_lose_of_new ?_ (hlost.symm.trans hkept)
          rw [called_call]
          intro hmem
          rcases List.mem_append.mp hmem with hmem | hmem
          · exact Nat.lt_irrefl _ (h.bound _ hmem)
          · exact Nat.succ_ne_self k (hlast.trans (List.mem_singleton.mp hmem))
        · -- The handler is not called.
          rw [called_respond_of_unobtainable ho] at hcalled
          apply not_good_finish
          rw [hcalled]
          exact hnew
      · rw [if_neg hend] at hcareless ⊢
        rw [if_pos (not_not.mp hcareless)]
        intro hgood
        cases hgood.defined

theorem not_good_directStep (h : s.Inv) {i : Nat} {o : Completed} {reconnect : Option String}
    (hcareless : ¬ s.Careful (.direct i o reconnect)) :
    ¬ (s.directStep i o reconnect).Good := by
  rw [Client.directStep]
  rw [Careful] at hcareless
  cases hentry : s.direct[i]? with
  | none =>
      rw [hentry] at hcareless
      exact absurd trivial hcareless
  | some entry =>
      obtain ⟨k, stage⟩ := entry
      obtain ⟨rfl, hdirect, hhttp, hlast, hnew⟩ := h.directEntry hentry
      rw [hentry] at hcareless
      cases stage with
      | resolve => exact absurd trivial hcareless
      | connect =>
          have hall : o.ec = .success ∧ ¬ o.endpoint = true := by
            by_contra hnot
            exact hcareless fun hec => by_contra fun hendpoint => hnot ⟨hec, hendpoint⟩
          dsimp only
          rw [if_neg (not_not.mpr hall.1), if_neg hall.2]
          exact not_good_finish (s := { s with direct := s.direct.eraseIdx 0 }) hnew

theorem not_good_of_careless (h : s.Inv) {e : Event} (hcareless : ¬ s.Careful e) :
    ¬ (s.step e).Good := by
  cases e with
  | connect scheme => exact absurd trivial hcareless
  | http tls o reconnect => exact not_good_httpStep h hcareless
  | direct i o reconnect => exact not_good_directStep h hcareless

/-! ## Runs -/

/-- **Connect handlers are called exactly once, exactly in careful runs.** -/
theorem handlers_called_once_iff (events : List Event) :
    Meets step (fun s e => Good (s.step e)) {} events ↔ Meets step Careful {} events := by
  apply meets_iff Inv
  · exact fun s e h hcareful => h.step hcareful
  · intro s e h
    exact ⟨fun hgood => by_contra fun hcareless => not_good_of_careless h hcareless hgood,
      fun hcareful => (h.step hcareful).toGood⟩
  · exact ⟨⟨List.nodup_nil, nofun, rfl, rfl⟩, nofun, .idle (fun _ => ⟨rfl, rfl⟩) rfl⟩

/-- An attempt that is refused, with a handler that tries again at once. -/
def reconnecting : List Event :=
  [.connect "ws", .http false { ec := .success } none, .http false { ec := .other 111 } (some "ws"),
    .http false { ec := .success } none, .http false { ec := .other 111 } none]

/-- The handler of the second attempt is never called, although it is over. -/
theorem reconnect_is_lost :
    ¬ ∀ events : List Event, Good (events.foldl step {}) := by
  intro hclaim
  have hgood := hclaim reconnecting
  have hlost : (reconnecting.foldl step {}).lost = [1] := by decide +kernel
  rw [hgood.kept] at hlost
  cases hlost

end WsStreaming.Ports.Client
