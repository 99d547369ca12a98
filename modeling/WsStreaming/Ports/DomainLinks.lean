import WsStreaming.Verified.OrderedMap

/-!
# Links to domain tables

A registered signal may own a table, and it may hold a weak pointer to the table
of the signal that it names.  The pointer is set when the signal itself is
connected or described anew; what the signal names can be replaced, destroyed
or created at other times.  Here only that is left of a registered signal: a
*link*.

`WellBound` says that the pointer of each connected link is the current one.
It is kept by a link that is refreshed, by one that is inserted and by one that
is erased, under conditions on the links that name it.

## Main results

* `WellBound.refresh`, `WellBound.describe`, `WellBound.insert`,
  `WellBound.erase`.
-/

namespace WsStreaming.Ports

open WsStreaming.Verified
open WsStreaming.Verified.OrderedMap (OMap Distinct)

/-- What a registered signal says about tables.  It does not name itself. -/
structure Link where
  id : String
  names : Option String
  linear : Bool
  signo : UInt32
  own : Option Nat
  domainSigno : UInt32
  domainTable : Option Nat
  slot : Bool
  proper : names ≠ some id

namespace Link

/-- A linear-rule signal has a table, and no other one has. -/
def InSync (l : Link) : Prop := l.own.isSome = l.linear

/-- The own table and the binding, as a refresh sets them. -/
def refresh (l : Link) (fresh : Nat) (domain : Option Link) : Link :=
  { l with
    own := if l.linear then some (l.own.getD fresh) else none
    domainSigno := (domain.map signo).getD 0
    domainTable := domain.bind own }

/-- The slots are connected, or not. -/
def withSlot (l : Link) (slot : Bool) : Link := { l with slot := slot }

theorem inSync_refresh (l : Link) (fresh : Nat) (domain : Option Link) :
    (l.refresh fresh domain).InSync := by
  unfold InSync refresh
  dsimp only
  cases l.linear <;> rfl

end Link

/-- The links of the registered signals, by number. -/
abbrev Links := OMap UInt32 Link

namespace Links

/-- The first link with an id. -/
def findById (m : Links) (id : String) : Option (UInt32 × Link) :=
  m.find? fun e => e.2.id = id

/-- The link that a link names. -/
def domainOf (m : Links) (l : Link) : Option (UInt32 × Link) := l.names.bind m.findById

/-- A table is there. -/
def Live (m : Links) (a : Nat) : Prop := ∃ e ∈ m, e.2.own = some a

/-- The weak pointer leads nowhere. -/
def Dead (m : Links) (l : Link) : Prop := ∀ a, l.domainTable = some a → ¬ m.Live a

/-- The binding of a link is the current one. -/
def Bound (m : Links) (l : Link) : Prop :=
  match m.domainOf l with
  | none => m.Dead l
  | some (_, d) =>
      if d.linear then ∃ a, d.own = some a ∧ l.domainTable = some a ∧ l.domainSigno = d.signo
      else m.Dead l

/-- Tables are owned once, and below the next address; and connected links are
in sync and bound. -/
structure WellBound (m : Links) (fresh : Nat) : Prop where
  distinct : Distinct m
  own_lt : ∀ e ∈ m, ∀ a, e.2.own = some a → a < fresh
  own_inj : ∀ e ∈ m, ∀ e' ∈ m, ∀ a, e.2.own = some a → e'.2.own = some a → e.1 = e'.1
  weak_lt : ∀ e ∈ m, ∀ a, e.2.domainTable = some a → a < fresh
  sync : ∀ e ∈ m, e.2.slot = true → e.2.InSync
  bound : ∀ e ∈ m, e.2.slot = true → m.Bound e.2

section

variable {m : Links} {k : UInt32} {l new : Link}

theorem bound_of_none (h : m.domainOf l = none) : m.Bound l ↔ m.Dead l := by
  unfold Bound
  rw [h]

theorem bound_of_linear {d : UInt32} {t : Link} (h : m.domainOf l = some (d, t))
    (ht : t.linear = true) :
    m.Bound l ↔ ∃ a, t.own = some a ∧ l.domainTable = some a ∧ l.domainSigno = t.signo := by
  unfold Bound
  rw [h]
  dsimp only
  rw [if_pos ht]

theorem bound_of_not_linear {d : UInt32} {t : Link} (h : m.domainOf l = some (d, t))
    (ht : ¬ t.linear = true) : m.Bound l ↔ m.Dead l := by
  unfold Bound
  rw [h]
  dsimp only
  rw [if_neg ht]

theorem find?_of_domainOf (hm : Distinct m) {d : UInt32} {t : Link}
    (h : m.domainOf l = some (d, t)) : OrderedMap.find? m d = some t := by
  obtain ⟨id, -, hfind⟩ := Option.bind_eq_some_iff.mp h
  exact (OrderedMap.find?_eq_some_iff hm).mpr (List.mem_of_find?_eq_some hfind)

/-- A link under a number names another one. -/
theorem ne_of_domainOf (hm : Distinct m) (hk : OrderedMap.find? m k = some l)
    (hid : new.id = l.id) {d : UInt32} {t : Link} (h : m.domainOf new = some (d, t)) : d ≠ k := by
  intro hdk
  obtain ⟨id, hnames, hfind⟩ := Option.bind_eq_some_iff.mp h
  have ht := (OrderedMap.find?_eq_some_iff hm).mpr (List.mem_of_find?_eq_some hfind)
  rw [hdk, hk] at ht
  have htid : t.id = id := by
    have hsome := List.find?_some hfind
    simpa using hsome
  apply new.proper
  rw [hnames, hid, Option.some.inj ht, htid]

theorem domainOf_modify (hm : Distinct m) (hk : OrderedMap.find? m k = some l)
    (hid : new.id = l.id) (v : Link) :
    Links.domainOf (OrderedMap.modify m k fun _ => new) v =
      (m.domainOf v).map fun e => if e.1 = k then (k, new) else e := by
  unfold domainOf
  cases v.names with
  | none => rfl
  | some id =>
      apply OrderedMap.find_modify (p := fun t => t.id = id) hm hk
      rw [hid]

/-- What was dead stays dead if no old address comes back to life. -/
theorem Dead.modify {fresh : Nat} {v : Link} (h : m.Dead v)
    (hweak : ∀ a, v.domainTable = some a → a < fresh)
    (hk : OrderedMap.find? m k = some l)
    (hown : ∀ a, new.own = some a → l.own = some a ∨ fresh ≤ a) :
    Links.Dead (OrderedMap.modify m k fun _ => new) v := by
  rintro a ha ⟨e, he, hea⟩
  rcases OrderedMap.mem_modify_const he with rfl | ⟨-, he⟩
  · rcases hown a hea with hold | hge
    · exact h a ha ⟨(k, l), OrderedMap.mem_of_find?_eq_some hk, hold⟩
    · have hlt := hweak a ha
      omega
  · exact h a ha ⟨e, he, hea⟩

/-- Another connected link stays bound: what it names may be the changed one,
and then a linear rule goes with the same table, and no rule becomes linear. -/
theorem WellBound.bound_modify {fresh : Nat} (h : m.WellBound fresh)
    (hk : OrderedMap.find? m k = some l) (hid : new.id = l.id) (hsigno : new.signo = l.signo)
    (hfresh : ∀ a, new.own = some a → l.own = some a ∨ fresh ≤ a) {e : UInt32 × Link} (he : e ∈ m)
    (hslot : e.2.slot = true)
    (hnamed : m.domainOf e.2 = some (k, l) →
      (new.linear = true → l.linear = true) ∧
      (l.linear = true → new.own = if new.linear then l.own else none)) :
    Links.Bound (OrderedMap.modify m k fun _ => new) e.2 := by
  have hold := h.bound e he hslot
  have hdomain := domainOf_modify h.distinct hk hid e.2
  have hdead (hdead : m.Dead e.2) : Links.Dead (OrderedMap.modify m k fun _ => new) e.2 :=
    hdead.modify (h.weak_lt e he) hk hfresh
  cases hfound : m.domainOf e.2 with
  | none =>
      rw [hfound, Option.map_none] at hdomain
      exact (bound_of_none hdomain).mpr (hdead ((bound_of_none hfound).mp hold))
  | some found =>
      obtain ⟨d, t⟩ := found
      have ht := find?_of_domainOf h.distinct hfound
      rw [hfound, Option.map_some] at hdomain
      by_cases hdk : d = k
      · rw [if_pos hdk] at hdomain
        rw [hdk, hk] at ht
        obtain rfl := Option.some.inj ht
        rw [hdk] at hfound
        have hnamed := hnamed hfound
        by_cases hlinear : new.linear = true
        · have hwas := hnamed.1 hlinear
          apply (bound_of_linear hdomain hlinear).mpr
          rw [hnamed.2 hwas, if_pos hlinear, hsigno]
          exact (bound_of_linear hfound hwas).mp hold
        · apply (bound_of_not_linear hdomain hlinear).mpr
          by_cases hwas : l.linear = true
          · -- The table that it is bound to is gone.
            obtain ⟨b, hb, hweakb, -⟩ := (bound_of_linear hfound hwas).mp hold
            rintro a ha ⟨e', he', hea⟩
            rw [hweakb] at ha
            obtain rfl := Option.some.inj ha
            rcases OrderedMap.mem_modify_const he' with rfl | ⟨hne', hother⟩
            · rw [hnamed.2 hwas, if_neg hlinear] at hea
              cases hea
            · exact hne' (h.own_inj e' hother (k, l) (OrderedMap.mem_of_find?_eq_some hk) b hea hb)
          · exact hdead ((bound_of_not_linear hfound hwas).mp hold)
      · rw [if_neg hdk] at hdomain
        by_cases hlinear : t.linear = true
        · exact (bound_of_linear hdomain hlinear).mpr ((bound_of_linear hfound hlinear).mp hold)
        · exact (bound_of_not_linear hdomain hlinear).mpr
            (hdead ((bound_of_not_linear hfound hlinear).mp hold))

/-- **A change of one link.**  Its table is the old one or a fresh one; if a
connected link names it, a linear rule goes with the same table and no rule
becomes linear. -/
theorem WellBound.modify {fresh fresh' : Nat} (h : m.WellBound fresh) (hle : fresh ≤ fresh')
    (hk : OrderedMap.find? m k = some l)
    (new : Link) (hid : new.id = l.id) (hsigno : new.signo = l.signo)
    (hown : ∀ a, new.own = some a → l.own = some a ∨ fresh ≤ a ∧ a < fresh')
    (hweak : ∀ a, new.domainTable = some a → a < fresh')
    (hsync : new.slot = true → new.InSync)
    (hbound : new.slot = true → Links.Bound (OrderedMap.modify m k fun _ => new) new)
    (hnamed : ∀ e ∈ m, e.1 ≠ k → e.2.slot = true → m.domainOf e.2 = some (k, l) →
      (new.linear = true → l.linear = true) ∧
      (l.linear = true → new.own = if new.linear then l.own else none)) :
    Links.WellBound (OrderedMap.modify m k fun _ => new) fresh' := by
  have hmem := OrderedMap.mem_of_find?_eq_some hk
  have hfresh : ∀ a, new.own = some a → l.own = some a ∨ fresh ≤ a := by
    intro a ha
    rcases hown a ha with hold | hnew
    · exact .inl hold
    · exact .inr hnew.1
  constructor
  · exact h.distinct.modify k _
  · intro e he a ha
    rcases OrderedMap.mem_modify_const he with rfl | ⟨-, he⟩
    · rcases hown a ha with hold | hnew
      · exact Nat.lt_of_lt_of_le (h.own_lt _ hmem a hold) hle
      · exact hnew.2
    · exact Nat.lt_of_lt_of_le (h.own_lt e he a ha) hle
  · intro e he e' he' a ha ha'
    rcases OrderedMap.mem_modify_const he with rfl | ⟨hne, he⟩
    · rcases OrderedMap.mem_modify_const he' with rfl | ⟨hne', he'⟩
      · rfl
      · rcases hown a ha with hold | hnew
        · exact h.own_inj (k, l) hmem e' he' a hold ha'
        · exact absurd (h.own_lt e' he' a ha') (Nat.not_lt.mpr hnew.1)
    · rcases OrderedMap.mem_modify_const he' with rfl | ⟨hne', he'⟩
      · rcases hown a ha' with hold | hnew
        · exact h.own_inj e he (k, l) hmem a ha hold
        · exact absurd (h.own_lt e he a ha) (Nat.not_lt.mpr hnew.1)
      · exact h.own_inj e he e' he' a ha ha'
  · intro e he a ha
    rcases OrderedMap.mem_modify_const he with rfl | ⟨-, he⟩
    · exact hweak a ha
    · exact Nat.lt_of_lt_of_le (h.weak_lt e he a ha) hle
  · intro e he hslot
    rcases OrderedMap.mem_modify_const he with rfl | ⟨-, he⟩
    · exact hsync hslot
    · exact h.sync e he hslot
  · intro e he hslot
    rcases OrderedMap.mem_modify_const he with rfl | ⟨hne, hother⟩
    · exact hbound hslot
    · exact h.bound_modify hk hid hsigno hfresh hother hslot (hnamed e hother hne hslot)

/-- A link that is bound to what it names is bound, if that is in sync. -/
theorem bound_self {fresh : Nat} (h : m.WellBound fresh) (hk : OrderedMap.find? m k = some l)
    (new : Link) (hid : new.id = l.id)
    (hsigno : new.domainSigno = ((m.domainOf new).map fun e => e.2.signo).getD 0)
    (htable : new.domainTable = (m.domainOf new).bind fun e => e.2.own)
    (hdomain : ∀ e ∈ m.domainOf new, e.2.InSync) :
    Links.Bound (OrderedMap.modify m k fun _ => new) new := by
  have hfound := domainOf_modify h.distinct hk hid new
  cases hsome : m.domainOf new with
  | none =>
      rw [hsome, Option.map_none] at hfound
      apply (bound_of_none hfound).mpr
      intro a ha
      rw [htable, hsome] at ha
      cases ha
  | some found =>
      obtain ⟨d, t⟩ := found
      have hne := ne_of_domainOf h.distinct hk hid hsome
      have hin : t.InSync := hdomain (d, t) hsome
      rw [hsome] at hsigno htable
      rw [hsome, Option.map_some, if_neg hne] at hfound
      by_cases hlinear : t.linear = true
      · have hown : t.own.isSome = true := hin.trans hlinear
        obtain ⟨a, ha⟩ := Option.isSome_iff_exists.mp hown
        exact (bound_of_linear hfound hlinear).mpr ⟨a, ha, htable.trans ha, hsigno⟩
      · apply (bound_of_not_linear hfound hlinear).mpr
        intro a ha
        have hown : t.own = some a := htable.symm.trans ha
        have hsync : t.own.isSome = t.linear := hin
        rw [hown] at hsync
        exact absurd hsync.symm hlinear

/-- **A link is refreshed**, as another one with the same id, number and
table. -/
theorem WellBound.refresh {fresh : Nat} (h : m.WellBound fresh)
    (hk : OrderedMap.find? m k = some l) (l' : Link) (hid : l'.id = l.id)
    (hsigno : l'.signo = l.signo) (hown : l'.own = l.own)
    (hdomain : ∀ e ∈ m.domainOf l', e.2.InSync)
    (hnamed : l'.linear = true → ¬ l.linear = true →
      ∀ e ∈ m, e.1 ≠ k → e.2.slot = true → m.domainOf e.2 ≠ some (k, l)) (b : Bool) :
    Links.WellBound (OrderedMap.modify m k fun _ =>
      (l'.refresh fresh ((m.domainOf l').map Prod.snd)).withSlot b) (fresh + 1) := by
  apply h.modify (Nat.le_succ fresh) hk
    ((l'.refresh fresh ((m.domainOf l').map Prod.snd)).withSlot b) hid hsigno
  · intro a ha
    change (if l'.linear then some (l'.own.getD fresh) else none) = some a at ha
    split at ha
    · cases hold : l.own with
      | none =>
          rw [hown, hold] at ha
          obtain rfl := Option.some.inj ha
          exact .inr ⟨Nat.le_refl fresh, Nat.lt_succ_self fresh⟩
      | some a' =>
          rw [hown, hold] at ha
          exact .inl ha
    · cases ha
  · intro a ha
    change ((m.domainOf l').map Prod.snd).bind Link.own = some a at ha
    obtain ⟨t, ht, hta⟩ := Option.bind_eq_some_iff.mp ha
    obtain ⟨e, he, rfl⟩ := Option.map_eq_some_iff.mp ht
    have hmem := OrderedMap.mem_of_find?_eq_some
      (find?_of_domainOf h.distinct (show m.domainOf l' = some (e.1, e.2) from he))
    exact Nat.lt_succ_of_lt (h.own_lt _ hmem a hta)
  · exact fun _ => l'.inSync_refresh fresh ((m.domainOf l').map Prod.snd)
  · intro _
    apply bound_self h hk ((l'.refresh fresh ((m.domainOf l').map Prod.snd)).withSlot b) hid
    · change (((m.domainOf l').map Prod.snd).map Link.signo).getD 0 = _
      rw [Option.map_map]
      rfl
    · change ((m.domainOf l').map Prod.snd).bind Link.own = _
      rw [Option.bind_map]
      rfl
    · exact hdomain
  · intro e he hne hslot hfound
    have hrise : l'.linear = true → l.linear = true := by
      intro hlinear
      by_contra hnot
      exact hnamed hlinear hnot e he hne hslot hfound
    refine ⟨hrise, ?_⟩
    intro hwas
    obtain ⟨a, ha, -⟩ := (bound_of_linear hfound hwas).mp (h.bound e he hslot)
    change (if l'.linear then some (l'.own.getD fresh) else none) =
      if l'.linear then l.own else none
    rw [hown, ha]
    rfl

/-- **A link that is not connected is described anew.**  Its table stays what
it was. -/
theorem WellBound.describe {fresh : Nat} (h : m.WellBound fresh)
    (hk : OrderedMap.find? m k = some l) (new : Link) (hid : new.id = l.id)
    (hsigno : new.signo = l.signo) (hown : new.own = l.own)
    (htable : new.domainTable = l.domainTable) (hslot : new.slot = false)
    (hnamed : new.linear ≠ l.linear →
      ∀ e ∈ m, e.1 ≠ k → e.2.slot = true → m.domainOf e.2 ≠ some (k, l)) :
    Links.WellBound (OrderedMap.modify m k fun _ => new) fresh := by
  have hmem := OrderedMap.mem_of_find?_eq_some hk
  apply h.modify (Nat.le_refl fresh) hk new hid hsigno
  · intro a ha
    rw [hown] at ha
    exact .inl ha
  · intro a ha
    rw [htable] at ha
    exact h.weak_lt (k, l) hmem a ha
  · intro hs
    rw [hslot] at hs
    cases hs
  · intro hs
    rw [hslot] at hs
    cases hs
  · intro e he hne hs hfound
    have hsame : new.linear = l.linear := by
      by_contra hnot
      exact hnamed hnot e he hne hs hfound
    refine ⟨fun hlinear => hsame ▸ hlinear, fun hlinear => ?_⟩
    rw [hown, hsame, if_pos hlinear]

/-- **A link comes last**, not connected. -/
theorem WellBound.insert {fresh : Nat} (h : m.WellBound fresh)
    (hk : OrderedMap.find? m k = none) (new : Link) (hslot : new.slot = false)
    (hown : ∀ a, new.own = some a → a = fresh)
    (hweak : ∀ a, new.domainTable = some a → a < fresh + 1)
    (hnamed : new.linear = true → m.findById new.id = none →
      ∀ e ∈ m, e.2.slot = true → e.2.names ≠ some new.id) :
    Links.WellBound (m ++ [(k, new)]) (fresh + 1) := by
  have hmem (e : UInt32 × Link) (he : e ∈ m ++ [(k, new)]) : e ∈ m ∨ e = (k, new) := by
    rcases List.mem_append.mp he with he | he
    · exact .inl he
    · exact .inr (List.mem_singleton.mp he)
  constructor
  · rw [Distinct, List.map_append, List.nodup_append]
    refine ⟨h.distinct, List.pairwise_singleton _ _, ?_⟩
    rintro a ha b hb rfl
    rw [List.map_singleton, List.mem_singleton] at hb
    rw [hb] at ha
    exact OrderedMap.find?_eq_none_iff.mp hk ha
  · intro e he a ha
    rcases hmem e he with he | rfl
    · exact Nat.lt_succ_of_lt (h.own_lt e he a ha)
    · exact (hown a ha) ▸ Nat.lt_succ_self fresh
  · intro e he e' he' a ha ha'
    rcases hmem e he with he | rfl
    · rcases hmem e' he' with he' | rfl
      · exact h.own_inj e he e' he' a ha ha'
      · have hlt := h.own_lt e he a ha
        rw [hown a ha'] at hlt
        exact absurd hlt (Nat.lt_irrefl fresh)
    · rcases hmem e' he' with he' | rfl
      · have hlt := h.own_lt e' he' a ha'
        rw [hown a ha] at hlt
        exact absurd hlt (Nat.lt_irrefl fresh)
      · rfl
  · intro e he a ha
    rcases hmem e he with he | rfl
    · exact Nat.lt_succ_of_lt (h.weak_lt e he a ha)
    · exact hweak a ha
  · intro e he hs
    rcases hmem e he with he | rfl
    · exact h.sync e he hs
    · rw [hslot] at hs
      cases hs
  · intro e he hs
    rcases hmem e he with he | rfl
    · have hold := h.bound e he hs
      have hdead (hdead : m.Dead e.2) : Links.Dead (m ++ [(k, new)]) e.2 := by
        rintro a ha ⟨e', he', hea⟩
        rcases hmem e' he' with he' | rfl
        · exact hdead a ha ⟨e', he', hea⟩
        · have hlt := h.weak_lt e he a ha
          rw [hown a hea] at hlt
          exact Nat.lt_irrefl fresh hlt
      cases hfound : m.domainOf e.2 with
      | some found =>
          have hsame : Links.domainOf (m ++ [(k, new)]) e.2 = some (found.1, found.2) := by
            obtain ⟨id, hid, hfind⟩ := Option.bind_eq_some_iff.mp hfound
            unfold domainOf findById
            rw [hid]
            change (m ++ [(k, new)]).find? _ = _
            rw [List.find?_append, show m.find? _ = some found from hfind]
            rfl
          by_cases hlinear : found.2.linear = true
          · exact (bound_of_linear hsame hlinear).mpr ((bound_of_linear hfound hlinear).mp hold)
          · exact (bound_of_not_linear hsame hlinear).mpr
              (hdead ((bound_of_not_linear hfound hlinear).mp hold))
      | none =>
          have hold := hdead ((bound_of_none hfound).mp hold)
          cases hnew : Links.domainOf (m ++ [(k, new)]) e.2 with
          | none => exact (bound_of_none hnew).mpr hold
          | some found =>
              -- It is the new link that is found.
              obtain ⟨id, hid, hfind⟩ := Option.bind_eq_some_iff.mp hnew
              have hnone : m.findById id = none := by
                unfold domainOf at hfound
                rw [hid] at hfound
                exact hfound
              unfold findById at hfind
              rw [List.find?_append, show m.find? _ = none from hnone, Option.none_or,
                List.find?_singleton] at hfind
              split at hfind
              · rename_i hnewid
                rw [← Option.some.inj hfind] at hnew
                have hnewid : new.id = id := by simpa using hnewid
                have hnot : ¬ new.linear = true := by
                  intro hlinear
                  rw [← hnewid] at hnone hid
                  exact hnamed hlinear hnone e he hs hid
                exact (bound_of_not_linear hnew hnot).mpr hold
              · cases hfind
    · rw [hslot] at hs
      cases hs

/-- **A link is erased.**  If a connected link names it, no linear one with the
id is left. -/
theorem WellBound.erase {fresh : Nat} (h : m.WellBound fresh)
    (hk : OrderedMap.find? m k = some l)
    (hnamed : ∀ e ∈ m, e.1 ≠ k → e.2.slot = true → m.domainOf e.2 = some (k, l) →
      ∀ d ∈ m, d.1 ≠ k → d.2.id = l.id → ¬ d.2.linear = true) :
    Links.WellBound (OrderedMap.erase m k) fresh := by
  have hmem (e : UInt32 × Link) (he : e ∈ OrderedMap.erase m k) : e ∈ m ∧ e.1 ≠ k :=
    OrderedMap.mem_erase.mp he
  refine ⟨h.distinct.erase k, ?_, ?_, ?_, ?_, ?_⟩
  · exact fun e he => h.own_lt e (hmem e he).1
  · exact fun e he e' he' => h.own_inj e (hmem e he).1 e' (hmem e' he').1
  · exact fun e he => h.weak_lt e (hmem e he).1
  · exact fun e he => h.sync e (hmem e he).1
  · intro e he hs
    obtain ⟨he, hne⟩ := hmem e he
    have hold := h.bound e he hs
    have hdead (hdead : m.Dead e.2) : Links.Dead (OrderedMap.erase m k) e.2 := by
      rintro a ha ⟨e', he', hea⟩
      exact hdead a ha ⟨e', (hmem e' he').1, hea⟩
    cases hnames : e.2.names with
    | none =>
        have hnone (m : Links) : m.domainOf e.2 = none := by
          unfold domainOf
          rw [hnames]
          rfl
        exact (bound_of_none (hnone _)).mpr (hdead ((bound_of_none (hnone m)).mp hold))
    | some id =>
        have hfinds (m : Links) : m.domainOf e.2 = m.findById id := by
          unfold domainOf
          rw [hnames]
          rfl
        cases hfound : m.domainOf e.2 with
        | none =>
            have hnone : Links.domainOf (OrderedMap.erase m k) e.2 = none := by
              rw [hfinds] at hfound ⊢
              apply List.find?_eq_none.mpr
              intro e' he'
              exact List.find?_eq_none.mp hfound e' (hmem e' he').1
            exact (bound_of_none hnone).mpr (hdead ((bound_of_none hfound).mp hold))
        | some found =>
            obtain ⟨d, t⟩ := found
            by_cases hdk : d = k
            · -- The table of the erased link is gone with it.
              have htl : t = l := by
                have ht := find?_of_domainOf h.distinct hfound
                rw [hdk, hk] at ht
                exact (Option.some.inj ht).symm
              rw [hdk, htl] at hfound
              have hgone : Links.Dead (OrderedMap.erase m k) e.2 := by
                by_cases hwas : l.linear = true
                · obtain ⟨b, hb, hweakb, -⟩ := (bound_of_linear hfound hwas).mp hold
                  rintro a ha ⟨e', he', hea⟩
                  rw [hweakb] at ha
                  obtain rfl := Option.some.inj ha
                  exact (hmem e' he').2 (h.own_inj e' (hmem e' he').1 (k, l)
                    (OrderedMap.mem_of_find?_eq_some hk) b hea hb)
                · exact hdead ((bound_of_not_linear hfound hwas).mp hold)
              cases hnew : Links.domainOf (OrderedMap.erase m k) e.2 with
              | none => exact (bound_of_none hnew).mpr hgone
              | some found =>
                  have hnot : ¬ found.2.linear = true := by
                    rw [hfinds] at hnew hfound
                    have hin := hmem found (List.mem_of_find?_eq_some hnew)
                    have hid : found.2.id = l.id := by
                      have hnewid := List.find?_some hnew
                      have holdid := List.find?_some hfound
                      rw [decide_eq_true_eq] at hnewid holdid
                      exact hnewid.trans holdid.symm
                    rw [← hfinds] at hfound
                    exact hnamed e he hne hs hfound found hin.1 hin.2 hid
                  exact (bound_of_not_linear (show _ = some (found.1, found.2) from hnew)
                    hnot).mpr hgone
            · have hsame : Links.domainOf (OrderedMap.erase m k) e.2 = some (d, t) := by
                rw [hfinds] at hfound ⊢
                exact OrderedMap.find_erase (p := fun t : Link => t.id = id) hfound hdk
              by_cases hlinear : t.linear = true
              · exact (bound_of_linear hsame hlinear).mpr ((bound_of_linear hfound hlinear).mp hold)
              · exact (bound_of_not_linear hsame hlinear).mpr
                  (hdead ((bound_of_not_linear hfound hlinear).mp hold))

end

end Links

end WsStreaming.Ports
