import WsStreaming.Verified.Regex

/-!
# URLs

`wss::detail::url` takes a URL apart with one regular expression.  The pattern
is tied to the beginning of the string and not to its end, so that whatever
follows a scheme and a host and is no port or path is passed over.  The digits
of a port are converted by `atoi` and cut off to sixteen bits.

## Main results

* `hasHead_of_parse`, `parse_of_hasHead` — the strings that are accepted.
* `parse_of_isUrl` — what becomes of a URL.
* `exact_iff` — when the components account for the whole string.
* `exact_trailing` — a string with something behind its host.
-/

namespace WsStreaming.Ports

open WsStreaming.Verified
open WsStreaming.Verified.Scan (decimal)
open WsStreaming.Verified.Regex (Pattern State)

namespace Url

/-! ## The pattern -/

/-- `[^:]`. -/
def isSchemeChar (c : Char) : Bool := c ≠ ':'

/-- `[^\[\]:/]`. -/
def isHostChar (c : Char) : Bool := c ≠ '[' && c ≠ ']' && c ≠ ':' && c ≠ '/'

/-- `[^\[\]/]`. -/
def isBracketedChar (c : Char) : Bool := c ≠ '[' && c ≠ ']' && c ≠ '/'

/-- `.`, anything but a line terminator. -/
def isPathChar (c : Char) : Bool := c ≠ '\n' && c ≠ '\r'

/-- One character. -/
def literal (c : Char) : Pattern Char := .symbol fun x => x = c

/-- `[^\[\]:/]+`. -/
def plainHost : Pattern Char := .plus isHostChar

/-- `\[[^\[\]/]+\]`. -/
def bracketedHost : Pattern Char :=
  .seq (literal '[') (.seq (.plus isBracketedChar) (literal ']'))

/-- `(?::(\d+))?`. -/
def portPattern : Pattern Char := .option (.seq (literal ':') (.group 3 (.plus Char.isDigit)))

/-- `(/.*)?`. -/
def pathPattern : Pattern Char := .option (.group 4 (.seq (literal '/') (.many isPathChar)))

/-- The pattern, but for the scheme. -/
def authorityPattern : Pattern Char :=
  .seq (literal ':') (.seq (literal '/') (.seq (literal '/')
    (.seq (.group 2 (.alt plainHost bracketedHost)) (.seq portPattern pathPattern))))

/-- `([^:]+)://([^\[\]:/]+|\[[^\[\]/]+\])(?::(\d+))?(/.*)?`. -/
def pattern : Pattern Char := .seq (.group 1 (.plus isSchemeChar)) authorityPattern

/-- The result of `std::atoi` in sixteen bits.  Out of the range of an `int` its
behaviour is undefined, and the value is that of a `std::strtol` whose result is
cut off. -/
def atoi (digits : List Char) : UInt16 := UInt16.ofNat (min (decimal digits) (2 ^ 63 - 1))

/-- The host without the brackets around it. -/
def stripBrackets (host : List Char) : List Char :=
  if 2 < host.length ∧ host.head? = some '[' ∧ host.getLast? = some ']' then
    (host.drop 1).take (host.length - 2)
  else host

end Url

/-- `wss::detail::url`. -/
structure Url where
  hostAddress : List Char
  path : List Char
  portNumber : Option UInt16
  scheme : List Char
deriving DecidableEq, Repr

namespace Url

/-- The members that the constructor takes from a match. -/
def ofMatch (m : State Char) : Url where
  hostAddress := stripBrackets (m.group 2)
  path := m.group 4
  portNumber := if m.group 3 ≠ [] then some (atoi (m.group 3)) else none
  scheme := m.group 1

/-- `url::url`; none stands for `std::invalid_argument`. -/
def parse (str : List Char) : Option Url := (Regex.first pattern str).map ofMatch

/-! ## What a string may be -/

/-- A host of the pattern: plain, or in brackets. -/
inductive IsHost : List Char → List Char → Prop where
  | plain {host : List Char} (hne : host ≠ []) (hall : ∀ c ∈ host, isHostChar c = true) :
      IsHost host host
  | bracketed {host : List Char} (hne : host ≠ []) (hall : ∀ c ∈ host, isBracketedChar c = true) :
      IsHost ('[' :: (host ++ [']'])) host

/-- A scheme of the pattern. -/
def IsScheme (scheme : List Char) : Prop := scheme ≠ [] ∧ ∀ c ∈ scheme, isSchemeChar c = true

/-- A string that begins with a scheme and a host. -/
def HasHead (str : List Char) : Prop :=
  ∃ scheme host address rest : List Char,
    str = scheme ++ ':' :: '/' :: '/' :: (host ++ rest) ∧ IsScheme scheme ∧ IsHost host address

/-- A port with its colon, if there is one; its number fits sixteen bits. -/
inductive IsPort : List Char → Option UInt16 → Prop where
  | none : IsPort [] none
  | some {digits : List Char} {n : UInt16} (hne : digits ≠ [])
      (hall : ∀ c ∈ digits, c.isDigit = true) (hvalue : decimal digits = n.toNat) :
      IsPort (':' :: digits) (some n)

/-- A path of the pattern, if there is one. -/
inductive IsPath : List Char → Prop where
  | none : IsPath []
  | some {path : List Char} (hall : ∀ c ∈ path, isPathChar c = true) : IsPath ('/' :: path)

/-- A URL with these components, and nothing else. -/
structure IsUrl (str : List Char) (u : Url) : Prop where
  scheme : IsScheme u.scheme
  path : IsPath u.path
  text : ∃ host port : List Char,
    str = u.scheme ++ ':' :: '/' :: '/' :: (host ++ (port ++ u.path)) ∧
    IsHost host u.hostAddress ∧ IsPort port u.portNumber

/-- The components account for the whole string: a host as it is or in
brackets, a port with its number, and a path that begins with a slash. -/
structure Accounts (str : List Char) (u : Url) : Prop where
  path : u.path = [] ∨ u.path.head? = some '/'
  text : ∃ host port : List Char,
    str = u.scheme ++ ':' :: '/' :: '/' :: (host ++ (port ++ u.path)) ∧
    (host = u.hostAddress ∨ host = '[' :: (u.hostAddress ++ [']'])) ∧ IsPort port u.portNumber

/-! ## Every outcome -/

section Outcomes

variable {s t : State Char}

theorem mem_literal_iff {c : Char} :
    t ∈ Regex.outcomes (literal c) s ↔ s.rest = c :: t.rest ∧ t.groups = s.groups := by
  unfold literal
  rw [Regex.mem_symbol_iff]
  constructor
  · rintro ⟨x, hx, hrest, hgroups⟩
    rw [of_decide_eq_true hx] at hrest
    exact ⟨hrest, hgroups⟩
  · rintro ⟨hrest, hgroups⟩
    exact ⟨c, decide_eq_true rfl, hrest, hgroups⟩

/-- One group has been captured, and the others stay. -/
structure Captures (s t : State Char) (n : Nat) (used : List Char) : Prop where
  group : t.group n = used
  others : ∀ k, k ≠ n → t.group k = s.group k

theorem captures_of_groups {n : Nat} {used : List Char} (h : t.groups = (n, used) :: s.groups) :
    Captures s t n used := by
  obtain ⟨rest, groups⟩ := s
  obtain ⟨left, groups'⟩ := t
  cases h
  constructor
  · rw [State.group_cons, if_pos rfl]
  · intro k hk
    rw [State.group_cons, if_neg hk]
    rfl

/-- A path that was matched. -/
theorem path_of_mem (h : t ∈ Regex.outcomes pathPattern s) (hfresh : s.group 4 = []) :
    ∃ path, s.rest = path ++ t.rest ∧ IsPath path ∧ Captures s t 4 path := by
  rcases Regex.mem_option_iff.mp h with hgroup | rfl
  · obtain ⟨m, hm, rfl⟩ := Regex.mem_group_iff.mp hgroup
    obtain ⟨m', hslash, hmany⟩ := Regex.mem_seq_iff.mp hm
    obtain ⟨hrest, hgroups⟩ := mem_literal_iff.mp hslash
    obtain ⟨left, hleft, rfl⟩ := List.mem_map.mp hmany
    obtain ⟨used, hused, hall⟩ := Regex.append_of_mem_runs hleft
    have hpath : s.rest = '/' :: used ++ left := by
      rw [hrest, hused]
      rfl
    rw [Regex.capture_of_append 4 hpath]
    exact ⟨'/' :: used, hpath, .some hall, captures_of_groups (congrArg (List.cons _) hgroups)⟩
  · exact ⟨[], rfl, .none, hfresh, fun _ _ => rfl⟩

/-- The text of a port: nothing, or a colon and its digits. -/
def portText (digits : List Char) : List Char := if digits = [] then [] else ':' :: digits

/-- A port that was matched. -/
theorem port_of_mem (h : t ∈ Regex.outcomes portPattern s) (hfresh : s.group 3 = []) :
    ∃ digits, s.rest = portText digits ++ t.rest ∧ (∀ c ∈ digits, c.isDigit = true) ∧
      Captures s t 3 digits := by
  rcases Regex.mem_option_iff.mp h with hseq | rfl
  · obtain ⟨m, hcolon, hgroup⟩ := Regex.mem_seq_iff.mp hseq
    obtain ⟨hrest, hgroups⟩ := mem_literal_iff.mp hcolon
    obtain ⟨m', hm', rfl⟩ := Regex.mem_group_iff.mp hgroup
    obtain ⟨digits, hne, hall, hdigits, hgroups'⟩ := Regex.mem_plus_iff.mp hm'
    rw [Regex.capture_of_append 3 hdigits]
    refine ⟨digits, ?_, hall, captures_of_groups ?_⟩
    · rw [portText, if_neg hne, hrest, hdigits]
      rfl
    · rw [hgroups', hgroups]
  · exact ⟨[], rfl, List.forall_mem_nil _, hfresh, fun _ _ => rfl⟩

/-- A host that was matched. -/
theorem host_of_mem (h : t ∈ Regex.outcomes (.group 2 (.alt plainHost bracketedHost)) s) :
    ∃ host address, s.rest = host ++ t.rest ∧ IsHost host address ∧ Captures s t 2 host := by
  obtain ⟨m, hm, rfl⟩ := Regex.mem_group_iff.mp h
  rcases Regex.mem_alt_iff.mp hm with hplain | hbracketed
  · obtain ⟨host, hne, hall, hrest, hgroups⟩ := Regex.mem_plus_iff.mp hplain
    rw [Regex.capture_of_append 2 hrest]
    exact ⟨host, host, hrest, .plain hne hall, captures_of_groups (congrArg (List.cons _) hgroups)⟩
  · obtain ⟨m₁, hopen, hseq⟩ := Regex.mem_seq_iff.mp hbracketed
    obtain ⟨m₂, hinner, hclose⟩ := Regex.mem_seq_iff.mp hseq
    obtain ⟨hrest₁, hgroups₁⟩ := mem_literal_iff.mp hopen
    obtain ⟨host, hne, hall, hrest₂, hgroups₂⟩ := Regex.mem_plus_iff.mp hinner
    obtain ⟨hrest₃, hgroups₃⟩ := mem_literal_iff.mp hclose
    have hrest : s.rest = '[' :: (host ++ [']']) ++ m.rest := by
      rw [hrest₁, hrest₂, hrest₃, List.cons_append, List.append_assoc]
      rfl
    rw [Regex.capture_of_append 2 hrest]
    refine ⟨'[' :: (host ++ [']']), host, hrest, .bracketed hne hall, captures_of_groups ?_⟩
    rw [hgroups₃, hgroups₂, hgroups₁]

/-- The groups of a match, and what they leave. -/
structure IsMatch (str : List Char) (t : State Char) (address : List Char) : Prop where
  text : str = t.group 1 ++ ':' :: '/' :: '/' ::
    (t.group 2 ++ (portText (t.group 3) ++ (t.group 4 ++ t.rest)))
  scheme : IsScheme (t.group 1)
  host : IsHost (t.group 2) address
  port : ∀ c ∈ t.group 3, c.isDigit = true
  path : IsPath (t.group 4)

/-- **Every outcome** is a match. -/
theorem isMatch_of_mem {str : List Char} (h : t ∈ Regex.outcomes pattern ⟨str, []⟩) :
    ∃ address, IsMatch str t address := by
  obtain ⟨m, hscheme, h⟩ := Regex.mem_seq_iff.mp h
  obtain ⟨m', hm', rfl⟩ := Regex.mem_group_iff.mp hscheme
  obtain ⟨scheme, hne, hall, hrest, hgroups⟩ := Regex.mem_plus_iff.mp hm'
  rw [Regex.capture_of_append 1 hrest, hgroups] at h
  obtain ⟨m₁, hcolon, h⟩ := Regex.mem_seq_iff.mp h
  obtain ⟨m₂, hslash, h⟩ := Regex.mem_seq_iff.mp h
  obtain ⟨m₃, hslash', h⟩ := Regex.mem_seq_iff.mp h
  obtain ⟨m₄, hhost, h⟩ := Regex.mem_seq_iff.mp h
  obtain ⟨m₅, hport, hpath⟩ := Regex.mem_seq_iff.mp h
  obtain ⟨hrest₁, hgroups₁⟩ := mem_literal_iff.mp hcolon
  obtain ⟨hrest₂, hgroups₂⟩ := mem_literal_iff.mp hslash
  obtain ⟨hrest₃, hgroups₃⟩ := mem_literal_iff.mp hslash'
  have hthree (n : Nat) : m₃.group n = if n = 1 then scheme else [] := by
    unfold State.group
    rw [hgroups₃, hgroups₂, hgroups₁]
    exact State.group_cons m'.rest [] 1 scheme n
  obtain ⟨host, address, hrest₄, hishost, hgroup₂, hothers₂⟩ := host_of_mem hhost
  have hfour (n : Nat) (hn : n ≠ 2) : m₄.group n = if n = 1 then scheme else [] :=
    (hothers₂ n hn).trans (hthree n)
  obtain ⟨digits, hrest₅, hdigits, hgroup₃, hothers₃⟩ := port_of_mem hport (hfour 3 (by decide))
  obtain ⟨path, hrest₆, hispath, hgroup₄, hothers₄⟩ := path_of_mem hpath
    ((hothers₃ 4 (by decide)).trans (hfour 4 (by decide)))
  have hone : t.group 1 = scheme :=
    (hothers₄ 1 (by decide)).trans ((hothers₃ 1 (by decide)).trans (hfour 1 (by decide)))
  have htwo : t.group 2 = host :=
    (hothers₄ 2 (by decide)).trans ((hothers₃ 2 (by decide)).trans hgroup₂)
  have hport : t.group 3 = digits := (hothers₄ 3 (by decide)).trans hgroup₃
  refine ⟨address, ?_⟩
  constructor
  · change m'.rest = _ at hrest₁
    change str = scheme ++ m'.rest at hrest
    rw [hone, htwo, hport, hgroup₄, hrest, hrest₁, hrest₂, hrest₃, hrest₄, hrest₅, hrest₆]
  · rw [hone]
    exact ⟨hne, hall⟩
  · rw [htwo]
    exact hishost
  · rw [hport]
    exact hdigits
  · rw [hgroup₄]
    exact hispath

end Outcomes

/-! ## What is accepted -/

section Accepted

variable {str : List Char} {u : Url}

/-- A host has brackets around it, or none in it. -/
theorem stripBrackets_of_isHost {host address : List Char} (h : IsHost host address) :
    stripBrackets host = address := by
  unfold stripBrackets
  cases h with
  | plain hne hall =>
      rw [if_neg]
      rintro ⟨-, hhead, -⟩
      have hbracket := hall '[' (List.mem_of_head? hhead)
      exact absurd hbracket (by decide)
  | bracketed hne hall =>
      have hlength : address.length ≠ 0 := fun h => hne (List.length_eq_zero_iff.mp h)
      rw [if_pos]
      · rw [List.length_cons, List.length_append, List.length_singleton, List.drop_one,
          List.tail_cons]
        exact List.take_left' rfl
      · refine ⟨?_, rfl, ?_⟩
        · rw [List.length_cons, List.length_append, List.length_singleton]
          omega
        · rw [← List.cons_append, List.getLast?_append]
          rfl

/-- What is accepted is a match. -/
theorem isMatch_of_parse (h : parse str = some u) :
    ∃ t, u = ofMatch t ∧ IsMatch str t u.hostAddress := by
  obtain ⟨t, ht, rfl⟩ := Option.map_eq_some_iff.mp h
  obtain ⟨address, hmatch⟩ := isMatch_of_mem (List.mem_of_head? ht)
  refine ⟨t, rfl, ?_⟩
  change IsMatch str t (stripBrackets (t.group 2))
  rw [stripBrackets_of_isHost hmatch.host]
  exact hmatch

/-- **What is accepted** begins with a scheme and a host. -/
theorem hasHead_of_parse (h : parse str = some u) : HasHead str := by
  obtain ⟨t, -, hmatch⟩ := isMatch_of_parse h
  exact ⟨_, _, _, _, hmatch.text, hmatch.scheme, hmatch.host⟩

/-- A host of the pattern is an outcome of its group. -/
theorem mem_host {s : State Char} {host address rest : List Char} (h : IsHost host address)
    (hrest : s.rest = host ++ rest) :
    ∃ t ∈ Regex.outcomes (.group 2 (.alt plainHost bracketedHost)) s, t.rest = rest := by
  have hgroup : ∃ m ∈ Regex.outcomes (.alt plainHost bracketedHost) s, m.rest = rest := by
    cases h with
    | plain hne hall =>
        exact ⟨⟨rest, s.groups⟩, Regex.mem_alt_iff.mpr
          (.inl (Regex.mem_plus_iff.mpr ⟨_, hne, hall, hrest, rfl⟩)), rfl⟩
    | bracketed hne hall =>
        refine ⟨⟨rest, s.groups⟩, Regex.mem_alt_iff.mpr (.inr ?_), rfl⟩
        refine Regex.mem_seq_iff.mpr ⟨⟨address ++ ']' :: rest, s.groups⟩, ?_, ?_⟩
        · refine mem_literal_iff.mpr ⟨?_, rfl⟩
          rw [hrest, List.cons_append, List.append_assoc]
          rfl
        · exact Regex.mem_seq_iff.mpr ⟨⟨']' :: rest, s.groups⟩,
            Regex.mem_plus_iff.mpr ⟨_, hne, hall, rfl, rfl⟩, mem_literal_iff.mpr ⟨rfl, rfl⟩⟩
  obtain ⟨m, hm, hleft⟩ := hgroup
  exact ⟨_, Regex.mem_group_iff.mpr ⟨m, hm, rfl⟩, hleft⟩

/-- **Whatever begins** with a scheme and a host is accepted. -/
theorem parse_of_hasHead (h : HasHead str) : ∃ u, parse str = some u := by
  obtain ⟨scheme, host, address, rest, rfl, hscheme, hhost⟩ := h
  have hmem : ∃ t, t ∈ Regex.outcomes pattern
      ⟨scheme ++ ':' :: '/' :: '/' :: (host ++ rest), []⟩ := by
    obtain ⟨t, ht, -⟩ := mem_host (s := ⟨host ++ rest, [(1, scheme)]⟩) hhost rfl
    refine ⟨t, Regex.mem_seq_iff.mpr ⟨⟨':' :: '/' :: '/' :: (host ++ rest), [(1, scheme)]⟩, ?_, ?_⟩⟩
    · refine Regex.mem_group_iff.mpr ⟨⟨':' :: '/' :: '/' :: (host ++ rest), []⟩, ?_, ?_⟩
      · exact Regex.mem_plus_iff.mpr ⟨scheme, hscheme.1, hscheme.2, rfl, rfl⟩
      · exact Regex.capture_of_append 1 rfl
    · refine Regex.mem_seq_iff.mpr ⟨⟨'/' :: '/' :: (host ++ rest), [(1, scheme)]⟩,
        mem_literal_iff.mpr ⟨rfl, rfl⟩, ?_⟩
      refine Regex.mem_seq_iff.mpr ⟨⟨'/' :: (host ++ rest), [(1, scheme)]⟩,
        mem_literal_iff.mpr ⟨rfl, rfl⟩, ?_⟩
      refine Regex.mem_seq_iff.mpr ⟨⟨host ++ rest, [(1, scheme)]⟩,
        mem_literal_iff.mpr ⟨rfl, rfl⟩, ?_⟩
      refine Regex.mem_seq_iff.mpr ⟨t, ht, ?_⟩
      exact Regex.mem_seq_iff.mpr ⟨t, Regex.mem_option_iff.mpr (.inr rfl),
        Regex.mem_option_iff.mpr (.inr rfl)⟩
  obtain ⟨t, ht⟩ := hmem
  obtain ⟨m, ms, hcons⟩ := List.exists_cons_of_ne_nil (List.ne_nil_of_mem ht)
  refine ⟨ofMatch m, ?_⟩
  unfold parse Regex.first
  rw [hcons]
  rfl

end Accepted

/-! ## What becomes of a URL -/

section Exact

variable {groups : List (Nat × List Char)}

theorem pathPattern_ne_nil (s : State Char) : Regex.outcomes pathPattern s ≠ [] :=
  Regex.outcomes_option_ne_nil

theorem tail_ne_nil (s : State Char) :
    Regex.outcomes (.seq portPattern pathPattern) s ≠ [] :=
  Regex.outcomes_seq_ne_nil Regex.outcomes_option_ne_nil pathPattern_ne_nil

/-- A group that is captured if it is not empty. -/
def optionalGroup (n : Nat) (text : List Char) : List (Nat × List Char) :=
  if text = [] then [] else [(n, text)]

/-- One character that is there. -/
theorem outcomes_literal_seq (c : Char) (a : Pattern Char) (rest : List Char) :
    Regex.outcomes (.seq (literal c) a) ⟨c :: rest, groups⟩ = Regex.outcomes a ⟨rest, groups⟩ := by
  change (if decide (c = c) = true then [State.mk rest groups] else []).flatMap _ = _
  rw [if_pos (decide_eq_true rfl), List.flatMap_singleton]

/-- One that is not. -/
theorem outcomes_literal_seq_of_ne {c x : Char} (hne : x ≠ c) (a : Pattern Char)
    (rest : List Char) : Regex.outcomes (.seq (literal c) a) ⟨x :: rest, groups⟩ = [] := by
  change (if decide (x = c) = true then [State.mk rest groups] else []).flatMap _ = _
  rw [if_neg (by rw [decide_eq_false hne]; exact Bool.false_ne_true)]
  rfl

/-- **A path** is taken to its end. -/
theorem head?_pathPattern {path : List Char} (h : IsPath path) :
    (Regex.outcomes pathPattern ⟨path, groups⟩).head? =
      some ⟨[], optionalGroup 4 path ++ groups⟩ := by
  cases h with
  | none => rfl
  | @some path hall =>
      obtain ⟨others, hruns, -⟩ := Regex.runs_eq_cons isPathChar path
      rw [List.dropWhile_eq_nil_iff.mpr hall] at hruns
      unfold pathPattern
      rw [Regex.outcomes_option, Regex.outcomes_group, outcomes_literal_seq, Regex.outcomes_many,
        hruns, List.map_cons, List.map_cons, List.cons_append, List.head?_cons,
        Regex.capture_of_append 4 (List.append_nil _).symm]
      rfl

/-- **A port and a path** are taken to their end. -/
theorem head?_tail {digits path : List Char} (hdigits : ∀ c ∈ digits, c.isDigit = true)
    (hpath : IsPath path) :
    (Regex.outcomes (.seq portPattern pathPattern) ⟨portText digits ++ path, groups⟩).head? =
      some ⟨[], optionalGroup 4 path ++ (optionalGroup 3 digits ++ groups)⟩ := by
  cases digits with
  | nil =>
      have hport : Regex.outcomes portPattern ⟨path, groups⟩ = [⟨path, groups⟩] := by
        unfold portPattern
        cases hpath with
        | none => rfl
        | some hall =>
            rw [Regex.outcomes_option, outcomes_literal_seq_of_ne (by decide)]
            rfl
      change (Regex.outcomes (.seq portPattern pathPattern) ⟨path, groups⟩).head? = _
      rw [Regex.outcomes_seq, hport, List.flatMap_singleton, head?_pathPattern hpath]
      rfl
  | cons c digits =>
      have hend : ∀ x ∈ path.head?, x.isDigit = false := by
        cases hpath with
        | none => exact fun x hx => nomatch hx
        | some hall =>
            intro x hx
            rw [← Option.some.inj hx]
            decide
      change (Regex.outcomes (.seq portPattern pathPattern)
        ⟨':' :: (c :: digits ++ path), groups⟩).head? = _
      unfold portPattern
      rw [Regex.outcomes_seq, Regex.outcomes_option, outcomes_literal_seq, Regex.outcomes_group,
        List.flatMap_append, List.flatMap_map]
      rw [Regex.head?_flatMap_plus
        (fun m => Regex.outcomes pathPattern (State.capture 3 (c :: digits ++ path) m))
        (List.cons_ne_nil c digits) hdigits hend (pathPattern_ne_nil _),
        Regex.capture_append, head?_pathPattern hpath]
      rfl

/-- **A host** is taken to its end, if a port or a path follows or nothing. -/
theorem head?_host {host address rest : List Char} (h : IsHost host address)
    (hend : ∀ c ∈ rest.head?, isHostChar c = false) :
    (Regex.outcomes (.seq (.group 2 (.alt plainHost bracketedHost))
        (.seq portPattern pathPattern)) ⟨host ++ rest, groups⟩).head? =
      (Regex.outcomes (.seq portPattern pathPattern) ⟨rest, (2, host) :: groups⟩).head? := by
  rw [Regex.outcomes_seq, Regex.outcomes_group, Regex.outcomes_alt, List.flatMap_map,
    List.flatMap_append]
  cases h with
  | plain hne hall =>
      unfold plainHost
      rw [Regex.head?_flatMap_plus (fun m => Regex.outcomes (.seq portPattern pathPattern)
          (State.capture 2 (host ++ rest) m)) hne hall hend (tail_ne_nil _),
        Regex.capture_append]
  | bracketed hne hall =>
      have hplain : Regex.outcomes plainHost ⟨'[' :: (address ++ [']']) ++ rest, groups⟩ = [] :=
        Regex.outcomes_plus_of_end fun c hc => by
          rw [← Option.some.inj hc]
          decide
      have hinner : Regex.outcomes bracketedHost ⟨'[' :: (address ++ [']']) ++ rest, groups⟩ =
          [⟨rest, groups⟩] := by
        have hclose : ∀ c ∈ (']' :: rest).head?, isBracketedChar c = false := by
          intro c hc
          rw [← Option.some.inj hc]
          decide
        have hstuck (y : Char) (ys : List Char) (hy : isBracketedChar y = true) :
            Regex.outcomes (literal ']') ⟨y :: ys, groups⟩ = [] := by
          apply Regex.outcomes_symbol_of_not
          apply decide_eq_false
          rintro rfl
          exact absurd hy (by decide)
        change Regex.outcomes (.seq (literal '[') (.seq (.plus isBracketedChar) (literal ']')))
          ⟨'[' :: (address ++ [']'] ++ rest), groups⟩ = _
        rw [outcomes_literal_seq, Regex.outcomes_seq, List.append_assoc,
          List.singleton_append, Regex.flatMap_plus_stuck _ hne hall hclose hstuck]
        exact Regex.outcomes_symbol (decide_eq_true rfl)
      rw [hplain, hinner, List.flatMap_nil, List.nil_append, List.flatMap_singleton,
        Regex.capture_append]

/-- **The first outcome** on a URL. -/
theorem first_pattern {scheme host address digits path : List Char} (hscheme : IsScheme scheme)
    (hhost : IsHost host address) (hdigits : ∀ c ∈ digits, c.isDigit = true)
    (hpath : IsPath path) :
    Regex.first pattern (scheme ++ ':' :: '/' :: '/' :: (host ++ (portText digits ++ path))) =
      some ⟨[], optionalGroup 4 path ++ (optionalGroup 3 digits ++ [(2, host), (1, scheme)])⟩ := by
  have hcolon : ∀ c ∈ (':' :: '/' :: '/' :: (host ++ (portText digits ++ path))).head?,
      isSchemeChar c = false := by
    intro c hc
    rw [← Option.some.inj hc]
    decide
  have hstuck (y : Char) (ys : List Char) (hy : isSchemeChar y = true) :
      Regex.outcomes authorityPattern (State.capture 1
        (scheme ++ ':' :: '/' :: '/' :: (host ++ (portText digits ++ path)))
        ⟨y :: ys, []⟩) = [] := by
    apply outcomes_literal_seq_of_ne
    rintro rfl
    exact absurd hy (by decide)
  have hend : ∀ c ∈ (portText digits ++ path).head?, isHostChar c = false := by
    intro c hc
    cases digits with
    | nil =>
        cases hpath with
        | none => cases hc
        | some hall =>
            rw [← Option.some.inj hc]
            decide
    | cons d digits =>
        rw [← Option.some.inj hc]
        decide
  unfold Regex.first pattern
  rw [Regex.outcomes_seq, Regex.outcomes_group, List.flatMap_map,
    Regex.flatMap_plus_stuck (fun m => Regex.outcomes authorityPattern (State.capture 1
      (scheme ++ ':' :: '/' :: '/' :: (host ++ (portText digits ++ path))) m)) hscheme.1 hscheme.2
      hcolon hstuck, Regex.capture_append]
  unfold authorityPattern
  rw [outcomes_literal_seq, outcomes_literal_seq, outcomes_literal_seq, head?_host hhost hend,
    head?_tail hdigits hpath]

/-- The members taken from the first outcome on a URL. -/
theorem ofMatch_groups (scheme host digits path : List Char) :
    ofMatch ⟨[], optionalGroup 4 path ++ (optionalGroup 3 digits ++ [(2, host), (1, scheme)])⟩ =
      { hostAddress := stripBrackets host
        path := path
        portNumber := if digits ≠ [] then some (atoi digits) else none
        scheme := scheme } := by
  cases path with
  | nil => cases digits <;> rfl
  | cons c path => cases digits <;> rfl

theorem atoi_eq {digits : List Char} {n : UInt16} (h : decimal digits = n.toNat) :
    atoi digits = n := by
  have hlt := n.toNat_lt
  unfold atoi
  rw [h, Nat.min_eq_left (by omega), UInt16.ofNat_toNat]

/-- The text of a port and the number that is read from its digits. -/
theorem exists_digits {port : List Char} {n : Option UInt16} (h : IsPort port n) :
    ∃ digits, port = portText digits ∧ (∀ c ∈ digits, c.isDigit = true) ∧
      (if digits ≠ [] then some (atoi digits) else none) = n := by
  cases h with
  | none => exact ⟨[], rfl, List.forall_mem_nil _, rfl⟩
  | @some digits n hne hall hvalue =>
      refine ⟨digits, (if_neg hne).symm, hall, ?_⟩
      rw [if_pos hne, atoi_eq hvalue]

variable {str : List Char} {u : Url}

/-- **A URL** is taken apart into its components. -/
theorem parse_of_isUrl (h : IsUrl str u) : parse str = some u := by
  obtain ⟨host, port, hstr, hhost, hport⟩ := h.text
  obtain ⟨digits, rfl, hdigits, hnumber⟩ := exists_digits hport
  unfold parse
  rw [hstr, first_pattern h.scheme hhost hdigits h.path, Option.map_some, ofMatch_groups,
    stripBrackets_of_isHost hhost, hnumber]

theorem IsPath.eq_nil_or {path : List Char} (h : IsPath path) :
    path = [] ∨ path.head? = Option.some '/' := by
  cases h with
  | none => exact .inl rfl
  | some hall => exact .inr rfl

theorem IsHost.eq_or {host address : List Char} (h : IsHost host address) :
    host = address ∨ host = '[' :: (address ++ [']']) := by
  cases h with
  | plain hne hall => exact .inl rfl
  | bracketed hne hall => exact .inr rfl

/-- An address that begins a text with or without brackets, as a host of the
pattern does, is that host. -/
theorem IsHost.of_prefix {host host' address rest rest' : List Char} (h : IsHost host address)
    (htext : host ++ rest = host' ++ rest')
    (hhost : host' = address ∨ host' = '[' :: (address ++ [']'])) : IsHost host' address := by
  cases h with
  | plain hne hall =>
      rcases hhost with rfl | rfl
      · exact .plain hne hall
      · -- A plain host has no bracket.
        cases host with
        | nil => exact absurd rfl hne
        | cons c host =>
            have hc := hall c List.mem_cons_self
            rw [(List.cons.inj htext).1] at hc
            exact absurd hc (by decide)
  | bracketed hne hall =>
      rcases hhost with rfl | rfl
      · cases host' with
        | nil => exact absurd rfl hne
        | cons c host =>
            have hc := hall c List.mem_cons_self
            rw [← (List.cons.inj htext).1] at hc
            exact absurd hc (by decide)
      · exact .bracketed hne hall

/-- The components of a URL account for the whole of it. -/
theorem IsUrl.accounts (h : IsUrl str u) : Accounts str u := by
  obtain ⟨host, port, hstr, hhost, hport⟩ := h.text
  refine ⟨?_, host, port, hstr, ?_, hport⟩
  · exact h.path.eq_nil_or
  · exact hhost.eq_or

/-- **Components that account** for a string that is accepted make a URL of it. -/
theorem isUrl_of_accounts (hparse : parse str = some u) (h : Accounts str u) : IsUrl str u := by
  obtain ⟨t, rfl, hmatch⟩ := isMatch_of_parse hparse
  obtain ⟨host, port, hstr, hhost, hport⟩ := h.text
  have htail := List.append_cancel_left (hmatch.text.symm.trans hstr)
  have htext : t.group 2 ++ _ = host ++ _ := List.append_cancel_left
    (show [':', '/', '/'] ++ _ = [':', '/', '/'] ++ _ from htail)
  exact ⟨hmatch.scheme, hmatch.path, host, port, hstr, hmatch.host.of_prefix htext hhost, hport⟩

/-- **The components** of what is accepted account for the whole string if and
only if it does not begin with a scheme and a host, or is a URL. -/
theorem exact_iff (str : List Char) :
    (∀ u, parse str = some u → Accounts str u) ↔ ¬ HasHead str ∨ ∃ u, IsUrl str u := by
  constructor
  · intro h
    by_cases hhead : HasHead str
    · obtain ⟨u, hu⟩ := parse_of_hasHead hhead
      exact .inr ⟨u, isUrl_of_accounts hu (h u hu)⟩
    · exact .inl hhead
  · rintro (hhead | ⟨u, hurl⟩) v hv
    · exact absurd (hasHead_of_parse hv) hhead
    · rw [parse_of_isUrl hurl] at hv
      rw [← Option.some.inj hv]
      exact hurl.accounts

/-- What follows the host of a string may be passed over. -/
theorem exact_trailing :
    ¬ ∀ (str : List Char) (u : Url), parse str = some u → Accounts str u := by
  intro h
  obtain ⟨host, port, hstr, hhost, hport⟩ := (h "ws://a]".toList
    ⟨['a'], [], none, ['w', 's']⟩ (by decide)).text
  cases hport
  rcases hhost with rfl | rfl
  · exact absurd hstr (by decide)
  · exact absurd hstr (by decide)

end Exact

end Url

end WsStreaming.Ports
