import WsStreaming.Ports.Connection
import WsStreaming.Verified.Scan

/-!
# The grammar of version strings

`semver::try_parse` takes a string apart at its first two dots and leaves each
part to `strtoul`.  That a part is used up is checked, but not that it begins
with a digit, nor that it has one: `strtoul` passes over blanks and a sign,
makes zero of an empty part, and does not see what follows a NUL.

## Main results

* `component_eq_some_iff` — what is accepted as a part.
* `tryParse_eq_some_iff` — what is accepted as a version.
* `parses_iff` — the strings on which the parser agrees with the grammar.
* `parses_dots` — two dots are a version.
-/

namespace WsStreaming.Ports

open WsStreaming.Verified
open WsStreaming.Verified.Scan (decimal)

namespace Semver

/-- A non-empty list of digits. -/
def IsDigits (part : List Char) : Prop := part ≠ [] ∧ ∀ c ∈ part, c.isDigit = true

/-- A part of a version in the grammar, and its number. -/
structure IsNumber (part : List Char) (n : UInt32) : Prop where
  digits : IsDigits part
  value : decimal part = n.toNat

/-- A version in the grammar. -/
def IsVersion (str : String) (v : Semver) : Prop :=
  ∃ major minor revision : List Char,
    str.toList = major ++ '.' :: (minor ++ '.' :: revision) ∧
      IsNumber major v.major ∧ IsNumber minor v.minor ∧ IsNumber revision v.revision

/-- What `strtoul` uses up, and what it makes of it. -/
inductive Accepted : List Char → Nat → Prop where
  | empty : Accepted [] 0
  | unsigned {blanks digits : List Char} (hblanks : ∀ c ∈ blanks, isSpace c = true)
      (hdigits : IsDigits digits) (hfits : decimal digits < 2 ^ 64) :
      Accepted (blanks ++ digits) (decimal digits)
  | plus {blanks digits : List Char} (hblanks : ∀ c ∈ blanks, isSpace c = true)
      (hdigits : IsDigits digits) (hfits : decimal digits < 2 ^ 64) :
      Accepted (blanks ++ '+' :: digits) (decimal digits)
  | minus {blanks digits : List Char} (hblanks : ∀ c ∈ blanks, isSpace c = true)
      (hdigits : IsDigits digits) (hfits : decimal digits < 2 ^ 64) :
      Accepted (blanks ++ '-' :: digits) ((2 ^ 64 - decimal digits) % 2 ^ 64)

/-- A part that is accepted: the text before its first NUL is. -/
def IsAccepted (part : List Char) (n : UInt32) : Prop :=
  Accepted (part.takeWhile fun c => c ≠ '\x00') n.toNat

/-- A string with two dots and three parts that are accepted, which are not all
digits. -/
def IsLoose (str : String) : Prop :=
  ∃ major minor revision : List Char,
    str.toList = major ++ '.' :: (minor ++ '.' :: revision) ∧ '.' ∉ major ∧ '.' ∉ minor ∧
      ((∃ n, IsAccepted major n) ∧ (∃ n, IsAccepted minor n) ∧ ∃ n, IsAccepted revision n) ∧
      ¬ (IsDigits major ∧ IsDigits minor ∧ IsDigits revision)

/-! ## What is accepted as a part -/

section Part

/-- The sign of a number, and what follows it. -/
def signSplit : List Char → Bool × List Char
  | '-' :: rest => (true, rest)
  | '+' :: rest => (false, rest)
  | rest => (false, rest)

theorem strtoul_eq {s digits : List Char} {negative : Bool}
    (h : signSplit (s.dropWhile isSpace) = (negative, digits)) :
    strtoul s =
      if digits.takeWhile Char.isDigit = [] then some (0, s)
      else if 2 ^ 64 ≤ decimal (digits.takeWhile Char.isDigit) then none
      else some
        (if negative then (2 ^ 64 - decimal (digits.takeWhile Char.isDigit)) % 2 ^ 64
          else decimal (digits.takeWhile Char.isDigit), digits.dropWhile Char.isDigit) := by
  have hsplit : strtoul s = (fun p : Bool × List Char =>
        if p.2.takeWhile Char.isDigit = [] then some (0, s)
        else if 2 ^ 64 ≤ decimal (p.2.takeWhile Char.isDigit) then none
        else some
          (if p.1 then (2 ^ 64 - decimal (p.2.takeWhile Char.isDigit)) % 2 ^ 64
            else decimal (p.2.takeWhile Char.isDigit), p.2.dropWhile Char.isDigit))
      (signSplit (s.dropWhile isSpace)) := rfl
  rw [hsplit, h]

theorem not_isSpace_of_isDigit {c : Char} (h : c.isDigit = true) : isSpace c = false := by
  have hrange := Char.isDigit_iff_toNat.mp h
  unfold isSpace
  rw [Bool.or_eq_false_iff, Bool.and_eq_false_iff]
  constructor
  · apply decide_eq_false
    rintro rfl
    exact absurd hrange (by decide)
  · right
    apply decide_eq_false
    intro hle
    have hbound : c.toNat ≤ '\r'.toNat := hle
    exact absurd (hrange.1.trans hbound) (by decide)

/-- The text after the blanks. -/
theorem dropWhile_blanks {blanks : List Char} (hblanks : ∀ c ∈ blanks, isSpace c = true) {c : Char}
    (rest : List Char) (hc : isSpace c = false) :
    (blanks ++ c :: rest).dropWhile isSpace = c :: rest :=
  Scan.dropWhile_append_cons rest hblanks hc

/-- Digits after blanks and perhaps a sign are used up. -/
theorem strtoul_digits {s digits : List Char} {negative : Bool} (hdigits : IsDigits digits)
    (hfits : decimal digits < 2 ^ 64) (h : signSplit (s.dropWhile isSpace) = (negative, digits)) :
    strtoul s =
      some (if negative then (2 ^ 64 - decimal digits) % 2 ^ 64 else decimal digits, []) := by
  have htake : digits.takeWhile Char.isDigit = digits :=
    List.takeWhile_eq_self_iff.mpr hdigits.2
  have hdrop : digits.dropWhile Char.isDigit = [] := List.dropWhile_eq_nil_iff.mpr hdigits.2
  rw [strtoul_eq h, htake, hdrop, if_neg hdigits.1, if_neg (Nat.not_le.mpr hfits)]

theorem signSplit_digit {c : Char} (hc : c.isDigit = true) (rest : List Char) :
    signSplit (c :: rest) = (false, c :: rest) := by
  unfold signSplit
  split
  · next heq =>
      rw [(List.cons.inj heq).1] at hc
      exact absurd hc (by decide)
  · next heq =>
      rw [(List.cons.inj heq).1] at hc
      exact absurd hc (by decide)
  · rfl

/-- What is accepted is used up. -/
theorem strtoul_of_accepted {s : List Char} {n : Nat} (h : Accepted s n) :
    strtoul s = some (n, []) := by
  cases h with
  | empty => rfl
  | @unsigned blanks digits hblanks hdigits hfits =>
      have hsplit : signSplit ((blanks ++ digits).dropWhile isSpace) = (false, digits) := by
        cases digits with
        | nil => exact absurd rfl hdigits.1
        | cons c rest =>
            have hc := hdigits.2 c List.mem_cons_self
            rw [dropWhile_blanks hblanks rest (not_isSpace_of_isDigit hc), signSplit_digit hc]
      rw [strtoul_digits hdigits hfits hsplit]
      rfl
  | @plus blanks digits hblanks hdigits hfits =>
      have hsplit : signSplit ((blanks ++ '+' :: digits).dropWhile isSpace) = (false, digits) := by
        rw [dropWhile_blanks hblanks _ (by decide)]
        rfl
      rw [strtoul_digits hdigits hfits hsplit]
      rfl
  | @minus blanks digits hblanks hdigits hfits =>
      have hsplit : signSplit ((blanks ++ '-' :: digits).dropWhile isSpace) = (true, digits) := by
        rw [dropWhile_blanks hblanks _ (by decide)]
        rfl
      rw [strtoul_digits hdigits hfits hsplit]
      rfl

/-- A sign that was split off. -/
theorem signSplit_cases (s : List Char) :
    (∃ rest, s = '-' :: rest ∧ signSplit s = (true, rest)) ∨
      (∃ rest, s = '+' :: rest ∧ signSplit s = (false, rest)) ∨ signSplit s = (false, s) := by
  unfold signSplit
  split
  · exact .inl ⟨_, rfl, rfl⟩
  · exact .inr (.inl ⟨_, rfl, rfl⟩)
  · exact .inr (.inr rfl)

/-- **What is used up** is accepted. -/
theorem accepted_of_strtoul {s : List Char} {n : Nat} (h : strtoul s = some (n, [])) :
    Accepted s n := by
  rcases hsplit : signSplit (s.dropWhile isSpace) with ⟨negative, digits⟩
  rw [strtoul_eq hsplit] at h
  by_cases hempty : digits.takeWhile Char.isDigit = []
  · rw [if_pos hempty] at h
    obtain ⟨rfl, rfl⟩ := Prod.mk.inj (Option.some.inj h)
    exact .empty
  · rw [if_neg hempty] at h
    by_cases hfits : 2 ^ 64 ≤ decimal (digits.takeWhile Char.isDigit)
    · rw [if_pos hfits] at h
      cases h
    · rw [if_neg hfits] at h
      obtain ⟨hvalue, hrest⟩ := Prod.mk.inj (Option.some.inj h)
      have hall : ∀ c ∈ digits, c.isDigit = true := List.dropWhile_eq_nil_iff.mp hrest
      have htake : digits.takeWhile Char.isDigit = digits := List.takeWhile_eq_self_iff.mpr hall
      rw [htake] at hempty hfits hvalue
      have hdigits : IsDigits digits := ⟨hempty, hall⟩
      have hblanks : ∀ c ∈ s.takeWhile isSpace, isSpace c = true :=
        fun c hc => List.mem_takeWhile_imp hc
      rw [Nat.not_le] at hfits
      rw [← hvalue, ← List.takeWhile_append_dropWhile (p := isSpace) (l := s)]
      rcases signSplit_cases (s.dropWhile isSpace) with ⟨rest, hs, heq⟩ | ⟨rest, hs, heq⟩ | heq
      · obtain ⟨rfl, rfl⟩ := Prod.mk.inj (hsplit.symm.trans heq)
        rw [hs]
        exact .minus hblanks hdigits hfits
      · obtain ⟨rfl, rfl⟩ := Prod.mk.inj (hsplit.symm.trans heq)
        rw [hs]
        exact .plus hblanks hdigits hfits
      · obtain ⟨rfl, rfl⟩ := Prod.mk.inj (hsplit.symm.trans heq)
        exact .unsigned hblanks hdigits hfits

/-- **A part** is accepted if the text before its first NUL is, and fits. -/
theorem component_eq_some_iff {part : List Char} {n : UInt32} :
    component part = some n ↔ IsAccepted part n := by
  unfold component IsAccepted
  constructor
  · intro h
    split at h
    · next value hread =>
        by_cases hfits : value < 2 ^ 32
        · rw [if_pos hfits] at h
          rw [← Option.some.inj h, UInt32.toNat_ofNat_of_lt' hfits]
          exact accepted_of_strtoul hread
        · rw [if_neg hfits] at h
          cases h
    · cases h
  · intro h
    rw [strtoul_of_accepted h]
    dsimp only
    rw [if_pos n.toNat_lt, UInt32.ofNat_toNat]

/-- Digits have no NUL among them. -/
theorem takeWhile_ne_nul {part : List Char} (h : ∀ c ∈ part, c.isDigit = true) :
    (part.takeWhile fun c => decide (c ≠ '\x00')) = part := by
  rw [List.takeWhile_eq_self_iff]
  intro c hc
  apply decide_eq_true
  rintro rfl
  exact absurd (h _ hc) (by decide)

/-- A number in the grammar is accepted. -/
theorem IsNumber.isAccepted {part : List Char} {n : UInt32} (h : IsNumber part n) :
    IsAccepted part n := by
  have hself := takeWhile_ne_nul h.digits.2
  have hfits : decimal part < 2 ^ 64 := by
    have hlt := n.toNat_lt
    rw [h.value]
    omega
  have haccepted : Accepted ([] ++ part) (decimal part) :=
    .unsigned (List.forall_mem_nil _) h.digits hfits
  unfold IsAccepted
  rw [hself, ← h.value]
  exact haccepted

/-- Digits that are accepted are a number in the grammar. -/
theorem IsAccepted.isNumber {part : List Char} {n : UInt32} (h : IsAccepted part n)
    (hdigits : IsDigits part) : IsNumber part n := by
  have hself : (part.takeWhile fun c => decide (c ≠ '\x00')) = part :=
    takeWhile_ne_nul hdigits.2
  unfold IsAccepted at h
  rw [hself] at h
  refine ⟨hdigits, ?_⟩
  generalize n.toNat = value at h
  cases h with
  | empty => exact absurd rfl hdigits.1
  | @unsigned blanks digits hblanks hrest hfits =>
      -- A blank is no digit.
      cases blanks with
      | nil => rfl
      | cons c blanks =>
          have hc := not_isSpace_of_isDigit (hdigits.2 c List.mem_cons_self)
          rw [hblanks c List.mem_cons_self] at hc
          exact Bool.noConfusion hc
  | @plus blanks digits hblanks hrest hfits =>
      exact absurd (hdigits.2 '+' (List.mem_append_right _ List.mem_cons_self)) (by decide)
  | @minus blanks digits hblanks hrest hfits =>
      exact absurd (hdigits.2 '-' (List.mem_append_right _ List.mem_cons_self)) (by decide)

end Part

/-! ## What is accepted as a version -/

section Version

/-- **A version** is accepted if its first two dots leave three accepted parts. -/
theorem tryParse_eq_some_iff {str : String} {v : Semver} :
    tryParse str = some v ↔ ∃ major minor revision : List Char,
      str.toList = major ++ '.' :: (minor ++ '.' :: revision) ∧ '.' ∉ major ∧ '.' ∉ minor ∧
        component major = some v.major ∧ component minor = some v.minor ∧
          component revision = some v.revision := by
  have hdot : decide ('.' ≠ '.') = false := by decide
  have hother {part : List Char} (h : '.' ∉ part) : ∀ c ∈ part, decide (c ≠ '.') = true := by
    intro c hc
    exact decide_eq_true fun heq => h (heq ▸ hc)
  unfold tryParse
  constructor
  · intro h
    split at h
    · cases h
    · next major c rest hfirst =>
        obtain ⟨hstr, hmajor, hc⟩ := Scan.span_eq_cons hfirst
        split at h
        · cases h
        · next minor c' revision hsecond =>
            obtain ⟨hrest, hminor, hc'⟩ := Scan.span_eq_cons hsecond
            obtain ⟨x, hx, h⟩ := Option.bind_eq_some_iff.mp h
            obtain ⟨y, hy, h⟩ := Option.bind_eq_some_iff.mp h
            obtain ⟨z, hz, rfl⟩ := Option.map_eq_some_iff.mp h
            refine ⟨major, minor, revision, ?_, ?_, ?_, hx, hy, hz⟩
            · rw [hstr, hrest, Classical.not_not.mp (of_decide_eq_false hc),
                Classical.not_not.mp (of_decide_eq_false hc')]
            · exact fun hdot => of_decide_eq_true (hmajor _ hdot) rfl
            · exact fun hdot => of_decide_eq_true (hminor _ hdot) rfl
  · rintro ⟨major, minor, revision, hstr, hmajor, hminor, hvmajor, hvminor, hvrevision⟩
    rw [hstr, List.span_eq_takeWhile_dropWhile, Scan.takeWhile_append_cons _ (hother hmajor) hdot,
      Scan.dropWhile_append_cons _ (hother hmajor) hdot]
    dsimp only
    rw [List.span_eq_takeWhile_dropWhile, Scan.takeWhile_append_cons _ (hother hminor) hdot,
      Scan.dropWhile_append_cons _ (hother hminor) hdot]
    dsimp only
    rw [hvmajor, hvminor, hvrevision]
    rfl

theorem IsDigits.dot_not_mem {part : List Char} (h : IsDigits part) : '.' ∉ part := by
  intro hdot
  exact absurd (h.2 '.' hdot) (by decide)

/-- **Every version** in the grammar is parsed. -/
theorem tryParse_of_isVersion {str : String} {v : Semver} (h : IsVersion str v) :
    tryParse str = some v := by
  obtain ⟨major, minor, revision, hstr, hmajor, hminor, hrevision⟩ := h
  exact tryParse_eq_some_iff.mpr ⟨major, minor, revision, hstr, hmajor.digits.dot_not_mem,
    hminor.digits.dot_not_mem, component_eq_some_iff.mpr hmajor.isAccepted,
    component_eq_some_iff.mpr hminor.isAccepted, component_eq_some_iff.mpr hrevision.isAccepted⟩

/-- A loose string is parsed, and is no version. -/
theorem tryParse_of_isLoose {str : String} (h : IsLoose str) :
    ∃ v, tryParse str = some v ∧ ¬ IsVersion str v := by
  obtain ⟨major, minor, revision, hstr, hmajor, hminor, ⟨⟨x, hx⟩, ⟨y, hy⟩, z, hz⟩, hloose⟩ := h
  refine ⟨⟨x, y, z⟩, ?_, ?_⟩
  · exact tryParse_eq_some_iff.mpr ⟨major, minor, revision, hstr, hmajor, hminor,
      component_eq_some_iff.mpr hx, component_eq_some_iff.mpr hy, component_eq_some_iff.mpr hz⟩
  · rintro ⟨major', minor', revision', hstr', hmajor', hminor', hrevision'⟩
    have hfirst := Scan.split_unique hmajor hmajor'.digits.dot_not_mem (hstr.symm.trans hstr')
    have hsecond := Scan.split_unique hminor hminor'.digits.dot_not_mem hfirst.2
    rw [hfirst.1, hsecond.1, hsecond.2] at hloose
    exact hloose ⟨hmajor'.digits, hminor'.digits, hrevision'.digits⟩

/-- **The grammar.**  On a string the parser accepts the versions of the grammar
with their numbers, and nothing else, if and only if the string is not loose. -/
theorem parses_iff (str : String) :
    (∀ v, tryParse str = some v ↔ IsVersion str v) ↔ ¬ IsLoose str := by
  constructor
  · intro hagrees hloose
    obtain ⟨v, hparse, hno⟩ := tryParse_of_isLoose hloose
    exact hno ((hagrees v).mp hparse)
  · intro hloose v
    refine ⟨fun hparse => ?_, tryParse_of_isVersion⟩
    obtain ⟨major, minor, revision, hstr, hmajor, hminor, hx, hy, hz⟩ :=
      tryParse_eq_some_iff.mp hparse
    rw [component_eq_some_iff] at hx hy hz
    have hdigits : IsDigits major ∧ IsDigits minor ∧ IsDigits revision :=
      Classical.byContradiction fun hno => hloose
        ⟨major, minor, revision, hstr, hmajor, hminor, ⟨⟨_, hx⟩, ⟨_, hy⟩, _, hz⟩, hno⟩
    exact ⟨major, minor, revision, hstr, hx.isNumber hdigits.1, hy.isNumber hdigits.2.1,
      hz.isNumber hdigits.2.2⟩

/-- Two dots are taken for version zero. -/
theorem parses_dots :
    ¬ ∀ (str : String) (v : Semver), tryParse str = some v ↔ IsVersion str v := by
  intro h
  obtain ⟨major, minor, revision, hstr, hmajor, hminor, -⟩ := (h ".." {}).mp (by decide)
  have hfirst := Scan.split_unique (List.not_mem_nil) hmajor.digits.dot_not_mem
    (show [] ++ '.' :: ['.'] = _ from hstr)
  exact hmajor.digits.1 hfirst.1.symm

end Version

end Semver

end WsStreaming.Ports
