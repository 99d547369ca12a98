import WsStreaming.Ports.MetadataAccessors

/-!
# Sections of a document that is built

A builder keeps two objects in its document, the definition and the
interpretation, and every call of it writes members of one of them, of both, or
of the document itself.

## Main results

* `memberOf_fromJson` — a starting document reads as it did.
* `Sectioned.apply` — a call keeps both sections.
* `writes_apply` — what a call writes, section by section.
-/

namespace WsStreaming.Ports

open WsStreaming.Verified

open Metadata (memberOf)

namespace MetadataBuilder

/-- Both sections are there, and are objects. -/
structure Sectioned (j : Json) : Prop where
  isObject : j.isObject = true
  definition : ∃ d, j.find? "definition" = some d ∧ d.isObject = true
  interpretation : ∃ i, j.find? "interpretation" = some i ∧ i.isObject = true

/-- What a call does to the definition. -/
def onDefinition (d : Json) : Call → Json
  | .constantRule =>
      match d.set "rule" (.string Ports.constantRule) with
      | .object members => .object (OrderedMap.erase members Ports.linearRule)
      | d => d
  | .dataType type => d.set "dataType" (.string type)
  | .endian endian => d.set "endian" (.string endian)
  | .extraMetadata _ _ => d
  | .linearRule start delta =>
      (d.set "rule" (.string Ports.linearRule)).set Ports.linearRule (linearDefinition start delta)
  | .origin _ => d
  | .range low high => d.set "range" (.object [("high", .float high), ("low", .float low)])
  | .structField field => pushField d field
  | .table _ => d
  | .tcpSignalRate _ => d
  | .tickResolution numerator denominator =>
      d.set "resolution" (.object
        [("denom", .integer denominator.toNat), ("num", .integer numerator.toNat)])
  | .unit id _ quantity symbol =>
      d.set "unit" (.object
        [("displayName", .string symbol), ("quantity", .string quantity),
         ("unitId", .integer id.toInt)])

/-- What a call does to the interpretation. -/
def onInterpretation (i : Json) : Call → Json
  | .constantRule => i.set "rule" (.object [("parameters", .null), ("type", .integer 2)])
  | .dataType _ => i
  | .endian _ => i
  | .extraMetadata key value =>
      update (ensureObject i "metadata") "metadata" fun m => m.set key (.string value)
  | .linearRule start delta =>
      i.set "rule" (.object
        [("parameters", .object
            [("delta", .integer delta.toInt), ("start", .integer start.toInt)]),
         ("type", .integer 1)])
  | .origin origin => i.set "origin" (.string origin)
  | .range _ _ => i
  | .structField _ => i
  | .table _ => i
  | .tcpSignalRate _ => i
  | .tickResolution _ _ => i
  | .unit id name quantity symbol =>
      i.set "unit" (.object
        [("id", .integer id.toInt), ("name", .string name),
         ("quantity", .string quantity), ("symbol", .string symbol)])

/-- What a call does to another member of the document. -/
def onDocument (key : String) (v : Option Json) : Call → Option Json
  | .table id => if "tableId" = key then some (.string id) else v
  | .tcpSignalRate rate => if "signalRate" = key then some rate else v
  | _ => v

/-- What is written into a document: functions of both sections, and of every
other member. -/
structure Writes (j j' : Json) (f g : Json → Json) (w : String → Option Json → Option Json) :
    Prop where
  isObject : j'.isObject = true
  definition : ∀ d, j.find? "definition" = some d → j'.find? "definition" = some (f d)
  interpretation : ∀ i, j.find? "interpretation" = some i →
    j'.find? "interpretation" = some (g i)
  document : ∀ key, "definition" ≠ key → "interpretation" ≠ key →
    j'.find? key = w key (j.find? key)

section Sections

variable {j : Json}

/-! ## The starting document -/

theorem isObject_ensureObject (h : j.isObject = true) (key : String) :
    (ensureObject j key).isObject = true := by
  unfold ensureObject
  split
  · exact h
  · exact isObject_set h key _

theorem find?_ensureObject (h : j.isObject = true) {key other : String} (hne : key ≠ other) :
    (ensureObject j key).find? other = j.find? other := by
  unfold ensureObject
  split
  · rfl
  · rw [Json.find?_set h, if_neg hne]

/-- The member that is ensured. -/
theorem find?_ensureObject_self (h : j.isObject = true) (key : String) :
    ∃ s, (ensureObject j key).find? key = some s ∧ s.isObject = true := by
  unfold ensureObject
  cases hs : (j.find? key).filter Json.isObject with
  | some s =>
      obtain ⟨hfind, hobject⟩ := Option.filter_eq_some_iff.mp hs
      exact ⟨s, hfind, hobject⟩
  | none =>
      dsimp only
      rw [Json.find?_set h, if_pos rfl]
      exact ⟨_, rfl, rfl⟩

/-- An object in place of something else has no members either. -/
theorem memberOf_ensureObject (h : j.isObject = true) (key outer inner : String) :
    memberOf (ensureObject j key) outer inner = memberOf j outer inner := by
  by_cases hkey : key = outer
  · rw [← hkey]
    unfold memberOf ensureObject
    cases hs : (j.find? key).filter Json.isObject with
    | some s => rfl
    | none =>
        dsimp only
        rw [Json.find?_set h, if_pos rfl, ← Json.find?_filter_isObject (j.find? key), hs]
        rfl
  · unfold memberOf
    rw [find?_ensureObject h hkey]

theorem sectioned_fromJson (j : Json) : Sectioned (fromJson j) := by
  have hstart : (if j.isObject then j else .object []).isObject = true := by
    split
    · assumption
    · rfl
  unfold fromJson
  have hdefinition := isObject_ensureObject hstart "definition"
  refine ⟨isObject_ensureObject hdefinition _, ?_, find?_ensureObject_self hdefinition _⟩
  rw [find?_ensureObject hdefinition (by decide)]
  exact find?_ensureObject_self hstart _

theorem sectioned_new (name : String) : Sectioned (new name) :=
  ⟨rfl, ⟨_, rfl, rfl⟩, ⟨_, rfl, rfl⟩⟩

/-- **A starting document reads as it did**, section by section. -/
theorem memberOf_fromJson (h : j.isObject = true) (outer inner : String) :
    memberOf (fromJson j) outer inner = memberOf j outer inner := by
  unfold fromJson
  rw [if_pos h, memberOf_ensureObject (isObject_ensureObject h _), memberOf_ensureObject h]

theorem find?_fromJson (h : j.isObject = true) {key : String} (hdefinition : "definition" ≠ key)
    (hinterpretation : "interpretation" ≠ key) : (fromJson j).find? key = j.find? key := by
  unfold fromJson
  rw [if_pos h, find?_ensureObject (isObject_ensureObject h _) hinterpretation,
    find?_ensureObject h hdefinition]

/-! ## Calls -/

theorem isObject_pushField {d : Json} (h : d.isObject = true) (field : Json) :
    (pushField d field).isObject = true := by
  unfold pushField
  split
  · exact isObject_set h _ _
  · exact isObject_set h _ _

theorem isObject_onDefinition {d : Json} (h : d.isObject = true) (call : Call) :
    (onDefinition d call).isObject = true := by
  cases call with
  | constantRule =>
      unfold onDefinition
      dsimp only
      split
      · rfl
      · exact isObject_set h _ _
  | linearRule start delta => exact isObject_set (isObject_set h _ _) _ _
  | structField field => exact isObject_pushField h field
  | dataType type => exact isObject_set h _ _
  | endian endian => exact isObject_set h _ _
  | range low high => exact isObject_set h _ _
  | tickResolution numerator denominator => exact isObject_set h _ _
  | unit id name quantity symbol => exact isObject_set h _ _
  | extraMetadata key value => exact h
  | origin origin => exact h
  | table id => exact h
  | tcpSignalRate rate => exact h

theorem isObject_onInterpretation {i : Json} (h : i.isObject = true) (call : Call) :
    (onInterpretation i call).isObject = true := by
  cases call with
  | extraMetadata key value => exact isObject_set (isObject_ensureObject h _) _ _
  | constantRule => exact isObject_set h _ _
  | linearRule start delta => exact isObject_set h _ _
  | origin origin => exact isObject_set h _ _
  | unit id name quantity symbol => exact isObject_set h _ _
  | dataType type => exact h
  | endian endian => exact h
  | range low high => exact h
  | structField field => exact h
  | table id => exact h
  | tcpSignalRate rate => exact h
  | tickResolution numerator denominator => exact h

theorem writes_definition (h : j.isObject = true) (f : Json → Json) :
    Writes j (update j "definition" f) f id fun _ v => v := by
  constructor
  · exact isObject_set h _ _
  · intro d hd
    rw [update, Json.find?_set h, if_pos rfl, hd]
    rfl
  · intro i hi
    rw [update, Json.find?_set h, if_neg (by decide)]
    exact hi
  · intro key hkey _
    rw [update, Json.find?_set h, if_neg hkey]

theorem writes_interpretation (h : j.isObject = true) (g : Json → Json) :
    Writes j (update j "interpretation" g) id g fun _ v => v := by
  constructor
  · exact isObject_set h _ _
  · intro d hd
    rw [update, Json.find?_set h, if_neg (by decide)]
    exact hd
  · intro i hi
    rw [update, Json.find?_set h, if_pos rfl, hi]
    rfl
  · intro key _ hkey
    rw [update, Json.find?_set h, if_neg hkey]

/-- Both sections, one after the other. -/
theorem writes_both (h : j.isObject = true) (f g : Json → Json) :
    Writes j (update (update j "definition" f) "interpretation" g) f g fun _ v => v := by
  have hfirst := writes_definition h f
  have hsecond := writes_interpretation hfirst.isObject g
  constructor
  · exact hsecond.isObject
  · intro d hd
    exact hsecond.definition _ (hfirst.definition d hd)
  · intro i hi
    exact hsecond.interpretation _ (hfirst.interpretation i hi)
  · intro key hdefinition hinterpretation
    rw [hsecond.document key hdefinition hinterpretation,
      hfirst.document key hdefinition hinterpretation]

/-- A member of the document itself. -/
theorem writes_document (h : j.isObject = true) {key : String} (hdefinition : key ≠ "definition")
    (hinterpretation : key ≠ "interpretation") (value : Json) :
    Writes j (j.set key value) id id fun k v => if key = k then some value else v := by
  constructor
  · exact isObject_set h _ _
  · intro d hd
    rw [Json.find?_set h, if_neg hdefinition]
    exact hd
  · intro i hi
    rw [Json.find?_set h, if_neg hinterpretation]
    exact hi
  · intro k _ _
    rw [Json.find?_set h]

/-- **A call**, section by section. -/
theorem writes_apply (h : j.isObject = true) (call : Call) :
    Writes j (apply j call) (fun d => onDefinition d call) (fun i => onInterpretation i call)
      fun key v => onDocument key v call := by
  have hdefinition := writes_definition h fun d => onDefinition d call
  have hinterpretation := writes_interpretation h fun i => onInterpretation i call
  have hboth := writes_both h (fun d => onDefinition d call) fun i => onInterpretation i call
  cases call with
  | constantRule => exact hboth
  | linearRule start delta => exact hboth
  | unit id name quantity symbol => exact hboth
  | dataType type => exact hdefinition
  | endian endian => exact hdefinition
  | range low high => exact hdefinition
  | structField field => exact hdefinition
  | tickResolution numerator denominator => exact hdefinition
  | extraMetadata key value => exact hinterpretation
  | origin origin => exact hinterpretation
  | table id => exact writes_document h (by decide) (by decide) _
  | tcpSignalRate rate => exact writes_document h (by decide) (by decide) _

theorem Sectioned.apply (h : Sectioned j) (call : Call) : Sectioned (apply j call) := by
  obtain ⟨d, hd, hdefinition⟩ := h.definition
  obtain ⟨i, hi, hinterpretation⟩ := h.interpretation
  have hwrites := writes_apply h.isObject call
  refine ⟨hwrites.isObject, ⟨_, hwrites.definition d hd, ?_⟩, ⟨_, hwrites.interpretation i hi, ?_⟩⟩
  · exact isObject_onDefinition hdefinition call
  · exact isObject_onInterpretation hinterpretation call

/-- A section that a call passes over reads as it did. -/
theorem Sectioned.memberOf_interpretation_of_same (h : Sectioned j) (call : Call)
    (hsame : ∀ i, onInterpretation i call = i) (key : String) :
    memberOf (MetadataBuilder.apply j call) "interpretation" key =
      memberOf j "interpretation" key := by
  obtain ⟨i, hi, -⟩ := h.interpretation
  have hwritten := (writes_apply h.isObject call).interpretation i hi
  rw [hsame] at hwritten
  unfold memberOf
  rw [hwritten, hi]

theorem json_build (h : j.isObject = true) (calls : List Call) :
    (build j calls).json = calls.foldl MetadataBuilder.apply j :=
  Metadata.json_ofJson (foldl_apply_spec calls h).1

end Sections

end MetadataBuilder

end WsStreaming.Ports
