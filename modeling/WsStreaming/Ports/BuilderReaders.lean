import WsStreaming.Ports.MetadataSections
import WsStreaming.Verified.Run

/-!
# What is read of a description that was built

A `wss::metadata_builder` writes items into the definition, into the
interpretation or into both, and `wss::metadata` looks for each item in one of
them, or in one first and then in the other.

Every item is read as the last call wrote it, with one exception: the origin is
written into the interpretation and looked for in the definition first.

## Main results

* `memberOf_definition`, `memberOf_interpretation` — what a call does to one
  member of a section.
* `agrees_iff` — when the readers agree with the calls.
* `origin_of_definition` — an origin that is not replaced.
-/

namespace WsStreaming.Ports

open WsStreaming.Verified

open Metadata (memberOf)

namespace MetadataBuilder

/-- The two constructors of `metadata_builder`. -/
inductive Start where
  | named (name : String)
  | document (j : Json)
deriving Repr

/-- The document that a builder starts with. -/
def Start.json : Start → Json
  | .named name => new name
  | .document j => fromJson j

/-! ## Members of the sections -/

/-- What a call makes of a member of the definition. -/
def definitionMember (key : String) (v : Option Json) : Call → Option Json
  | .constantRule =>
      if "linear" = key then none
      else if "rule" = key then some (.string Ports.constantRule) else v
  | .dataType type => if "dataType" = key then some (.string type) else v
  | .endian endian => if "endian" = key then some (.string endian) else v
  | .linearRule start delta =>
      if "linear" = key then some (linearDefinition start delta)
      else if "rule" = key then some (.string Ports.linearRule) else v
  | .range low high =>
      if "range" = key then some (.object [("high", .float high), ("low", .float low)]) else v
  | .structField field =>
      if "struct" = key then some (.array ((v.bind Json.array?).getD [] ++ [field])) else v
  | .tickResolution numerator denominator =>
      if "resolution" = key then
        some (.object [("denom", .integer denominator.toNat), ("num", .integer numerator.toNat)])
      else v
  | .unit id _ quantity symbol =>
      if "unit" = key then
        some (.object
          [("displayName", .string symbol), ("quantity", .string quantity),
           ("unitId", .integer id.toInt)])
      else v
  | _ => v

/-- What a call makes of a member of the interpretation other than the extra
metadata. -/
def interpretationMember (key : String) (v : Option Json) : Call → Option Json
  | .constantRule =>
      if "rule" = key then some (.object [("parameters", .null), ("type", .integer 2)]) else v
  | .linearRule start delta =>
      if "rule" = key then
        some (.object
          [("parameters", .object
              [("delta", .integer delta.toInt), ("start", .integer start.toInt)]),
           ("type", .integer 1)])
      else v
  | .origin origin => if "origin" = key then some (.string origin) else v
  | .unit id name quantity symbol =>
      if "unit" = key then
        some (.object
          [("id", .integer id.toInt), ("name", .string name),
           ("quantity", .string quantity), ("symbol", .string symbol)])
      else v
  | _ => v

section Members

variable {j : Json}

theorem find?_pushField {d : Json} (h : d.isObject = true) (field : Json) (key : String) :
    (pushField d field).find? key =
      if "struct" = key then
        some (.array (((d.find? key).bind Json.array?).getD [] ++ [field]))
      else d.find? key := by
  unfold pushField
  by_cases hkey : "struct" = key
  · rw [if_pos hkey, ← hkey]
    cases (d.find? "struct").bind Json.array? with
    | none =>
        dsimp only
        rw [Json.find?_set h, if_pos rfl]
        rfl
    | some fields =>
        dsimp only
        rw [Json.find?_set h, if_pos rfl]
        rfl
  · rw [if_neg hkey]
    cases (d.find? "struct").bind Json.array? with
    | none =>
        dsimp only
        rw [Json.find?_set h, if_neg hkey]
    | some fields =>
        dsimp only
        rw [Json.find?_set h, if_neg hkey]

theorem find?_onDefinition {d : Json} (h : d.isObject = true) (call : Call) (key : String) :
    (onDefinition d call).find? key = definitionMember key (d.find? key) call := by
  cases call with
  | constantRule =>
      cases d with
      | object members =>
          change OrderedMap.find? (OrderedMap.erase (OrderedMap.set members "rule" _) "linear")
            key = _
          rw [OrderedMap.find?_erase, OrderedMap.find?_set]
          rfl
      | null => cases h
      | bool b => cases h
      | integer n => cases h
      | float bits => cases h
      | string s => cases h
      | array elements => cases h
  | linearRule start delta =>
      change ((d.set "rule" _).set "linear" _).find? key = _
      rw [Json.find?_set (isObject_set h _ _), Json.find?_set h]
      rfl
  | structField field => exact find?_pushField h field key
  | dataType type => exact Json.find?_set h _ _ _
  | endian endian => exact Json.find?_set h _ _ _
  | range low high => exact Json.find?_set h _ _ _
  | tickResolution numerator denominator => exact Json.find?_set h _ _ _
  | unit id name quantity symbol => exact Json.find?_set h _ _ _
  | extraMetadata key value => rfl
  | origin origin => rfl
  | table id => rfl
  | tcpSignalRate rate => rfl

theorem find?_onInterpretation {i : Json} (h : i.isObject = true) (call : Call) {key : String}
    (hkey : "metadata" ≠ key) :
    (onInterpretation i call).find? key = interpretationMember key (i.find? key) call := by
  cases call with
  | extraMetadata name value =>
      unfold onInterpretation
      dsimp only
      rw [update, Json.find?_set (isObject_ensureObject h _), if_neg hkey,
        find?_ensureObject h hkey]
      rfl
  | constantRule => exact Json.find?_set h _ _ _
  | linearRule start delta => exact Json.find?_set h _ _ _
  | origin origin => exact Json.find?_set h _ _ _
  | unit id name quantity symbol => exact Json.find?_set h _ _ _
  | dataType type => rfl
  | endian endian => rfl
  | range low high => rfl
  | structField field => rfl
  | table id => rfl
  | tcpSignalRate rate => rfl
  | tickResolution numerator denominator => rfl

/-- **A member of the definition** after a call. -/
theorem memberOf_definition (h : Sectioned j) (call : Call) (key : String) :
    memberOf (apply j call) "definition" key =
      definitionMember key (memberOf j "definition" key) call := by
  obtain ⟨d, hd, hobject⟩ := h.definition
  have hwritten := (writes_apply h.isObject call).definition d hd
  unfold memberOf
  rw [hwritten, hd]
  exact find?_onDefinition hobject call key

/-- **A member of the interpretation** after a call. -/
theorem memberOf_interpretation (h : Sectioned j) (call : Call) {key : String}
    (hkey : "metadata" ≠ key) :
    memberOf (apply j call) "interpretation" key =
      interpretationMember key (memberOf j "interpretation" key) call := by
  obtain ⟨i, hi, hobject⟩ := h.interpretation
  have hwritten := (writes_apply h.isObject call).interpretation i hi
  unfold memberOf
  rw [hwritten, hi]
  exact find?_onInterpretation hobject call hkey

end Members

/-! ## Items -/

namespace Call

/-- The data type that a call gives. -/
def dataType? : Call → Option String
  | .dataType type => some type
  | _ => none

/-- The endianness. -/
def endian? : Call → Option String
  | .endian value => some value
  | _ => none

/-- The rule. -/
def rule? : Call → Option String
  | .constantRule => some Ports.constantRule
  | .linearRule _ _ => some Ports.linearRule
  | _ => none

/-- The parameters of the rule; a constant one has none. -/
def startDelta? : Call → Option (Option Int64 × Option Int64)
  | .constantRule => some (none, none)
  | .linearRule start delta => some (some start, some delta)
  | _ => none

/-- The origin. -/
def origin? : Call → Option String
  | .origin value => some value
  | _ => none

/-- The table. -/
def table? : Call → Option String
  | .table id => some id
  | _ => none

/-- The tick resolution. -/
def tickResolution? : Call → Option (UInt64 × UInt64)
  | .tickResolution numerator denominator => some (numerator, denominator)
  | _ => none

/-- The unit. -/
def unit? : Call → Option SignalUnit
  | .unit id name quantity symbol => some ⟨id, name, quantity, symbol⟩
  | _ => none

end Call

/-- What the last call gives that gives an item. -/
def lastGiven {α : Type} (given : Call → Option α) (calls : List Call) : Option α :=
  (calls.filterMap given).getLast?

/-- An item is read as the last call gave it, or as the starting point has it. -/
def Agrees {α : Type} (read : Metadata → α) (given : Call → Option α) (start : Start)
    (calls : List Call) : Prop :=
  read (build start.json calls) = (lastGiven given calls).getD (read (build start.json []))

/-- All items are. -/
structure AllAgree (start : Start) (calls : List Call) : Prop where
  dataType : Agrees Metadata.dataType Call.dataType? start calls
  endian : Agrees Metadata.endian Call.endian? start calls
  rule : Agrees Metadata.rule Call.rule? start calls
  linearStartDelta : Agrees Metadata.linearStartDelta Call.startDelta? start calls
  origin : Agrees Metadata.origin Call.origin? start calls
  tableId : Agrees Metadata.tableId Call.table? start calls
  tickResolution : Agrees (fun m => m.tickResolution) (fun call => call.tickResolution?.map some)
    start calls
  unit : Agrees (fun m => m.unit) (fun call => call.unit?.map some) start calls

section Items

theorem sectioned_start (start : Start) : Sectioned start.json := by
  cases start with
  | named name => exact sectioned_new name
  | document j => exact sectioned_fromJson j

/-- **An item** agrees if every call gives it or leaves it. -/
theorem agrees_of_apply {α : Type} {read : Metadata → α} {given : Call → Option α}
    (item : Json → α) (hitem : ∀ m, read m = item m.json)
    (hcall : ∀ j call, Sectioned j → item (apply j call) = (given call).getD (item j))
    (start : Start) (calls : List Call) : Agrees read given start calls := by
  have hstart := sectioned_start start
  have hlast := Run.foldl_lastWritten item given (fun _ call h => Sectioned.apply h call)
    (fun j call h => hcall j call h) calls start.json hstart
  unfold Agrees lastGiven
  rw [hitem, hitem, json_build hstart.isObject, json_build hstart.isObject, hlast]
  rfl

variable (start : Start) (calls : List Call)

theorem agrees_dataType : Agrees Metadata.dataType Call.dataType? start calls := by
  apply agrees_of_apply fun j =>
    ((memberOf j "definition" "dataType").bind Json.string?).getD "unknown"
  · intro m
    unfold Metadata.dataType memberOf
    rw [Option.bind_assoc]
    rfl
  · intro j call h
    rw [memberOf_definition h]
    cases call <;> rfl

theorem agrees_endian : Agrees Metadata.endian Call.endian? start calls := by
  apply agrees_of_apply fun j =>
    ((memberOf j "definition" "endian").bind Json.string?).getD "unknown"
  · exact fun _ => rfl
  · intro j call h
    rw [memberOf_definition h]
    cases call <;> rfl

/-- The rule in a document. -/
def ruleOf (j : Json) : String :=
  ((memberOf j "definition" "rule").bind Json.string?).getD explicitRule

theorem rule_eq (m : Metadata) : m.rule = ruleOf m.json := by
  unfold Metadata.rule ruleOf memberOf
  rw [Option.bind_assoc]
  rfl

theorem ruleOf_apply {j : Json} (h : Sectioned j) (call : Call) :
    ruleOf (apply j call) = call.rule?.getD (ruleOf j) := by
  unfold ruleOf
  rw [memberOf_definition h]
  cases call <;> rfl

theorem agrees_rule : Agrees Metadata.rule Call.rule? start calls :=
  agrees_of_apply ruleOf rule_eq (fun _ call h => ruleOf_apply h call) start calls

/-- The parameters of a linear rule in a document. -/
def startDeltaOf (j : Json) : Option Int64 × Option Int64 :=
  if ruleOf j = Ports.linearRule then
    match ((memberOf j "interpretation" "rule").bind (Json.find? "parameters")).filter
        Json.isObject with
    | some parameters => Metadata.startDelta parameters
    | none =>
        match (memberOf j "definition" "linear").filter Json.isObject with
        | some linear => Metadata.startDelta linear
        | none => (none, none)
  else (none, none)

/-- Calls that give no rule leave what the parameters are read from. -/
theorem startDeltaOf_congr {j j' : Json}
    (hrule : memberOf j' "definition" "rule" = memberOf j "definition" "rule")
    (hlinear : memberOf j' "definition" "linear" = memberOf j "definition" "linear")
    (hinterpretation : memberOf j' "interpretation" "rule" = memberOf j "interpretation" "rule") :
    startDeltaOf j' = startDeltaOf j := by
  unfold startDeltaOf ruleOf
  rw [hrule, hlinear, hinterpretation]

theorem startDeltaOf_apply {j : Json} (h : Sectioned j) (call : Call) :
    startDeltaOf (apply j call) = call.startDelta?.getD (startDeltaOf j) := by
  have hrule := memberOf_definition h call "rule"
  have hlinear := memberOf_definition h call "linear"
  have hinterpretation := memberOf_interpretation h call (show "metadata" ≠ "rule" by decide)
  cases call with
  | constantRule =>
      unfold startDeltaOf
      rw [ruleOf_apply h, if_neg]
      · rfl
      · change ¬ Ports.constantRule = Ports.linearRule
        decide
  | linearRule start delta =>
      unfold startDeltaOf
      rw [ruleOf_apply h, if_pos, hinterpretation]
      · change (some (Int64.ofInt start.toInt), some (Int64.ofInt delta.toInt)) = _
        rw [Int64.ofInt_toInt, Int64.ofInt_toInt]
        rfl
      · rfl
  | dataType type => exact startDeltaOf_congr hrule hlinear hinterpretation
  | endian endian => exact startDeltaOf_congr hrule hlinear hinterpretation
  | extraMetadata key value => exact startDeltaOf_congr hrule hlinear hinterpretation
  | origin origin => exact startDeltaOf_congr hrule hlinear hinterpretation
  | range low high => exact startDeltaOf_congr hrule hlinear hinterpretation
  | structField field => exact startDeltaOf_congr hrule hlinear hinterpretation
  | table id => exact startDeltaOf_congr hrule hlinear hinterpretation
  | tcpSignalRate rate => exact startDeltaOf_congr hrule hlinear hinterpretation
  | tickResolution numerator denominator => exact startDeltaOf_congr hrule hlinear hinterpretation
  | unit id name quantity symbol => exact startDeltaOf_congr hrule hlinear hinterpretation

theorem agrees_linearStartDelta :
    Agrees Metadata.linearStartDelta Call.startDelta? start calls := by
  apply agrees_of_apply startDeltaOf
  · intro m
    unfold Metadata.linearStartDelta startDeltaOf
    rw [rule_eq]
    rfl
  · exact fun _ call h => startDeltaOf_apply h call

theorem agrees_tableId : Agrees Metadata.tableId Call.table? start calls := by
  apply agrees_of_apply fun j => (j.stringAt? "tableId").getD ""
  · exact fun _ => rfl
  · intro j call h
    have hwritten := (writes_apply h.isObject call).document "tableId" (by decide) (by decide)
    unfold Json.stringAt?
    rw [hwritten]
    cases call <;> rfl

/-- An unsigned number is read as it was written. -/
theorem ofInt_toNat (n : UInt64) : UInt64.ofInt n.toNat = n := by
  have hlt := n.toNat_lt
  have hmod : ((n.toNat : Int) % 2 ^ 64).toNat = n.toNat := by omega
  unfold UInt64.ofInt
  rw [hmod, UInt64.ofNat_toNat]

theorem agrees_tickResolution : Agrees (fun m => m.tickResolution)
    (fun call => call.tickResolution?.map some) start calls := by
  apply agrees_of_apply fun j =>
    ((memberOf j "definition" "resolution").filter Json.isObject).map fun resolution =>
      (Metadata.ratioPart "num" resolution, Metadata.ratioPart "denom" resolution)
  · exact fun _ => rfl
  · intro j call h
    rw [memberOf_definition h]
    cases call with
    | tickResolution numerator denominator =>
        change some (UInt64.ofInt numerator.toNat, UInt64.ofInt denominator.toNat) = _
        rw [ofInt_toNat, ofInt_toNat]
        rfl
    | constantRule => rfl
    | linearRule start delta => rfl
    | dataType type => rfl
    | endian endian => rfl
    | extraMetadata key value => rfl
    | origin origin => rfl
    | range low high => rfl
    | structField field => rfl
    | table id => rfl
    | tcpSignalRate rate => rfl
    | unit id name quantity symbol => rfl

theorem agrees_unit : Agrees (fun m => m.unit) (fun call => call.unit?.map some) start calls := by
  apply agrees_of_apply fun j =>
    (((memberOf j "interpretation" "unit").filter Json.isObject).map Metadata.interpretedUnit).or
      (((memberOf j "definition" "unit").filter Json.isObject).map Metadata.definedUnit)
  · exact fun _ => rfl
  · intro j call h
    rw [memberOf_definition h, memberOf_interpretation h call (by decide)]
    cases call with
    | unit id name quantity symbol =>
        change some (SignalUnit.mk (Int32.ofInt id.toInt) name quantity symbol) = _
        rw [Int32.ofInt_toInt]
        rfl
    | constantRule => rfl
    | linearRule start delta => rfl
    | dataType type => rfl
    | endian endian => rfl
    | extraMetadata key value => rfl
    | origin origin => rfl
    | range low high => rfl
    | structField field => rfl
    | table id => rfl
    | tcpSignalRate rate => rfl
    | tickResolution numerator denominator => rfl

/-! ## The origin -/

/-- The origin that the definition of a starting point has, which no call
changes. -/
def definedOrigin? (start : Start) : Option String :=
  (memberOf start.json "definition" "origin").bind Json.string?

theorem json_build_start : (build start.json calls).json = calls.foldl apply start.json :=
  json_build (sectioned_start start).isObject calls

/-- No call writes an origin into the definition. -/
theorem definedOrigin_apply {j : Json} (h : Sectioned j) (call : Call) :
    (memberOf (apply j call) "definition" "origin").bind Json.string? =
      (memberOf j "definition" "origin").bind Json.string? := by
  rw [memberOf_definition h]
  cases call <;> rfl

theorem definedOrigin_build :
    (memberOf (calls.foldl apply start.json) "definition" "origin").bind Json.string? =
      definedOrigin? start := by
  have hstep (j : Json) (call : Call)
      (h : Sectioned j ∧ (memberOf j "definition" "origin").bind Json.string? =
        definedOrigin? start) :
      Sectioned (apply j call) ∧ (memberOf (apply j call) "definition" "origin").bind Json.string? =
        definedOrigin? start :=
    ⟨h.1.apply call, (definedOrigin_apply h.1 call).trans h.2⟩
  exact (Run.foldl_invariant hstep calls start.json ⟨sectioned_start start, rfl⟩).2

theorem interpretedOrigin_build :
    (memberOf (calls.foldl apply start.json) "interpretation" "origin").bind Json.string? =
      (lastGiven Call.origin? calls).or
        ((memberOf start.json "interpretation" "origin").bind Json.string?) := by
  have hread (j : Json) (call : Call) (h : Sectioned j) :
      (memberOf (apply j call) "interpretation" "origin").bind Json.string? =
        (call.origin?.map some).getD
          ((memberOf j "interpretation" "origin").bind Json.string?) := by
    rw [memberOf_interpretation h call (by decide)]
    cases call <;> rfl
  have hlast := Run.foldl_lastWritten
    (fun j => (memberOf j "interpretation" "origin").bind Json.string?)
    (fun call : Call => call.origin?.map some) (fun _ call h => Sectioned.apply h call) hread calls
    start.json (sectioned_start start)
  rw [← List.map_filterMap, List.getLast?_map] at hlast
  refine hlast.trans ?_
  unfold lastGiven
  cases (calls.filterMap Call.origin?).getLast? <;> rfl

/-- **What is read as the origin**: the one in the definition, if there is one,
and otherwise the last one that was given. -/
theorem origin_build : (build start.json calls).origin =
    (definedOrigin? start).getD
      ((lastGiven Call.origin? calls).getD (build start.json []).origin) := by
  have hdefined := definedOrigin_build start []
  have hinterpreted := interpretedOrigin_build start []
  unfold Metadata.origin
  rw [json_build_start, json_build_start, definedOrigin_build, interpretedOrigin_build, hdefined]
  cases definedOrigin? start with
  | some origin => rfl
  | none =>
      cases lastGiven Call.origin? calls with
      | some origin => rfl
      | none => rfl

theorem agrees_origin_iff : Agrees Metadata.origin Call.origin? start calls ↔
    ∀ given ∈ lastGiven Call.origin? calls, ∀ defined ∈ definedOrigin? start, defined = given := by
  have hstart : (build start.json []).origin =
      (definedOrigin? start).getD (build start.json []).origin := origin_build start []
  unfold Agrees
  rw [origin_build]
  cases hdefined : definedOrigin? start with
  | none => exact iff_of_true rfl fun given _ defined h => nomatch h
  | some defined =>
      rw [hdefined, Option.getD_some] at hstart
      rw [Option.getD_some, hstart]
      cases lastGiven Call.origin? calls with
      | none => exact iff_of_true rfl fun given h => nomatch h
      | some given =>
          constructor
          · intro h given' hgiven defined' hdefined'
            rw [← Option.some.inj hgiven, ← Option.some.inj hdefined']
            exact h
          · exact fun h => h given rfl defined rfl

/-- **The readers agree with the calls** if and only if no call gives an origin
that differs from one in the definition of the starting point. -/
theorem allAgree_iff : AllAgree start calls ↔
    ∀ given ∈ lastGiven Call.origin? calls, ∀ defined ∈ definedOrigin? start, defined = given := by
  rw [← agrees_origin_iff]
  constructor
  · exact fun h => h.origin
  · intro horigin
    constructor
    · exact agrees_dataType start calls
    · exact agrees_endian start calls
    · exact agrees_rule start calls
    · exact agrees_linearStartDelta start calls
    · exact horigin
    · exact agrees_tableId start calls
    · exact agrees_tickResolution start calls
    · exact agrees_unit start calls

end Items

/-- An origin in the definition of a document is not replaced. -/
theorem origin_of_definition :
    ¬ ∀ (start : Start) (calls : List Call), AllAgree start calls := by
  intro h
  have horigin := (h (.document (.object [("definition", .object [("origin", .string "a")])]))
    [.origin "b"]).origin
  unfold Agrees at horigin
  exact absurd horigin (by decide +kernel)

end MetadataBuilder

end WsStreaming.Ports
