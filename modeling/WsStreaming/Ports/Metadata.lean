import WsStreaming.Ports.Json

/-!
# Signal metadata

`wss::metadata`, the reader of a signal's JSON description, and
`wss::metadata_builder`, which writes such descriptions.

The accessors below are the ones that the streaming code itself reads: rule,
table, data type and sample size, the parameters of a linear rule, and the
value index.  The remaining ones (name, origin, unit and so on) are for
applications only, and have a module of their own.

## Main results

* `withValueIndex` and its lemmas — the description a publisher sends differs
  from the signal's own in the value index alone.
* `valueIndex_build_new` — whatever is built from a name has a value index
  of zero.
-/

namespace WsStreaming.Ports

open WsStreaming.Verified

/-- `rule_types::explicit_rule`. -/
def explicitRule : String := "explicit"

/-- `rule_types::constant_rule`. -/
def constantRule : String := "constant"

/-- `rule_types::linear_rule`. -/
def linearRule : String := "linear"

/-- `wss::metadata`: a JSON object. -/
structure Metadata where
  json : Json
  isObject : json.isObject = true
deriving DecidableEq, Repr

namespace Metadata

/-- `metadata::metadata`: anything but an object counts as the empty one. -/
def ofJson (j : Json) : Metadata :=
  if h : j.isObject = true then ⟨j, h⟩ else ⟨.object [], rfl⟩

theorem json_ofJson {j : Json} (h : j.isObject = true) : (ofJson j).json = j := by
  rw [ofJson, dif_pos h]

theorem ofJson_json (m : Metadata) : ofJson m.json = m := dif_pos m.isObject

/-- `metadata::rule`. -/
def rule (m : Metadata) : String :=
  ((m.json.find? "definition").bind (Json.stringAt? "rule")).getD explicitRule

/-- `metadata::data_type`. -/
def dataType (m : Metadata) : String :=
  ((m.json.find? "definition").bind (Json.stringAt? "dataType")).getD "unknown"

/-- `metadata::table_id`. -/
def tableId (m : Metadata) : String := (m.json.stringAt? "tableId").getD ""

/-- `metadata::value_index`. -/
def valueIndex (m : Metadata) : Option Int64 :=
  ((m.json.find? "valueIndex").bind Json.integer?).map Int64.ofInt

/-- The start and the delta in an object of parameters. -/
def startDelta (parameters : Json) : Option Int64 × Option Int64 :=
  ((parameters.find? "start").bind Json.int64?, (parameters.find? "delta").bind Json.int64?)

/-- `metadata::linear_start_delta`. -/
def linearStartDelta (m : Metadata) : Option Int64 × Option Int64 :=
  if m.rule = linearRule then
    match ((((m.json.find? "interpretation").bind (Json.find? "rule")).bind
        (Json.find? "parameters")).filter Json.isObject) with
    | some parameters => startDelta parameters
    | none =>
        match ((m.json.find? "definition").bind (Json.find? "linear")).filter Json.isObject with
        | some linear => startDelta linear
        | none => (none, none)
  else (none, none)

/-- `get_primitive_size`. -/
def getPrimitiveSize (type : String) : Nat :=
  if type = "int8" ∨ type = "uint8" then 1
  else if type = "int16" ∨ type = "uint16" then 2
  else if type = "int32" ∨ type = "uint32" ∨ type = "real32" then 4
  else if type = "int64" ∨ type = "uint64" ∨ type = "real64" then 8
  else 0

/-- The number of elements of a structure field: the size of its first
dimension, converted to `std::size_t`. -/
def fieldCount (field : Json) : Nat :=
  match ((((field.find? "dimensions").bind Json.array?).bind List.head?).bind
      (Json.find? "linear")).filter Json.isObject with
  | some linear =>
      match (linear.find? "size").bind Json.integer? with
      | some n => (n % 2 ^ 64).toNat
      | none => 1
  | none => 1

theorem fieldCount_eq_elim (field : Json) :
    fieldCount field =
      (((((field.find? "dimensions").bind Json.array?).bind List.head?).bind
        (Json.find? "linear")).filter Json.isObject).elim 1 fun linear =>
          ((linear.find? "size").bind Json.integer?).elim 1 fun n => (n % 2 ^ 64).toNat := by
  unfold fieldCount
  cases ((((field.find? "dimensions").bind Json.array?).bind List.head?).bind
      (Json.find? "linear")).filter Json.isObject with
  | none => rfl
  | some linear =>
      rw [Option.elim_some]
      dsimp only
      cases (linear.find? "size").bind Json.integer? <;> rfl

/-- What a structure field adds to the sample size. -/
def fieldSize (field : Json) : Nat :=
  match field.stringAt? "dataType" with
  | some type => getPrimitiveSize type * fieldCount field
  | none => 0

/-- `metadata::sample_size`, in `std::size_t`. -/
def sampleSize (m : Metadata) : Nat :=
  let size := getPrimitiveSize m.dataType
  if size = 0 ∧ m.dataType = "struct" then
    match ((m.json.find? "definition").bind (Json.find? "struct")).bind Json.array? with
    | some fields => (fields.foldl (fun size field => size + fieldSize field) 0) % 2 ^ 64
    | none => 0
  else size

/-- The count of ticks in `metadata::tcp_signal_rate_ticks`: the interval in
units of 2^-64 seconds, converted and rounded; none if it divides by zero,
which raises an exception. -/
def ticks (seconds fraction subFraction samples : UInt32) (numerator denominator : UInt64) :
    Option UInt64 :=
  let ticks264 := (seconds.toNat * 2 ^ 32 + fraction.toNat) * 2 ^ 32 + subFraction.toNat
  if samples = 0 ∨ numerator = 0 ∨ denominator = 0 then none
  else
    some (UInt64.ofNat
      ((ticks264 * denominator.toNat * (2 * denominator.toNat) +
          2 ^ 64 * numerator.toNat * samples.toNat) /
        (2 * denominator.toNat * (2 ^ 64 * samples.toNat * numerator.toNat))))

/-- `metadata::tcp_signal_rate_ticks`; none if it raises an exception. -/
def tcpSignalRateTicks (m : Metadata) (numerator denominator : UInt64) : Option UInt64 :=
  match (m.json.find? "signalRate").filter Json.isObject with
  | none => some 0
  | some rate => do
      let seconds ← rate.jsonPtr Json.uint32? ["delta", "seconds"] 0
      let fraction ← rate.jsonPtr Json.uint32? ["delta", "fraction"] 0
      let subFraction ← rate.jsonPtr Json.uint32? ["delta", "subFraction"] 0
      let samples ← rate.jsonPtr Json.uint32? ["samples"] 1
      ticks seconds fraction subFraction samples numerator denominator

/-! ## The value index -/

/-- `metadata["valueIndex"] = value_index`, as `connection::subscribe` sends
the description. -/
def withValueIndex (m : Metadata) (valueIndex : Int64) : Json :=
  m.json.set "valueIndex" (.integer valueIndex.toInt)

section WithValueIndex

variable (m : Metadata) (i : Int64)

theorem isObject_withValueIndex : (m.withValueIndex i).isObject = true := by
  have hobj := m.isObject
  unfold withValueIndex
  cases hj : m.json with
  | object members => rfl
  | null => rw [hj] at hobj; cases hobj
  | bool b => rw [hj] at hobj; cases hobj
  | integer n => rw [hj] at hobj; cases hobj
  | float bits => rw [hj] at hobj; cases hobj
  | string s => rw [hj] at hobj; cases hobj
  | array elements => rw [hj] at hobj; cases hobj

theorem find?_withValueIndex (key : String) :
    (ofJson (m.withValueIndex i)).json.find? key =
      if "valueIndex" = key then some (.integer i.toInt) else m.json.find? key := by
  rw [json_ofJson (isObject_withValueIndex m i), withValueIndex, Json.find?_set m.isObject]

@[simp] theorem valueIndex_withValueIndex :
    (ofJson (m.withValueIndex i)).valueIndex = some i := by
  rw [valueIndex, find?_withValueIndex, if_pos rfl]
  exact congrArg some (Int64.ofInt_toInt i)

@[simp] theorem rule_withValueIndex : (ofJson (m.withValueIndex i)).rule = m.rule := by
  rw [rule, find?_withValueIndex, if_neg (by decide), rule]

@[simp] theorem dataType_withValueIndex :
    (ofJson (m.withValueIndex i)).dataType = m.dataType := by
  rw [dataType, find?_withValueIndex, if_neg (by decide), dataType]

@[simp] theorem tableId_withValueIndex :
    (ofJson (m.withValueIndex i)).tableId = m.tableId := by
  rw [tableId, Json.stringAt?, find?_withValueIndex, if_neg (by decide), tableId,
    Json.stringAt?]

@[simp] theorem linearStartDelta_withValueIndex :
    (ofJson (m.withValueIndex i)).linearStartDelta = m.linearStartDelta := by
  have hdefinition : ¬ "valueIndex" = "definition" := by decide
  have hinterpretation : ¬ "valueIndex" = "interpretation" := by decide
  simp only [linearStartDelta, rule_withValueIndex, find?_withValueIndex,
    if_neg hdefinition, if_neg hinterpretation]

@[simp] theorem sampleSize_withValueIndex :
    (ofJson (m.withValueIndex i)).sampleSize = m.sampleSize := by
  have hdefinition : ¬ "valueIndex" = "definition" := by decide
  simp only [sampleSize, dataType_withValueIndex, find?_withValueIndex, if_neg hdefinition]

end WithValueIndex

end Metadata

/-! ## The builder -/

namespace MetadataBuilder

/-- `_metadata[key] = f(_metadata[key])`; a missing member is null. -/
def update (j : Json) (key : String) (f : Json → Json) : Json :=
  j.set key (f ((j.find? key).getD .null))

/-- `metadata_builder::metadata_builder(name)`. -/
def new (name : String) : Json :=
  .object
    [("definition", .object [("name", .string name), ("rule", .string explicitRule)]),
     ("interpretation", .object
        [("desc_name", .string name),
         ("rule", .object [("parameters", .null), ("type", .integer 3)]),
         ("sig_desc", .string ""),
         ("sig_name", .string name)]),
     ("valueIndex", .integer 0)]

/-- A member that is an object, made one if it is not. -/
def ensureObject (j : Json) (key : String) : Json :=
  match (j.find? key).filter Json.isObject with
  | some _ => j
  | none => j.set key (.object [])

/-- `metadata_builder::metadata_builder(from_json, metadata)`. -/
def fromJson (j : Json) : Json :=
  ensureObject (ensureObject (if j.isObject then j else .object []) "definition") "interpretation"

/-- The member functions of `metadata_builder` with their arguments; numbers
of the `range` are given as the bits of a double, a structure field as the
JSON that `struct_field_builder::build` returns. -/
inductive Call where
  | constantRule
  | dataType (type : String)
  | endian (endian : String)
  | extraMetadata (key value : String)
  | linearRule (start delta : Int64)
  | origin (origin : String)
  | range (low high : UInt64)
  | structField (field : Json)
  | table (id : String)
  | tcpSignalRate (sampleRate : Json)
  | tickResolution (numerator denominator : UInt64)
  | unit (id : Int32) (name quantity symbol : String)
deriving Repr

/-- `_metadata["definition"]["struct"]` with one more field. -/
def pushField (definition field : Json) : Json :=
  match (definition.find? "struct").bind Json.array? with
  | some fields => definition.set "struct" (.array (fields ++ [field]))
  | none => definition.set "struct" (.array [field])

/-- The member `linear` that `metadata_builder::linear_rule` writes into the
definition: a start of zero is left out. -/
def linearDefinition (start delta : Int64) : Json :=
  if start = 0 then .object [("delta", .integer delta.toInt)]
  else .object [("delta", .integer delta.toInt), ("start", .integer start.toInt)]

/-- One call. -/
def apply (j : Json) : Call → Json
  | .constantRule =>
      let j := update j "definition" fun d =>
        match d.set "rule" (.string Ports.constantRule) with
        | .object members => .object (OrderedMap.erase members Ports.linearRule)
        | d => d
      update j "interpretation" fun i =>
        i.set "rule" (.object [("parameters", .null), ("type", .integer 2)])
  | .dataType type => update j "definition" fun d => d.set "dataType" (.string type)
  | .endian endian => update j "definition" fun d => d.set "endian" (.string endian)
  | .extraMetadata key value =>
      update j "interpretation" fun i =>
        update (ensureObject i "metadata") "metadata" fun m => m.set key (.string value)
  | .linearRule start delta =>
      let j := update j "definition" fun d =>
        (d.set "rule" (.string Ports.linearRule)).set Ports.linearRule
          (linearDefinition start delta)
      update j "interpretation" fun i =>
        i.set "rule" (.object
          [("parameters", .object
              [("delta", .integer delta.toInt), ("start", .integer start.toInt)]),
           ("type", .integer 1)])
  | .origin origin => update j "interpretation" fun i => i.set "origin" (.string origin)
  | .range low high =>
      update j "definition" fun d =>
        d.set "range" (.object [("high", .float high), ("low", .float low)])
  | .structField field => update j "definition" fun d => pushField d field
  | .table id => j.set "tableId" (.string id)
  | .tcpSignalRate sampleRate => j.set "signalRate" sampleRate
  | .tickResolution numerator denominator =>
      update j "definition" fun d =>
        d.set "resolution" (.object
          [("denom", .integer denominator.toNat), ("num", .integer numerator.toNat)])
  | .unit id name quantity symbol =>
      let j := update j "definition" fun d =>
        d.set "unit" (.object
          [("displayName", .string symbol), ("quantity", .string quantity),
           ("unitId", .integer id.toInt)])
      update j "interpretation" fun i =>
        i.set "unit" (.object
          [("id", .integer id.toInt), ("name", .string name),
           ("quantity", .string quantity), ("symbol", .string symbol)])

/-- A description: a starting point and the calls made on it. -/
def build (start : Json) (calls : List Call) : Metadata := .ofJson (calls.foldl apply start)

/-! ### The value index of what is built -/

theorem isObject_set {j : Json} (h : j.isObject = true) (key : String) (value : Json) :
    (j.set key value).isObject = true := by
  cases j with
  | object members => rfl
  | null => cases h
  | bool b => cases h
  | integer n => cases h
  | float bits => cases h
  | string s => cases h
  | array elements => cases h

/-- No call touches the value index. -/
theorem apply_spec {j : Json} (h : j.isObject = true) (call : Call) :
    (apply j call).isObject = true ∧
      (apply j call).find? "valueIndex" = j.find? "valueIndex" := by
  have hset {j : Json} (h : j.isObject = true) {key : String} (value : Json)
      (hkey : key ≠ "valueIndex") :
      (j.set key value).isObject = true ∧
        (j.set key value).find? "valueIndex" = j.find? "valueIndex" :=
    ⟨isObject_set h key value, by rw [Json.find?_set h, if_neg hkey]⟩
  have hdefinition (f : Json → Json) : (update j "definition" f).isObject = true ∧
      (update j "definition" f).find? "valueIndex" = j.find? "valueIndex" :=
    hset h _ (by decide)
  have hinterpretation {j : Json} (h : j.isObject = true) (f : Json → Json) :
      (update j "interpretation" f).isObject = true ∧
        (update j "interpretation" f).find? "valueIndex" = j.find? "valueIndex" :=
    hset h _ (by decide)
  have hboth (f g : Json → Json) :
      (update (update j "definition" f) "interpretation" g).isObject = true ∧
        (update (update j "definition" f) "interpretation" g).find? "valueIndex" =
          j.find? "valueIndex" :=
    ⟨(hinterpretation (hdefinition f).1 g).1,
      (hinterpretation (hdefinition f).1 g).2.trans (hdefinition f).2⟩
  unfold apply
  cases call with
  | constantRule => exact hboth _ _
  | dataType type => exact hdefinition _
  | endian endian => exact hdefinition _
  | extraMetadata key value => exact hinterpretation h _
  | linearRule start delta => exact hboth _ _
  | origin origin => exact hinterpretation h _
  | range low high => exact hdefinition _
  | structField field => exact hdefinition _
  | table id => exact hset h _ (by decide)
  | tcpSignalRate sampleRate => exact hset h _ (by decide)
  | tickResolution numerator denominator => exact hdefinition _
  | unit id name quantity symbol => exact hboth _ _

theorem foldl_apply_spec (calls : List Call) {j : Json} (h : j.isObject = true) :
    (calls.foldl apply j).isObject = true ∧
      (calls.foldl apply j).find? "valueIndex" = j.find? "valueIndex" := by
  induction calls generalizing j with
  | nil => exact ⟨h, rfl⟩
  | cons call calls ih =>
      have hcall := apply_spec h call
      have hrest := ih hcall.1
      exact ⟨hrest.1, hrest.2.trans hcall.2⟩

/-- What is built from a name starts at index zero. -/
theorem valueIndex_build_new (name : String) (calls : List Call) :
    (build (new name) calls).valueIndex = some 0 := by
  have hspec := foldl_apply_spec calls (show (new name).isObject = true from rfl)
  rw [Metadata.valueIndex, build, Metadata.json_ofJson hspec.1, hspec.2]
  rfl

end MetadataBuilder

end WsStreaming.Ports
