import WsStreaming.Ports.Metadata

/-!
# Accessors of signal metadata

The accessors of `wss::metadata` as they are written, with a guard before each
step into the document: `contains`, a test of the type, `operator[]`, and a
conversion at the end.  A step to a member that is not there and a conversion of
a value of another type raise an exception, so each accessor is partial here.

The guards leave nothing to be raised, except where members of any type are
converted to strings (`extra_metadata`) and where an interval is divided by a
received number (`tcp_signal_rate_ticks`).

## Main results

* `guardedValue_eq`, `guardedChain_eq` — what a guarded step returns.
* `readDataType_eq`, `readRule_eq`, … — what each accessor returns.
* `isSome_extraMetadata`, `isSome_tcpSignalRateTicks` — when the other two do.
-/

namespace WsStreaming.Ports

namespace Json

/-- `is_string`. -/
def isString : Json → Bool
  | .string _ => true
  | _ => false

/-- `is_number`. -/
def isNumber : Json → Bool
  | .integer _ => true
  | .float _ => true
  | _ => false

/-- `is_number_integer`. -/
def isNumberInteger : Json → Bool
  | .integer _ => true
  | _ => false

/-- `is_array`. -/
def isArray : Json → Bool
  | .array _ => true
  | _ => false

/-- `value<nlohmann::json>(key, nullptr)`, which raises an exception unless it
is called on an object. -/
def valueOrNull (key : String) (j : Json) : Option Json :=
  if j.isObject then some ((j.find? key).getD .null) else none

/-- A guarded step: the member with this key if it is there and has the type,
and no value otherwise. -/
def guarded (hasType : Json → Bool) (key : String) (j : Json) : Option (Option Json) :=
  if j.contains key then (j.find? key).map fun v => if hasType v then some v else none
  else some none

/-- A guarded step with a conversion at the end. -/
def guardedValue {α : Type} (hasType : Json → Bool) (convert : Json → Option α) (key : String)
    (j : Json) : Option (Option α) :=
  (guarded hasType key j).bind fun
    | some v => (convert v).map some
    | none => some none

/-- Guarded steps from object to object. -/
def guardedChain (j : Json) : List String → Option (Option Json)
  | [] => some (some j)
  | key :: keys => (guarded isObject key j).bind fun
      | some s => guardedChain s keys
      | none => some none

/-- The object at the end of a chain of keys. -/
def objectAt? (j : Json) : List String → Option Json
  | [] => some j
  | key :: keys => ((j.find? key).filter isObject).bind fun s => objectAt? s keys

section Guards

variable {α : Type} {key : String} {j : Json}

theorem guarded_eq (hasType : Json → Bool) :
    guarded hasType key j = some ((j.find? key).filter hasType) := by
  unfold guarded contains
  cases j.find? key with
  | none => rfl
  | some v =>
      rw [Option.isSome_some, if_pos rfl, Option.map_some]
      by_cases hv : hasType v = true
      · rw [if_pos hv, Option.filter_some_pos hv]
      · rw [if_neg hv, Option.filter_some_neg (Bool.eq_false_iff.mpr hv)]

/-- **A guarded conversion raises nothing**, if every value of the type
converts. -/
theorem guardedValue_eq {hasType : Json → Bool} {convert : Json → Option α}
    (h : ∀ v, hasType v = (convert v).isSome) :
    guardedValue hasType convert key j = some ((j.find? key).bind convert) := by
  unfold guardedValue
  rw [guarded_eq, Option.bind_some]
  cases j.find? key with
  | none => rfl
  | some v =>
      rw [Option.bind_some]
      by_cases hv : hasType v = true
      · rw [Option.filter_some_pos hv]
        obtain ⟨x, hx⟩ := Option.isSome_iff_exists.mp ((h v).symm.trans hv)
        change (convert v).map some = some (convert v)
        rw [hx]
        rfl
      · rw [Option.filter_some_neg (Bool.eq_false_iff.mpr hv)]
        rw [h, Option.not_isSome_iff_eq_none] at hv
        change some none = some (convert v)
        rw [hv]

theorem guardedChain_eq (keys : List String) :
    ∀ j, guardedChain j keys = some (objectAt? j keys) := by
  induction keys with
  | nil => exact fun _ => rfl
  | cons key keys ih =>
      intro j
      rw [guardedChain, guarded_eq, Option.bind_some, objectAt?]
      cases (j.find? key).filter isObject with
      | none => rfl
      | some s => exact ih s

/-- What is at the end of a chain is an object. -/
theorem isObject_objectAt? (keys : List String) :
    ∀ {j s}, j.isObject = true → objectAt? j keys = some s → s.isObject = true := by
  induction keys with
  | nil =>
      intro j s hj hs
      rw [← Option.some.inj hs]
      exact hj
  | cons key keys ih =>
      intro j s _ hs
      obtain ⟨s', hs', hrest⟩ := Option.bind_eq_some_iff.mp hs
      exact ih (Option.filter_eq_some_iff.mp hs').2 hrest

theorem valueOrNull_eq (h : j.isObject = true) :
    valueOrNull key j = some ((j.find? key).getD .null) := if_pos h

theorem isString_eq (v : Json) : v.isString = v.string?.isSome := by
  cases v <;> rfl

theorem isNumberInteger_eq (v : Json) : v.isNumberInteger = v.integer?.isSome := by
  cases v <;> rfl

/-- A member of something that is no object is not there. -/
theorem find?_filter_isObject (j : Option Json) (key : String) :
    (j.filter isObject).bind (find? key) = j.bind (find? key) := by
  cases j with
  | none => rfl
  | some s =>
      cases s with
      | object members => rfl
      | null => rfl
      | bool b => rfl
      | integer n => rfl
      | float bits => rfl
      | string s => rfl
      | array elements => rfl

end Guards

end Json

/-- `wss::unit`. -/
structure SignalUnit where
  id : Int32
  name : String
  quantity : String
  symbol : String
deriving DecidableEq, Repr

namespace Metadata

/-! ## What the accessors return -/

/-- A member of a section of the document. -/
def memberOf (j : Json) (outer inner : String) : Option Json :=
  (j.find? outer).bind (Json.find? inner)

/-- `metadata::endian`. -/
def endian (m : Metadata) : String :=
  ((memberOf m.json "definition" "endian").bind Json.string?).getD "unknown"

/-- `metadata::name`. -/
def name (m : Metadata) : String :=
  ((memberOf m.json "definition" "name").bind Json.string?).getD ""

/-- `metadata::origin`. -/
def origin (m : Metadata) : String :=
  (((memberOf m.json "definition" "origin").bind Json.string?).or
    ((memberOf m.json "interpretation" "origin").bind Json.string?)).getD ""

/-- An integer member converted to `std::uint64_t`, or one. -/
def ratioPart (key : String) (resolution : Json) : UInt64 :=
  (((resolution.find? key).bind Json.integer?).map UInt64.ofInt).getD 1

/-- `metadata::tick_resolution`. -/
def tickResolution (m : Metadata) : Option (UInt64 × UInt64) :=
  ((memberOf m.json "definition" "resolution").filter Json.isObject).map fun resolution =>
    (ratioPart "num" resolution, ratioPart "denom" resolution)

/-- An integer member converted to `int`, or minus one. -/
def unitId (key : String) (unit : Json) : Int32 :=
  (((unit.find? key).bind Json.integer?).map Int32.ofInt).getD (-1)

/-- The unit in an interpretation. -/
def interpretedUnit (unit : Json) : SignalUnit :=
  ⟨unitId "id" unit, (unit.stringAt? "name").getD "", (unit.stringAt? "quantity").getD "",
    (unit.stringAt? "symbol").getD ""⟩

/-- The unit in a definition, where one name serves for two. -/
def definedUnit (unit : Json) : SignalUnit :=
  ⟨unitId "unitId" unit, (unit.stringAt? "displayName").getD "",
    (unit.stringAt? "quantity").getD "", (unit.stringAt? "displayName").getD ""⟩

/-- `metadata::unit`. -/
def unit (m : Metadata) : Option SignalUnit :=
  (((memberOf m.json "interpretation" "unit").filter Json.isObject).map interpretedUnit).or
    (((memberOf m.json "definition" "unit").filter Json.isObject).map definedUnit)

/-! ## The accessors as they are written -/

/-- A guarded string in a section of the document. -/
def readString (m : Metadata) (outer inner : String) : Option (Option String) :=
  (Json.guarded Json.isObject outer m.json).bind fun
    | some s => Json.guardedValue Json.isString Json.string? inner s
    | none => some none

/-- `metadata::data_type`. -/
def readDataType (m : Metadata) : Option String :=
  (m.readString "definition" "dataType").map fun s => s.getD "unknown"

/-- `metadata::endian`. -/
def readEndian (m : Metadata) : Option String :=
  (m.readString "definition" "endian").map fun s => s.getD "unknown"

/-- `metadata::name`. -/
def readName (m : Metadata) : Option String :=
  (m.readString "definition" "name").map fun s => s.getD ""

/-- `metadata::rule`. -/
def readRule (m : Metadata) : Option String :=
  (m.readString "definition" "rule").map fun s => s.getD explicitRule

/-- `metadata::origin`. -/
def readOrigin (m : Metadata) : Option String :=
  (m.readString "definition" "origin").bind fun
    | some s => some s
    | none => (m.readString "interpretation" "origin").map fun s => s.getD ""

/-- `metadata::table_id`. -/
def readTableId (m : Metadata) : Option String :=
  (m.json.valueOrNull "tableId").bind fun v => if v.isString then v.string? else some ""

/-- `metadata::value_index`. -/
def readValueIndex (m : Metadata) : Option (Option Int64) :=
  (m.json.valueOrNull "valueIndex").bind fun v =>
    if v.isNumberInteger then v.integer?.map fun n => some (Int64.ofInt n) else some none

/-- A number that is read from an object of parameters. -/
def readNumber (key : String) (parameters : Json) : Option (Option Int64) :=
  (parameters.valueOrNull key).bind fun v => if v.isNumber then v.int64?.map some else some none

/-- The start and the delta that are read from an object of parameters. -/
def readStartDelta (parameters : Json) : Option (Option Int64 × Option Int64) :=
  (readNumber "start" parameters).bind fun start =>
    (readNumber "delta" parameters).map fun delta => (start, delta)

/-- `metadata::linear_start_delta`. -/
def readLinearStartDelta (m : Metadata) : Option (Option Int64 × Option Int64) :=
  m.readRule.bind fun rule =>
    if rule = linearRule then
      (m.json.guardedChain ["interpretation", "rule", "parameters"]).bind fun
        | some parameters => readStartDelta parameters
        | none => (m.json.guardedChain ["definition", "linear"]).bind fun
            | some linear => readStartDelta linear
            | none => some (none, none)
    else some (none, none)

/-- A guarded integer, or a number in its place. -/
def readInteger (key : String) (fallback : Int) (j : Json) : Option Int :=
  (Json.guardedValue Json.isNumberInteger Json.integer? key j).map fun n => n.getD fallback

/-- A guarded string, or the empty one. -/
def readText (key : String) (j : Json) : Option String :=
  (Json.guardedValue Json.isString Json.string? key j).map fun s => s.getD ""

/-- `metadata::tick_resolution`. -/
def readTickResolution (m : Metadata) : Option (Option (UInt64 × UInt64)) :=
  (m.json.guardedChain ["definition", "resolution"]).bind fun
    | some resolution =>
        (readInteger "num" 1 resolution).bind fun num =>
          (readInteger "denom" 1 resolution).map fun denom =>
            some (UInt64.ofInt num, UInt64.ofInt denom)
    | none => some none

/-- `metadata::unit`. -/
def readUnit (m : Metadata) : Option (Option SignalUnit) :=
  (m.json.guardedChain ["interpretation", "unit"]).bind fun
    | some unit =>
        (readInteger "id" (-1) unit).bind fun id =>
          (readText "name" unit).bind fun name =>
            (readText "quantity" unit).bind fun quantity =>
              (readText "symbol" unit).map fun symbol =>
                some ⟨Int32.ofInt id, name, quantity, symbol⟩
    | none => (m.json.guardedChain ["definition", "unit"]).bind fun
        | some unit =>
            (readInteger "unitId" (-1) unit).bind fun id =>
              (readText "displayName" unit).bind fun name =>
                (readText "quantity" unit).map fun quantity =>
                  some ⟨Int32.ofInt id, name, quantity, name⟩
        | none => some none

/-- The size of the first dimension of a structure field, if it is linear. -/
def readFieldCount (field : Json) : Option Nat :=
  (Json.guarded Json.isArray "dimensions" field).bind fun
    | some (.array (dimension :: _)) =>
        if dimension.isObject then
          (Json.guarded Json.isObject "linear" dimension).bind fun
            | some linear => (readInteger "size" 1 linear).map fun n => (n % 2 ^ 64).toNat
            | none => some 1
        else some 1
    | _ => some 1

/-- What a structure field adds to the sample size; a field without a data type
is passed over. -/
def readFieldSize (field : Json) : Option Nat :=
  if field.isObject then
    (Json.guardedValue Json.isString Json.string? "dataType" field).bind fun
      | some type => (readFieldCount field).map fun count => getPrimitiveSize type * count
      | none => some 0
  else some 0

/-- The loop over the fields of a structure. -/
def readFields (fields : List Json) (size : Nat) : Option Nat :=
  match fields with
  | [] => some size
  | field :: fields => (readFieldSize field).bind fun n => readFields fields (size + n)

/-- `metadata::sample_size`. -/
def readSampleSize (m : Metadata) : Option Nat :=
  m.readDataType.bind fun type =>
    if getPrimitiveSize type = 0 ∧ type = "struct" then
      (Json.guarded Json.isObject "definition" m.json).bind fun
        | some definition =>
            (Json.guarded Json.isArray "struct" definition).bind fun
              | some (.array fields) => (readFields fields 0).map fun size => size % 2 ^ 64
              | _ => some 0
        | none => some 0
    else some (getPrimitiveSize type)

/-- The loop of `metadata::extra_metadata`, where any value is converted to a
string. -/
def readExtras : List (String × Json) → Option (List (String × String))
  | [] => some []
  | (key, value) :: members =>
      value.string?.bind fun text => (readExtras members).map fun extras => (key, text) :: extras

/-- `metadata::extra_metadata`. -/
def extraMetadata (m : Metadata) : Option (List (String × String)) :=
  (m.json.guardedChain ["interpretation", "metadata"]).bind fun
    | some (.object members) => readExtras members
    | _ => some []

/-! ## Nothing is raised -/

section Reads

variable (m : Metadata)

theorem readString_eq (outer inner : String) :
    m.readString outer inner = some ((memberOf m.json outer inner).bind Json.string?) := by
  unfold readString memberOf
  rw [Json.guarded_eq, Option.bind_some, ← Json.find?_filter_isObject]
  cases (m.json.find? outer).filter Json.isObject with
  | none => rfl
  | some s => exact Json.guardedValue_eq Json.isString_eq

/-- A string of the definition, or a fallback. -/
theorem readString_getD (key fallback : String) :
    (m.readString "definition" key).map (fun s => s.getD fallback) =
      some (((m.json.find? "definition").bind (Json.stringAt? key)).getD fallback) := by
  rw [readString_eq, Option.map_some, memberOf, Option.bind_assoc]
  rfl

theorem readDataType_eq : m.readDataType = some m.dataType := m.readString_getD "dataType" "unknown"

theorem readRule_eq : m.readRule = some m.rule := m.readString_getD "rule" explicitRule

theorem readEndian_eq : m.readEndian = some m.endian := by
  rw [readEndian, readString_eq]
  rfl

theorem readName_eq : m.readName = some m.name := by
  rw [readName, readString_eq]
  rfl

theorem readOrigin_eq : m.readOrigin = some m.origin := by
  unfold readOrigin origin
  rw [readString_eq, readString_eq, Option.bind_some]
  cases (memberOf m.json "definition" "origin").bind Json.string? with
  | none => rfl
  | some s => rfl

theorem readTableId_eq : m.readTableId = some m.tableId := by
  unfold readTableId tableId Json.stringAt?
  rw [Json.valueOrNull_eq m.isObject, Option.bind_some]
  cases m.json.find? "tableId" with
  | none => rfl
  | some v => cases v <;> rfl

theorem readValueIndex_eq : m.readValueIndex = some m.valueIndex := by
  unfold readValueIndex valueIndex
  rw [Json.valueOrNull_eq m.isObject, Option.bind_some]
  cases m.json.find? "valueIndex" with
  | none => rfl
  | some v => cases v <;> rfl

theorem readNumber_eq {parameters : Json} (h : parameters.isObject = true) (key : String) :
    readNumber key parameters = some ((parameters.find? key).bind Json.int64?) := by
  unfold readNumber
  rw [Json.valueOrNull_eq h, Option.bind_some]
  cases parameters.find? key with
  | none => rfl
  | some v => cases v <;> rfl

theorem readStartDelta_eq {parameters : Json} (h : parameters.isObject = true) :
    readStartDelta parameters = some (startDelta parameters) := by
  unfold readStartDelta
  rw [readNumber_eq h, readNumber_eq h]
  rfl

/-- Two steps from object to object. -/
theorem objectAt?_two (j : Json) (outer inner : String) :
    j.objectAt? [outer, inner] = (memberOf j outer inner).filter Json.isObject := by
  unfold memberOf
  rw [← Json.find?_filter_isObject]
  change ((j.find? outer).filter Json.isObject).bind (fun s =>
    ((s.find? inner).filter Json.isObject).bind some) = _
  cases (j.find? outer).filter Json.isObject with
  | none => rfl
  | some s =>
      change ((s.find? inner).filter Json.isObject).bind some = (s.find? inner).filter Json.isObject
      cases (s.find? inner).filter Json.isObject <;> rfl

/-- Three of them. -/
theorem objectAt?_three (j : Json) (outer middle inner : String) :
    j.objectAt? [outer, middle, inner] =
      ((memberOf j outer middle).bind (Json.find? inner)).filter Json.isObject := by
  have hfirst : j.objectAt? [outer, middle, inner] =
      ((j.find? outer).filter Json.isObject).bind fun s => s.objectAt? [middle, inner] := rfl
  rw [hfirst]
  unfold memberOf
  rw [← Json.find?_filter_isObject (j.find? outer)]
  cases (j.find? outer).filter Json.isObject with
  | none => rfl
  | some s => exact objectAt?_two s middle inner

theorem readLinearStartDelta_eq : m.readLinearStartDelta = some m.linearStartDelta := by
  unfold readLinearStartDelta linearStartDelta
  rw [readRule_eq, Option.bind_some]
  by_cases hrule : m.rule = linearRule
  · have hinterpretation := objectAt?_three m.json "interpretation" "rule" "parameters"
    have hdefinition := objectAt?_two m.json "definition" "linear"
    unfold memberOf at hinterpretation hdefinition
    rw [if_pos hrule, if_pos hrule, Json.guardedChain_eq, Option.bind_some, Json.guardedChain_eq,
      Option.bind_some, ← hinterpretation, ← hdefinition]
    cases hparameters : m.json.objectAt? ["interpretation", "rule", "parameters"] with
    | some parameters => exact readStartDelta_eq (Json.isObject_objectAt? _ m.isObject hparameters)
    | none =>
        cases hlinear : m.json.objectAt? ["definition", "linear"] with
        | some linear => exact readStartDelta_eq (Json.isObject_objectAt? _ m.isObject hlinear)
        | none => rfl
  · rw [if_neg hrule, if_neg hrule]

theorem readInteger_eq (key : String) (fallback : Int) (j : Json) :
    readInteger key fallback j = some (((j.find? key).bind Json.integer?).getD fallback) := by
  rw [readInteger, Json.guardedValue_eq Json.isNumberInteger_eq]
  rfl

theorem readText_eq (key : String) (j : Json) :
    readText key j = some ((j.stringAt? key).getD "") := by
  rw [readText, Json.guardedValue_eq Json.isString_eq]
  rfl

/-- An integer that is converted after it is read. -/
theorem getD_map_integer {α : Type} (convert : Int → α) (n : Option Int) (fallback : Int) :
    convert (n.getD fallback) = (n.map convert).getD (convert fallback) := by
  cases n <;> rfl

theorem readTickResolution_eq : m.readTickResolution = some m.tickResolution := by
  unfold readTickResolution tickResolution
  rw [Json.guardedChain_eq, Option.bind_some, objectAt?_two]
  cases (memberOf m.json "definition" "resolution").filter Json.isObject with
  | none => rfl
  | some resolution =>
      rw [Option.map_some]
      dsimp only
      rw [readInteger_eq, readInteger_eq, Option.bind_some, Option.map_some,
        getD_map_integer UInt64.ofInt, getD_map_integer UInt64.ofInt]
      rfl

theorem readUnit_eq : m.readUnit = some m.unit := by
  unfold readUnit unit
  rw [Json.guardedChain_eq, Option.bind_some, Json.guardedChain_eq, Option.bind_some,
    objectAt?_two, objectAt?_two]
  cases (memberOf m.json "interpretation" "unit").filter Json.isObject with
  | some unit =>
      dsimp only
      simp only [readInteger_eq, readText_eq, Option.bind_some, Option.map_some, Option.some_or]
      rw [getD_map_integer Int32.ofInt]
      rfl
  | none =>
      cases (memberOf m.json "definition" "unit").filter Json.isObject with
      | some unit =>
          dsimp only
          simp only [readInteger_eq, readText_eq, Option.bind_some, Option.map_some,
            Option.map_none, Option.none_or]
          rw [getD_map_integer Int32.ofInt]
          rfl
      | none => rfl

theorem readFieldCount_eq (field : Json) : readFieldCount field = some (fieldCount field) := by
  rw [fieldCount_eq_elim]
  unfold readFieldCount
  rw [Json.guarded_eq, Option.bind_some]
  cases field.find? "dimensions" with
  | none => rfl
  | some dimensions =>
      cases dimensions with
      | array elements =>
          cases elements with
          | nil => rfl
          | cons dimension rest =>
              rw [Option.filter_some_pos (by rfl)]
              dsimp only
              by_cases hobject : dimension.isObject = true
              · rw [if_pos hobject, Json.guarded_eq, Option.bind_some]
                show _ = some (((dimension.find? "linear").filter Json.isObject).elim 1 _)
                cases (dimension.find? "linear").filter Json.isObject with
                | none => rfl
                | some linear =>
                    dsimp only
                    rw [readInteger_eq, Option.map_some, Option.elim_some]
                    cases (linear.find? "size").bind Json.integer? <;> rfl
              · rw [if_neg hobject]
                cases dimension with
                | object members => exact absurd rfl hobject
                | _ => rfl
      | null => rfl
      | bool b => rfl
      | integer n => rfl
      | float bits => rfl
      | string s => rfl
      | object members => rfl

theorem readFieldSize_eq (field : Json) : readFieldSize field = some (fieldSize field) := by
  unfold readFieldSize fieldSize
  by_cases hobject : field.isObject = true
  · rw [if_pos hobject, Json.guardedValue_eq Json.isString_eq, Option.bind_some]
    change (match field.stringAt? "dataType" with
      | some type => _
      | none => some 0) = _
    cases field.stringAt? "dataType" with
    | none => rfl
    | some type =>
        dsimp only
        rw [readFieldCount_eq]
        rfl
  · rw [if_neg hobject]
    cases field with
    | object members => exact absurd rfl hobject
    | null => rfl
    | bool b => rfl
    | integer n => rfl
    | float bits => rfl
    | string s => rfl
    | array elements => rfl

theorem readFields_eq (fields : List Json) : ∀ size, readFields fields size =
    some (fields.foldl (fun size field => size + fieldSize field) size) := by
  induction fields with
  | nil => exact fun _ => rfl
  | cons field fields ih =>
      intro size
      rw [readFields, readFieldSize_eq, Option.bind_some, ih]
      rfl

theorem readSampleSize_eq : m.readSampleSize = some m.sampleSize := by
  unfold readSampleSize sampleSize
  rw [readDataType_eq, Option.bind_some]
  by_cases hstruct : getPrimitiveSize m.dataType = 0 ∧ m.dataType = "struct"
  · rw [if_pos hstruct, Json.guarded_eq, Option.bind_some]
    dsimp only
    rw [if_pos hstruct, ← Json.find?_filter_isObject]
    cases (m.json.find? "definition").filter Json.isObject with
    | none => rfl
    | some definition =>
        rw [Option.bind_some]
        dsimp only
        rw [Json.guarded_eq, Option.bind_some]
        cases definition.find? "struct" with
        | none => rfl
        | some fields =>
            cases fields with
            | array elements =>
                change (readFields elements 0).map _ = _
                rw [readFields_eq]
                rfl
            | null => rfl
            | bool b => rfl
            | integer n => rfl
            | float bits => rfl
            | string s => rfl
            | object members => rfl
  · rw [if_neg hstruct]
    dsimp only
    rw [if_neg hstruct]

end Reads

/-! ## What may be raised -/

/-- The extra metadata of a document. -/
def extras? (j : Json) : Option Json :=
  (memberOf j "interpretation" "metadata").filter Json.isObject

/-- Whether every member of an object is a string. -/
def allStrings : Json → Bool
  | .object members => members.all fun field => field.2.isString
  | _ => true

/-- Whether all extra metadata are strings. -/
def hasStringExtras (j : Json) : Bool := (extras? j).all allStrings

theorem isSome_readExtras (members : List (String × Json)) :
    (readExtras members).isSome = members.all fun field => field.2.isString := by
  induction members with
  | nil => rfl
  | cons field members ih =>
      obtain ⟨key, value⟩ := field
      rw [readExtras, List.all_cons, ← ih, Json.isString_eq]
      cases value.string? with
      | none => rfl
      | some text =>
          rw [Option.bind_some, Option.isSome_map]
          rfl

/-- **The extra metadata are returned** if all of them are strings. -/
theorem isSome_extraMetadata (m : Metadata) : m.extraMetadata.isSome = hasStringExtras m.json := by
  unfold extraMetadata hasStringExtras extras?
  rw [Json.guardedChain_eq, Option.bind_some, objectAt?_two]
  cases (memberOf m.json "interpretation" "metadata").filter Json.isObject with
  | none => rfl
  | some extras =>
      cases extras with
      | object members => exact isSome_readExtras members
      | null => rfl
      | bool b => rfl
      | integer n => rfl
      | float bits => rfl
      | string s => rfl
      | array elements => rfl

/-- Whether a signal rate can be converted: its delta is no array, and its
number of samples is not zero. -/
def isClearRate (rate : Json) : Bool :=
  !rate.isObject ||
    ((rate.find? "delta").all (fun delta => !delta.isArray) &&
      decide (((rate.find? "samples").bind Json.uint32?).getD 1 ≠ 0))

/-- A pointer with two tokens gets through unless it meets an array. -/
theorem isSome_jsonPtr_two {α : Type} (get : Json → Option α) (j : Json) (outer inner : String)
    (fallback : α) : (j.jsonPtr get [outer, inner] fallback).isSome =
      (!j.isObject || (j.find? outer).all fun v => !v.isArray) := by
  unfold Json.jsonPtr
  cases j with
  | object members =>
      have hobject : (Json.object members).isObject = true := rfl
      rw [if_pos hobject, Option.isSome_map]
      change ((match (Json.object members).find? outer with
        | some j => j.resolve [inner]
        | none => some .null) : Option Json).isSome = _
      cases (Json.object members).find? outer with
      | none => rfl
      | some v =>
          cases v with
          | object members =>
              change ((match (Json.object members).find? inner with
                | some j => j.resolve []
                | none => some .null) : Option Json).isSome = _
              cases (Json.object members).find? inner <;> rfl
          | null => rfl
          | bool b => rfl
          | integer n => rfl
          | float bits => rfl
          | string s => rfl
          | array elements => rfl
  | null => rfl
  | bool b => rfl
  | integer n => rfl
  | float bits => rfl
  | string s => rfl
  | array elements => rfl

/-- A pointer with one token always does. -/
theorem jsonPtr_one {α : Type} (get : Json → Option α) (j : Json) (key : String) (fallback : α) :
    j.jsonPtr get [key] fallback =
      some (if j.isObject = true then (get ((j.find? key).getD .null)).getD fallback
        else fallback) := by
  unfold Json.jsonPtr
  cases j with
  | object members =>
      have hobject : (Json.object members).isObject = true := rfl
      rw [if_pos hobject, if_pos hobject]
      change ((match (Json.object members).find? key with
        | some j => j.resolve []
        | none => some .null) : Option Json).map _ = _
      cases (Json.object members).find? key <;> rfl
  | null => rfl
  | bool b => rfl
  | integer n => rfl
  | float bits => rfl
  | string s => rfl
  | array elements => rfl

theorem isSome_ticks (seconds fraction subFraction samples : UInt32)
    {numerator denominator : UInt64} (hnumerator : numerator ≠ 0) (hdenominator : denominator ≠ 0) :
    (ticks seconds fraction subFraction samples numerator denominator).isSome =
      decide (samples ≠ 0) := by
  unfold ticks
  dsimp only
  by_cases hsamples : samples = 0
  · rw [if_pos (.inl hsamples), decide_eq_false (not_not.mpr hsamples)]
    rfl
  · have hnone : ¬ (samples = 0 ∨ numerator = 0 ∨ denominator = 0) := by
      rintro (h | h | h)
      · exact hsamples h
      · exact hnumerator h
      · exact hdenominator h
    rw [if_neg hnone, decide_eq_true hsamples]
    rfl

/-- **The interval is converted** if the rate is a clear one. -/
theorem isSome_tcpSignalRateTicks (m : Metadata) {numerator denominator : UInt64}
    (hnumerator : numerator ≠ 0) (hdenominator : denominator ≠ 0) :
    (m.tcpSignalRateTicks numerator denominator).isSome =
      (m.json.find? "signalRate").all isClearRate := by
  unfold tcpSignalRateTicks
  cases m.json.find? "signalRate" with
  | none => rfl
  | some rate =>
      by_cases hobject : rate.isObject = true
      · rw [Option.filter_some_pos hobject]
        change _ = isClearRate rate
        unfold isClearRate
        rw [hobject]
        have hdelta (inner : String) := isSome_jsonPtr_two Json.uint32? rate "delta" inner 0
        rw [hobject, Bool.not_true, Bool.false_or] at hdelta
        have hsamples : rate.jsonPtr Json.uint32? ["samples"] 1 =
            some (((rate.find? "samples").bind Json.uint32?).getD 1) := by
          rw [jsonPtr_one, if_pos hobject]
          cases rate.find? "samples" <;> rfl
        dsimp only
        cases harray : (rate.find? "delta").all fun delta => !delta.isArray with
        | false =>
            rw [harray] at hdelta
            have hnone := Option.isSome_eq_false_iff.mp (hdelta "seconds")
            rw [Option.isNone_iff_eq_none] at hnone
            rw [hnone]
            rfl
        | true =>
            rw [harray] at hdelta
            obtain ⟨seconds, hseconds⟩ := Option.isSome_iff_exists.mp (hdelta "seconds")
            obtain ⟨fraction, hfraction⟩ := Option.isSome_iff_exists.mp (hdelta "fraction")
            obtain ⟨subFraction, hsubFraction⟩ := Option.isSome_iff_exists.mp (hdelta "subFraction")
            rw [hseconds, hfraction, hsubFraction, hsamples]
            exact isSome_ticks seconds fraction subFraction _ hnumerator hdenominator
      · rw [Option.filter_some_neg (Bool.eq_false_iff.mpr hobject)]
        change true = isClearRate rate
        unfold isClearRate
        rw [Bool.eq_false_iff.mpr hobject]
        rfl

end Metadata

end WsStreaming.Ports
