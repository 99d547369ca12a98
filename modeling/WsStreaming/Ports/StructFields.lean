import WsStreaming.Ports.Metadata
import WsStreaming.Verified.Run
import Mathlib.Data.List.Forall2

/-!
# Structure fields

`wss::dimension_builder` and `wss::struct_field_builder` write the description
of a structure field, and `wss::struct_field` and `wss::struct_field_dimension`
read it.

A dimension is read as it was written, but `struct_field_builder::dimension`
starts the list of dimensions anew whenever there is one already.

## Main results

* `DimensionBuilder.reads_build` — what is read of a dimension.
* `dimensions_build` — what is left of the dimensions of a field.
* `accumulates_iff` — when a field has the dimensions that it was given.
-/

namespace WsStreaming.Ports

open WsStreaming.Verified

/-! ## Dimensions -/

/-- The arguments of `dimension_builder::linear_rule`. -/
structure LinearValues where
  start : Int64
  delta : Int64
  size : UInt64
deriving DecidableEq, Repr

/-- `wss::dimension_builder`: its name, and the calls of `linear_rule`. -/
structure DimensionBuilder where
  name : String
  calls : List LinearValues
deriving DecidableEq, Repr

namespace DimensionBuilder

/-- `dimension_builder::dimension_builder`. -/
def new (name : String) : Json :=
  .object [("name", .string name), ("rule", .string explicitRule)]

/-- The member `linear` of a dimension. -/
def linearMember (v : LinearValues) : Json :=
  .object
    [("delta", .integer v.delta.toInt), ("size", .integer v.size.toNat),
     ("start", .integer v.start.toInt)]

/-- `dimension_builder::linear_rule`. -/
def linearRule (dimension : Json) (v : LinearValues) : Json :=
  (dimension.set "rule" (.string Ports.linearRule)).set "linear" (linearMember v)

/-- `dimension_builder::build`. -/
def build (d : DimensionBuilder) : Json := d.calls.foldl linearRule (new d.name)

/-- The values of the last call. -/
def given? (d : DimensionBuilder) : Option LinearValues := d.calls.getLast?

end DimensionBuilder

/-- `wss::struct_field_dimension`: anything but an object counts as the empty
one. -/
def structFieldDimension (j : Json) : Json := if j.isObject then j else .object []

namespace StructFieldDimension

/-- `struct_field_dimension::name`. -/
def name (j : Json) : String := (j.stringAt? "name").getD ""

/-- `struct_field_dimension::rule`. -/
def rule (j : Json) : String := (j.stringAt? "rule").getD explicitRule

/-- `struct_field_dimension::linear_start_delta_size`. -/
def linearStartDeltaSize (j : Json) : Option Int64 × Option Int64 × Option Int64 :=
  if rule j = linearRule then
    match (j.find? "linear").filter Json.isObject with
    | some linear =>
        ((linear.find? "start").bind Json.int64?, (linear.find? "delta").bind Json.int64?,
          (linear.find? "size").bind Json.int64?)
    | none => (none, none, none)
  else (none, none, none)

/-- The values that a builder was given are read. -/
structure Reads (j : Json) (d : DimensionBuilder) : Prop where
  name : StructFieldDimension.name j = d.name
  rule : StructFieldDimension.rule j =
    if d.given?.isSome then Ports.linearRule else explicitRule
  start : (linearStartDeltaSize j).1.map Int64.toInt = d.given?.map fun v => v.start.toInt
  delta : (linearStartDeltaSize j).2.1.map Int64.toInt = d.given?.map fun v => v.delta.toInt
  size : (linearStartDeltaSize j).2.2.map Int64.toInt =
    d.given?.map fun v => (v.size.toNat : Int)

end StructFieldDimension

/-! ## Fields -/

/-- A call of `wss::struct_field_builder`. -/
inductive FieldCall where
  | array (size : UInt64)
  | dataType (type : String)
  | dimension (d : DimensionBuilder)
deriving DecidableEq, Repr

namespace FieldCall

/-- The dimension that is added. -/
def dimension? : FieldCall → Option DimensionBuilder
  | .dimension d => some d
  | _ => none

/-- The call makes a field an array. -/
def isArray : FieldCall → Bool
  | .array _ => true
  | _ => false

end FieldCall

namespace StructFieldBuilder

/-- `struct_field_builder::struct_field_builder`. -/
def new (name : String) : Json := .object [("name", .string name), ("rule", .string "explicit")]

/-- `push_back`, which turns null into an array; on anything but an array it
raises an exception, and the value stays as it is. -/
def pushBack (j element : Json) : Json :=
  match j with
  | .array elements => .array (elements ++ [element])
  | .null => .array [element]
  | j => j

/-- The list of dimensions that `struct_field_builder::dimension` adds to: an
empty one, if there is none or if there is one. -/
def startDimensions (field : Json) : Json :=
  if (field.find? "dimensions").all fun dimensions => dimensions.array?.isSome then
    field.set "dimensions" (.array [])
  else field

/-- The one dimension that `struct_field_builder::array` gives to a field. -/
def arrayDimension (size : UInt64) : Json :=
  .object
    [("linear", .object
        [("delta", .integer 0), ("size", .integer size.toNat), ("start", .integer 1)]),
     ("name", .string "Dimension"), ("rule", .string linearRule)]

/-- One call. -/
def apply (field : Json) : FieldCall → Json
  | .array size => field.set "dimensions" (.array [arrayDimension size])
  | .dataType type => field.set "dataType" (.string type)
  | .dimension d =>
      MetadataBuilder.update (startDimensions field) "dimensions" fun dimensions =>
        pushBack dimensions d.build

/-- `struct_field_builder::build`. -/
def build (name : String) (calls : List FieldCall) : Json := calls.foldl apply (new name)

end StructFieldBuilder

/-- `struct_field::dimensions`, of the field that is made of some JSON. -/
def structFieldDimensions (j : Json) : List Json :=
  (((if j.isObject then j else .object []).find? "dimensions").bind Json.array?).getD []
    |>.map structFieldDimension

/-! ## What is read of a dimension -/

section Dimension

open DimensionBuilder (linearMember)
open StructFieldDimension (Reads)

variable (d : DimensionBuilder)

theorem isObject_linearRule {j : Json} (h : j.isObject = true) (v : LinearValues) :
    (DimensionBuilder.linearRule j v).isObject = true :=
  MetadataBuilder.isObject_set (MetadataBuilder.isObject_set h _ _) _ _

theorem find?_linearRule {j : Json} (h : j.isObject = true) (v : LinearValues) (key : String) :
    (DimensionBuilder.linearRule j v).find? key =
      if "linear" = key then some (linearMember v)
      else if "rule" = key then some (.string linearRule) else j.find? key := by
  unfold DimensionBuilder.linearRule
  rw [Json.find?_set (MetadataBuilder.isObject_set h _ _), Json.find?_set h]

theorem name_build : StructFieldDimension.name d.build = d.name := by
  have hstep (j : Json) (v : LinearValues)
      (h : j.isObject = true ∧ j.find? "name" = some (.string d.name)) :
      (DimensionBuilder.linearRule j v).isObject = true ∧
        (DimensionBuilder.linearRule j v).find? "name" = some (.string d.name) := by
    refine ⟨isObject_linearRule h.1 v, ?_⟩
    rw [find?_linearRule h.1, if_neg (by decide), if_neg (by decide), h.2]
  have hrun := Run.foldl_invariant hstep d.calls (DimensionBuilder.new d.name) ⟨rfl, rfl⟩
  unfold StructFieldDimension.name Json.stringAt? DimensionBuilder.build
  rw [hrun.2]
  rfl

theorem isObject_build : d.build.isObject = true := by
  have hstep (j : Json) (v : LinearValues) (h : j.isObject = true) := isObject_linearRule h v
  exact Run.foldl_invariant hstep d.calls (DimensionBuilder.new d.name) rfl

/-- The rule and the parameters are those of the last call. -/
theorem find?_build : (d.build.find? "rule", d.build.find? "linear") =
    (d.given?.map fun v => (some (Json.string linearRule), some (linearMember v))).getD
      (some (.string explicitRule), none) := by
  have hinv (j : Json) (v : LinearValues) (h : j.isObject = true) := isObject_linearRule h v
  have hread (j : Json) (v : LinearValues) (h : j.isObject = true) :
      ((DimensionBuilder.linearRule j v).find? "rule",
        (DimensionBuilder.linearRule j v).find? "linear") =
      (some (some (Json.string linearRule), some (linearMember v))).getD
        (j.find? "rule", j.find? "linear") := by
    rw [find?_linearRule h, find?_linearRule h, if_neg (by decide), if_pos rfl, if_pos rfl]
    rfl
  have hlast := Run.foldl_lastWritten (fun j : Json => (j.find? "rule", j.find? "linear")) _ hinv
    hread d.calls (DimensionBuilder.new d.name) rfl
  rw [List.filterMap_eq_map', List.getLast?_map] at hlast
  exact hlast

/-- A number that was written is read, unless it is too large for the type that
is read. -/
theorem toInt_int64? (v : LinearValues) :
    ((some (Json.integer v.start.toInt)).bind Json.int64?).map Int64.toInt = some v.start.toInt ∧
      ((some (Json.integer v.delta.toInt)).bind Json.int64?).map Int64.toInt =
        some v.delta.toInt ∧
      (((some (Json.integer v.size.toNat)).bind Json.int64?).map Int64.toInt =
        some (v.size.toNat : Int) ↔ v.size.toNat < 2 ^ 63) := by
  refine ⟨?_, ?_, ?_⟩
  · exact congrArg (fun n => some (Int64.toInt n)) (Int64.ofInt_toInt v.start)
  · exact congrArg (fun n => some (Int64.toInt n)) (Int64.ofInt_toInt v.delta)
  · have hlt := v.size.toNat_lt
    change some (Int64.ofInt v.size.toNat).toInt = some (v.size.toNat : Int) ↔ _
    rw [Option.some_inj]
    constructor
    · intro h
      have hbound := (Int64.ofInt v.size.toNat).toInt_lt
      omega
    · intro h
      exact Int64.toInt_ofInt_of_le (by omega) (by omega)

/-- **A dimension** is read as it was written, if its size fits the type that is
read. -/
theorem reads_build :
    Reads (structFieldDimension d.build) d ↔ ∀ v ∈ d.given?, v.size.toNat < 2 ^ 63 := by
  have hfind := find?_build d
  have hself : structFieldDimension d.build = d.build := if_pos (isObject_build d)
  rw [hself]
  cases hgiven : d.given? with
  | none =>
      rw [hgiven, Option.map_none, Option.getD_none, Prod.mk.injEq] at hfind
      have hrule : StructFieldDimension.rule d.build = explicitRule := by
        unfold StructFieldDimension.rule Json.stringAt?
        rw [hfind.1]
        rfl
      have hread : StructFieldDimension.linearStartDeltaSize d.build = (none, none, none) := by
        unfold StructFieldDimension.linearStartDeltaSize
        rw [hrule, if_neg (by decide)]
      refine iff_of_true ?_ (fun v hv => nomatch hv)
      constructor
      · exact name_build d
      · rw [hgiven]
        exact hrule
      · rw [hread, hgiven]
        rfl
      · rw [hread, hgiven]
        rfl
      · rw [hread, hgiven]
        rfl
  | some v =>
      rw [hgiven, Option.map_some, Option.getD_some, Prod.mk.injEq] at hfind
      have hrule : StructFieldDimension.rule d.build = linearRule := by
        unfold StructFieldDimension.rule Json.stringAt?
        rw [hfind.1]
        rfl
      have hread : StructFieldDimension.linearStartDeltaSize d.build =
          ((some (Json.integer v.start.toInt)).bind Json.int64?,
            (some (Json.integer v.delta.toInt)).bind Json.int64?,
            (some (Json.integer v.size.toNat)).bind Json.int64?) := by
        unfold StructFieldDimension.linearStartDeltaSize
        rw [hrule, if_pos rfl, hfind.2]
        rfl
      obtain ⟨hstart, hdelta, hsize⟩ := toInt_int64? v
      constructor
      · rintro h w hw
        rw [← Option.some.inj hw]
        have hkept := h.size
        rw [hread, hgiven] at hkept
        exact hsize.mp hkept
      · intro h
        constructor
        · exact name_build d
        · rw [hgiven]
          exact hrule
        · rw [hread, hgiven]
          exact hstart
        · rw [hread, hgiven]
          exact hdelta
        · rw [hread, hgiven]
          exact hsize.mpr (h v rfl)

end Dimension

/-! ## What is left of the dimensions of a field -/

section Field

open StructFieldDimension (Reads)

/-- The dimensions that a field has after a call that sets them. -/
def FieldCall.dimensions? : FieldCall → Option Json
  | .array size => some (.array [StructFieldBuilder.arrayDimension size])
  | .dataType _ => none
  | .dimension d => some (.array [d.build])

/-- A field that is built: its dimensions, if there are any, are an array. -/
structure IsBuilt (field : Json) : Prop where
  isObject : field.isObject = true
  dimensions : (field.find? "dimensions").all (fun v => v.array?.isSome) = true

/-- **One call.**  A dimension takes the place of those that are there. -/
theorem find?_apply {field : Json} (h : IsBuilt field) (call : FieldCall) :
    (StructFieldBuilder.apply field call).isObject = true ∧
      (StructFieldBuilder.apply field call).find? "dimensions" =
        (call.dimensions?.map some).getD (field.find? "dimensions") := by
  cases call with
  | array size =>
      refine ⟨MetadataBuilder.isObject_set h.isObject _ _, ?_⟩
      unfold StructFieldBuilder.apply
      dsimp only
      rw [Json.find?_set h.isObject, if_pos rfl]
      rfl
  | dataType type =>
      refine ⟨MetadataBuilder.isObject_set h.isObject _ _, ?_⟩
      unfold StructFieldBuilder.apply
      dsimp only
      rw [Json.find?_set h.isObject, if_neg (by decide)]
      rfl
  | dimension d =>
      have hstart : StructFieldBuilder.startDimensions field =
          field.set "dimensions" (.array []) := if_pos h.dimensions
      have hobject := MetadataBuilder.isObject_set h.isObject "dimensions" (.array [])
      unfold StructFieldBuilder.apply MetadataBuilder.update
      dsimp only
      rw [hstart]
      refine ⟨MetadataBuilder.isObject_set hobject _ _, ?_⟩
      rw [Json.find?_set hobject, if_pos rfl, Json.find?_set h.isObject, if_pos rfl]
      rfl

theorem IsBuilt.apply {field : Json} (h : IsBuilt field) (call : FieldCall) :
    IsBuilt (StructFieldBuilder.apply field call) := by
  have hcall := find?_apply h call
  refine ⟨hcall.1, ?_⟩
  rw [hcall.2]
  cases call with
  | array size => rfl
  | dataType type => exact h.dimensions
  | dimension d => rfl

variable (name : String) (calls : List FieldCall)

theorem isBuilt_build : IsBuilt (StructFieldBuilder.build name calls) := by
  have hstep (field : Json) (call : FieldCall) (h : IsBuilt field) := h.apply call
  exact Run.foldl_invariant hstep calls (StructFieldBuilder.new name) ⟨rfl, rfl⟩

/-- **The dimensions of a field** are those of the last call that set them. -/
theorem dimensions_build : (StructFieldBuilder.build name calls).find? "dimensions" =
    (calls.filterMap FieldCall.dimensions?).getLast? := by
  have hlast := Run.foldl_lastWritten (fun field : Json => field.find? "dimensions")
    (fun call : FieldCall => call.dimensions?.map some) (fun _ call h => IsBuilt.apply h call)
    (fun _ call h => (find?_apply h call).2) calls (StructFieldBuilder.new name) ⟨rfl, rfl⟩
  rw [← List.map_filterMap, List.getLast?_map] at hlast
  refine hlast.trans ?_
  cases (calls.filterMap FieldCall.dimensions?).getLast? <;> rfl

/-- Calls that add dimensions, and no others that set them. -/
theorem filterMap_dimensions (h : ∀ call ∈ calls, call.isArray = false) :
    calls.filterMap FieldCall.dimensions? =
      (calls.filterMap FieldCall.dimension?).map fun d => Json.array [d.build] := by
  rw [List.map_filterMap]
  apply List.filterMap_congr
  intro call hcall
  cases call with
  | array size => exact Bool.noConfusion (h _ hcall)
  | dataType type => rfl
  | dimension d => rfl

/-- **One dimension is left.** -/
theorem structFieldDimensions_build (h : ∀ call ∈ calls, call.isArray = false) :
    structFieldDimensions (StructFieldBuilder.build name calls) =
      ((calls.filterMap FieldCall.dimension?).getLast?.map fun d =>
        structFieldDimension d.build).toList := by
  unfold structFieldDimensions
  rw [if_pos (isBuilt_build name calls).isObject, dimensions_build, filterMap_dimensions calls h,
    List.getLast?_map]
  cases (calls.filterMap FieldCall.dimension?).getLast? <;> rfl

/-- **Dimensions accumulate** if and only if there is no more than one, and its
size fits the type that is read. -/
theorem accumulates_iff (h : ∀ call ∈ calls, call.isArray = false) :
    List.Forall₂ Reads (structFieldDimensions (StructFieldBuilder.build name calls))
        (calls.filterMap FieldCall.dimension?) ↔
      (calls.filterMap FieldCall.dimension?).length ≤ 1 ∧
        ∀ d ∈ calls.filterMap FieldCall.dimension?, ∀ v ∈ d.given?, v.size.toNat < 2 ^ 63 := by
  rw [structFieldDimensions_build name calls h]
  generalize calls.filterMap FieldCall.dimension? = ds
  cases ds with
  | nil => exact iff_of_true .nil ⟨Nat.zero_le 1, List.forall_mem_nil _⟩
  | cons d ds =>
      cases ds with
      | nil =>
          change List.Forall₂ Reads [structFieldDimension d.build] [d] ↔ _
          rw [List.forall₂_cons, and_iff_left .nil, reads_build, List.forall_mem_singleton]
          exact (and_iff_right (Nat.le_refl 1)).symm
      | cons d' ds =>
          apply iff_of_false
          · intro hall
            have hlength := hall.length_eq
            have hone : (((d :: d' :: ds).getLast?.map fun d =>
                structFieldDimension d.build).toList).length ≤ 1 := Option.length_toList_le
            rw [List.length_cons, List.length_cons] at hlength
            omega
          · rintro ⟨hlength, -⟩
            rw [List.length_cons, List.length_cons] at hlength
            omega

end Field

/-- A field of two doubles. -/
theorem accumulates_vector :
    List.Forall₂ StructFieldDimension.Reads
        (structFieldDimensions (StructFieldBuilder.build "vector"
          [.dimension ⟨"row", [⟨0, 1, 2⟩]⟩, .dataType "real64"]))
        [⟨"row", [⟨0, 1, 2⟩]⟩] ↔
      ([⟨"row", [⟨0, 1, 2⟩]⟩] : List DimensionBuilder).length ≤ 1 ∧
        ∀ d ∈ [(⟨"row", [⟨0, 1, 2⟩]⟩ : DimensionBuilder)], ∀ v ∈ d.given?,
          v.size.toNat < 2 ^ 63 :=
  accumulates_iff "vector" [.dimension ⟨"row", [⟨0, 1, 2⟩]⟩, .dataType "real64"] (by decide)

/-- Of the rows and the columns of a matrix, the columns are left. -/
theorem dimensions_matrix :
    ¬ ∀ (name : String) (calls : List FieldCall), (∀ call ∈ calls, call.isArray = false) →
      List.Forall₂ StructFieldDimension.Reads
        (structFieldDimensions (StructFieldBuilder.build name calls))
        (calls.filterMap FieldCall.dimension?) := by
  intro h
  have hall := h "matrix" [.dimension ⟨"row", [⟨0, 1, 2⟩]⟩, .dimension ⟨"column", [⟨0, 1, 3⟩]⟩]
    (by decide)
  exact absurd hall.length_eq (by decide)

end WsStreaming.Ports
