import WsStreaming.Ports.Metadata
import Mathlib.Algebra.Order.BigOperators.Group.List
import Mathlib.Algebra.Order.Ring.Int
import Mathlib.Data.List.Forall2
import Mathlib.Tactic.Ring

/-!
# The sample size of a structure

`metadata::sample_size` adds up the fields of a structure: the size of the
primitive, times the size of the first dimension.  Fields whose type is not
recognised add nothing.

So the sum is the size of a sample if the later dimensions of the fields change
nothing, and it is not zero as soon as one field is recognised.

## Main results

* `sampleSize_eq` — what the loop adds up.
* `exactOrUnknown_iff` — when the sample size is exact, or zero.
* `exactOrUnknown_iff_of_pos` — the same, if no dimension is empty.
-/

namespace WsStreaming.Ports

/-- A structure field: its data type, if it has one, and the sizes of its
dimensions. -/
structure FieldLayout where
  dataType : Option String
  sizes : List Nat
deriving DecidableEq, Repr

namespace FieldLayout

variable (f : FieldLayout)

/-- The size of the primitive, or zero. -/
def primitiveSize : Nat := (f.dataType.map Metadata.getPrimitiveSize).getD 0

/-- The type is one of the recognised primitives. -/
def isRecognised : Bool :=
  f.dataType.any fun type => ["int8", "int16", "int32", "int64", "uint8", "uint16", "uint32",
    "uint64", "real32", "real64"].contains type

/-- The bytes of a field. -/
def byteSize : Nat := f.primitiveSize * f.sizes.prod

/-- The bytes that are counted: those of the first dimension. -/
def countedSize : Nat := f.primitiveSize * f.sizes.headD 1

/-- What the later dimensions add to that, or take away. -/
def laterSize : ℤ := f.countedSize * ((f.sizes.tail.prod : ℤ) - 1)

/-- The JSON of a linear dimension with a size. -/
structure IsDimension (dimension : Json) (size : Nat) : Prop where
  linear : ∃ linear, dimension.find? "linear" = some linear ∧ linear.isObject = true ∧
    linear.find? "size" = some (.integer size)
  fits : size < 2 ^ 64

/-- The JSON of a field. -/
structure IsField (field : Json) (f : FieldLayout) : Prop where
  isObject : field.isObject = true
  dataType : field.stringAt? "dataType" = f.dataType
  dimensions : field.find? "dimensions" = none ∧ f.sizes = [] ∨
    ∃ dimensions, field.find? "dimensions" = some (.array dimensions) ∧
      List.Forall₂ IsDimension dimensions f.sizes

end FieldLayout

open FieldLayout (IsDimension IsField)

/-- Metadata of a structure with these fields. -/
structure Metadata.IsStruct (m : Metadata) (layout : List FieldLayout) : Prop where
  dataType : m.dataType = "struct"
  fields : ∃ fields, (m.json.find? "definition").bind (Json.find? "struct") = some (.array fields) ∧
    List.Forall₂ IsField fields layout

/-- The sample size is exact if all fields are recognised, and zero if one is
not. -/
def ExactOrUnknown (size : Nat) (layout : List FieldLayout) : Prop :=
  ((∀ f ∈ layout, f.isRecognised = true) → size = (layout.map FieldLayout.byteSize).sum) ∧
    ((∃ f ∈ layout, f.isRecognised = false) → size = 0)

namespace FieldLayout

variable {f : FieldLayout}

/-- The recognised types are those with a size. -/
theorem isRecognised_iff : f.isRecognised = true ↔ 0 < f.primitiveSize := by
  unfold isRecognised primitiveSize
  cases f.dataType with
  | none => exact iff_of_false Bool.false_ne_true (Nat.lt_irrefl 0)
  | some type =>
      rw [Option.any_some, Option.map_some, Option.getD_some, List.contains_iff_mem]
      unfold Metadata.getPrimitiveSize
      simp only [List.mem_cons, List.not_mem_nil, or_false]
      constructor
      · rintro (h | h | h | h | h | h | h | h | h | h) <;> subst h <;> decide
      · intro h
        split_ifs at h with h8 h16 h32 h64
        · tauto
        · tauto
        · tauto
        · tauto
        · exact absurd h (Nat.lt_irrefl 0)

/-- The bytes of a field: those that are counted, and what the later dimensions
add. -/
theorem byteSize_eq (f : FieldLayout) : (f.byteSize : ℤ) = f.countedSize + f.laterSize := by
  have hsplit : f.sizes.prod = f.sizes.headD 1 * f.sizes.tail.prod := by
    cases f.sizes with
    | nil => rfl
    | cons size sizes => exact List.prod_cons
  unfold laterSize byteSize countedSize
  rw [hsplit]
  push_cast
  ring

theorem fieldCount_of_isField {field : Json} (h : IsField field f) :
    Metadata.fieldCount field = f.sizes.headD 1 := by
  rw [Metadata.fieldCount_eq_elim]
  rcases h.dimensions with ⟨hnone, hsizes⟩ | ⟨dimensions, hsome, hall⟩
  · rw [hnone, hsizes]
    rfl
  · rw [hsome]
    generalize f.sizes = sizes at hall ⊢
    cases hall with
    | nil => rfl
    | @cons dimension size dimensions sizes hfirst hrest =>
        obtain ⟨linear, hlinear, hobject, hsize⟩ := hfirst.linear
        show ((dimension.find? "linear").filter Json.isObject).elim 1 _ = size
        rw [hlinear, Option.filter_some_pos hobject, Option.elim_some, hsize]
        have hfits := hfirst.fits
        show ((size : ℤ) % 2 ^ 64).toNat = size
        omega

theorem fieldSize_of_isField {field : Json} (h : IsField field f) :
    Metadata.fieldSize field = f.countedSize := by
  unfold Metadata.fieldSize countedSize primitiveSize
  rw [h.dataType, fieldCount_of_isField h]
  cases f.dataType with
  | none => exact (Nat.zero_mul _).symm
  | some type => rfl

end FieldLayout

section Struct

variable {m : Metadata} {layout : List FieldLayout}

theorem foldl_fieldSize {fields : List Json} {layout : List FieldLayout}
    (h : List.Forall₂ IsField fields layout) :
    ∀ size, fields.foldl (fun size field => size + Metadata.fieldSize field) size =
      size + (layout.map FieldLayout.countedSize).sum := by
  induction h with
  | nil => exact fun _ => rfl
  | cons hfield _ ih =>
      intro size
      rw [List.foldl_cons, ih, FieldLayout.fieldSize_of_isField hfield, List.map_cons,
        List.sum_cons, Nat.add_assoc]

/-- **The loop** adds up what is counted. -/
theorem sampleSize_eq (h : m.IsStruct layout) :
    m.sampleSize = (layout.map FieldLayout.countedSize).sum % 2 ^ 64 := by
  obtain ⟨fields, hfields, hall⟩ := h.fields
  have hstruct : Metadata.getPrimitiveSize m.dataType = 0 ∧ m.dataType = "struct" := by
    rw [h.dataType]
    decide
  unfold Metadata.sampleSize
  dsimp only
  rw [if_pos hstruct, hfields]
  change fields.foldl _ 0 % _ = _
  rw [foldl_fieldSize hall, Nat.zero_add]

theorem sum_byteSize (layout : List FieldLayout) :
    ((layout.map FieldLayout.byteSize).sum : ℤ) =
      (layout.map FieldLayout.countedSize).sum + (layout.map FieldLayout.laterSize).sum := by
  induction layout with
  | nil => rfl
  | cons f layout ih =>
      have hfield := f.byteSize_eq
      rw [List.map_cons, List.sum_cons, List.map_cons, List.sum_cons, List.map_cons, List.sum_cons]
      push_cast at ih ⊢
      omega

/-- What the later dimensions of all fields add and take away cancels out, or if
a field is not recognised, nothing is counted for the others. -/
def LayoutSafe (layout : List FieldLayout) : Prop :=
  if ∀ f ∈ layout, f.isRecognised = true then
    (2 ^ 64 : ℤ) ∣ (layout.map FieldLayout.laterSize).sum
  else 2 ^ 64 ∣ (layout.map FieldLayout.countedSize).sum

instance (layout : List FieldLayout) : Decidable (LayoutSafe layout) :=
  inferInstanceAs (Decidable (ite _ _ _))

/-- **The sample size** of a structure that fits. -/
theorem exactOrUnknown_iff (m : Metadata) (layout : List FieldLayout) (h : m.IsStruct layout)
    (hfits : (layout.map FieldLayout.byteSize).sum < 2 ^ 64) :
    ExactOrUnknown m.sampleSize layout ↔ LayoutSafe layout := by
  have hsum := sum_byteSize layout
  unfold ExactOrUnknown LayoutSafe
  rw [sampleSize_eq h]
  by_cases hall : ∀ f ∈ layout, f.isRecognised = true
  · have hnone : ¬ ∃ f ∈ layout, f.isRecognised = false := by
      rintro ⟨f, hf, hunknown⟩
      rw [hall f hf] at hunknown
      exact Bool.noConfusion hunknown
    rw [if_pos hall]
    constructor
    · intro hexact
      have hsize := hexact.1 hall
      omega
    · intro hsafe
      exact ⟨fun _ => by omega, fun hsome => absurd hsome hnone⟩
  · have hsome : ∃ f ∈ layout, f.isRecognised = false := by
      simp only [not_forall, exists_prop] at hall
      obtain ⟨f, hf, hunknown⟩ := hall
      exact ⟨f, hf, Bool.eq_false_iff.mpr hunknown⟩
    rw [if_neg hall]
    constructor
    · intro hexact
      exact Nat.dvd_of_mod_eq_zero (hexact.2 hsome)
    · intro hsafe
      exact ⟨fun h => absurd h hall, fun _ => Nat.mod_eq_zero_of_dvd hsafe⟩

/-! ## Dimensions that are not empty -/

theorem laterSize_nonneg {f : FieldLayout} (hpos : ∀ n ∈ f.sizes, 0 < n) : 0 ≤ f.laterSize := by
  have htail : 1 ≤ f.sizes.tail.prod :=
    List.one_le_prod_of_one_le fun n hn => hpos n (List.mem_of_mem_tail hn)
  unfold FieldLayout.laterSize
  apply mul_nonneg
  · exact Int.natCast_nonneg _
  · omega

theorem countedSize_pos_iff {f : FieldLayout} (hpos : ∀ n ∈ f.sizes, 0 < n) :
    0 < f.countedSize ↔ f.isRecognised = true := by
  have hfirst : 0 < f.sizes.headD 1 := by
    cases hsizes : f.sizes with
    | nil => exact Nat.one_pos
    | cons n sizes => exact hpos n (hsizes ▸ List.mem_cons_self)
  rw [FieldLayout.isRecognised_iff]
  exact Nat.mul_pos_iff_of_pos_right hfirst

/-- Later dimensions add nothing to a recognised field if they have one element
each. -/
theorem laterSize_eq_zero_iff {f : FieldLayout} (hpos : ∀ n ∈ f.sizes, 0 < n)
    (hrecognised : f.isRecognised = true) : f.laterSize = 0 ↔ ∀ n ∈ f.sizes.tail, n = 1 := by
  have hcounted := (countedSize_pos_iff hpos).mpr hrecognised
  unfold FieldLayout.laterSize
  rw [mul_eq_zero, or_iff_right (by omega)]
  constructor
  · intro hzero n hn
    have hprod : f.sizes.tail.prod = 1 := by omega
    exact List.all_one_of_le_one_le_of_prod_eq_one
      (fun k hk => hpos k (List.mem_of_mem_tail hk)) hprod hn
  · intro hones
    rw [List.prod_eq_one hones]
    rfl

/-- **No empty dimensions.**  The sample size is exact or zero if and only if
all fields are recognised and have no second dimension with more than one
element, or none is recognised. -/
theorem exactOrUnknown_iff_of_pos (h : m.IsStruct layout)
    (hfits : (layout.map FieldLayout.byteSize).sum < 2 ^ 64)
    (hpos : ∀ f ∈ layout, ∀ n ∈ f.sizes, 0 < n) :
    ExactOrUnknown m.sampleSize layout ↔
      (∀ f ∈ layout, f.isRecognised = true ∧ ∀ n ∈ f.sizes.tail, n = 1) ∨
        ∀ f ∈ layout, f.isRecognised = false := by
  have hsum := sum_byteSize layout
  have hlater : 0 ≤ (layout.map FieldLayout.laterSize).sum := by
    apply List.sum_nonneg
    intro size hsize
    obtain ⟨f, hf, rfl⟩ := List.mem_map.mp hsize
    exact laterSize_nonneg (hpos f hf)
  rw [exactOrUnknown_iff m layout h hfits]
  unfold LayoutSafe
  by_cases hall : ∀ f ∈ layout, f.isRecognised = true
  · rw [if_pos hall]
    constructor
    · intro hdvd
      left
      intro f hf
      have hzero : (layout.map FieldLayout.laterSize).sum = 0 := by omega
      have hfield : f.laterSize = 0 := by
        apply List.all_zero_of_le_zero_le_of_sum_eq_zero _ hzero (List.mem_map_of_mem hf)
        intro size hsize
        obtain ⟨g, hg, rfl⟩ := List.mem_map.mp hsize
        exact laterSize_nonneg (hpos g hg)
      exact ⟨hall f hf, (laterSize_eq_zero_iff (hpos f hf) (hall f hf)).mp hfield⟩
    · rintro (hfields | hnone)
      · have hzero : (layout.map FieldLayout.laterSize).sum = 0 := by
          apply List.sum_eq_zero
          intro size hsize
          obtain ⟨f, hf, rfl⟩ := List.mem_map.mp hsize
          exact (laterSize_eq_zero_iff (hpos f hf) (hall f hf)).mpr (hfields f hf).2
        rw [hzero]
        exact dvd_zero _
      · -- A structure without fields.
        have hempty : layout = [] := by
          apply List.eq_nil_iff_forall_not_mem.mpr
          intro f hf
          exact Bool.noConfusion ((hall f hf).symm.trans (hnone f hf))
        rw [hempty]
        exact dvd_zero _
  · rw [if_neg hall]
    constructor
    · intro hdvd
      right
      intro f hf
      have hzero : (layout.map FieldLayout.countedSize).sum = 0 := by omega
      have hfield : f.countedSize = 0 :=
        List.sum_eq_zero_iff.mp hzero _ (List.mem_map_of_mem hf)
      rw [← Bool.not_eq_true, ← countedSize_pos_iff (hpos f hf), hfield]
      exact Nat.lt_irrefl 0
    · rintro (hfields | hnone)
      · exact absurd (fun f hf => (hfields f hf).1) hall
      · have hzero : (layout.map FieldLayout.countedSize).sum = 0 := by
          apply List.sum_eq_zero
          intro size hsize
          obtain ⟨f, hf, rfl⟩ := List.mem_map.mp hsize
          have hunknown := hnone f hf
          rw [← Bool.not_eq_true, ← countedSize_pos_iff (hpos f hf)] at hunknown
          exact Nat.eq_zero_of_not_pos hunknown
        rw [hzero]
        exact Nat.dvd_zero _

end Struct

/-! ## Structures of any layout -/

/-- The JSON of a linear dimension. -/
def dimensionJson (size : Nat) : Json :=
  .object [("linear", .object [("size", .integer size)]), ("rule", .string "linear")]

/-- The JSON of a field. -/
def FieldLayout.toJson (f : FieldLayout) : Json :=
  match f.dataType with
  | some type => .object
      [("dataType", .string type), ("dimensions", .array (f.sizes.map dimensionJson))]
  | none => .object [("dimensions", .array (f.sizes.map dimensionJson))]

/-- Metadata with these fields. -/
def structMetadata (layout : List FieldLayout) : Metadata :=
  .ofJson (.object [("definition", .object
    [("dataType", .string "struct"), ("struct", .array (layout.map FieldLayout.toJson))])])

theorem isField_toJson {f : FieldLayout} (h : ∀ n ∈ f.sizes, n < 2 ^ 64) : IsField f.toJson f := by
  have hdimensions : List.Forall₂ IsDimension (f.sizes.map dimensionJson) f.sizes := by
    rw [List.forall₂_map_left_iff, List.forall₂_same]
    exact fun n hn => ⟨⟨_, rfl, rfl, rfl⟩, h n hn⟩
  unfold FieldLayout.toJson
  cases htype : f.dataType with
  | none => exact ⟨rfl, htype.symm, .inr ⟨_, rfl, hdimensions⟩⟩
  | some type => exact ⟨rfl, htype.symm, .inr ⟨_, rfl, hdimensions⟩⟩

/-- There are metadata of every structure. -/
theorem isStruct_structMetadata {layout : List FieldLayout}
    (h : ∀ f ∈ layout, ∀ n ∈ f.sizes, n < 2 ^ 64) : (structMetadata layout).IsStruct layout := by
  refine ⟨rfl, _, rfl, ?_⟩
  rw [List.forall₂_map_left_iff, List.forall₂_same]
  exact fun f hf => isField_toJson (h f hf)

/-- A time stamp, four floats and a column of three doubles. -/
def timedColumn : List FieldLayout :=
  [⟨some "uint64", []⟩, ⟨some "real32", [4]⟩, ⟨some "real64", [3, 1]⟩]

theorem exactOrUnknown_timedColumn :
    ExactOrUnknown (structMetadata timedColumn).sampleSize timedColumn ∧
      (structMetadata timedColumn).sampleSize = 48 := by
  have hsafe : LayoutSafe timedColumn := by decide
  have hexact := (exactOrUnknown_iff (structMetadata timedColumn) timedColumn
    (isStruct_structMetadata (by decide)) (by decide)).mpr hsafe
  exact ⟨hexact, hexact.1 (by decide)⟩

/-- A matrix of six doubles is counted as two. -/
theorem sampleSize_matrix :
    ¬ ∀ (m : Metadata) (layout : List FieldLayout), m.IsStruct layout →
      (layout.map FieldLayout.byteSize).sum < 2 ^ 64 → ExactOrUnknown m.sampleSize layout := by
  intro h
  have hexact := h (structMetadata [⟨some "real64", [2, 3]⟩]) [⟨some "real64", [2, 3]⟩]
    (isStruct_structMetadata (by decide)) (by decide)
  exact absurd (hexact.1 (by decide)) (by decide)

end WsStreaming.Ports
