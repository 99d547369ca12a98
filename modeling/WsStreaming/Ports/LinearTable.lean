import WsStreaming.Verified.Wire
import WsStreaming.Ports.Metadata

/-!
# Linear tables

`linear_table`: the domain values of a linear-rule signal, extrapolated from
one known value.  Both ends of a connection keep such a table for a domain
signal.  The publisher changes its own with `set` and sends the same change as
a `linear_payload`, which the other end applies with `update`.
-/

namespace WsStreaming.Ports

open WsStreaming.Verified.Wire

/-- `linear_table`. -/
structure LinearTable where
  id : String := ""
  index : Int64 := 0
  value : Int64 := 0
  delta : Int64 := 0
  drivenIndex : Int64 := 0
deriving DecidableEq, Repr

/-- `streaming_protocol::linear_payload`. -/
structure LinearPayload where
  sampleIndex : Int64
  value : Int64
deriving DecidableEq, Repr

namespace LinearPayload

/-- The sixteen bytes of a payload, little-endian. -/
def bytes (p : LinearPayload) : Bytes :=
  le64 p.sampleIndex.toUInt64 ++ le64 p.value.toUInt64

/-- The number in eight little-endian bytes. -/
def word (data : Bytes) : Int64 := (UInt64.ofNat (ofLE data)).toInt64

/-- The payload in front of a data packet, if it is long enough. -/
def ofBytes? (data : Bytes) : Option LinearPayload :=
  if 16 ≤ data.length then
    some { sampleIndex := word (data.take 8), value := word ((data.drop 8).take 8) }
  else none

theorem word_le64 (x : Int64) : word (le64 x.toUInt64) = x := by
  rw [word, ofLE_le64, UInt64.ofNat_toNat, Int64.toInt64_toUInt64]

/-- A payload reads back. -/
theorem ofBytes?_bytes (p : LinearPayload) : ofBytes? p.bytes = some p := by
  have hlength : p.bytes.length = 16 := by
    rw [bytes, List.length_append, length_le64, length_le64]
  have hindex : p.bytes.take 8 = le64 p.sampleIndex.toUInt64 := by
    rw [bytes, List.take_left' (length_le64 _)]
  have hvalue : (p.bytes.drop 8).take 8 = le64 p.value.toUInt64 := by
    rw [bytes, List.drop_left' (length_le64 _), List.take_of_length_le (Nat.le_refl 8)]
  rw [ofBytes?, if_pos (Nat.le_of_eq hlength.symm), hindex, hvalue, word_le64, word_le64]

end LinearPayload

namespace LinearTable

/-- `linear_table::update(metadata)`. -/
def update (t : LinearTable) (m : Metadata) : LinearTable :=
  let t := if m.tableId ≠ "" then { t with id := m.tableId } else t
  let t := { t with
    value := m.linearStartDelta.1.getD t.value
    delta := m.linearStartDelta.2.getD t.delta }
  match m.valueIndex with
  | some newIndex => { t with index := newIndex, drivenIndex := newIndex }
  | none => t

/-- `linear_table::linear_table`. -/
def new (m : Metadata) : LinearTable := update {} m

/-- `linear_table::update(payload)`. -/
def updatePayload (t : LinearTable) (p : LinearPayload) : LinearTable :=
  { t with index := p.sampleIndex, drivenIndex := p.sampleIndex, value := p.value }

/-- `linear_table::driven_value`. -/
def drivenValue (t : LinearTable) : Int64 := t.value + t.delta * (t.drivenIndex - t.index)

/-- `linear_table::value_at`. -/
def valueAt (t : LinearTable) (index : Int64) : Int64 := t.value + t.delta * (index - t.index)

/-- `linear_table::set`. -/
def set (t : LinearTable) (index value : Int64) : LinearTable :=
  { t with index := index, value := value, drivenIndex := index }

/-- `linear_table::drive_to`. -/
def driveTo (t : LinearTable) (index : Int64) : LinearTable := { t with drivenIndex := index }

@[simp] theorem index_update (t : LinearTable) (m : Metadata) :
    (t.update m).index = m.valueIndex.getD t.index := by
  unfold update
  cases m.valueIndex <;> split <;> rfl

@[simp] theorem drivenIndex_update (t : LinearTable) (m : Metadata) :
    (t.update m).drivenIndex = m.valueIndex.getD t.drivenIndex := by
  unfold update
  cases m.valueIndex <;> split <;> rfl

@[simp] theorem value_update (t : LinearTable) (m : Metadata) :
    (t.update m).value = m.linearStartDelta.1.getD t.value := by
  unfold update
  cases m.valueIndex <;> split <;> rfl

@[simp] theorem delta_update (t : LinearTable) (m : Metadata) :
    (t.update m).delta = m.linearStartDelta.2.getD t.delta := by
  unfold update
  cases m.valueIndex <;> split <;> rfl

@[simp] theorem id_update (t : LinearTable) (m : Metadata) :
    (t.update m).id = if m.tableId ≠ "" then m.tableId else t.id := by
  unfold update
  cases m.valueIndex <;> split <;> rfl

/-- The driven value is the value at the driven index. -/
theorem drivenValue_eq (t : LinearTable) : t.drivenValue = t.valueAt t.drivenIndex := rfl

theorem valueAt_set (t : LinearTable) (index value : Int64) :
    (t.set index value).valueAt index = value := by
  simp [set, valueAt]

end LinearTable

/-- A shared pointer to a table, with the table. -/
structure TablePtr where
  address : Nat
  table : LinearTable
deriving DecidableEq, Repr

end WsStreaming.Ports
