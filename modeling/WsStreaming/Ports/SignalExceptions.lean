import WsStreaming.Ports.MetadataSections
import WsStreaming.Ports.RemoteSignals
import WsStreaming.Verified.Run

/-!
# Signal metadata from the wire

The handlers of `remote_signal_impl` that take parameters from the wire, with
the exceptions that they may raise.  The metadata of a signal are rebuilt by
each of its messages from what earlier ones left.

A call returns, and leaves metadata that can be read, unless a signal rate is
given that leads through an array or has no samples, extra metadata that are no
strings, or a stamp that is an array.

## Main results

* `handleSignal?_eq`, `handleDataFormat?_eq` — two of the handlers raise nothing.
* `returns_iff_harmless` — when every call of a run returns and leaves readable
  metadata.
* `returns_without_samples` — a signal rate without samples.
-/

namespace WsStreaming.Ports

open WsStreaming.Verified
open WsStreaming.Verified.Run (Meets)

/-- `linear_table::update(metadata)`, with the exceptions of the accessors. -/
def LinearTable.update? (t : LinearTable) (m : Metadata) : Option LinearTable :=
  m.readTableId.bind fun tableId =>
    m.readLinearStartDelta.bind fun startDelta =>
      m.readValueIndex.map fun valueIndex =>
        let t := if tableId ≠ "" then { t with id := tableId } else t
        let t := { t with
          value := startDelta.1.getD t.value
          delta := startDelta.2.getD t.delta }
        match valueIndex with
        | some newIndex => { t with index := newIndex, drivenIndex := newIndex }
        | none => t

theorem LinearTable.update?_eq (t : LinearTable) (m : Metadata) :
    t.update? m = some (t.update m) := by
  rw [update?, Metadata.readTableId_eq, Option.bind_some, Metadata.readLinearStartDelta_eq,
    Option.bind_some, Metadata.readValueIndex_eq, Option.map_some]
  rfl

/-- The accessors of the metadata, the interval in nanoseconds among them, all
return. -/
structure Metadata.Readable (m : Metadata) : Prop where
  dataType : m.readDataType.isSome = true
  endian : m.readEndian.isSome = true
  linearStartDelta : m.readLinearStartDelta.isSome = true
  name : m.readName.isSome = true
  origin : m.readOrigin.isSome = true
  rule : m.readRule.isSome = true
  sampleSize : m.readSampleSize.isSome = true
  tableId : m.readTableId.isSome = true
  tickResolution : m.readTickResolution.isSome = true
  unit : m.readUnit.isSome = true
  valueIndex : m.readValueIndex.isSome = true
  extraMetadata : m.extraMetadata.isSome = true
  tcpSignalRateTicks : (m.tcpSignalRateTicks 1 1000000000).isSome = true

/-- A message for a remote signal, with what the lookup of its domain finds and
the address of a table that is made. -/
inductive SignalMessage where
  | signal (params : Json) (domain table : Option Nat) (fresh : Nat)
  | signalRate (params : Json)
  | data (params : Json)
  | time (params : Json)

namespace RemoteSignal

/-- `remote_signal_impl::handle_signal`, with the exceptions of the accessors. -/
def handleSignal? (s : RemoteSignal) (params : Json) (domain table : Option Nat) (fresh : Nat) :
    Option RemoteSignal :=
  let metadata : Metadata := .ofJson params
  metadata.readSampleSize.bind fun sampleSize =>
    metadata.readRule.bind fun rule =>
      (if rule = linearRule then
        match s.table with
        | some t => (t.table.update? metadata).map fun u => some { t with table := u }
        | none => (LinearTable.update? {} metadata).map fun u => some ⟨fresh, u⟩
      else some none).bind fun own =>
        metadata.readValueIndex.bind fun valueIndex =>
          metadata.readTableId.map fun tableId =>
            let sought := tableId ≠ "" ∧ tableId ≠ s.id
            { s with
              metadata := metadata
              sampleSize := sampleSize
              table := own
              isExplicit := rule = explicitRule
              valueIndex := valueIndex.getD s.valueIndex
              domainSignal := if sought then domain else none
              domainTable := if sought then table else none }

/-- `remote_signal_impl::handle_data(params)`, with its exceptions. -/
def handleDataFormat? (s : RemoteSignal) (params : Json) : Option RemoteSignal :=
  (params.jsonPtr Json.string? ["valueType"] "unknown").bind fun valueType =>
    (params.jsonPtr Json.string? ["endian"] "unknown").bind fun endian =>
      let metadata := MetadataBuilder.build (MetadataBuilder.fromJson s.metadata.json)
        [.dataType valueType, .endian endian]
      metadata.readSampleSize.map fun sampleSize =>
        { s with metadata := metadata, sampleSize := sampleSize }

/-- Whether `remote_signal_impl::handle_time` returns. -/
def timeReturns (params : Json) : Bool :=
  (params.jsonPtr Json.uint32? ["stamp", "seconds"] 0).isSome &&
    (params.jsonPtr Json.uint32? ["stamp", "fraction"] 0).isSome

/-- `remote_signal_impl::handle_metadata` of a message that takes parameters,
and whether the call returns. -/
def handleMetadata (s : RemoteSignal) : SignalMessage → RemoteSignal × Bool
  | .signal params domain table fresh =>
      match s.handleSignal? params domain table fresh with
      | some s' => (s', true)
      | none => (s, false)
  | .signalRate params => s.handleSignalRate params
  | .data params =>
      match s.handleDataFormat? params with
      | some s' => (s', true)
      | none => (s, false)
  | .time params => (s.handleTime params, timeReturns params)

/-- A call returns, and leaves metadata that can be read. -/
def Returns (s : RemoteSignal) (m : SignalMessage) : Prop :=
  (s.handleMetadata m).2 = true ∧ (s.handleMetadata m).1.metadata.Readable

end RemoteSignal

/-- Whether metadata from the wire can be read: its extra metadata are strings,
and a signal rate in it is a clear one. -/
def isClearDocument (j : Json) : Bool :=
  Metadata.hasStringExtras j && (j.find? "signalRate").all Metadata.isClearRate

/-- A message whose parameters raise nothing. -/
def SignalMessage.isHarmless : SignalMessage → Bool
  | .signal params _ _ _ => isClearDocument params
  | .signalRate params => Metadata.isClearRate params
  | .data _ => true
  | .time params => !params.isObject || (params.find? "stamp").all fun stamp => !stamp.isArray

section Returns

variable (s : RemoteSignal)

/-- **A description raises nothing.** -/
theorem handleSignal?_eq (params : Json) (domain table : Option Nat) (fresh : Nat) :
    s.handleSignal? params domain table fresh = some ((s.describe (.ofJson params) fresh).bindDomain
      (if (Metadata.ofJson params).tableId ≠ "" ∧ (Metadata.ofJson params).tableId ≠ s.id then
        domain else none)
      (if (Metadata.ofJson params).tableId ≠ "" ∧ (Metadata.ofJson params).tableId ≠ s.id then
        table else none)) := by
  unfold RemoteSignal.handleSignal?
  dsimp only
  rw [Metadata.readSampleSize_eq, Option.bind_some, Metadata.readRule_eq, Option.bind_some,
    Metadata.readValueIndex_eq, Metadata.readTableId_eq]
  unfold RemoteSignal.describe RemoteSignal.bindDomain
  by_cases hrule : (Metadata.ofJson params).rule = linearRule
  · rw [if_pos hrule]
    cases s.table with
    | none =>
        dsimp only
        rw [LinearTable.update?_eq, if_pos hrule]
        rfl
    | some t =>
        dsimp only
        rw [LinearTable.update?_eq, if_pos hrule]
        rfl
  · rw [if_neg hrule, if_neg hrule]
    rfl

/-- **A data format raises nothing.** -/
theorem handleDataFormat?_eq (params : Json) :
    s.handleDataFormat? params = some (s.handleDataFormat params) := by
  have hpointer (key : String) : params.jsonPtr Json.string? [key] "unknown" =
      some ((params.stringAt? key).getD "unknown") := by
    rw [Metadata.jsonPtr_one]
    cases params with
    | object members =>
        unfold Json.stringAt?
        cases (Json.object members).find? key <;> rfl
    | null => rfl
    | bool b => rfl
    | integer n => rfl
    | float bits => rfl
    | string s => rfl
    | array elements => rfl
  unfold RemoteSignal.handleDataFormat? RemoteSignal.handleDataFormat
  rw [hpointer, hpointer, Option.bind_some, Option.bind_some]
  dsimp only
  rw [Metadata.readSampleSize_eq]
  rfl

/-- The other accessors raise nothing. -/
theorem readable_iff (m : Metadata) : m.Readable ↔ isClearDocument m.json = true := by
  have hextras := m.isSome_extraMetadata
  have hticks : (m.tcpSignalRateTicks 1 1000000000).isSome = _ :=
    m.isSome_tcpSignalRateTicks (by decide) (by decide)
  unfold isClearDocument
  rw [← hextras, ← hticks, Bool.and_eq_true]
  constructor
  · exact fun h => ⟨h.extraMetadata, h.tcpSignalRateTicks⟩
  · rintro ⟨hextra, htcp⟩
    refine ⟨?_, ?_, ?_, ?_, ?_, ?_, ?_, ?_, ?_, ?_, ?_, hextra, htcp⟩
    · rw [Metadata.readDataType_eq]
      rfl
    · rw [Metadata.readEndian_eq]
      rfl
    · rw [Metadata.readLinearStartDelta_eq]
      rfl
    · rw [Metadata.readName_eq]
      rfl
    · rw [Metadata.readOrigin_eq]
      rfl
    · rw [Metadata.readRule_eq]
      rfl
    · rw [Metadata.readSampleSize_eq]
      rfl
    · rw [Metadata.readTableId_eq]
      rfl
    · rw [Metadata.readTickResolution_eq]
      rfl
    · rw [Metadata.readUnit_eq]
      rfl
    · rw [Metadata.readValueIndex_eq]
      rfl

end Returns

section Documents

open Metadata (memberOf extras? hasStringExtras isClearRate)

/-- What a document is clear by. -/
theorem isClearDocument_congr {j j' : Json}
    (hextras : memberOf j' "interpretation" "metadata" = memberOf j "interpretation" "metadata")
    (hrate : j'.find? "signalRate" = j.find? "signalRate") :
    isClearDocument j' = isClearDocument j := by
  unfold isClearDocument hasStringExtras extras?
  rw [hextras, hrate]

/-- The empty document stands for anything but an object. -/
theorem isClearDocument_ofJson (params : Json) :
    isClearDocument (Metadata.ofJson params).json = isClearDocument params := by
  cases params with
  | object members => rfl
  | null => rfl
  | bool b => rfl
  | integer n => rfl
  | float bits => rfl
  | string s => rfl
  | array elements => rfl

/-- A signal rate is replaced, and the extra metadata stay. -/
theorem isClearDocument_signalRate {j : Json} (h : j.isObject = true) (rate : Json) :
    isClearDocument
        (MetadataBuilder.build (MetadataBuilder.fromJson j) [.tcpSignalRate rate]).json =
      (hasStringExtras j && isClearRate rate) := by
  have hstart := MetadataBuilder.sectioned_fromJson j
  have hwrites := MetadataBuilder.writes_apply hstart.isObject (.tcpSignalRate rate)
  have hrate : (MetadataBuilder.apply (MetadataBuilder.fromJson j) (.tcpSignalRate rate)).find?
      "signalRate" = some rate := hwrites.document _ (by decide) (by decide)
  have hextras := hstart.memberOf_interpretation_of_same (.tcpSignalRate rate) (fun _ => rfl)
    "metadata"
  rw [MetadataBuilder.memberOf_fromJson h] at hextras
  rw [MetadataBuilder.json_build hstart.isObject, List.foldl_cons, List.foldl_nil]
  unfold isClearDocument hasStringExtras extras?
  rw [hextras, hrate, Option.all_some]

/-- A data format is written past both. -/
theorem isClearDocument_dataFormat {j : Json} (h : j.isObject = true) (type endian : String) :
    isClearDocument (MetadataBuilder.build (MetadataBuilder.fromJson j)
      [.dataType type, .endian endian]).json = isClearDocument j := by
  have hstart := MetadataBuilder.sectioned_fromJson j
  have htype := hstart.apply (.dataType type)
  rw [MetadataBuilder.json_build hstart.isObject]
  apply isClearDocument_congr
  · have hsecond := htype.memberOf_interpretation_of_same (.endian endian) (fun _ => rfl) "metadata"
    have hfirst := hstart.memberOf_interpretation_of_same (.dataType type) (fun _ => rfl) "metadata"
    exact hsecond.trans (hfirst.trans (MetadataBuilder.memberOf_fromJson h _ _))
  · have hsecond := (MetadataBuilder.writes_apply htype.isObject (.endian endian)).document
      "signalRate" (by decide) (by decide)
    have hfirst := (MetadataBuilder.writes_apply hstart.isObject (.dataType type)).document
      "signalRate" (by decide) (by decide)
    exact hsecond.trans (hfirst.trans (MetadataBuilder.find?_fromJson h (by decide) (by decide)))

end Documents

namespace RemoteSignal

variable {s : RemoteSignal}

/-- Whether a signal rate gets through shows in the interval. -/
theorem snd_handleSignalRate (s : RemoteSignal) (params : Json) :
    (s.handleSignalRate params).2 = ((MetadataBuilder.build
      (MetadataBuilder.fromJson s.metadata.json) [.tcpSignalRate params]).tcpSignalRateTicks 1
        1000000000).isSome := by
  unfold handleSignalRate
  dsimp only
  cases (MetadataBuilder.build (MetadataBuilder.fromJson s.metadata.json)
    [.tcpSignalRate params]).tcpSignalRateTicks 1 1000000000 <;> rfl

theorem metadata_handleSignalRate (s : RemoteSignal) (params : Json) :
    (s.handleSignalRate params).1.metadata = MetadataBuilder.build
      (MetadataBuilder.fromJson s.metadata.json) [.tcpSignalRate params] := by
  unfold handleSignalRate
  dsimp only
  cases (MetadataBuilder.build (MetadataBuilder.fromJson s.metadata.json)
    [.tcpSignalRate params]).tcpSignalRateTicks 1 1000000000 <;> rfl

theorem metadata_handleTime (s : RemoteSignal) (params : Json) :
    (s.handleTime params).metadata = s.metadata := by
  unfold handleTime
  split <;> rfl

/-- A stamp that is no array is read. -/
theorem timeReturns_eq (params : Json) :
    timeReturns params =
      (!params.isObject || (params.find? "stamp").all fun stamp => !stamp.isArray) := by
  rw [timeReturns, Metadata.isSome_jsonPtr_two, Metadata.isSome_jsonPtr_two, Bool.and_self]

/-- **One message.**  As long as the metadata can be read, a message gets
through if and only if it is harmless. -/
theorem returns_iff (hclear : isClearDocument s.metadata.json = true) (m : SignalMessage) :
    s.Returns m ↔ m.isHarmless = true := by
  have hextras : Metadata.hasStringExtras s.metadata.json = true :=
    (Bool.and_eq_true_iff.mp hclear).1
  unfold Returns
  rw [readable_iff]
  cases m with
  | signal params domain table fresh =>
      have hhandled := handleSignal?_eq s params domain table fresh
      simp only [handleMetadata, hhandled]
      change True ∧ isClearDocument (Metadata.ofJson params).json = true ↔ _
      rw [isClearDocument_ofJson, true_and]
      rfl
  | signalRate params =>
      have hclean := isClearDocument_signalRate s.metadata.isObject params
      rw [hextras, Bool.true_and] at hclean
      simp only [handleMetadata]
      rw [snd_handleSignalRate, metadata_handleSignalRate,
        Metadata.isSome_tcpSignalRateTicks _ (by decide) (by decide), hclean]
      change _ ↔ Metadata.isClearRate params = true
      constructor
      · exact fun h => h.2
      · intro h
        rw [h] at hclean
        exact ⟨(Bool.and_eq_true_iff.mp hclean).2, h⟩
  | data params =>
      have hhandled := handleDataFormat?_eq s params
      simp only [handleMetadata, hhandled]
      have hkept : isClearDocument (s.handleDataFormat params).metadata.json = true :=
        (isClearDocument_dataFormat s.metadata.isObject _ _).trans hclear
      exact iff_of_true ⟨trivial, hkept⟩ rfl
  | time params =>
      simp only [handleMetadata]
      rw [metadata_handleTime, timeReturns_eq]
      exact and_iff_left hclear

/-- **A run.**  Every call of a run on a new signal returns, and leaves metadata
that can be read, if and only if every message of the run is harmless. -/
theorem returns_iff_harmless (id : String) (messages : List SignalMessage) :
    Meets (fun s m => (s.handleMetadata m).1) Returns { id := id } messages ↔
      ∀ m ∈ messages, m.isHarmless = true := by
  rw [← Run.meets_iff_forall]
  apply Run.meets_iff fun s => isClearDocument s.metadata.json = true
  · intro s m hclear hharmless
    exact (readable_iff _).mp ((returns_iff hclear m).mpr hharmless).2
  · exact fun s m hclear => returns_iff hclear m
  · rfl

/-- A signal rate without samples divides by zero. -/
theorem returns_without_samples :
    ¬ ∀ (id : String) (messages : List SignalMessage),
      Meets (fun s m => (s.handleMetadata m).1) Returns { id := id } messages := by
  intro h
  have hreturns := (h "a" [.signalRate (.object [("samples", .integer 0)])]).1.1
  exact absurd hreturns (by decide)

end RemoteSignal

end WsStreaming.Ports
