import WireIdl.Proofs.Wire.Composed
import WireIdl.Record.Decode

/-! The readers of values are composed. -/

namespace WireIdl

variable {n : Census}

namespace Target

variable {t : Target n}

open Reader

theorem composed_readEnum (id : Fin n.enums) : Composed (t.readEnum id) := by
  apply composed_i32.bind
  intro value
  cases (t.schema.enum id).memberByValue? value with
  | some _ => exact .pure _
  | none => exact .throw _

theorem composed_mismatched (field : KnownField n) (header : FieldHeader) :
    Composed (t.mismatched field header) := by
  rw [mismatched]
  split
  · exact .throw _
  · exact composed_skipWithin maxFrames header.tag

section Records

variable {record : Fin n.records → Reader Value} (hrecord : ∀ id, Composed (record id))
include hrecord

theorem composed_readValueWith (shape : Shape n) : Composed (t.readValueWith record shape) := by
  induction shape with
  | bool => exact composed_bool.map _
  | byte => exact composed_i8.map _
  | i16 => exact composed_i16.map _
  | i32 => exact composed_i32.map _
  | i64 => exact composed_i64.map _
  | double => exact composed_double.map _
  | string => exact composed_string.map _
  | binary => exact composed_binary.map _
  | enum id => exact composed_readEnum id
  | record id => exact hrecord id
  | list _ _ ih | set _ _ ih =>
      exact composed_itemsHeader.bind fun header => ((ih ()).collect header.size).map _
  | map _ _ _ _ ihKey ihValue =>
      have hentry := (ihKey ()).bind fun key => (ihValue ()).map fun value => (key, value)
      exact composed_entriesHeader.bind fun header => (hentry.collect header.size).map _
  | void | service | cyclic => exact .throw _

theorem composed_readField (fields : List (KnownField n)) (header : FieldHeader) (slots : Slots) :
    Composed (t.readField record fields header slots) := by
  induction fields generalizing slots with
  | nil => exact (composed_skipWithin maxFrames header.tag).map _
  | cons field fields ih =>
      cases slots with
      | nil => exact (composed_skipWithin maxFrames header.tag).map _
      | cons slot slots =>
          rw [readField]
          split
          · split
            · exact (composed_readValueWith hrecord field.shape).map _
            · exact (composed_mismatched field header).map _
          · exact (ih slots).map _

end Records

theorem composed_readRecordWithin (frames : Nat) (id : Fin n.records) :
    Composed (t.readRecordWithin frames id) := by
  induction frames generalizing id with
  | zero => exact .throw _
  | succ frames ih =>
      apply (composed_frame (composed_readField ih _) _).bind
      intro slots
      cases (t.schema.record id).build slots with
      | ok v => exact .pure v
      | error fault => exact .throw _

end Target

end WireIdl
