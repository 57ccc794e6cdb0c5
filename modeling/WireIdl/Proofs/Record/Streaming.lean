import WireIdl.Demo.Targets
import WireIdl.Proofs.Wire.Streaming

/-! Records are read and values are skipped as their bytes arrive: what has been decided before the
end of the input does not depend on what comes later. -/

namespace WireIdl

variable {n : Census}

namespace Target

open Reader

variable {t : Target n}

theorem streams_readEnum (id : Fin n.enums) : Streams (t.readEnum id) (t.readEnum id) := by
  apply streams_i32.bind
  intro value
  cases (t.schema.enum id).memberByValue? value with
  | none => exact streams_throw _
  | some _ => exact streams_pure _

section Records

variable {record : Fin n.records → Reader Value}

theorem streams_readValueWith (hrecord : ∀ id, Streams (record id) (record id))
    (shape : Shape n) :
    Streams (t.readValueWith record shape) (t.readValueWith record shape) := by
  induction shape with
  | bool => exact (streams_rawByte.bind fun _ => streams_pure _).bind fun _ => streams_pure _
  | byte => exact (streams_rawByte.bind fun _ => streams_pure _).bind fun _ => streams_pure _
  | i16 => exact streams_i16.bind fun _ => streams_pure _
  | i32 => exact streams_i32.bind fun _ => streams_pure _
  | i64 => exact streams_i64.bind fun _ => streams_pure _
  | double => exact streams_double.bind fun _ => streams_pure _
  | string => exact streams_string.bind fun _ => streams_pure _
  | binary => exact streams_binary.bind fun _ => streams_pure _
  | enum id => exact streams_readEnum id
  | record id => exact hrecord id
  | list _ _ ih | set _ _ ih =>
      apply streams_itemsHeader.bind
      intro header
      exact (streams_collect (ih ()) header.size).bind fun _ => streams_pure _
  | map _ _ _ _ ihKey ihValue =>
      apply streams_entriesHeader.bind
      intro header
      have hentry := (ihKey ()).bind fun key => (ihValue ()).bind fun value =>
        streams_pure (key, value)
      exact (streams_collect hentry header.size).bind fun _ => streams_pure _
  | void | service | cyclic => exact streams_throw _

theorem streams_mismatched (field : KnownField n) (header : FieldHeader) :
    Streams (t.mismatched field header) (t.mismatched field header) := by
  rw [mismatched]
  split
  · exact streams_throw _
  · exact streams_skipWithin maxFrames header.tag

theorem streams_readField (hrecord : ∀ id, Streams (record id) (record id))
    (fields : List (KnownField n)) (header : FieldHeader) (slots : Slots) :
    Streams (t.readField record fields header slots)
      (t.readField record fields header slots) := by
  induction fields generalizing slots with
  | nil => exact (streams_skipWithin maxFrames header.tag).bind fun _ => streams_pure _
  | cons field fields ih =>
      cases slots with
      | nil => exact (streams_skipWithin maxFrames header.tag).bind fun _ => streams_pure _
      | cons slot slots =>
          rw [readField]
          split
          · split
            · exact (streams_readValueWith hrecord field.shape).bind fun _ => streams_pure _
            · exact (streams_mismatched field header).bind fun _ => streams_pure _
          · exact (ih slots).bind fun _ => streams_pure _

end Records

theorem streams_readRecordWithin (frames : Nat) (id : Fin n.records) :
    Streams (t.readRecordWithin frames id) (t.readRecordWithin frames id) := by
  induction frames generalizing id with
  | zero => exact streams_throw _
  | succ frames ih =>
      apply (streams_frame (streams_readField ih _) _).bind
      intro slots
      cases (t.schema.record id).build slots with
      | ok v => exact streams_pure v
      | error fault => exact streams_throw _

/-- Reading a record and skipping a value do not depend on bytes that come later, whatever frames
are open and whether they succeed or fail; and every proper beginning of what they take ends too
early for them. -/
theorem reading_incremental (t : Target n) :
    (∀ id, (t.readRecord id).Incremental) ∧ ∀ tag, (Reader.skip tag).Incremental := by
  constructor
  · intro id
    exact (streams_readRecordWithin maxFrames id).incremental
  · intro tag
    exact (streams_skipWithin maxFrames tag).incremental

end Target

namespace Demo

/-- Limits of three results. -/
def limitBytes : Bytes :=
  [8, 0, 1, 0, 0, 0, 3, 0]

theorem readRecord_limitBytes :
    hashed.readRecord limitsId ⟨limitBytes, 9⟩ =
        .ok (.record [some (.i32 3), some (.string .owned "all")]) ⟨[], 9⟩ ∧
      hashed.readRecord limitsId ⟨limitBytes ++ [7], 9⟩ =
        .ok (.record [some (.i32 3), some (.string .owned "all")]) ⟨[7], 9⟩ ∧
      (∃ left, hashed.readRecord limitsId ⟨limitBytes.take 7, 9⟩ = .error .unexpectedEof left) ∧
      Reader.skip 99 ⟨limitBytes ++ [7], 9⟩ = .error (.unknownType 99) ⟨limitBytes ++ [7], 9⟩ := by
  have hread : hashed.readRecord limitsId ⟨limitBytes, 9⟩ =
      .ok (.record [some (.i32 3), some (.string .owned "all")]) ⟨[], 9⟩ := rfl
  have hsplit : hashed.readRecord limitsId ⟨limitBytes.take 7 ++ [0], 9⟩ =
      .ok (.record [some (.i32 3), some (.string .owned "all")]) ⟨[], 9⟩ := hread
  have hskip : Reader.skip 99 ⟨limitBytes, 9⟩ = .error (.unknownType 99) ⟨limitBytes, 9⟩ := rfl
  have hincremental := Target.reading_incremental hashed
  exact ⟨hread, (hincremental.1 limitsId).ok hread,
    (hincremental.1 limitsId).cut hsplit (by decide), (hincremental.2 99).error hskip (by decide)⟩

end Demo

end WireIdl
