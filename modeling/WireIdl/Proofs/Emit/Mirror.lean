import WireIdl.Proofs.Emit.Calls

/-! Emitted code reads what it writes: for each type, the statements that read a value ask of a
protocol what the statements that write it do. -/

namespace WireIdl

open Code Text

variable {n : Census}

/-- What writing a value of the shape asks of a protocol, and reading it too; nothing if there is
no such value. -/
def Shape.calls? : Shape n → Option (List Call)
  | .bool => some [.method "bool".toList]
  | .byte => some [.method "byte".toList]
  | .i16 => some [.method "i16".toList]
  | .i32 | .enum _ => some [.method "i32".toList]
  | .i64 => some [.method "i64".toList]
  | .double => some [.method "double".toList]
  | .string => some [.method "string".toList]
  | .binary => some [.method "binary".toList]
  | .record _ => some [.codec]
  | .list _ element => (element ()).calls?.map (Call.container "list")
  | .set _ element => (element ()).calls?.map (Call.container "set")
  | .map _ key _ value => (key ()).calls?.bind fun keyCalls =>
      (value ()).calls?.map fun valueCalls => Call.container "map" (keyCalls ++ valueCalls)
  | .void | .service _ | .cyclic _ => none

namespace Temporary

theorem endsIn_text (x : Temporary) : ∃ c, c ≠ 'l' ∧ EndsIn c x.text := by
  obtain ⟨c, hc, hend⟩ := endsIn_toString x.number
  refine ⟨c, ?_, suffix_append x.stem hend⟩
  rintro rfl
  cases hc

theorem eq_not_mem_text {x : Temporary} (h : '=' ∉ x.stem.toList) : '=' ∉ x.text.toList := by
  rw [text, String.toList_append, List.mem_append]
  rintro (hmem | hmem)
  · exact h hmem
  · cases isDigit_of_mem_toString hmem

end Temporary

namespace WriteStmt

variable {rt : String}

theorem calls_scalar (op : ScalarOp) (x : Temporary) :
    callsOf .write ((scalar op x).steps rt) = [.method op.name.toList] := by
  obtain ⟨c, hc, hx⟩ := x.endsIn_text
  have hname : '(' ∉ op.name.toList := by cases op <;> decide
  refine callsOf_line (callOf?_write hname hc (by simp) ?_) rfl
  split
  · exact EndsIn.suffix (suffix_append _ (suffix_append "*" hx)) ")?;"
  · exact EndsIn.suffix (suffix_append _ hx) ")?;"

theorem calls_enum (x : Temporary) :
    callsOf .write ((enum x).steps rt) = [.method "i32".toList] := by
  refine callsOf_line (callOf?_write (c := ')') (by decide) (by decide) (by simp) ?_) rfl
  refine suffix_append _ ?_
  decide

theorem calls_record (x : Temporary) : callsOf .write ((record x).steps rt) = [.codec] := by
  refine callsOf_line (callOf?_codec .write (suffix_append _ ?_)) rfl
  decide

theorem calls_items (kind : ItemsKind) {tag : String} {x item : Temporary} {body : WriteStmt}
    {calls : List Call} (h : callsOf .write (body.steps rt) = calls) :
    callsOf .write ((items kind tag x item body).steps rt) =
      Call.container kind.name calls := by
  refine callsOf_line (callOf?_write (c := '?') ?_ (by decide) (by simp) (suffix_append _ ?_))
    (callsOf_for (by simp) h
      (callsOf_line (callOf?_write (c := '(') ?_ (by decide) (by simp) (suffix_append _ ?_)) rfl))
  · cases kind <;> decide
  · decide
  · cases kind <;> decide
  · decide

theorem calls_entries {keyTag valueTag : String} {x k v : Temporary} {key value : WriteStmt}
    {calls more : List Call} (hkey : callsOf .write (key.steps rt) = calls)
    (hvalue : callsOf .write (value.steps rt) = more) :
    callsOf .write ((entries keyTag valueTag x k v key value).steps rt) =
      Call.container "map" (calls ++ more) := by
  have hbody : callsOf .write (key.steps rt ++ value.steps rt) = calls ++ more := by
    rw [callsOf_append, hkey, hvalue]
  refine callsOf_line (callOf?_write (c := '?') (by decide) (by decide) (by simp)
    (suffix_append _ ?_)) (callsOf_for (by simp) hbody
      (callsOf_line (callOf?_write (c := '(') (by decide) (by decide) (by simp) ?_) rfl))
  · decide
  · decide

end WriteStmt

namespace ReadStmt

variable {rt : String}

theorem calls_scalar (op : ScalarOp) {x : Temporary} (hx : '=' ∉ x.stem.toList) :
    callsOf .read ((scalar op x).steps rt) = [.method op.name.toList] := by
  have hname : '(' ∉ op.name.toList := by cases op <;> decide
  exact callsOf_line (callOf?_read_let (x.eq_not_mem_text hx) hname (by simp)) rfl

theorem calls_enum {raw : Temporary} (hraw : '=' ∉ raw.stem.toList) (x : Temporary)
    (path enumName : String) :
    callsOf .read ((enum raw x path enumName).steps rt) = [.method "i32".toList] := by
  refine callsOf_line (callOf?_read_let (raw.eq_not_mem_text hraw) (by decide) (by simp))
    (callsOf_silent (callOf?_read_of_ne (c := '\x7d') (by decide) (by decide)
      (suffix_append _ ?_)) rfl)
  decide

theorem calls_record (x : Temporary) (path : String) :
    callsOf .read ((record x path).steps rt) = [.codec] := by
  refine callsOf_line (callOf?_codec .read (suffix_append _ ?_)) rfl
  decide

theorem calls_items (kind : ItemsKind) {header x : Temporary} {container add : String}
    {item : ReadStmt} {calls : List Call} (hheader : '=' ∉ header.stem.toList)
    (h : callsOf .read (item.steps rt) = calls) :
    callsOf .read ((items kind header x container add item).steps rt) =
      Call.container kind.name calls := by
  have hbody : callsOf .read (item.steps rt ++
      [.line (x.text ++ "." ++ add ++ "(" ++ item.result.text ++ ");")]) = calls := by
    have hadd : callsOf .read
        [.line (x.text ++ "." ++ add ++ "(" ++ item.result.text ++ ");")] = [] :=
      callsOf_silent (callOf?_eq_none .read (suffix_append _ List.suffix_rfl)) rfl
    rw [callsOf_append, hadd, List.append_nil, h]
  refine callsOf_line (callOf?_read_let (header.eq_not_mem_text hheader) ?_ (by simp))
    (callsOf_silent (callOf?_eq_none .read (suffix_append _ ?_))
      (callsOf_for (by simp) hbody (callsOf_line (callOf?_read_plain ?_ (by simp)) rfl)))
  · cases kind <;> decide
  · decide
  · cases kind <;> decide

theorem calls_entries {header x : Temporary} {container : String} {key entry : ReadStmt}
    {calls more : List Call} (hheader : '=' ∉ header.stem.toList)
    (hkey : callsOf .read (key.steps rt) = calls)
    (hentry : callsOf .read (entry.steps rt) = more) :
    callsOf .read ((entries header x container key entry).steps rt) =
      Call.container "map" (calls ++ more) := by
  have hbody : callsOf .read (key.steps rt ++ entry.steps rt ++
      [.line (x.text ++ ".insert(" ++ key.result.text ++ ", " ++ entry.result.text ++ ");")]) =
        calls ++ more := by
    have hinsert : callsOf .read [.line (x.text ++ ".insert(" ++ key.result.text ++ ", " ++
        entry.result.text ++ ");")] = [] :=
      callsOf_silent (callOf?_eq_none .read (suffix_append _ List.suffix_rfl)) rfl
    rw [callsOf_append, callsOf_append, hinsert, List.append_nil, hkey, hentry]
  refine callsOf_line (callOf?_read_let (header.eq_not_mem_text hheader) (by decide) (by simp))
    (callsOf_silent (callOf?_eq_none .read (suffix_append _ ?_))
      (callsOf_for (by simp) hbody (callsOf_line (callOf?_read_plain (by decide) ?_) rfl)))
  · decide
  · rfl

end ReadStmt

namespace Target

variable (t : Target n)

theorem exists_tagPath {shape : Shape n} {calls : List Call} (h : shape.calls? = some calls) :
    ∃ tag, t.tagPath shape = .ok tag := by
  cases shape with
  | void | service | cyclic => cases h
  | bool | byte | i16 | i32 | i64 | double | string | binary | enum | record | list | set | map =>
      exact ⟨_, rfl⟩

theorem calls_writeValue {shape : Shape n} {calls : List Call} (h : shape.calls? = some calls)
    (rt : String) (x : Temporary) (next : Nat) :
    ∃ w after, t.writeValue x next shape = .ok (w, after) ∧
      callsOf .write (w.steps rt) = calls := by
  induction shape generalizing calls x next with
  | bool | byte | i16 | i32 | i64 | double | string | binary =>
      cases h
      exact ⟨_, _, rfl, WriteStmt.calls_scalar _ x⟩
  | enum =>
      cases h
      exact ⟨_, _, rfl, WriteStmt.calls_enum x⟩
  | record =>
      cases h
      exact ⟨_, _, rfl, WriteStmt.calls_record x⟩
  | list _ element ih | set _ element ih =>
      obtain ⟨body, hbody, rfl⟩ := Option.map_eq_some_iff.mp h
      obtain ⟨tag, htag⟩ := t.exists_tagPath hbody
      obtain ⟨w, after, hw, hcalls⟩ := ih () hbody ⟨"item", next⟩ (next + 1)
      exact ⟨_, after, except_bind_eq_ok.mpr ⟨tag, htag, except_bind_eq_ok.mpr ⟨(w, after), hw,
        rfl⟩⟩, WriteStmt.calls_items _ hcalls⟩
  | map _ key _ value ihKey ihValue =>
      obtain ⟨keyCalls, hkey, h⟩ := Option.bind_eq_some_iff.mp h
      obtain ⟨valueCalls, hvalue, rfl⟩ := Option.map_eq_some_iff.mp h
      obtain ⟨keyTag, hkeyTag⟩ := t.exists_tagPath hkey
      obtain ⟨valueTag, hvalueTag⟩ := t.exists_tagPath hvalue
      obtain ⟨k, middle, hk, hkeyCalls⟩ := ihKey () hkey ⟨"key", next⟩ (next + 2)
      obtain ⟨v, after, hv, hvalueCalls⟩ := ihValue () hvalue ⟨"value", next + 1⟩ middle
      refine ⟨.entries keyTag valueTag x ⟨"key", next⟩ ⟨"value", next + 1⟩ k v, after, ?_,
        WriteStmt.calls_entries hkeyCalls hvalueCalls⟩
      rw [writeValue]
      exact except_bind_eq_ok.mpr ⟨keyTag, hkeyTag, except_bind_eq_ok.mpr ⟨valueTag, hvalueTag,
        except_bind_eq_ok.mpr ⟨(k, middle), hk, except_bind_eq_ok.mpr ⟨(v, after), hv, rfl⟩⟩⟩⟩
  | void | service | cyclic => cases h

theorem calls_readValue {shape : Shape n} {calls : List Call} (h : shape.calls? = some calls)
    (rt : String) (next : Nat) :
    ∃ r after, t.readValue next shape = .ok (r, after) ∧ callsOf .read (r.steps rt) = calls := by
  induction shape generalizing calls next with
  | bool | byte | i16 | i32 | i64 | double | string | binary =>
      cases h
      exact ⟨_, _, rfl, ReadStmt.calls_scalar _ (by simp)⟩
  | enum =>
      cases h
      exact ⟨_, _, rfl, ReadStmt.calls_enum (by simp) _ _ _⟩
  | record =>
      cases h
      exact ⟨_, _, rfl, ReadStmt.calls_record _ _⟩
  | list _ element ih | set _ element ih =>
      obtain ⟨body, hbody, rfl⟩ := Option.map_eq_some_iff.mp h
      obtain ⟨r, after, hr, hcalls⟩ := ih () hbody (next + 2)
      exact ⟨_, after, except_bind_eq_ok.mpr ⟨(r, after), hr, rfl⟩,
        ReadStmt.calls_items _ (by simp) hcalls⟩
  | map _ key _ value ihKey ihValue =>
      obtain ⟨keyCalls, hkey, h⟩ := Option.bind_eq_some_iff.mp h
      obtain ⟨valueCalls, hvalue, rfl⟩ := Option.map_eq_some_iff.mp h
      obtain ⟨k, middle, hk, hkeyCalls⟩ := ihKey () hkey (next + 2)
      obtain ⟨v, after, hv, hvalueCalls⟩ := ihValue () hvalue middle
      refine ⟨.entries ⟨"map", next⟩ ⟨"value", next + 1⟩ t.config.map.mapPath k v, after, ?_,
        ReadStmt.calls_entries (by simp) hkeyCalls hvalueCalls⟩
      rw [readValue]
      exact except_bind_eq_ok.mpr ⟨(k, middle), hk, except_bind_eq_ok.mpr ⟨(v, after), hv, rfl⟩⟩
  | void | service | cyclic => cases h

theorem writeValue_ne_ok {shape : Shape n} (h : shape.calls? = none) (x : Temporary) (next : Nat)
    (w : WriteStmt × Nat) : t.writeValue x next shape ≠ .ok w := by
  intro hw
  induction shape generalizing x next w with
  | bool | byte | i16 | i32 | i64 | double | string | binary | enum | record => cases h
  | list _ element ih | set _ element ih =>
      obtain ⟨_, _, hw⟩ := except_bind_eq_ok.mp hw
      obtain ⟨body, hbody, _⟩ := except_bind_eq_ok.mp hw
      exact ih () (Option.map_eq_none_iff.mp h) _ _ body hbody
  | map _ key _ value ihKey ihValue =>
      obtain ⟨_, _, hw⟩ := except_bind_eq_ok.mp hw
      obtain ⟨_, _, hw⟩ := except_bind_eq_ok.mp hw
      obtain ⟨k, hk, hw⟩ := except_bind_eq_ok.mp hw
      obtain ⟨v, hv, _⟩ := except_bind_eq_ok.mp hw
      cases hkey : (key ()).calls? with
      | none => exact ihKey () hkey _ _ k hk
      | some keyCalls =>
          rw [Shape.calls?, hkey, Option.bind_some] at h
          exact ihValue () (Option.map_eq_none_iff.mp h) _ _ v hv
  | void | service | cyclic => cases hw

theorem readValue_ne_ok {shape : Shape n} (h : shape.calls? = none) (next : Nat)
    (r : ReadStmt × Nat) : t.readValue next shape ≠ .ok r := by
  intro hr
  induction shape generalizing next r with
  | bool | byte | i16 | i32 | i64 | double | string | binary | enum | record => cases h
  | list _ element ih | set _ element ih =>
      obtain ⟨item, hitem, _⟩ := except_bind_eq_ok.mp hr
      exact ih () (Option.map_eq_none_iff.mp h) _ item hitem
  | map _ key _ value ihKey ihValue =>
      obtain ⟨k, hk, hr⟩ := except_bind_eq_ok.mp hr
      obtain ⟨v, hv, _⟩ := except_bind_eq_ok.mp hr
      cases hkey : (key ()).calls? with
      | none => exact ihKey () hkey _ k hk
      | some keyCalls =>
          rw [Shape.calls?, hkey, Option.bind_some] at h
          exact ihValue () (Option.map_eq_none_iff.mp h) _ v hv
  | void | service | cyclic => cases hr

end Target

end WireIdl
