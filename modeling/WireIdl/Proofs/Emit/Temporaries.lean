import WireIdl.Proofs.Emit.Scope
import WireIdl.Proofs.Lists

/-! The temporaries of struct frames. The statements of a frame, written or read, are a program that
numbers its temporaries in the order in which it binds them, over all fields and at every depth, so
no two of them have the same name and none is used where it is not bound. -/

namespace WireIdl

open Code

variable {n : Census}

/-! ### Statements as programs -/

namespace WriteStmt

def rename (f : Temporary → Temporary) : WriteStmt → WriteStmt
  | .scalar op source => .scalar op (f source)
  | .enum source => .enum (f source)
  | .record source => .record (f source)
  | .items kind tag source item body => .items kind tag (f source) (f item) (body.rename f)
  | .entries keyTag valueTag source key value keyBody valueBody =>
      .entries keyTag valueTag (f source) (f key) (f value) (keyBody.rename f) (valueBody.rename f)

def program (rt : String) : WriteStmt → Program
  | .scalar op source =>
      let argument := if op.isCopied then .text "*" ++ .temp source else .temp source
      .line (.text ("protocol.write_" ++ op.name ++ "(") ++ argument ++ .text ")?;") .nil
  | .enum source => .line (.text "protocol.write_i32(" ++ .temp source ++ .text ".value())?;") .nil
  | .record source =>
      .line (.text (rt ++ "::ThriftStruct::write(") ++ .temp source ++ .text ", protocol)?;") .nil
  | .items kind tag source item body =>
      .line (.text ("protocol.write_" ++ kind.name ++ "_begin(" ++ tag ++ ", " ++ rt ++
        "::collection_size(") ++ .temp source ++ .text ".len())?)?;") <|
      .block (.eachItem item (.temp source)) (body.program rt) <|
      .line (.text ("protocol.write_" ++ kind.name ++ "_end()?;")) .nil
  | .entries keyTag valueTag source key value keyBody valueBody =>
      .line (.text ("protocol.write_map_begin(" ++ keyTag ++ ", " ++ valueTag ++ ", " ++ rt ++
        "::collection_size(") ++ .temp source ++ .text ".len())?)?;") <|
      .block (.eachEntry key value (.temp source)) (keyBody.program rt ++ valueBody.program rt) <|
      .line (.text "protocol.write_map_end()?;") .nil

theorem steps_program (rt : String) (w : WriteStmt) : (w.program rt).steps = w.steps rt := by
  induction w with
  | scalar op source => cases op <;> rfl
  | enum source => rfl
  | record source => rfl
  | items kind tag source item body ih =>
      rw [program, steps, ← ih]
      rfl
  | entries keyTag valueTag source key value keyBody valueBody ihKey ihValue =>
      rw [program, steps, ← ihKey, ← ihValue, ← Program.steps_append]
      rfl

theorem program_rename (rt : String) (f : Temporary → Temporary) (w : WriteStmt) :
    (w.rename f).program rt = (w.program rt).rename f := by
  induction w with
  | scalar op source => cases op <;> rfl
  | enum source => rfl
  | record source => rfl
  | items kind tag source item body ih =>
      rw [rename, program, ih]
      rfl
  | entries keyTag valueTag source key value keyBody valueBody ihKey ihValue =>
      rw [rename, program, ihKey, ihValue, ← Program.rename_append]
      rfl

end WriteStmt

namespace FieldWrite

def rename (f : Temporary → Temporary) (w : FieldWrite) : FieldWrite :=
  { w with source := f w.source, value := w.value.rename f }

def innerProgram (rt : String) (w : FieldWrite) : Program :=
  .line (.text ("protocol.write_field_begin(" ++ Text.quote w.name ++ ", " ++ toString w.id ++
    ", " ++ w.tag ++ ")?;")) <|
  w.value.program rt ++ .line (.text "protocol.write_field_end()?;") .nil

def program (rt : String) (w : FieldWrite) : Program :=
  match w.access with
  | .present expr => .bind false w.source (.text expr) (w.innerProgram rt)
  | .maybe expr => .block (.ifSome w.source (.text expr)) (w.innerProgram rt) .nil

theorem steps_innerProgram (rt : String) (w : FieldWrite) :
    (w.innerProgram rt).steps = w.innerSteps rt := by
  rw [innerProgram, Program.steps, Program.steps_append, WriteStmt.steps_program]
  rfl

theorem steps_program (rt : String) (w : FieldWrite) : (w.program rt).steps = w.steps rt := by
  rw [program, steps]
  cases w.access with
  | present expr =>
      dsimp only
      rw [Program.steps, steps_innerProgram]
      rfl
  | maybe expr =>
      dsimp only
      rw [Program.steps, steps_innerProgram]
      rfl

theorem program_rename (rt : String) (f : Temporary → Temporary) (w : FieldWrite) :
    (w.rename f).program rt = (w.program rt).rename f := by
  have hinner : (w.rename f).innerProgram rt = (w.innerProgram rt).rename f := by
    rw [innerProgram, innerProgram, Program.rename, Program.rename_append,
      ← WriteStmt.program_rename]
    rfl
  rw [program, program, hinner]
  change (match w.access with | .present _ => _ | .maybe _ => _) = _
  cases w.access <;> rfl

end FieldWrite

def writeFrameProgram (rt name : String) (fields : List FieldWrite) : Program :=
  .line (.text ("protocol.write_struct_begin(" ++ Text.quote name ++ ")?;")) <|
  .concat (fields.map (·.program rt)) ++
    (.line (.text "protocol.write_field_stop()?;") <|
    .line (.text "protocol.write_struct_end()") .nil)

theorem steps_writeFrameProgram (rt name : String) (fields : List FieldWrite) :
    (writeFrameProgram rt name fields).steps = writeFrameSteps rt name fields := by
  rw [writeFrameProgram, Program.steps, Program.steps_append,
    Program.steps_concat fields (FieldWrite.steps_program rt)]
  rfl

theorem writeFrameProgram_rename (rt name : String) (f : Temporary → Temporary)
    (fields : List FieldWrite) :
    writeFrameProgram rt name (fields.map (·.rename f)) =
      (writeFrameProgram rt name fields).rename f := by
  rw [writeFrameProgram, writeFrameProgram, Program.rename, Program.rename_append,
    Program.rename_concat fields (FieldWrite.program_rename rt f)]
  rfl

namespace ReadStmt

def rename (f : Temporary → Temporary) : ReadStmt → ReadStmt
  | .scalar op value => .scalar op (f value)
  | .enum raw value path enumName => .enum (f raw) (f value) path enumName
  | .record value path => .record (f value) path
  | .items kind header value container add item =>
      .items kind (f header) (f value) container add (item.rename f)
  | .entries header value container key entry =>
      .entries (f header) (f value) container (key.rename f) (entry.rename f)

def program (rt : String) : ReadStmt → Program
  | .scalar op value => .bind false value (.text ("protocol.read_" ++ op.name ++ "()?")) .nil
  | .enum raw value path enumName =>
      .bind false raw (.text "protocol.read_i32()?") <|
      .bind false value (.text (path ++ "::find_by_value(") ++ .temp raw ++ .text (").ok_or(" ++
        rt ++ "::ProtocolError::UnknownEnumValue \x7b enum_name: " ++ Text.quote enumName ++
        ", value: ") ++ .temp raw ++ .text " \x7d)?") .nil
  | .record value path =>
      .bind false value (.text ("<" ++ path ++ " as " ++ rt ++ "::ThriftStruct>::read(protocol)?"))
        .nil
  | .items kind header value container add item =>
      .bind false header (.text ("protocol.read_" ++ kind.name ++ "_begin()?")) <|
      .bind true value (.text (container ++ "::new()")) <|
      .block (.plain (.text "for _ in 0.." ++ .temp header ++ .text ".size"))
        (item.program rt ++ .line (.temp value ++ .text ("." ++ add ++ "(") ++ .temp item.result ++
          .text ");") .nil) <|
      .line (.text ("protocol.read_" ++ kind.name ++ "_end()?;")) .nil
  | .entries header value container key entry =>
      .bind false header (.text "protocol.read_map_begin()?") <|
      .bind true value (.text (container ++ "::new()")) <|
      .block (.plain (.text "for _ in 0.." ++ .temp header ++ .text ".size"))
        (key.program rt ++ entry.program rt ++ .line (.temp value ++ .text ".insert(" ++
          .temp key.result ++ .text ", " ++ .temp entry.result ++ .text ");") .nil) <|
      .line (.text "protocol.read_map_end()?;") .nil

theorem steps_program (rt : String) (r : ReadStmt) : (r.program rt).steps = r.steps rt := by
  -- The sign of a binding is a part of its own in a program, and not in a statement.
  have hread : " = protocol.read_" = " = " ++ "protocol.read_" := by decide
  have hend : "()?;" = "()?" ++ ";" := by decide
  induction r with
  | scalar op value =>
      rw [program, steps, hread, hend]
      simp only [Program.steps, Expr.written, String.append_assoc]
      rfl
  | enum raw value path enumName =>
      have hraw : " = protocol.read_i32()?;" = " = " ++ "protocol.read_i32()?" ++ ";" := by decide
      have hvalue : " \x7d)?;" = " \x7d)?" ++ ";" := by decide
      rw [program, steps, hraw, hvalue]
      simp only [Program.steps, Expr.written, Expr.written_append, String.append_assoc]
      rfl
  | record value path =>
      have hpath : " = <" = " = " ++ "<" := by decide
      have hprotocol : "::ThriftStruct>::read(protocol)?;" =
          "::ThriftStruct>::read(protocol)?" ++ ";" := by decide
      rw [program, steps, hpath, hprotocol]
      simp only [Program.steps, Expr.written, String.append_assoc]
      rfl
  | items kind header value container add item ih =>
      have hbegin : "_begin()?;" = "_begin()?" ++ ";" := by decide
      have hnew : "::new();" = "::new()" ++ ";" := by decide
      rw [program, steps, ← ih, hread, hbegin, hnew]
      simp only [Program.steps, Program.steps_append, Head.written_plain, Expr.written,
        Expr.written_append, String.append_assoc]
      rfl
  | entries header value container key entry ihKey ihEntry =>
      have hbegin : " = protocol.read_map_begin()?;" =
          " = " ++ "protocol.read_map_begin()?" ++ ";" := by decide
      have hnew : "::new();" = "::new()" ++ ";" := by decide
      rw [program, steps, ← ihKey, ← ihEntry, hbegin, hnew]
      simp only [Program.steps, Program.steps_append, Head.written_plain, Expr.written,
        Expr.written_append, String.append_assoc]
      rfl

theorem result_rename (f : Temporary → Temporary) (r : ReadStmt) :
    (r.rename f).result = f r.result := by
  cases r <;> rfl

theorem program_rename (rt : String) (f : Temporary → Temporary) (r : ReadStmt) :
    (r.rename f).program rt = (r.program rt).rename f := by
  induction r with
  | scalar op value => rfl
  | enum raw value path enumName => rfl
  | record value path => rfl
  | items kind header value container add item ih =>
      rw [rename, program, ih, result_rename]
      simp only [program, Program.rename, Program.rename_append]
      rfl
  | entries header value container key entry ihKey ihEntry =>
      rw [rename, program, ihKey, ihEntry, result_rename, result_rename]
      simp only [program, Program.rename, Program.rename_append]
      rfl

theorem result_mem_opened (rt : String) (r : ReadStmt) :
    r.result.text ∈ (r.program rt).opened := by
  cases r <;> simp [program, Program.opened, result]

end ReadStmt

/-- What is done with a value, as an expression in which it is used. -/
def Destination.expr (d : Destination) (value : Temporary) : Expr :=
  match d with
  | .builder setter => .text ("builder = builder." ++ setter ++ "(") ++ .temp value ++ .text ");"
  | .slot name => .text (name ++ " = Some(") ++ .temp value ++ .text ");"

theorem Destination.written_expr (d : Destination) (value : Temporary) :
    (d.expr value).written = d.line value := by
  cases d <;> rfl

theorem Destination.uses_expr (d : Destination) (value : Temporary) :
    (d.expr value).uses = [value] := by
  cases d <;> rfl

theorem Destination.rename_expr (d : Destination) (f : Temporary → Temporary) (value : Temporary) :
    (d.expr value).rename f = d.expr (f value) := by
  cases d <;> rfl

namespace FieldRead

def rename (f : Temporary → Temporary) (r : FieldRead) : FieldRead :=
  { r with value := r.value.rename f }

def program (rt : String) (checks : Bool) (r : FieldRead) : Program :=
  .block (.plain (.text (toString r.id ++ " =>")))
    (.branch (.text ("if field.type_id == " ++ r.tag))
      (r.value.program rt ++ .line (r.destination.expr r.value.result) .nil)
      (.line (.text (r.mismatchLine rt checks)) .nil) .nil) .nil

theorem steps_program (rt : String) (checks : Bool) (r : FieldRead) :
    (r.program rt checks).steps = r.steps rt checks := by
  rw [program, steps, ← ReadStmt.steps_program, ← Destination.written_expr]
  simp only [Program.steps, Program.steps_append]
  rfl

theorem program_rename (rt : String) (checks : Bool) (f : Temporary → Temporary) (r : FieldRead) :
    (r.rename f).program rt checks = (r.program rt checks).rename f := by
  rw [program, program, rename, ReadStmt.program_rename, ReadStmt.result_rename,
    ← Destination.rename_expr]
  simp only [Program.rename, Program.rename_append]
  rfl

end FieldRead

def readFrameProgram (rt : String) (checks : Bool) (fields : List FieldRead) : Program :=
  .line (.text "protocol.read_struct_begin()?;") <|
  .block (.plain (.text "loop"))
    (.line (.text "let field = protocol.read_field_begin()?;") <|
      .block (.plain (.text ("if field.type_id == " ++ rt ++ "::ttype::STOP")))
        (.line (.text "break;") .nil) <|
      .block (.plain (.text "match field.field_id"))
        (.concat (fields.map (·.program rt checks)) ++
          .line (.text ("_ => " ++ rt ++ "::skip(protocol, field.type_id)?,")) .nil) <|
      .line (.text "protocol.read_field_end()?;") .nil) <|
  .line (.text "protocol.read_struct_end()?;") .nil

theorem steps_readFrameProgram (rt : String) (checks : Bool) (fields : List FieldRead) :
    (readFrameProgram rt checks fields).steps = readFrameSteps rt checks fields := by
  rw [readFrameSteps, ← Program.steps_concat fields (FieldRead.steps_program rt checks)]
  simp only [readFrameProgram, Program.steps, Program.steps_append]
  rfl

theorem readFrameProgram_rename (rt : String) (checks : Bool) (f : Temporary → Temporary)
    (fields : List FieldRead) :
    readFrameProgram rt checks (fields.map (·.rename f)) =
      (readFrameProgram rt checks fields).rename f := by
  rw [readFrameProgram, ← Program.rename_concat fields (FieldRead.program_rename rt checks f)]
  simp only [readFrameProgram, Program.rename, Program.rename_append]
  rfl

/-! ### Frames number their temporaries -/

def writeStems : List String := ["value", "item", "key"]

def readStems : List String := ["value", "raw", "list", "set", "map"]

/-- A line that uses one temporary. -/
theorem allots_single {stems scope : List String} {next : Nat} {e : Expr} {x : Temporary}
    (huses : e.uses = [x]) (hx : x.text ∈ scope) :
    (Program.line e .nil).Allots stems next next scope := by
  refine .line ?_ (.nil stems next scope)
  rw [huses, List.forall_mem_singleton]
  exact hx

/-- A line without temporaries. -/
theorem allots_text {stems scope : List String} {next : Nat} (s : String) :
    (Program.line (.text s) .nil).Allots stems next next scope :=
  .line (by simp [Expr.uses]) (.nil stems next scope)

theorem FieldWrite.allots {rt : String} {scope : List String} {next after : Nat} {w : FieldWrite}
    (hsource : w.source = ⟨"value", next⟩)
    (hvalue : ∀ scope, w.source.text ∈ scope →
      (w.value.program rt).Allots writeStems (next + 1) after scope) :
    (w.program rt).Allots writeStems next after scope := by
  have hinner : ∀ scope, w.source.text ∈ scope →
      (w.innerProgram rt).Allots writeStems (next + 1) after scope := fun scope hscope =>
    .line (by simp [Expr.uses]) (.append (hvalue scope hscope) (allots_text _))
  rw [hsource] at hinner
  rw [program, hsource]
  cases w.access with
  | present expr => exact .bind (by decide) (by simp [Expr.uses]) (hinner _ List.mem_cons_self)
  | maybe expr =>
      refine .block (by simp [Head.uses, Expr.uses]) ?_ (hinner _ List.mem_cons_self) (.nil _ _ _)
      exact .cons (by decide) (.nil writeStems _)

theorem FieldRead.allots {rt : String} {checks : Bool} {scope : List String} {next after : Nat}
    {r : FieldRead} (hvalue : (r.value.program rt).Allots readStems next after scope) :
    (r.program rt checks).Allots readStems next after scope := by
  have hresult : r.value.result.text ∈ (r.value.program rt).opened ++ scope :=
    List.mem_append_left _ (r.value.result_mem_opened rt)
  have hmatches := hvalue.append (allots_single (r.destination.uses_expr _) hresult)
  exact .block (by simp [Head.uses, Expr.uses]) (.nil readStems next)
    (.branch (by simp [Expr.uses]) hmatches (allots_text _) (.nil _ _ _)) (.nil _ _ _)

namespace Target

variable {t : Target n} {rt : String} {scope : List String} {next after : Nat}

/-- Whatever else is in scope, a value takes the numbers that the counter leaves behind. -/
theorem allots_writeValue {shape : Shape n} {source : Temporary} {w : WriteStmt}
    (h : t.writeValue source next shape = .ok (w, after)) (hsource : source.text ∈ scope) :
    (w.program rt).Allots writeStems next after scope := by
  induction shape generalizing source next w after scope with
  | bool | byte | i16 | i32 | i64 | double | string | binary | enum | record =>
      cases h
      exact allots_single rfl hsource
  | list _ element ih | set _ element ih =>
      obtain ⟨tag, _, h⟩ := except_bind_eq_ok.mp h
      obtain ⟨⟨body, _⟩, hbody, h⟩ := except_bind_eq_ok.mp h
      cases h
      refine .line (List.forall_mem_singleton.mpr hsource) (.block ?_ ?_
        (ih () hbody List.mem_cons_self) (allots_text _))
      · exact List.forall_mem_singleton.mpr hsource
      · exact .cons (by decide) (.nil writeStems _)
  | map _ key _ value ihKey ihValue =>
      rw [writeValue] at h
      obtain ⟨keyTag, _, h⟩ := except_bind_eq_ok.mp h
      obtain ⟨valueTag, _, h⟩ := except_bind_eq_ok.mp h
      obtain ⟨⟨keyBody, _⟩, hkey, h⟩ := except_bind_eq_ok.mp h
      obtain ⟨⟨valueBody, _⟩, hvalue, h⟩ := except_bind_eq_ok.mp h
      cases h
      refine .line (List.forall_mem_singleton.mpr hsource) (.block ?_ ?_
        (.append (ihKey () hkey List.mem_cons_self) (ihValue () hvalue ?_)) (allots_text _))
      · exact List.forall_mem_singleton.mpr hsource
      · exact .cons (by decide) (.cons (by decide) (.nil writeStems _))
      · -- The value was bound with the key, before all that the key's statements open.
        exact List.mem_append_right _ (List.mem_cons_of_mem _ List.mem_cons_self)
  | void | service | cyclic => cases h

theorem allots_writeFields {fields : List (Field n × Access)} {writes : List FieldWrite}
    (h : t.writeFields next fields = .ok writes) :
    ∃ after, ∀ scope, (Program.concat (writes.map (·.program rt))).Allots writeStems next after
      scope := by
  induction fields generalizing next writes with
  | nil =>
      cases h
      exact ⟨next, fun scope => .nil writeStems next scope⟩
  | cons first fields ih =>
      obtain ⟨tag, _, h⟩ := except_bind_eq_ok.mp h
      obtain ⟨⟨value, _⟩, hvalue, h⟩ := except_bind_eq_ok.mp h
      obtain ⟨rest, hrest, h⟩ := except_bind_eq_ok.mp h
      cases h
      obtain ⟨after, hafter⟩ := ih hrest
      refine ⟨after, fun scope => .append (FieldWrite.allots rfl fun scope hscope => ?_) (hafter _)⟩
      exact allots_writeValue hvalue hscope

theorem allots_readValue {shape : Shape n} {r : ReadStmt}
    (h : t.readValue next shape = .ok (r, after)) :
    (r.program rt).Allots readStems next after scope := by
  induction shape generalizing next r after scope with
  | bool | byte | i16 | i32 | i64 | double | string | binary | record =>
      cases h
      exact .bind (by decide) (by simp [Expr.uses]) (.nil _ _ _)
  | enum =>
      cases h
      refine .bind (by decide) (by simp [Expr.uses]) (.bind (by decide) ?_ (.nil _ _ _))
      simp [Expr.uses]
  | list _ element ih | set _ element ih =>
      obtain ⟨⟨item, _⟩, hitem, h⟩ := except_bind_eq_ok.mp h
      cases h
      refine .bind (by decide) (by simp [Expr.uses]) (.bind (by decide) (by simp [Expr.uses])
        (.block ?_ (.nil readStems _) (.append (ih () hitem) (.line ?_ (.nil _ _ _)))
          (allots_text _)))
      · simp [Head.uses, Expr.uses]
      · -- The container is open around the loop, and the item's statements open their result.
        simp [Expr.uses, Head.bound, item.result_mem_opened]
  | map _ key _ value ihKey ihValue =>
      rw [readValue] at h
      obtain ⟨⟨k, _⟩, hkey, h⟩ := except_bind_eq_ok.mp h
      obtain ⟨⟨v, _⟩, hvalue, h⟩ := except_bind_eq_ok.mp h
      cases h
      refine .bind (by decide) (by simp [Expr.uses]) (.bind (by decide) (by simp [Expr.uses])
        (.block ?_ (.nil readStems _) (.append (.append (ihKey () hkey) (ihValue () hvalue))
          (.line ?_ (.nil _ _ _))) (allots_text _)))
      · simp [Head.uses, Expr.uses]
      · simp [Expr.uses, Head.bound, k.result_mem_opened, v.result_mem_opened]
  | void | service | cyclic => cases h

theorem allots_readFields {readings : List (Reading n)} {reads : List FieldRead} {checks : Bool}
    (h : t.readFields next readings = .ok reads) :
    ∃ after, ∀ scope, (Program.concat (reads.map (·.program rt checks))).Allots readStems next after
      scope := by
  induction readings generalizing next reads with
  | nil =>
      cases h
      exact ⟨next, fun scope => .nil readStems next scope⟩
  | cons reading readings ih =>
      obtain ⟨tag, _, h⟩ := except_bind_eq_ok.mp h
      obtain ⟨⟨value, _⟩, hvalue, h⟩ := except_bind_eq_ok.mp h
      obtain ⟨rest, hrest, h⟩ := except_bind_eq_ok.mp h
      cases h
      obtain ⟨after, hafter⟩ := ih hrest
      exact ⟨after, fun scope => .append (FieldRead.allots (allots_readValue hvalue)) (hafter _)⟩

theorem allots_writeFrame (rt name : String) {fields : List (Field n × Access)}
    {writes : List FieldWrite} (h : t.writeFields 0 fields = .ok writes) :
    ∃ after, (writeFrameProgram rt name writes).Allots writeStems 0 after [] := by
  obtain ⟨after, hfields⟩ := allots_writeFields h
  refine ⟨after, .line (by simp [Expr.uses]) (.append (hfields []) ?_)⟩
  exact .line (by simp [Expr.uses]) (allots_text _)

theorem allots_readFrame (rt : String) (checks : Bool) {readings : List (Reading n)}
    {reads : List FieldRead} (h : t.readFields 0 readings = .ok reads) :
    ∃ after, (readFrameProgram rt checks reads).Allots readStems 0 after [] := by
  obtain ⟨after, hfields⟩ := allots_readFields h
  have hstop : (Program.line (.text "break;") .nil).Allots readStems 0 0 [] := allots_text _
  have hmatch : (Program.concat (reads.map (·.program rt checks)) ++
      .line (.text ("_ => " ++ rt ++ "::skip(protocol, field.type_id)?,")) .nil).Allots
        readStems 0 after [] := .append (hfields []) (allots_text _)
  refine ⟨after, .line (by simp [Expr.uses]) (.block (by simp [Head.uses, Expr.uses])
    (.nil readStems 0) (.line (by simp [Expr.uses]) ?_) (allots_text _))⟩
  refine .block (by simp [Head.uses, Expr.uses]) (.nil readStems 0) hstop ?_
  exact .block (by simp [Head.uses, Expr.uses]) (.nil readStems 0) hmatch (allots_text _)

/-- Temporaries never collide. A frame that can be written, and one that can be read, is the text of
its program, which marks all temporaries of the text: to rename them in the statements is to rename
them in the program. All temporaries that are bound, in any field and at any depth, have different
names, which are not those of the code around, and each use follows a binding of its name in the
same block or in one around it. -/
theorem temporaries_kept_apart (t : Target n) :
    let rt := t.config.runtimePath
    let checks := t.config.fieldTypeChecks
    (∀ name fields steps, t.writeFrame name fields = .ok steps →
      ∃ writes, t.writeFields 0 fields = .ok writes ∧
        (writeFrameProgram rt name writes).steps = steps ∧
        (∀ f, ((writeFrameProgram rt name writes).rename f).steps =
          writeFrameSteps rt name (writes.map (·.rename f))) ∧
        (writeFrameProgram rt name writes).KeepsApart writeStems) ∧
    ∀ readings steps, t.readFrame readings = .ok steps →
      ∃ reads, t.readFields 0 readings = .ok reads ∧
        (readFrameProgram rt checks reads).steps = steps ∧
        (∀ f, ((readFrameProgram rt checks reads).rename f).steps =
          readFrameSteps rt checks (reads.map (·.rename f))) ∧
        (readFrameProgram rt checks reads).KeepsApart readStems := by
  intro rt checks
  constructor
  · intro name fields steps h
    obtain ⟨writes, hwrites, hsteps⟩ := except_bind_eq_ok.mp h
    cases hsteps
    obtain ⟨after, hframe⟩ := allots_writeFrame rt name hwrites
    refine ⟨writes, hwrites, steps_writeFrameProgram rt name writes, fun f => ?_,
      hframe.keepsApart (by decide) (by decide)⟩
    rw [← writeFrameProgram_rename, steps_writeFrameProgram]
  · intro readings steps h
    obtain ⟨reads, hreads, hsteps⟩ := except_bind_eq_ok.mp h
    cases hsteps
    obtain ⟨after, hframe⟩ := allots_readFrame rt checks hreads
    refine ⟨reads, hreads, steps_readFrameProgram rt checks reads, fun f => ?_,
      hframe.keepsApart (by decide) (by decide)⟩
    rw [← readFrameProgram_rename, steps_readFrameProgram]

abbrev orchardCensus : Census where
  records := 0
  enums := 1
  typedefs := 0
  services := 0

abbrev ripenessId : Fin orchardCensus.enums := ⟨0, by decide⟩

def orchard : Target orchardCensus where
  schema := {
    records := .ofFn Fin.elim0
    enums := #v[{ name := "Ripeness", members := [{ name := "RIPE", value := 1 }] }]
    typedefs := .ofFn Fin.elim0
    services := .ofFn Fin.elim0 }
  config := {}

/-- Containers in containers, and a field after them. -/
def harvests : List (Field orchardCensus) := [
  { id := 1, name := "yields", ty := .map .string (.set (.enum ripenessId)) },
  { id := 2, name := "plots", ty := .list .i64 }]

def harvestAccesses : List (Field orchardCensus × Access) :=
  harvests.map fun field => (field, .maybe ("self." ++ field.name ++ ".as_ref()"))

def harvestReadings : List (Reading orchardCensus) :=
  harvests.map fun field => ⟨field.id, field.ty, .builder field.name⟩

theorem orchard_temporaries :
    let rt := orchard.config.runtimePath
    let checks := orchard.config.fieldTypeChecks
    ∃ writes reads, orchard.writeFields 0 harvestAccesses = .ok writes ∧
      orchard.readFields 0 harvestReadings = .ok reads ∧
      (writeFrameProgram rt "Harvest" writes).KeepsApart writeStems ∧
      (readFrameProgram rt checks reads).KeepsApart readStems ∧
      (writeFrameProgram rt "Harvest" writes).bound.map Temporary.text =
        ["value0", "key1", "value2", "item3", "value4", "item5"] ∧
      (readFrameProgram rt checks reads).bound.map Temporary.text =
        ["map0", "value1", "value2", "set3", "value4", "raw5", "value6", "list7", "value8",
          "value9"] := by
  obtain ⟨hwrite, hread⟩ := temporaries_kept_apart orchard
  obtain ⟨writes, hwrites, -, -, hwritten⟩ := hwrite "Harvest" harvestAccesses _ rfl
  obtain ⟨reads, hreads, -, -, hapart⟩ := hread harvestReadings _ rfl
  refine ⟨writes, reads, hwrites, hreads, hwritten, hapart, ?_, ?_⟩
  · cases hwrites
    decide
  · cases hreads
    decide

end Target

end WireIdl
