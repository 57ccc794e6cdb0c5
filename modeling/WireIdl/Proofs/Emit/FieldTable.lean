import WireIdl.Proofs.Emit.Mirror

/-! The fields of emitted code, read off its text: those that a struct frame is written with, and
those that a struct frame is read for. -/

namespace WireIdl

open Code Text

namespace Text

/-- What precedes an ending. -/
def before? (ending text : List Char) : Option (List Char) :=
  (after? ending.reverse text.reverse).map List.reverse

theorem before?_append (text ending : List Char) : before? ending (text ++ ending) = some text := by
  rw [before?, List.reverse_append, after?_append, Option.map_some, List.reverse_reverse]

/-- What follows the last of some character. -/
def lastPart (stop : Char) (text : List Char) : List Char :=
  (text.reverse.takeWhile (· != stop)).reverse

theorem lastPart_append {stop : Char} {part : List Char} (h : stop ∉ part) (text : List Char) :
    lastPart stop (text ++ stop :: part) = part := by
  rw [lastPart, List.reverse_append, List.reverse_cons, List.append_assoc, List.singleton_append,
    takeWhile_append_cons, List.reverse_reverse]
  · intro d hd
    exact bne_iff_ne.mpr fun heq => h (heq ▸ List.mem_reverse.mp hd)
  · exact bne_self_eq_false stop

theorem space_not_mem_toString (id : Int16) : ' ' ∉ (toString id).toList := by
  intro hmem
  change ' ' ∈ id.toInt.repr.toList at hmem
  cases hid : id.toInt with
  | ofNat k =>
      rw [hid] at hmem
      cases isDigit_of_mem_toString hmem
  | negSucc k =>
      rw [hid, Int.repr, String.toList_append, List.mem_append] at hmem
      obtain hmem | hmem := hmem
      · revert hmem
        decide
      · cases isDigit_of_mem_toString hmem

end Text

namespace Code

open Text

/-- A field as emitted code names it: its id, and the constant of its tag. -/
structure FieldKey where
  id : List Char
  constant : List Char

def FieldKey.tagStart (rt : String) : List Char :=
  (rt ++ "::ttype::").toList

/-- The field that a line begins to write. -/
def writtenKey? (rt line : String) : Option FieldKey :=
  if "protocol.write_field_begin(".toList.isPrefixOf line.toList && !callsCodec line.toList then do
    let text ← before? ")?;".toList line.toList
    let constant := lastPart ':' text
    let text ← before? (", ".toList ++ (FieldKey.tagStart rt ++ constant)) text
    some ⟨lastPart ' ' text, constant⟩
  else none

def writtenKeys (rt : String) : List Step → List FieldKey :=
  gatherAll (fun line => (writtenKey? rt line).toList) fun _ _ keys => keys

/-- The field that an arm is for; before it reads the value, it checks the tag. -/
def readKey? (rt header : String) : List Step → Option FieldKey
  | .blockWith check _ _ :: _ => do
      let id ← before? " =>".toList header.toList
      let constant ← after? ("if field.type_id == ".toList ++ FieldKey.tagStart rt) check.toList
      some ⟨id, constant⟩
  | _ => none

def readKeys (rt : String) : List Step → List FieldKey :=
  gatherAll (fun _ => []) fun header body keys =>
    match readKey? rt header body with
    | some key => [key]
    | none => keys

theorem writtenKeys_append (rt : String) (steps more : List Step) :
    writtenKeys rt (steps ++ more) = writtenKeys rt steps ++ writtenKeys rt more :=
  gatherAll_append _ _ steps more

theorem readKeys_append (rt : String) (steps more : List Step) :
    readKeys rt (steps ++ more) = readKeys rt steps ++ readKeys rt more :=
  gatherAll_append _ _ steps more

theorem writtenKey?_eq_none (rt : String) {line : String}
    (h : "protocol.write_field_begin(".toList.isPrefixOf line.toList = false) :
    writtenKey? rt line = none := by
  rw [writtenKey?, h]
  exact if_neg Bool.false_ne_true

theorem writtenKey?_codec (rt : String) {line : String}
    (h : "protocol)?;".toList <:+ line.toList) : writtenKey? rt line = none := by
  have hcodec : callsCodec line.toList = true := List.isSuffixOf_iff_suffix.mpr h
  rw [writtenKey?, hcodec, Bool.not_true, Bool.and_false]
  exact if_neg Bool.false_ne_true

theorem writtenKey?_eq_some {rt line : String} {id constant : List Char} (start : List Char)
    (hline : line.toList = start ++ ' ' :: id ++
      (", ".toList ++ (FieldKey.tagStart rt ++ constant)) ++ ")?;".toList)
    (hstart : "protocol.write_field_begin(".toList <+: line.toList)
    (hcodec : callsCodec line.toList = false) (hid : ' ' ∉ id) (hconstant : ':' ∉ constant) :
    writtenKey? rt line = some ⟨id, constant⟩ := by
  have htag : FieldKey.tagStart rt ++ constant = (rt ++ "::ttype:").toList ++ ':' :: constant := by
    simp [FieldKey.tagStart]
  have hlast : lastPart ':' (start ++ ' ' :: id ++
      (", ".toList ++ (FieldKey.tagStart rt ++ constant))) = constant := by
    rw [htag, ← List.append_assoc, ← List.append_assoc, lastPart_append hconstant]
  rw [writtenKey?, hcodec, List.isPrefixOf_iff_prefix.mpr hstart, hline, before?_append]
  simp only [Bool.not_false, Bool.and_true, if_true, Option.bind_eq_bind, Option.bind_some, hlast,
    before?_append, lastPart_append hid]

theorem colon_not_mem_constantName (w : WireType) : ':' ∉ w.constantName.toList := by
  cases w <;> decide

theorem endsIn_constantName (w : WireType) : ∃ c, c ≠ 'l' ∧ EndsIn c w.constantName := by
  have hlast : w.constantName.toList.getLast?.any (· != 'l') = true := by
    cases w <;> decide
  obtain ⟨c, hend, hne⟩ := (Option.any_eq_true _ _).mp hlast
  obtain ⟨init, hinit⟩ := List.getLast?_eq_some_iff.mp hend
  exact ⟨c, by simpa using hne, init, hinit.symm⟩

section Steps

variable {rt line header : String} {body steps : List Step} {keys more : List FieldKey}

theorem writtenKeys_line (h : writtenKey? rt line = none) (hsteps : writtenKeys rt steps = keys) :
    writtenKeys rt (.line line :: steps) = keys := by
  rw [writtenKeys, gatherAll, Step.gather, h, ← hsteps]
  exact List.nil_append _

theorem writtenKeys_key {key : FieldKey} (h : writtenKey? rt line = some key)
    (hsteps : writtenKeys rt steps = keys) :
    writtenKeys rt (.line line :: steps) = key :: keys := by
  rw [writtenKeys, gatherAll, Step.gather, h, ← hsteps]
  exact List.singleton_append

theorem writtenKeys_block (hbody : writtenKeys rt body = keys)
    (hsteps : writtenKeys rt steps = more) :
    writtenKeys rt (.block header body :: steps) = keys ++ more := by
  rw [← hbody, ← hsteps]
  rfl

theorem readKeys_arm {key : FieldKey} (h : readKey? rt header body = some key)
    (hsteps : readKeys rt steps = keys) :
    readKeys rt (.block header body :: steps) = key :: keys := by
  rw [readKeys, gatherAll, Step.gather, h, ← hsteps]
  exact List.singleton_append

theorem readKeys_block (h : readKey? rt header body = none) (hbody : readKeys rt body = keys)
    (hsteps : readKeys rt steps = more) :
    readKeys rt (.block header body :: steps) = keys ++ more := by
  rw [readKeys, gatherAll, Step.gather, h, ← hbody, ← hsteps]
  rfl

end Steps

end Code

namespace WriteStmt

/-- The value of a field begins no other field. -/
theorem writtenKeys_steps (rt : String) (w : WriteStmt) : writtenKeys rt (w.steps rt) = [] := by
  induction w with
  | scalar op x =>
      refine writtenKeys_line (writtenKey?_eq_none rt ?_) rfl
      cases op <;> simp [ScalarOp.name, List.isPrefixOf]
  | enum x =>
      refine writtenKeys_line (writtenKey?_eq_none rt ?_) rfl
      simp [List.isPrefixOf]
  | record x =>
      refine writtenKeys_line (writtenKey?_codec rt (suffix_append _ ?_)) rfl
      decide
  | items kind tag x item body ih =>
      refine writtenKeys_line (writtenKey?_eq_none rt ?_) (writtenKeys_block ih
        (writtenKeys_line (writtenKey?_eq_none rt ?_) rfl))
      · cases kind <;> simp [ItemsKind.name, List.isPrefixOf]
      · cases kind <;> simp [ItemsKind.name, List.isPrefixOf]
  | entries keyTag valueTag x k v key value ihKey ihValue =>
      have hbody : writtenKeys rt (key.steps rt ++ value.steps rt) = [] := by
        rw [writtenKeys_append, ihKey, ihValue]
        exact List.nil_append _
      refine writtenKeys_line (writtenKey?_eq_none rt ?_) (writtenKeys_block hbody
        (writtenKeys_line (writtenKey?_eq_none rt ?_) rfl))
      · simp [List.isPrefixOf]
      · simp [List.isPrefixOf]

end WriteStmt

/-- The path of the constant for the tag of a wire type. -/
def WireType.tagPath (rt : String) (w : WireType) : String :=
  rt ++ "::" ++ ("ttype::" ++ w.constantName)

def fieldKey (id : Int16) (w : WireType) : FieldKey :=
  ⟨(toString id).toList, w.constantName.toList⟩

namespace FieldWrite

theorem writtenKeys_innerSteps {rt : String} {f : FieldWrite} {w : WireType}
    (htag : f.tag = w.tagPath rt) : writtenKeys rt (f.innerSteps rt) = [fieldKey f.id w] := by
  obtain ⟨c, hc, hend⟩ := endsIn_constantName w
  have hcodec : callsCodec ("protocol.write_field_begin(" ++ quote f.name ++ ", " ++
      toString f.id ++ ", " ++ f.tag ++ ")?;").toList = false := by
    rw [htag]
    exact callsCodec_eq_false hc (EndsIn.suffix
      (suffix_append _ (suffix_append _ (suffix_append _ hend))) ")?;")
  have hkey : writtenKey? rt ("protocol.write_field_begin(" ++ quote f.name ++ ", " ++
      toString f.id ++ ", " ++ f.tag ++ ")?;") = some (fieldKey f.id w) := by
    refine writtenKey?_eq_some ("protocol.write_field_begin(" ++ quote f.name ++ ",").toList ?_ ?_
      hcodec (space_not_mem_toString f.id) (colon_not_mem_constantName w)
    · rw [htag]
      simp [FieldKey.tagStart, WireType.tagPath]
    · simp
  have hrest : writtenKeys rt
      (f.value.steps rt ++ [.line "protocol.write_field_end()?;"]) = [] := by
    rw [writtenKeys_append, f.value.writtenKeys_steps rt]
    exact writtenKeys_line (writtenKey?_eq_none rt rfl) rfl
  exact writtenKeys_key hkey hrest

theorem writtenKeys_steps {rt : String} {f : FieldWrite} {w : WireType}
    (htag : f.tag = w.tagPath rt) : writtenKeys rt (f.steps rt) = [fieldKey f.id w] := by
  have hinner := writtenKeys_innerSteps htag
  cases haccess : f.access with
  | present expr =>
      rw [steps, haccess]
      refine writtenKeys_line (writtenKey?_eq_none rt ?_) hinner
      simp [List.isPrefixOf]
  | maybe expr =>
      rw [steps, haccess]
      exact writtenKeys_block hinner rfl

end FieldWrite

theorem readKey?_eq_some {rt : String} (id : Int16) (w : WireType) (suffix : String)
    (body rest : List Step) :
    readKey? rt (toString id ++ " =>")
      (.blockWith ("if field.type_id == " ++ w.tagPath rt) suffix body :: rest) =
        some (fieldKey id w) := by
  have hcheck : ("if field.type_id == " ++ w.tagPath rt).toList =
      "if field.type_id == ".toList ++ FieldKey.tagStart rt ++ w.constantName.toList := by
    simp [FieldKey.tagStart, WireType.tagPath]
  rw [readKey?, String.toList_append, before?_append, hcheck, after?_append]
  exact Option.bind_some ..

theorem FieldRead.readKeys_steps {rt : String} (checks : Bool) {f : FieldRead} {w : WireType}
    (htag : f.tag = w.tagPath rt) : readKeys rt (f.steps rt checks) = [fieldKey f.id w] := by
  rw [steps, htag]
  exact readKeys_arm (readKey?_eq_some f.id w _ _ _) rfl

section Frames

variable {rt : String} {keys : List FieldKey}

theorem writtenKeys_writeFrameSteps {fields : List FieldWrite} (name : String)
    (h : List.Forall₂ (fun f key => writtenKeys rt (f.steps rt) = [key]) fields keys) :
    writtenKeys rt (writeFrameSteps rt name fields) = keys := by
  have hfields : writtenKeys rt (fields.flatMap (·.steps rt)) = keys := gatherAll_flatMap h
  have hend : writtenKeys rt
      [.line "protocol.write_field_stop()?;", .line "protocol.write_struct_end()"] = [] :=
    writtenKeys_line (writtenKey?_eq_none rt rfl)
      (writtenKeys_line (writtenKey?_eq_none rt rfl) rfl)
  refine writtenKeys_line (writtenKey?_eq_none rt ?_) ?_
  · simp [List.isPrefixOf]
  · rw [List.append_eq, writtenKeys_append, hfields, hend, List.append_nil]

theorem readKeys_readFrameSteps {fields : List FieldRead} (checks : Bool)
    (h : List.Forall₂ (fun f key => readKeys rt (f.steps rt checks) = [key]) fields keys) :
    readKeys rt (readFrameSteps rt checks fields) = keys := by
  have harms : readKeys rt (fields.flatMap (·.steps rt checks) ++
      [.line ("_ => " ++ rt ++ "::skip(protocol, field.type_id)?,")]) = keys := by
    have hfields : readKeys rt (fields.flatMap (·.steps rt checks)) = keys := gatherAll_flatMap h
    rw [readKeys_append, hfields]
    exact List.append_nil keys
  -- Nothing but an arm starts with the check of a tag.
  have hmatch : readKey? rt "match field.field_id" (fields.flatMap (·.steps rt checks) ++
      [.line ("_ => " ++ rt ++ "::skip(protocol, field.type_id)?,")]) = none := by
    cases fields <;> rfl
  have hloop : readKeys rt [.line "let field = protocol.read_field_begin()?;",
      .block ("if field.type_id == " ++ rt ++ "::ttype::STOP") [.line "break;"],
      .block "match field.field_id" (fields.flatMap (·.steps rt checks) ++
        [.line ("_ => " ++ rt ++ "::skip(protocol, field.type_id)?,")]),
      .line "protocol.read_field_end()?;"] = keys :=
    (readKeys_block hmatch harms rfl).trans (List.append_nil keys)
  exact (readKeys_block rfl hloop rfl).trans (List.append_nil keys)

end Frames

variable {n : Census}

/-- A field, with where it is written from and where it is read to. -/
structure Carried (n : Census) where
  field : Field n
  access : Access
  destination : Destination

namespace Carried

def writing (c : Carried n) : Field n × Access :=
  (c.field, c.access)

def reading (c : Carried n) : Target.Reading n where
  id := c.field.id
  ty := c.field.ty
  destination := c.destination

end Carried

namespace Target

variable {t : Target n} {fields : List (Carried n)} {keys : List FieldKey}

/-- The id and the tag of a field, as they go over the wire. -/
def fieldKey? (t : Target n) (field : Field n) : Option FieldKey :=
  (t.shape field.ty).wireType?.map fun w => fieldKey field.id w.onWire

theorem tag_of_fieldKey? {field : Field n} {key : FieldKey} {tag : String}
    (hkey : t.fieldKey? field = some key) (htag : t.tagPath (t.shape field.ty) = .ok tag) :
    ∃ w : WireType, tag = w.tagPath t.config.runtimePath ∧ key = fieldKey field.id w := by
  obtain ⟨w, hw, rfl⟩ := Option.map_eq_some_iff.mp hkey
  rw [tagPath, wireType, hw] at htag
  cases htag
  exact ⟨w.onWire, rfl, rfl⟩

theorem exists_fieldKey? {field : Field n} {calls : List Call}
    (h : (t.shape field.ty).calls? = some calls) : ∃ key, t.fieldKey? field = some key := by
  rw [fieldKey?]
  cases hshape : t.shape field.ty with
  | void | service | cyclic =>
      rw [hshape] at h
      cases h
  | bool | byte | i16 | i32 | i64 | double | string | binary | enum | record | list | set | map =>
      exact ⟨_, rfl⟩

section Fields

variable (hkeys : List.Forall₂ (fun c key => t.fieldKey? c.field = some key) fields keys)
  (h : ∀ c ∈ fields, (t.shape c.field.ty).calls? ≠ none) (next : Nat)
include hkeys h

theorem exists_writeFields :
    ∃ ws, t.writeFields next (fields.map Carried.writing) = .ok ws ∧ List.Forall₂
      (fun w key => writtenKeys t.config.runtimePath (w.steps t.config.runtimePath) = [key])
      ws keys := by
  induction hkeys generalizing next with
  | nil => exact ⟨[], rfl, .nil⟩
  | @cons c key fields keys hkey _ ih =>
      rw [List.forall_mem_cons] at h
      obtain ⟨calls, hcalls⟩ := Option.ne_none_iff_exists'.mp h.1
      obtain ⟨tag, htag⟩ := t.exists_tagPath hcalls
      obtain ⟨type, htype, rfl⟩ := tag_of_fieldKey? hkey htag
      obtain ⟨w, after, hw, _⟩ := t.calls_writeValue hcalls "" ⟨"value", next⟩ (next + 1)
      obtain ⟨ws, hws, hrest⟩ := ih h.2 after
      let f : FieldWrite :=
        { name := c.field.name, id := c.field.id, tag, access := c.access,
          source := ⟨"value", next⟩, value := w }
      refine ⟨f :: ws, ?_, .cons (f.writtenKeys_steps htype) hrest⟩
      exact except_bind_eq_ok.mpr ⟨tag, htag, except_bind_eq_ok.mpr ⟨(w, after), hw,
        except_bind_eq_ok.mpr ⟨ws, hws, rfl⟩⟩⟩

theorem exists_readFields (checks : Bool) :
    ∃ rs, t.readFields next (fields.map Carried.reading) = .ok rs ∧ List.Forall₂
      (fun r key => readKeys t.config.runtimePath (r.steps t.config.runtimePath checks) = [key])
      rs keys := by
  induction hkeys generalizing next with
  | nil => exact ⟨[], rfl, .nil⟩
  | @cons c key fields keys hkey _ ih =>
      rw [List.forall_mem_cons] at h
      obtain ⟨calls, hcalls⟩ := Option.ne_none_iff_exists'.mp h.1
      obtain ⟨tag, htag⟩ := t.exists_tagPath hcalls
      obtain ⟨type, htype, rfl⟩ := tag_of_fieldKey? hkey htag
      obtain ⟨r, after, hr, _⟩ := t.calls_readValue hcalls "" next
      obtain ⟨rs, hrs, hrest⟩ := ih h.2 after
      let f : FieldRead :=
        { id := c.field.id, tag, value := r, destination := c.destination }
      refine ⟨f :: rs, ?_, .cons (f.readKeys_steps checks htype) hrest⟩
      exact except_bind_eq_ok.mpr ⟨tag, htag, except_bind_eq_ok.mpr ⟨(r, after), hr,
        except_bind_eq_ok.mpr ⟨rs, hrs, rfl⟩⟩⟩

end Fields

section Refused

variable {c : Carried n} (hc : c ∈ fields) (h : (t.shape c.field.ty).calls? = none) (next : Nat)
include hc h

theorem writeFields_ne_ok (ws : List FieldWrite) :
    t.writeFields next (fields.map Carried.writing) ≠ .ok ws := by
  intro hws
  induction fields generalizing next ws with
  | nil => cases hc
  | cons first fields ih =>
      obtain ⟨_, _, hws⟩ := except_bind_eq_ok.mp hws
      obtain ⟨w, hw, hws⟩ := except_bind_eq_ok.mp hws
      obtain ⟨rest, hrest, _⟩ := except_bind_eq_ok.mp hws
      cases hc with
      | head => exact t.writeValue_ne_ok h _ _ w hw
      | tail _ hc => exact ih hc _ rest hrest

theorem readFields_ne_ok (rs : List FieldRead) :
    t.readFields next (fields.map Carried.reading) ≠ .ok rs := by
  intro hrs
  induction fields generalizing next rs with
  | nil => cases hc
  | cons first fields ih =>
      obtain ⟨_, _, hrs⟩ := except_bind_eq_ok.mp hrs
      obtain ⟨r, hr, hrs⟩ := except_bind_eq_ok.mp hrs
      obtain ⟨rest, hrest, _⟩ := except_bind_eq_ok.mp hrs
      cases hc with
      | head => exact t.readValue_ne_ok h _ r hr
      | tail _ hc => exact ih hc _ rest hrest

end Refused

end Target

theorem exists_error_of_ne_ok {ε α : Type} {x : Except ε α} (h : ∀ a, x ≠ .ok a) :
    ∃ fault, x = .error fault := by
  cases x with
  | ok a => exact absurd rfl (h a)
  | error fault => exact ⟨fault, rfl⟩

/-- Emitted code reads what it writes. Of values that travel, the statements that write one and
those that read one ask the same of a protocol, in the same order and the same loops; of others,
neither are emitted. Over the same fields, a struct frame is read for the ids and the tags that it
is written with. -/
theorem Target.emitted_codec_mirrors (t : Target n) :
    (∀ (ty : Ty n) (x : Temporary) (next next' : Nat),
      (∃ calls w after r after', (t.shape ty).calls? = some calls ∧
        t.writeValue x next (t.shape ty) = .ok (w, after) ∧
        t.readValue next' (t.shape ty) = .ok (r, after') ∧
        callsOf .write (w.steps t.config.runtimePath) = calls ∧
        callsOf .read (r.steps t.config.runtimePath) = calls) ∨
      (t.shape ty).calls? = none ∧
        (∃ fault, t.writeValue x next (t.shape ty) = .error fault) ∧
        ∃ fault, t.readValue next' (t.shape ty) = .error fault) ∧
    ∀ (name : String) (fields : List (Carried n)),
      (∃ keys ws rs, List.Forall₂ (fun c key => t.fieldKey? c.field = some key) fields keys ∧
        t.writeFrame name (fields.map Carried.writing) = .ok ws ∧
        t.readFrame (fields.map Carried.reading) = .ok rs ∧
        writtenKeys t.config.runtimePath ws = keys ∧ readKeys t.config.runtimePath rs = keys) ∨
      (∃ c ∈ fields, (t.shape c.field.ty).calls? = none) ∧
        (∃ fault, t.writeFrame name (fields.map Carried.writing) = .error fault) ∧
        ∃ fault, t.readFrame (fields.map Carried.reading) = .error fault := by
  constructor
  · intro ty x next next'
    cases hcalls : (t.shape ty).calls? with
    | some calls =>
        obtain ⟨w, after, hw, hwrites⟩ :=
          t.calls_writeValue hcalls t.config.runtimePath x next
        obtain ⟨r, after', hr, hreads⟩ := t.calls_readValue hcalls t.config.runtimePath next'
        exact .inl ⟨calls, w, after, r, after', rfl, hw, hr, hwrites, hreads⟩
    | none =>
        exact .inr ⟨rfl, exists_error_of_ne_ok (t.writeValue_ne_ok hcalls x next),
          exists_error_of_ne_ok (t.readValue_ne_ok hcalls next')⟩
  · intro name fields
    by_cases h : ∃ c ∈ fields, (t.shape c.field.ty).calls? = none
    · obtain ⟨c, hc, hnone⟩ := h
      refine .inr ⟨⟨c, hc, hnone⟩, exists_error_of_ne_ok fun ws hws => ?_,
        exists_error_of_ne_ok fun rs hrs => ?_⟩
      · obtain ⟨writes, hwrites, _⟩ := except_bind_eq_ok.mp hws
        exact writeFields_ne_ok hc hnone 0 writes hwrites
      · obtain ⟨reads, hreads, _⟩ := except_bind_eq_ok.mp hrs
        exact readFields_ne_ok hc hnone 0 reads hreads
    · have hall : ∀ c ∈ fields, (t.shape c.field.ty).calls? ≠ none :=
        fun c hc hnone => h ⟨c, hc, hnone⟩
      have hexists : ∀ c ∈ fields, ∃ key, t.fieldKey? c.field = some key := fun c hc => by
        obtain ⟨calls, hcalls⟩ := Option.ne_none_iff_exists'.mp (hall c hc)
        exact exists_fieldKey? hcalls
      obtain ⟨keys, hkeys⟩ := exists_forall₂ hexists
      obtain ⟨writes, hwrites, hwritten⟩ := exists_writeFields hkeys hall 0
      obtain ⟨reads, hreads, hread⟩ := exists_readFields hkeys hall 0 t.config.fieldTypeChecks
      exact .inl ⟨keys, _, _, hkeys, except_bind_eq_ok.mpr ⟨writes, hwrites, rfl⟩,
        except_bind_eq_ok.mpr ⟨reads, hreads, rfl⟩, writtenKeys_writeFrameSteps name hwritten,
        readKeys_readFrameSteps t.config.fieldTypeChecks hread⟩

end WireIdl
