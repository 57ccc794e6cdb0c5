import WireIdl.Emit.Boxing
import WireIdl.Emit.Codec
import WireIdl.Emit.Constants
import WireIdl.Proofs.Parallel
import WireIdl.Proofs.Schema.Expansion
import WireIdl.Proofs.Schema.Reach

/-! What is emitted for a type depends on its shape alone, and on the shape up to the words in which
its parts were written and up to the typedef that a fault names. So a schema may be retyped: what is
found out about the declarations stays the same as long as the shapes of all types agree. -/

namespace WireIdl

variable {n : Census}

/-- Shapes with the same leaves; the parts of the second were written with changed types. -/
inductive Shape.Agrees (g : Ty n → Ty n) : Shape n → Shape n → Prop where
  | void : Agrees g .void .void
  | bool : Agrees g .bool .bool
  | byte : Agrees g .byte .byte
  | i16 : Agrees g .i16 .i16
  | i32 : Agrees g .i32 .i32
  | i64 : Agrees g .i64 .i64
  | double : Agrees g .double .double
  | string : Agrees g .string .string
  | binary : Agrees g .binary .binary
  | enum (id : Fin n.enums) : Agrees g (.enum id) (.enum id)
  | list {w : Ty n} {element element' : Unit → Shape n}
      (part : Agrees g (element ()) (element' ())) :
      Agrees g (.list w element) (.list (g w) element')
  | set {w : Ty n} {element element' : Unit → Shape n}
      (part : Agrees g (element ()) (element' ())) :
      Agrees g (.set w element) (.set (g w) element')
  | map {k v : Ty n} {key key' value value' : Unit → Shape n}
      (keyPart : Agrees g (key ()) (key' ())) (valuePart : Agrees g (value ()) (value' ())) :
      Agrees g (.map k key v value) (.map (g k) key' (g v) value')
  | record (id : Fin n.records) : Agrees g (.record id) (.record id)
  | service (id : Fin n.services) : Agrees g (.service id) (.service id)
  | cyclic (cycle cycle' : TypedefCycle) : Agrees g (.cyclic cycle) (.cyclic cycle')

/-- The second schema has the declarations of the first with changed types, and each type stands for
the same as before. -/
structure Schema.Retyped (g : Ty n → Ty n) (s s' : Schema n) : Prop where
  enum : ∀ id, s'.enum id = s.enum id
  record : ∀ id, s'.record id = (s.record id).mapTypes g
  service : ∀ id, s'.service id = (s.service id).mapTypes g
  constants : s'.constants = s.constants.map (·.mapType g)
  shape : ∀ ty, (s.shape ty).Agrees g (s'.shape (g ty))
  trueType : ∀ ty, Parallel (fun core core' => core.recordId? = core'.recordId?)
    (s.trueType ty) (s'.trueType (g ty))

namespace Target

open Shape

variable {g : Ty n → Ty n} {s s' : Schema n} {c : Config} {a b : Shape n}

theorem wireType?_agrees (h : Agrees g a b) : a.wireType? = b.wireType? := by
  cases h <;> rfl

theorem wireType_agrees (h : Agrees g a b) :
    Parallel Eq (wireType ⟨s, c⟩ a) (wireType ⟨s', c⟩ b) := by
  rw [wireType, wireType, wireType?_agrees h]
  split
  · exact .ok rfl
  · exact .error

theorem tagPath_agrees (h : Agrees g a b) :
    Parallel Eq (tagPath ⟨s, c⟩ a) (tagPath ⟨s', c⟩ b) :=
  (wireType_agrees h).bind_same fun _ => .ok rfl

theorem isHashable_agrees (h : Agrees g a b) :
    Parallel Eq (isHashable ⟨s, c⟩ a) (isHashable ⟨s', c⟩ b) := by
  induction h with
  | list _ ih => exact ih
  | set _ ih =>
      rw [isHashable, isHashable]
      split
      · exact ih
      · exact .ok rfl
  | map _ _ ihKey ihValue =>
      rw [isHashable, isHashable]
      split
      · refine ihKey.bind_same fun hashable => ?_
        split
        · exact ihValue
        · exact .ok rfl
      · exact .ok rfl
  | cyclic _ _ => exact .error
  | _ => exact .ok rfl

theorem isOrdered_agrees (h : Agrees g a b) :
    Parallel Eq (isOrdered ⟨s, c⟩ a) (isOrdered ⟨s', c⟩ b) := by
  induction h with
  | list _ ih => exact ih
  | set _ ih =>
      rw [isOrdered, isOrdered]
      split
      · exact ih
      · exact .ok rfl
  | map _ _ ihKey ihValue =>
      rw [isOrdered, isOrdered]
      split
      · refine ihKey.bind_same fun ordered => ?_
        split
        · exact ihValue
        · exact .ok rfl
      · exact .ok rfl
  | cyclic _ _ => exact .error
  | _ => exact .ok rfl

theorem checkKey_agrees (form : KeyedForm) {w w' : Ty n} (h : Agrees g a b) :
    Parallel Eq (checkKey ⟨s, c⟩ form w a) (checkKey ⟨s', c⟩ form w' b) := by
  rw [checkKey, checkKey]
  refine (isHashable_agrees h).bind_same fun hashable => ?_
  cases hashable with
  | false => exact .error
  | true =>
      cases form with
      | hashed => exact .ok rfl
      | ordered =>
          refine (isOrdered_agrees h).bind_same fun ordered => ?_
          cases ordered with
          | false => exact .error
          | true => exact .ok rfl

theorem enumPath_retyped (hs : s.Retyped g s') (id : Fin n.enums) :
    enumPath ⟨s, c⟩ id = enumPath ⟨s', c⟩ id := by
  simp only [enumPath, hs.enum]

theorem recordPath_retyped (hs : s.Retyped g s') (id : Fin n.records) :
    recordPath ⟨s, c⟩ id = recordPath ⟨s', c⟩ id := by
  simp only [recordPath, hs.record, RecordDecl.mapTypes]

theorem typeText_agrees (hs : s.Retyped g s') (h : Agrees g a b) :
    Parallel Eq (typeText ⟨s, c⟩ a) (typeText ⟨s', c⟩ b) := by
  induction h with
  | enum id => exact .ok (enumPath_retyped hs id)
  | record id => exact .ok (recordPath_retyped hs id)
  | list _ ih => exact ih.bind_same fun _ => .ok rfl
  | set hpart ih =>
      refine (checkKey_agrees _ hpart).bind_same fun _ => ?_
      exact ih.bind_same fun _ => .ok rfl
  | map hkey _ ihKey ihValue =>
      refine (checkKey_agrees _ hkey).bind_same fun _ => ?_
      refine ihKey.bind_same fun _ => ?_
      exact ihValue.bind_same fun _ => .ok rfl
  | service id => exact .error
  | cyclic _ _ => exact .error
  | _ => exact .ok rfl

/-! ### Statements -/

theorem writeValue_agrees (h : Agrees g a b) (source : Temporary) (next : Nat) :
    Parallel Eq (writeValue ⟨s, c⟩ source next a) (writeValue ⟨s', c⟩ source next b) := by
  induction h generalizing source next with
  | list hpart ih | set hpart ih =>
      refine (tagPath_agrees hpart).bind_same fun _ => ?_
      exact (ih _ _).bind_same fun _ => .ok rfl
  | map hkey hvalue ihKey ihValue =>
      refine (tagPath_agrees hkey).bind_same fun _ => ?_
      refine (tagPath_agrees hvalue).bind_same fun _ => ?_
      refine (ihKey _ _).bind_same fun _ => ?_
      exact (ihValue _ _).bind_same fun _ => .ok rfl
  | void => exact .error
  | service id => exact .error
  | cyclic _ _ => exact .error
  | _ => exact .ok rfl

theorem readValue_agrees (hs : s.Retyped g s') (h : Agrees g a b) (next : Nat) :
    Parallel Eq (readValue ⟨s, c⟩ next a) (readValue ⟨s', c⟩ next b) := by
  induction h generalizing next with
  | enum id =>
      rw [readValue, readValue, enumPath_retyped hs, hs.enum]
      exact .ok rfl
  | record id =>
      rw [readValue, readValue, recordPath_retyped hs]
      exact .ok rfl
  | list _ ih | set _ ih => exact (ih _).bind_same fun _ => .ok rfl
  | map _ _ ihKey ihValue =>
      refine (ihKey _).bind_same fun _ => ?_
      exact (ihValue _).bind_same fun _ => .ok rfl
  | void => exact .error
  | service id => exact .error
  | cyclic _ _ => exact .error
  | _ => exact .ok rfl

theorem writeFields_retyped (hs : s.Retyped g s') (next : Nat) (fields : List (Field n × Access)) :
    Parallel Eq (writeFields ⟨s, c⟩ next fields)
      (writeFields ⟨s', c⟩ next (fields.map fun (field, access) => (field.mapType g, access))) := by
  induction fields generalizing next with
  | nil => exact .ok rfl
  | cons field fields ih =>
      have hshape := hs.shape field.1.ty
      refine (tagPath_agrees hshape).bind_same fun tag => ?_
      refine (writeValue_agrees hshape _ _).bind_same fun (value, next) => ?_
      exact (ih next).bind_same fun _ => .ok rfl

theorem writeFrame_retyped (hs : s.Retyped g s') (name : String)
    (fields : List (Field n × Access)) :
    Parallel Eq (writeFrame ⟨s, c⟩ name fields)
      (writeFrame ⟨s', c⟩ name (fields.map fun (field, access) => (field.mapType g, access))) :=
  (writeFields_retyped hs 0 fields).bind_same fun _ => .ok rfl

/-- A field to be read with another type. -/
def Reading.mapType (g : Ty n → Ty n) (reading : Reading n) : Reading n :=
  { reading with ty := g reading.ty }

theorem readFields_retyped (hs : s.Retyped g s') (next : Nat) (readings : List (Reading n)) :
    Parallel Eq (readFields ⟨s, c⟩ next readings)
      (readFields ⟨s', c⟩ next (readings.map (·.mapType g))) := by
  induction readings generalizing next with
  | nil => exact .ok rfl
  | cons reading readings ih =>
      have hshape := hs.shape reading.ty
      refine (tagPath_agrees hshape).bind_same fun tag => ?_
      refine (readValue_agrees hs hshape _).bind_same fun (value, next) => ?_
      exact (ih next).bind_same fun _ => .ok rfl

theorem readFrame_retyped (hs : s.Retyped g s') (readings : List (Reading n)) :
    Parallel Eq (readFrame ⟨s, c⟩ readings)
      (readFrame ⟨s', c⟩ (readings.map (·.mapType g))) :=
  (readFields_retyped hs 0 readings).bind_same fun _ => .ok rfl

/-! ### Literals -/

section Literals

theorem constant?_retyped (hs : s.Retyped g s') (name : String) :
    s'.constant? name = (s.constant? name).map (·.mapType g) := by
  rw [Schema.constant?, hs.constants, List.find?_map]
  rfl

theorem member_agrees (id : Fin n.enums) (found : Option EnumMember) (v : Literal) :
    Parallel Eq (member ⟨s, c⟩ id found v) (member ⟨s', c⟩ id found v) := by
  cases found with
  | none => exact .error
  | some m => exact .ok rfl

theorem int_agrees (ty ty' : Ty n) (width : IntWidth) (v : Int64) :
    Parallel Eq (int ⟨s, c⟩ ty width v) (int ⟨s', c⟩ ty' width v) := by
  rw [int, int]
  split
  · exact .ok rfl
  · exact .error

variable {deref deref' : Ty n → Shape n → Literal → Except EmitFault (Initializer n)}

theorem dereference_agrees (hs : s.Retyped g s')
    (hderef : ∀ ty a b v, Agrees g a b → Parallel Eq (deref ty a v) (deref' (g ty) b v))
    (h : Agrees g a b) (ty : Ty n) (name : String) :
    Parallel Eq (dereference ⟨s, c⟩ deref ty a name)
      (dereference ⟨s', c⟩ deref' (g ty) b name) := by
  rw [dereference, dereference, constant?_retyped hs]
  cases s.constant? name with
  | none => exact .error
  | some found => exact hderef ty a b found.value h

mutual

theorem initializerWith_agrees (hs : s.Retyped g s')
    (hderef : ∀ ty a b v, Agrees g a b → Parallel Eq (deref ty a v) (deref' (g ty) b v))
    {a b : Shape n} (h : Agrees g a b) (ty : Ty n) (v : Literal) :
    Parallel Eq (initializerWith ⟨s, c⟩ deref ty a v)
      (initializerWith ⟨s', c⟩ deref' (g ty) b v) := by
  match v with
  | .identifier name =>
      have hname := dereference_agrees (c := c) hs hderef h ty name
      cases h with
      | cyclic _ _ => exact .error
      | bool =>
          simp only [initializerWith]
          split
          · exact .ok rfl
          · split
            · exact .ok rfl
            · exact hname
      | enum id =>
          simp only [initializerWith, hs.enum]
          exact member_agrees _ _ _
      | _ => exact hname
  | .int v =>
      cases h with
      | bool =>
          simp only [initializerWith]
          split
          · exact .ok rfl
          · split
            · exact .ok rfl
            · exact .error
      | byte | i16 | i32 | i64 => exact int_agrees _ _ _ _
      | double => exact .ok rfl
      | enum id =>
          simp only [initializerWith, hs.enum]
          exact member_agrees _ _ _
      | _ => exact .error
  | .double v =>
      cases h with
      | double => exact .ok rfl
      | _ => exact .error
  | .string v =>
      cases h with
      | string | binary => exact .ok rfl
      | _ => exact .error
  | .list items =>
      have htext := typeText_agrees (c := c) hs h
      cases h with
      | list hpart | set hpart =>
          refine htext.bind_same fun _ => ?_
          exact (initializerItems_agrees hs hderef hpart _ items).bind_same fun _ => .ok rfl
      | _ => exact .error
  | .map entries =>
      have htext := typeText_agrees (c := c) hs h
      cases h with
      | map hkey hvalue =>
          refine htext.bind_same fun _ => ?_
          exact (initializerEntries_agrees hs hderef hkey hvalue _ _ entries).bind_same
            fun _ => .ok rfl
      | _ => exact .error

theorem initializerItems_agrees (hs : s.Retyped g s')
    (hderef : ∀ ty a b v, Agrees g a b → Parallel Eq (deref ty a v) (deref' (g ty) b v))
    {a b : Shape n} (h : Agrees g a b) (ty : Ty n) (items : List Literal) :
    Parallel Eq (initializerItems ⟨s, c⟩ deref ty a items)
      (initializerItems ⟨s', c⟩ deref' (g ty) b items) := by
  match items with
  | [] =>
      rw [initializerItems, initializerItems]
      exact .ok rfl
  | item :: items =>
      rw [initializerItems, initializerItems]
      refine (initializerWith_agrees hs hderef h ty item).bind_same fun first => ?_
      exact (initializerItems_agrees hs hderef h ty items).bind_same fun _ => .ok rfl

theorem initializerEntries_agrees (hs : s.Retyped g s')
    (hderef : ∀ ty a b v, Agrees g a b → Parallel Eq (deref ty a v) (deref' (g ty) b v))
    {a b a' b' : Shape n} (h : Agrees g a b) (h' : Agrees g a' b') (keyTy valueTy : Ty n)
    (entries : List (Literal × Literal)) :
    Parallel Eq (initializerEntries ⟨s, c⟩ deref keyTy a valueTy a' entries)
      (initializerEntries ⟨s', c⟩ deref' (g keyTy) b (g valueTy) b' entries) := by
  match entries with
  | [] =>
      rw [initializerEntries, initializerEntries]
      exact .ok rfl
  | (key, value) :: entries =>
      rw [initializerEntries, initializerEntries]
      refine (initializerWith_agrees hs hderef h keyTy key).bind_same fun _ => ?_
      refine (initializerWith_agrees hs hderef h' valueTy value).bind_same fun _ => ?_
      exact (initializerEntries_agrees hs hderef h h' keyTy valueTy entries).bind_same
        fun _ => .ok rfl

end

theorem initializerWithin_agrees (hs : s.Retyped g s') (references : Nat) (h : Agrees g a b)
    (ty : Ty n) (v : Literal) :
    Parallel Eq (initializerWithin ⟨s, c⟩ references ty a v)
      (initializerWithin ⟨s', c⟩ references (g ty) b v) := by
  induction references generalizing ty a b v with
  | zero => exact initializerWith_agrees hs (fun _ _ _ _ _ => .error) h ty v
  | succ references ih =>
      exact initializerWith_agrees hs (fun ty _ _ v hshape => ih hshape ty v) h ty v

theorem initializer_retyped (hs : s.Retyped g s') (ty : Ty n) (v : Literal) :
    Parallel Eq (initializer ⟨s, c⟩ ty v) (initializer ⟨s', c⟩ (g ty) v) :=
  initializerWithin_agrees hs maxReferences (hs.shape ty) ty v

mutual

theorem text_retyped (hs : s.Retyped g s') (i : Initializer n) :
    i.text ⟨s, c⟩ = i.text ⟨s', c⟩ := by
  match i with
  | .member id m => exact congrArg (· ++ "::" ++ Ident.variant m.name) (enumPath_retyped hs id)
  | .list items | .set items =>
      exact congrArg (Initializer.containerText _) (itemTexts_retyped hs items)
  | .map entries => exact congrArg (Initializer.containerText _) (entryTexts_retyped hs entries)
  | .bool _ | .int _ _ | .double _ | .string _ | .binary _ => rfl

theorem itemTexts_retyped (hs : s.Retyped g s') (items : List (Initializer n)) :
    Initializer.itemTexts ⟨s, c⟩ items = Initializer.itemTexts ⟨s', c⟩ items := by
  match items with
  | [] => rfl
  | item :: items =>
      exact congrArg₂ List.cons (text_retyped hs item) (itemTexts_retyped hs items)

theorem entryTexts_retyped (hs : s.Retyped g s') (entries : List (Initializer n × Initializer n)) :
    Initializer.entryTexts ⟨s, c⟩ entries = Initializer.entryTexts ⟨s', c⟩ entries := by
  match entries with
  | [] => rfl
  | (key, value) :: entries =>
      have hentry := congrArg₂ (fun key value => "(" ++ key ++ ", " ++ value ++ ")")
        (text_retyped hs key) (text_retyped hs value)
      exact congrArg₂ List.cons hentry (entryTexts_retyped hs entries)

end

theorem literalText_retyped (hs : s.Retyped g s') (ty : Ty n) (v : Literal) :
    Parallel Eq (literalText ⟨s, c⟩ ty v) (literalText ⟨s', c⟩ (g ty) v) :=
  (initializer_retyped hs ty v).bind_same fun i => .ok (text_retyped hs i)

theorem followNames_retyped (hs : s.Retyped g s') (rounds : Nat) (v : Literal) :
    Parallel Eq (followNames ⟨s, c⟩ rounds v) (followNames ⟨s', c⟩ rounds v) := by
  induction rounds generalizing v with
  | zero =>
      rw [followNames, followNames]
      exact .error
  | succ rounds ih =>
      cases v with
      | identifier name =>
          rw [followNames, followNames, constant?_retyped hs]
          cases s.constant? name with
          | none => exact .ok rfl
          | some found => exact ih found.value
      | _ => exact .ok rfl

theorem constantLine_retyped (hs : s.Retyped g s') (constant : Constant n) :
    Parallel Eq (constantLine ⟨s, c⟩ constant) (constantLine ⟨s', c⟩ (constant.mapType g)) := by
  have hshape : Agrees g (s.shape constant.ty) (s'.shape (constant.mapType g).ty) :=
    hs.shape constant.ty
  have htext := typeText_agrees (c := c) hs hshape
  have hvalue := literalText_retyped (c := c) hs constant.ty constant.value
  simp only [constantLine, Target.shape]
  generalize s.shape constant.ty = a at *
  generalize s'.shape (constant.mapType g).ty = b at *
  cases hshape with
  | void | record _ | service _ => exact .error
  | string =>
      refine (followNames_retyped hs _ _).bind_same fun v => ?_
      cases v with
      | string v => exact .ok rfl
      | _ => exact .error
  | binary | list _ | set _ | map _ _ =>
      refine htext.bind_same fun type => ?_
      exact hvalue.bind_same fun expr => .ok rfl
  | _ =>
      refine htext.bind_same fun type => ?_
      exact hvalue.bind_same fun expr => .ok rfl

end Literals

/-! ### Boxes -/

theorem orFault_parallel {α β : Type} {R : α → β → Prop} {x : Except TypedefCycle α}
    {y : Except TypedefCycle β} (h : Parallel R x y) :
    Parallel R (TypedefCycle.orFault x) (TypedefCycle.orFault y) := by
  cases h with
  | ok hab => exact .ok hab
  | error => exact .error

theorem directRecords_retyped (hs : s.Retyped g s') (fields : List (Field n)) :
    Parallel Eq (directRecords ⟨s, c⟩ fields)
      (directRecords ⟨s', c⟩ (fields.map (·.mapType g))) := by
  induction fields with
  | nil => exact .ok rfl
  | cons field fields ih =>
      refine (hs.trueType field.ty).bind fun core core' hcore => ?_
      refine ih.bind_same fun rest => .ok ?_
      rw [hcore]

theorem reachesOwner_retyped (hs : s.Retyped g s') (owner : Fin n.records)
    (fresh stack : List (Fin n.records)) :
    Parallel Eq (reachesOwner ⟨s, c⟩ owner fresh stack)
      (reachesOwner ⟨s', c⟩ owner fresh stack) := by
  have hdirect : ∀ id, Parallel Eq (directRecords ⟨s, c⟩ (s.record id).fields)
      (directRecords ⟨s', c⟩ (s'.record id).fields) := by
    intro id
    rw [hs.record]
    exact directRecords_retyped hs (s.record id).fields
  fun_induction reachesOwner ⟨s, c⟩ owner fresh stack with
  | case1 fresh =>
      rw [reachesOwner]
      exact .ok rfl
  | case2 fresh stack =>
      rw [reachesOwner, if_pos rfl]
      exact .ok rfl
  | case3 fresh id stack hne hfresh cycle hcycle =>
      have hother := hdirect id
      rw [hcycle] at hother
      obtain ⟨cycle', hcycle'⟩ := hother.of_error
      rw [reachesOwner, if_neg hne, dif_pos hfresh, hcycle']
      exact .error
  | case4 fresh id stack hne hfresh next hnext ih =>
      have hother := hdirect id
      rw [hnext] at hother
      obtain ⟨next', hnext', rfl⟩ := hother.of_ok
      rw [reachesOwner, if_neg hne, dif_pos hfresh, hnext']
      exact ih
  | case5 fresh id stack hne hmet ih =>
      rw [reachesOwner, if_neg hne, dif_neg hmet]
      exact ih

theorem needsBox_retyped (hs : s.Retyped g s') (owner : Fin n.records) (ty : Ty n) :
    Parallel Eq (needsBox ⟨s, c⟩ owner ty) (needsBox ⟨s', c⟩ owner (g ty)) := by
  refine orFault_parallel ((hs.trueType ty).bind fun core core' hcore => ?_)
  rw [hcore]
  split
  · exact .ok rfl
  · exact reachesOwner_retyped hs owner _ _

end Target

namespace Schema

variable {g : Ty n → Ty n} {s s' : Schema n}

/-! ### The walk -/

theorem fieldShapes_retyped (hs : s.Retyped g s') (id : Fin n.records) :
    List.Forall₂ (Shape.Agrees g) (s.fieldShapes id) (s'.fieldShapes id) := by
  rw [fieldShapes, fieldShapes, hs.record, RecordDecl.mapTypes, List.map_map,
    List.forall₂_map_left_iff, List.forall₂_map_right_iff, List.forall₂_same]
  exact fun field _ => hs.shape field.ty

theorem walk_of_plain {unmet : Unmet n} {shape : Shape n} {stack : List (Shape n)}
    (h : shape.IsPlain) : s.walk unmet (shape :: stack) = s.walk unmet (shape.parts ++ stack) := by
  rw [walk]
  · rintro cycle rfl
    exact h
  · rintro id rfl
    exact h
  · rintro id rfl
    exact h

theorem isPlain_agrees {a b : Shape n} (h : Shape.Agrees g a b) (ha : a.IsPlain) : b.IsPlain := by
  cases h with
  | enum id | record id | cyclic _ _ => exact False.elim ha
  | _ => exact trivial

theorem parts_agrees {a b : Shape n} (h : Shape.Agrees g a b) :
    List.Forall₂ (Shape.Agrees g) a.parts b.parts := by
  cases h with
  | list hpart | set hpart => exact .cons hpart .nil
  | map hkey hvalue => exact .cons hvalue (.cons hkey .nil)
  | _ => exact .nil

theorem walk_retyped (hs : s.Retyped g s') (unmet : Unmet n) {stack stack' : List (Shape n)}
    (h : List.Forall₂ (Shape.Agrees g) stack stack') :
    Parallel Eq (s.walk unmet stack) (s'.walk unmet stack') := by
  fun_induction walk s unmet stack generalizing stack' with
  | case1 unmet =>
      cases h
      rw [walk]
      exact .ok rfl
  | case2 unmet cycle stack =>
      obtain - | ⟨hfirst, hrest⟩ := h
      cases hfirst
      rw [walk]
      exact .error
  | case3 unmet id stack ih =>
      obtain - | ⟨hfirst, hrest⟩ := h
      cases hfirst
      rw [walk]
      exact ih hrest
  | case4 unmet id stack hmem ih =>
      obtain - | ⟨hfirst, hrest⟩ := h
      cases hfirst
      rw [walk, dif_pos hmem]
      exact ih (List.rel_append (List.rel_reverse (fieldShapes_retyped hs id)) hrest)
  | case5 unmet id stack hmet ih =>
      obtain - | ⟨hfirst, hrest⟩ := h
      cases hfirst
      rw [walk, dif_neg hmet]
      exact ih hrest
  | case6 unmet shape stack hcyclic henum hrecord ih =>
      obtain - | ⟨hfirst, hrest⟩ := h
      have hplain : shape.IsPlain := by
        cases shape with
        | cyclic cycle => exact hcyclic cycle rfl
        | enum id => exact henum id rfl
        | record id => exact hrecord id rfl
        | _ => exact trivial
      rw [walk_of_plain (isPlain_agrees hfirst hplain)]
      exact ih (List.rel_append (parts_agrees hfirst) hrest)

theorem walkAll_retyped (hs : s.Retyped g s') (unmet : Unmet n) (tys : List (Ty n)) :
    Parallel Eq (s.walkAll unmet tys) (s'.walkAll unmet (tys.map g)) := by
  induction tys generalizing unmet with
  | nil => exact .ok rfl
  | cons ty tys ih =>
      refine (walk_retyped hs unmet (.cons (hs.shape ty) .nil)).bind_same fun unmet => ?_
      exact ih unmet

theorem climb_retyped (hs : s.Retyped g s') (steps : Nat) (chain : List (Fin n.services))
    (id : Fin n.services) : s'.climb steps chain id = s.climb steps chain id := by
  induction steps generalizing chain id with
  | zero => rfl
  | succ steps ih => simp only [climb, hs.service, ServiceDecl.mapTypes, ih]

theorem serviceChain_retyped (hs : s.Retyped g s') (id : Fin n.services) :
    s'.serviceChain id = s.serviceChain id :=
  climb_retyped hs _ _ _

theorem listedMethods_retyped (hs : s.Retyped g s') (key : String) (id : Fin n.services) :
    s'.listedMethods key id = (s.listedMethods key id).map (·.mapTypes g) := by
  rw [listedMethods, hs.service, ServiceDecl.mapTypes, List.filter_map]
  rfl

theorem parameterTypes_retyped (hs : s.Retyped g s') (key : String) (id : Fin n.services) :
    s'.parameterTypes key id = (s.parameterTypes key id).map g := by
  rw [parameterTypes, listedMethods_retyped hs, List.flatMap_map, parameterTypes, List.map_flatMap]
  simp [Method.mapTypes, Field.mapType, Function.comp_def]

theorem resultTypes_retyped (hs : s.Retyped g s') (key : String) (id : Fin n.services) :
    s'.resultTypes key id = (s.resultTypes key id).map g := by
  rw [resultTypes, serviceChain_retyped hs, resultTypes, List.map_flatMap]
  refine List.flatMap_congr fun ancestor _ => ?_
  rw [listedMethods_retyped hs, List.flatMap_map, List.map_flatMap]
  simp [Method.mapTypes, Field.mapType, Function.comp_def]

theorem reach_retyped (hs : s.Retyped g s') (key : String) (id : Fin n.services) :
    Parallel Eq (s.reach key id) (s'.reach key id) := by
  rw [reach, reach, parameterTypes_retyped hs, resultTypes_retyped hs]
  refine (walkAll_retyped hs _ _).bind_same fun parameters => ?_
  exact (walkAll_retyped hs _ _).bind_same fun results => .ok rfl

theorem reachAll_retyped (hs : s.Retyped g s') (key : String) (ids : List (Fin n.services)) :
    Parallel Eq (s.reachAll key ids) (s'.reachAll key ids) := by
  induction ids with
  | nil => exact .ok rfl
  | cons id ids ih =>
      refine (reach_retyped hs key id).bind_same fun first => ?_
      exact ih.bind_same fun rest => .ok rfl

end Schema

end WireIdl
