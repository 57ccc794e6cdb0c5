import WireIdl.Emit.TypeText
import WireIdl.Proofs.Lists
import WireIdl.Proofs.Schema.Expansion

/-! Keys of emitted containers. An emitted type is written for a type exactly if every set element
and every map key in it has the traits that its container asks for, by the rules with which the
traits of a type follow from those of its parts. -/

namespace WireIdl

variable {n : Census}

/-- The types that emitted code holds values in. -/
inductive EmittedType (n : Census) where
  | unit
  | bool
  | i8
  | i16
  | i32
  | i64
  | f64
  | string
  | bytes
  | enum (id : Fin n.enums)
  | record (id : Fin n.records)
  | list (form : ListForm) (element : EmittedType n)
  | set (form : KeyedForm) (element : EmittedType n)
  | map (form : KeyedForm) (key value : EmittedType n)

/-- What a container may ask of its keys: an equality with a hash, or a total order. -/
inductive KeyTrait where
  | hash
  | order

namespace EmittedType

def text (t : Target n) : EmittedType n → String
  | .unit => "()"
  | .bool => "bool"
  | .i8 => "i8"
  | .i16 => "i16"
  | .i32 => "i32"
  | .i64 => "i64"
  | .f64 => "f64"
  | .string => "::std::string::String"
  | .bytes => "::std::vec::Vec<u8>"
  | .enum id => t.enumPath id
  | .record id => t.recordPath id
  | .list form element => form.path ++ "<" ++ element.text t ++ ">"
  | .set form element => form.setPath ++ "<" ++ element.text t ++ ">"
  | .map form key value => form.mapPath ++ "<" ++ key.text t ++ ", " ++ value.text t ++ ">"

/-- The implementations that there are. Floating point numbers have none, records have no order, and
hashed containers have neither trait. -/
inductive Implements : KeyTrait → EmittedType n → Prop where
  | unit (r : KeyTrait) : Implements r .unit
  | bool (r : KeyTrait) : Implements r .bool
  | i8 (r : KeyTrait) : Implements r .i8
  | i16 (r : KeyTrait) : Implements r .i16
  | i32 (r : KeyTrait) : Implements r .i32
  | i64 (r : KeyTrait) : Implements r .i64
  | string (r : KeyTrait) : Implements r .string
  | bytes (r : KeyTrait) : Implements r .bytes
  | enum (r : KeyTrait) (id : Fin n.enums) : Implements r (.enum id)
  | record (id : Fin n.records) : Implements .hash (.record id)
  | list {r : KeyTrait} {form : ListForm} {element : EmittedType n}
      (part : Implements r element) : Implements r (.list form element)
  | set {r : KeyTrait} {element : EmittedType n} (part : Implements r element) :
      Implements r (.set .ordered element)
  | map {r : KeyTrait} {key value : EmittedType n} (keyPart : Implements r key)
      (valuePart : Implements r value) : Implements r (.map .ordered key value)

theorem implements_list_iff {r : KeyTrait} {form : ListForm} {element : EmittedType n} :
    (list form element).Implements r ↔ element.Implements r := by
  constructor
  · intro h
    cases h with
    | list hpart => exact hpart
  · exact .list

theorem implements_set_iff {r : KeyTrait} {form : KeyedForm} {element : EmittedType n} :
    (set form element).Implements r ↔ form = .ordered ∧ element.Implements r := by
  constructor
  · intro h
    cases h with
    | set hpart => exact ⟨rfl, hpart⟩
  · rintro ⟨rfl, hpart⟩
    exact .set hpart

theorem implements_map_iff {r : KeyTrait} {form : KeyedForm} {key value : EmittedType n} :
    (map form key value).Implements r ↔
      form = .ordered ∧ key.Implements r ∧ value.Implements r := by
  constructor
  · intro h
    cases h with
    | map hkey hvalue => exact ⟨rfl, hkey, hvalue⟩
  · rintro ⟨rfl, hkey, hvalue⟩
    exact .map hkey hvalue

/-- The elements of sets and the keys of maps in a type, at any depth, each with the form of its
container. -/
inductive HasKey : EmittedType n → KeyedForm → EmittedType n → Prop where
  | element {form : KeyedForm} {element : EmittedType n} : HasKey (.set form element) form element
  | key {form : KeyedForm} {key value : EmittedType n} : HasKey (.map form key value) form key
  | ofList {kind : ListForm} {form : KeyedForm} {element key : EmittedType n}
      (inner : HasKey element form key) : HasKey (.list kind element) form key
  | ofSet {kind form : KeyedForm} {element key : EmittedType n}
      (inner : HasKey element form key) : HasKey (.set kind element) form key
  | ofKey {kind form : KeyedForm} {outer value key : EmittedType n}
      (inner : HasKey outer form key) : HasKey (.map kind outer value) form key
  | ofValue {kind form : KeyedForm} {outer value key : EmittedType n}
      (inner : HasKey value form key) : HasKey (.map kind outer value) form key

/-- A container finds its keys by hash, an ordered one by order as well. -/
def Suits (form : KeyedForm) (key : EmittedType n) : Prop :=
  key.Implements .hash ∧ (form = .ordered → key.Implements .order)

def KeysSuit (held : EmittedType n) : Prop :=
  ∀ form key, held.HasKey form key → key.Suits form

theorem keysSuit_list_iff {form : ListForm} {element : EmittedType n} :
    (list form element).KeysSuit ↔ element.KeysSuit := by
  constructor
  · intro h kind key hkey
    exact h kind key (.ofList hkey)
  · intro h kind key hkey
    cases hkey with
    | ofList hinner => exact h kind key hinner

theorem keysSuit_set_iff {form : KeyedForm} {element : EmittedType n} :
    (set form element).KeysSuit ↔ element.Suits form ∧ element.KeysSuit := by
  constructor
  · intro h
    exact ⟨h form element .element, fun kind key hkey => h kind key (.ofSet hkey)⟩
  · intro ⟨helement, hinner⟩ kind key hkey
    cases hkey with
    | element => exact helement
    | ofSet hkey => exact hinner kind key hkey

theorem keysSuit_map_iff {form : KeyedForm} {key value : EmittedType n} :
    (map form key value).KeysSuit ↔ key.Suits form ∧ key.KeysSuit ∧ value.KeysSuit := by
  constructor
  · intro h
    exact ⟨h form key .key, fun kind inner hinner => h kind inner (.ofKey hinner),
      fun kind inner hinner => h kind inner (.ofValue hinner)⟩
  · intro ⟨hsuits, hkey, hvalue⟩ kind inner hinner
    cases hinner with
    | key => exact hsuits
    | ofKey hinner => exact hkey kind inner hinner
    | ofValue hinner => exact hvalue kind inner hinner

end EmittedType

namespace Ty

def services : Ty n → List (Fin n.services)
  | .list element | .set element => element.services
  | .map key value => key.services ++ value.services
  | .service id => [id]
  | _ => []

/-- The emitted type of a type without typedefs; a service is no value. -/
def emitted? (c : Config) : Ty n → Option (EmittedType n)
  | .void => some .unit
  | .bool => some .bool
  | .byte => some .i8
  | .i16 => some .i16
  | .i32 => some .i32
  | .i64 => some .i64
  | .double => some .f64
  | .string => some .string
  | .binary => some .bytes
  | .enum id => some (.enum id)
  | .record _ id => some (.record id)
  | .list element => do return .list c.list (← element.emitted? c)
  | .set element => do return .set c.set (← element.emitted? c)
  | .map key value => do return .map c.map (← key.emitted? c) (← value.emitted? c)
  | .typedef _ | .service _ => none

theorem exists_emitted?_iff {c : Config} {ty : Ty n} (h : ty.typedefs = []) :
    (∃ held, ty.emitted? c = some held) ↔ ty.services = [] := by
  induction ty with
  | list element ih | set element ih =>
      rw [services, ← ih h]
      simp [emitted?, Option.bind_eq_some_iff]
  | map key value ihKey ihValue =>
      obtain ⟨hkey, hvalue⟩ := List.append_eq_nil_iff.mp h
      rw [services, List.append_eq_nil_iff, ← ihKey hkey, ← ihValue hvalue]
      simp [emitted?, Option.bind_eq_some_iff]
  | typedef id => cases h
  | service id => simp [emitted?, services]
  | _ => exact iff_of_true ⟨_, rfl⟩ rfl

end Ty

namespace Target

variable {t : Target n}

def provides (t : Target n) : KeyTrait → Shape n → Except EmitFault Bool
  | .hash => t.isHashable
  | .order => t.isOrdered

theorem provides_list (r : KeyTrait) (written : Ty n) (element : Unit → Shape n) :
    t.provides r (.list written element) = t.provides r (element ()) := by
  cases r <;> rfl

theorem provides_set (r : KeyTrait) (written : Ty n) (element : Unit → Shape n) :
    t.provides r (.set written element) =
      if t.config.set.isOrdered then t.provides r (element ()) else .ok false := by
  cases r <;> rfl

theorem provides_map (r : KeyTrait) (k v : Ty n) (key value : Unit → Shape n) :
    t.provides r (.map k key v value) =
      if t.config.map.isOrdered then do
        if ← t.provides r (key ()) then t.provides r (value ()) else return false
      else .ok false := by
  cases r <;> rfl

def emittedType? (t : Target n) (ty : Ty n) : Option (EmittedType n) :=
  (t.schema.expand ty).emitted? t.config

theorem emittedType?_list_eq_some {element : Ty n} {held : EmittedType n} :
    t.emittedType? (.list element) = some held ↔
      ∃ part, t.emittedType? element = some part ∧ .list t.config.list part = held := by
  refine Option.bind_eq_some_iff.trans ?_
  simp [emittedType?, Schema.expand]

theorem emittedType?_set_eq_some {element : Ty n} {held : EmittedType n} :
    t.emittedType? (.set element) = some held ↔
      ∃ part, t.emittedType? element = some part ∧ .set t.config.set part = held := by
  refine Option.bind_eq_some_iff.trans ?_
  simp [emittedType?, Schema.expand]

theorem emittedType?_map_eq_some {key value : Ty n} {held : EmittedType n} :
    t.emittedType? (.map key value) = some held ↔
      ∃ k v, t.emittedType? key = some k ∧ t.emittedType? value = some v ∧
        .map t.config.map k v = held := by
  refine Option.bind_eq_some_iff.trans ?_
  simp [emittedType?, Schema.expand, Option.bind_eq_some_iff]

/-- A check gives a definite answer, which is whether the statement holds. -/
def Decides (check : Except EmitFault Bool) (p : Prop) : Prop :=
  ∃ answer, check = .ok answer ∧ (answer = true ↔ p)

theorem Decides.of_true {p : Prop} (h : p) : Decides (.ok true) p :=
  ⟨true, rfl, iff_of_true rfl h⟩

theorem Decides.of_false {p : Prop} (h : ¬ p) : Decides (.ok false) p :=
  ⟨false, rfl, iff_of_false Bool.false_ne_true h⟩

theorem Decides.congr {check : Except EmitFault Bool} {p q : Prop} (h : Decides check p)
    (hpq : p ↔ q) : Decides check q := by
  obtain ⟨answer, hcheck, hanswer⟩ := h
  exact ⟨answer, hcheck, hanswer.trans hpq⟩

theorem Decides.and {first second : Except EmitFault Bool} {p q : Prop} (hfirst : Decides first p)
    (hsecond : Decides second q) :
    Decides (do if ← first then second else return false) (p ∧ q) := by
  obtain ⟨answer, rfl, hp⟩ := hfirst
  cases answer with
  | true => exact hsecond.congr (by simp [← hp])
  | false => exact .of_false fun hboth => Bool.false_ne_true (hp.mpr hboth.1)

theorem Decides.ite {form : KeyedForm} {check : Except EmitFault Bool} {p : Prop}
    (h : Decides check p) :
    Decides (if form.isOrdered then check else .ok false) (form = .ordered ∧ p) := by
  cases form with
  | hashed => exact .of_false (by simp)
  | ordered => exact h.congr (by simp)

theorem decides_provides (h : t.schema.NoTypedefHoldsItself) (r : KeyTrait) {ty : Ty n}
    {held : EmittedType n} (hheld : t.emittedType? ty = some held) :
    Decides (t.provides r (t.shape ty)) (held.Implements r) := by
  -- A typedef has the shape and the emitted type of its target, which the induction reaches first.
  induction ty using h.induction generalizing held with
  | typedef id ih =>
      rw [emittedType?, h.expand_typedef] at hheld
      rw [shape, h.shape_typedef]
      exact ih hheld
  | other ty hty ih =>
      cases ty with
      | list element =>
          obtain ⟨part, hpart, rfl⟩ := emittedType?_list_eq_some.mp hheld
          rw [shape, Schema.shape_list, provides_list, EmittedType.implements_list_iff]
          exact ih element List.mem_cons_self hpart
      | set element =>
          obtain ⟨part, hpart, rfl⟩ := emittedType?_set_eq_some.mp hheld
          rw [shape, Schema.shape_set, provides_set, EmittedType.implements_set_iff]
          exact (ih element List.mem_cons_self hpart).ite
      | map key value =>
          obtain ⟨k, v, hk, hv, rfl⟩ := emittedType?_map_eq_some.mp hheld
          have hkey := ih key (List.mem_cons_of_mem _ List.mem_cons_self) hk
          have hvalue := ih value List.mem_cons_self hv
          rw [shape, Schema.shape_map, provides_map, EmittedType.implements_map_iff]
          exact (hkey.and hvalue).ite
      | typedef id => exact absurd rfl (hty id)
      | service id => cases hheld
      | double =>
          cases hheld
          cases r <;> exact .of_false (by rintro ⟨⟩)
      | record kind id =>
          cases hheld
          cases r with
          | hash => exact .of_true (.record id)
          | order => exact .of_false (by rintro ⟨⟩)
      | _ =>
          cases hheld
          cases r <;> exact .of_true (by constructor)

theorem checkKey_eq_ok_iff (h : t.schema.NoTypedefHoldsItself) (form : KeyedForm) {ty : Ty n}
    {held : EmittedType n} (hheld : t.emittedType? ty = some held) :
    t.checkKey form ty (t.shape ty) = .ok () ↔ held.Suits form := by
  obtain ⟨hashable, hhash, hhashes⟩ := decides_provides h .hash hheld
  obtain ⟨ordered, horder, horders⟩ := decides_provides h .order hheld
  simp only [provides] at hhash horder
  rw [checkKey, hhash, horder, EmittedType.Suits, ← hhashes, ← horders]
  cases hashable <;> cases form <;> cases ordered <;>
    simp [bind, Except.bind, pure, Except.pure, throw, throwThe, MonadExceptOf.throw,
      KeyedForm.isOrdered]

theorem typeText_of_leaf {ty : Ty n} {held : EmittedType n} (hheld : t.emittedType? ty = some held)
    (htext : t.typeText (t.shape ty) = .ok (held.text t)) (hsuit : held.KeysSuit) {text : String} :
    t.typeText (t.shape ty) = .ok text ↔
      ∃ other, t.emittedType? ty = some other ∧ other.KeysSuit ∧ other.text t = text := by
  simp [hheld, htext, hsuit]

theorem typeText_eq_ok_iff (h : t.schema.NoTypedefHoldsItself) {ty : Ty n} {text : String} :
    t.typeText (t.shape ty) = .ok text ↔
      ∃ held, t.emittedType? ty = some held ∧ held.KeysSuit ∧ held.text t = text := by
  induction ty using h.induction generalizing text with
  | typedef id ih =>
      rw [emittedType?, h.expand_typedef, shape, h.shape_typedef]
      exact ih
  | other ty hty ih =>
      cases ty with
      | list element =>
          have helement := @ih element List.mem_cons_self
          rw [shape, Schema.shape_list, typeText, except_bind_eq_ok]
          constructor
          · rintro ⟨inner, hinner, hmade⟩
            cases hmade
            obtain ⟨part, hpart, hsuit, rfl⟩ := helement.mp hinner
            exact ⟨_, emittedType?_list_eq_some.mpr ⟨part, hpart, rfl⟩,
              EmittedType.keysSuit_list_iff.mpr hsuit, rfl⟩
          · rintro ⟨held, hheld, hsuit, rfl⟩
            obtain ⟨part, hpart, rfl⟩ := emittedType?_list_eq_some.mp hheld
            have hinner := EmittedType.keysSuit_list_iff.mp hsuit
            exact ⟨_, helement.mpr ⟨part, hpart, hinner, rfl⟩, rfl⟩
      | set element =>
          have helement := @ih element List.mem_cons_self
          simp only [shape, Schema.shape_set, typeText, except_bind_eq_ok]
          constructor
          · rintro ⟨_, hcheck, inner, hinner, hmade⟩
            cases hmade
            obtain ⟨part, hpart, hsuit, rfl⟩ := helement.mp hinner
            exact ⟨_, emittedType?_set_eq_some.mpr ⟨part, hpart, rfl⟩,
              EmittedType.keysSuit_set_iff.mpr ⟨(checkKey_eq_ok_iff h _ hpart).mp hcheck, hsuit⟩,
              rfl⟩
          · rintro ⟨held, hheld, hsuit, rfl⟩
            obtain ⟨part, hpart, rfl⟩ := emittedType?_set_eq_some.mp hheld
            obtain ⟨hkey, hinner⟩ := EmittedType.keysSuit_set_iff.mp hsuit
            exact ⟨(), (checkKey_eq_ok_iff h _ hpart).mpr hkey, _,
              helement.mpr ⟨part, hpart, hinner, rfl⟩, rfl⟩
      | map key value =>
          have hkey := @ih key (List.mem_cons_of_mem _ List.mem_cons_self)
          have hvalue := @ih value List.mem_cons_self
          simp only [shape, Schema.shape_map, typeText, except_bind_eq_ok]
          constructor
          · rintro ⟨_, hcheck, keyText, hkeyText, valueText, hvalueText, hmade⟩
            cases hmade
            obtain ⟨k, hk, hkeySuits, rfl⟩ := hkey.mp hkeyText
            obtain ⟨v, hv, hvalueSuits, rfl⟩ := hvalue.mp hvalueText
            have hsuits := (checkKey_eq_ok_iff h _ hk).mp hcheck
            exact ⟨_, emittedType?_map_eq_some.mpr ⟨k, v, hk, hv, rfl⟩,
              EmittedType.keysSuit_map_iff.mpr ⟨hsuits, hkeySuits, hvalueSuits⟩, rfl⟩
          · rintro ⟨held, hheld, hsuit, rfl⟩
            obtain ⟨k, v, hk, hv, rfl⟩ := emittedType?_map_eq_some.mp hheld
            obtain ⟨hsuits, hkeySuits, hvalueSuits⟩ := EmittedType.keysSuit_map_iff.mp hsuit
            exact ⟨(), (checkKey_eq_ok_iff h _ hk).mpr hsuits, _,
              hkey.mpr ⟨k, hk, hkeySuits, rfl⟩, _, hvalue.mpr ⟨v, hv, hvalueSuits, rfl⟩, rfl⟩
      | typedef id => exact absurd rfl (hty id)
      | service id =>
          refine iff_of_false (fun htext => ?_) ?_
          · cases htext
          · rintro ⟨held, hheld, _⟩
            cases hheld
      | _ => exact typeText_of_leaf rfl rfl (by rintro form key ⟨⟩)

/-- A type is written exactly if it names no service and each of its keys suits its container. It
then has an emitted type, and what is written is that type. -/
theorem typeText_iff_keysSuit (t : Target n) (h : t.schema.NoTypedefHoldsItself) (ty : Ty n) :
    ((∃ text, t.typeText (t.shape ty) = .ok text) ↔
      (t.schema.expand ty).services = [] ∧
        ∀ held, t.emittedType? ty = some held → ∀ form key, held.HasKey form key →
          key.Implements .hash ∧ (form = .ordered → key.Implements .order)) ∧
      ((t.schema.expand ty).services = [] → ∃ held, t.emittedType? ty = some held) ∧
      ∀ text, t.typeText (t.shape ty) = .ok text →
        ∃ held, t.emittedType? ty = some held ∧ held.text t = text := by
  have hservices : (∃ held, t.emittedType? ty = some held) ↔ (t.schema.expand ty).services = [] :=
    Ty.exists_emitted?_iff (h.typedefs_expand ty)
  refine ⟨⟨?_, ?_⟩, hservices.mpr, ?_⟩
  · rintro ⟨text, htext⟩
    obtain ⟨held, hheld, hsuit, _⟩ := (typeText_eq_ok_iff h).mp htext
    refine ⟨hservices.mp ⟨held, hheld⟩, fun other hother => ?_⟩
    cases hheld.symm.trans hother
    exact hsuit
  · rintro ⟨hnone, hsuit⟩
    obtain ⟨held, hheld⟩ := hservices.mpr hnone
    exact ⟨_, (typeText_eq_ok_iff h).mpr ⟨held, hheld, hsuit held hheld, rfl⟩⟩
  · intro text htext
    obtain ⟨held, hheld, _, hsame⟩ := (typeText_eq_ok_iff h).mp htext
    exact ⟨held, hheld, hsame⟩

abbrev atlasCensus : Census where
  records := 1
  enums := 0
  typedefs := 1
  services := 0

abbrev placeId : Fin atlasCensus.records := ⟨0, by decide⟩
abbrev namesId : Fin atlasCensus.typedefs := ⟨0, by decide⟩

/-- Ordered sets and hashed maps, with a typedef for a set. -/
def atlas : Target atlasCensus where
  schema := {
    records := #v[{ name := "Place", fields := [{ id := 1, name := "height", ty := .i32 }] }]
    enums := .ofFn Fin.elim0
    typedefs := #v[{ name := "Names", target := .set .string }]
    services := .ofFn Fin.elim0 }
  config := { set := .ordered }

/-- A set of texts can be a key, since it is ordered, and a record cannot be an element of such a
set. -/
theorem atlas_typeText :
    atlas.schema.NoTypedefHoldsItself ∧
      (∃ text, atlas.typeText (atlas.shape
        (.map (.typedef namesId) (.record .struct placeId))) = .ok text) ∧
      ¬ ∃ text, atlas.typeText (atlas.shape (.set (.record .struct placeId))) = .ok text := by
  have hself : atlas.schema.NoTypedefHoldsItself :=
    Schema.noTypedefHoldsItself_of_rank Fin.val (by decide)
  refine ⟨hself, (typeText_iff_keysSuit atlas hself _).1.mpr ⟨rfl, ?_⟩, fun hplaces => ?_⟩
  · intro held hheld form key hkey
    cases hheld
    cases hkey with
    | key => exact ⟨.set (.string _), fun hordered => by cases hordered⟩
    | ofKey hinner =>
        cases hinner with
        | element => exact ⟨.string _, fun _ => .string _⟩
        | ofSet hnone => cases hnone
    | ofValue hinner => cases hinner
  · obtain ⟨_, hsuit⟩ := (typeText_iff_keysSuit atlas hself _).1.mp hplaces
    cases (hsuit _ rfl _ _ .element).2 rfl

end Target

end WireIdl
