import WireIdl.Emit.Initializer
import WireIdl.Proofs.Lists
import WireIdl.Proofs.Parallel
import WireIdl.Proofs.Schema.Expansion

/-! Names of constants stand for their values. A literal is rendered as it is rendered with the
value of each constant in the place of its name, and not at all if this cannot be done. -/

namespace WireIdl

variable {n : Census}

/-- Whether a name at a type stands for itself: a member of an enum, or a truth value. -/
def Ty.keepsName : Ty n → String → Bool
  | .enum _, _ => true
  | .bool, name => name == "true" || name == "false"
  | _, _ => false

namespace Schema

mutual

/-- A literal with the values of constants in the places of their names; `follow` goes on inside
such a value. A list or map at a type that is none has no types for its parts and stays. -/
def inlineWith (s : Schema n) (follow : Ty n → Literal → Option Literal) (ty : Ty n) :
    Literal → Option Literal
  | .identifier name =>
      match s.trueType ty with
      | .error _ => none
      | .ok core =>
          if core.keepsName name then some (.identifier name)
          else
            match s.constant? name with
            | none => none
            | some c => follow ty c.value
  | .list items =>
      match s.trueType ty with
      | .ok (.list element) | .ok (.set element) =>
          (s.inlineItems follow element items).map .list
      | _ => some (.list items)
  | .map entries =>
      match s.trueType ty with
      | .ok (.map key value) => (s.inlineEntries follow key value entries).map .map
      | _ => some (.map entries)
  | v => some v

def inlineItems (s : Schema n) (follow : Ty n → Literal → Option Literal) (ty : Ty n) :
    List Literal → Option (List Literal)
  | [] => some []
  | item :: items => do
      let item ← s.inlineWith follow ty item
      return item :: (← s.inlineItems follow ty items)

def inlineEntries (s : Schema n) (follow : Ty n → Literal → Option Literal) (keyTy valueTy : Ty n) :
    List (Literal × Literal) → Option (List (Literal × Literal))
  | [] => some []
  | (key, value) :: entries => do
      let key ← s.inlineWith follow keyTy key
      let value ← s.inlineWith follow valueTy value
      return (key, value) :: (← s.inlineEntries follow keyTy valueTy entries)

end

/-- A literal with its constants inlined, at most `references` of them one inside the other. -/
def inlineWithin (s : Schema n) : Nat → Ty n → Literal → Option Literal
  | 0 => s.inlineWith fun _ _ => none
  | references + 1 => s.inlineWith (s.inlineWithin references)

def inline? (s : Schema n) (ty : Ty n) (v : Literal) : Option Literal :=
  s.inlineWithin maxReferences ty v

end Schema

/-- What becomes of a computation on a literal: it fails if the literal cannot be inlined, and
otherwise does the same as the computation on the inlined literal. -/
inductive Inlines {α β : Type} (again : β → Except EmitFault α) (x : Except EmitFault α) :
    Option β → Prop where
  | undefined (fails : ∀ a, x ≠ .ok a) : Inlines again x none
  | defined {v : β} (same : Parallel Eq x (again v)) : Inlines again x (some v)

theorem Inlines.map {α β γ : Type} {again : β → Except EmitFault α} {x : Except EmitFault α}
    {result : Option γ} {f : γ → β} (h : Inlines (fun v => again (f v)) x result) :
    Inlines again x (result.map f) := by
  cases h with
  | undefined hfails => exact .undefined hfails
  | defined hsame => exact .defined hsame

theorem Inlines.of_eq {α β : Type} {again : β → Except EmitFault α} {x : Except EmitFault α} {v : β}
    (h : x = again v) : Inlines again x (some v) :=
  .defined (h ▸ .refl (fun _ => rfl) _)

theorem Inlines.eq_ok_iff {α β : Type} {again : β → Except EmitFault α} {x : Except EmitFault α}
    {result : Option β} (h : Inlines again x result) {a : α} :
    x = .ok a ↔ ∃ v, result = some v ∧ again v = .ok a := by
  cases h with
  | undefined hfails => simp [hfails a]
  | defined hsame => simp [hsame.eq_ok_iff]

/-- A computation goes on in the same way, with another result. -/
theorem Inlines.bind_return {α β γ δ : Type} {again : β → Except EmitFault α}
    {x : Except EmitFault α} {result : Option β} (h : Inlines again x result)
    (first : Except EmitFault γ) (f : α → δ) :
    Inlines (fun v => do let _ ← first; return f (← again v)) (do let _ ← first; return f (← x))
      result := by
  cases h with
  | undefined hfails =>
      refine .undefined fun a ha => ?_
      obtain ⟨_, _, ha⟩ := except_bind_eq_ok.mp ha
      obtain ⟨a, ha, _⟩ := except_bind_eq_ok.mp ha
      exact hfails a ha
  | defined hsame =>
      refine .defined ((Parallel.refl (fun _ => rfl) first).bind_same fun _ => ?_)
      exact hsame.bind_same fun _ => .ok rfl

/-- Two computations one after the other, on the two parts of a literal. -/
theorem Inlines.seq {α β γ δ κ η : Type} {again : β → Except EmitFault α}
    {next : δ → Except EmitFault γ} {whole : η → Except EmitFault κ} {x : Except EmitFault α}
    {y : Except EmitFault γ} {first : Option β} {second : Option δ} {g : α → γ → κ}
    {f : β → δ → η} (hx : Inlines again x first) (hy : Inlines next y second)
    (hwhole : ∀ v w, whole (f v w) = do return g (← again v) (← next w)) :
    Inlines whole (do return g (← x) (← y)) (do return f (← first) (← second)) := by
  cases hx with
  | undefined hfails =>
      refine .undefined fun result hresult => ?_
      obtain ⟨a, ha, _⟩ := except_bind_eq_ok.mp hresult
      exact hfails a ha
  | defined hsame =>
      cases hy with
      | undefined hfails =>
          refine .undefined fun result hresult => ?_
          obtain ⟨_, _, hresult⟩ := except_bind_eq_ok.mp hresult
          obtain ⟨b, hb, _⟩ := except_bind_eq_ok.mp hresult
          exact hfails b hb
      | defined hother =>
          refine .defined ?_
          rw [hwhole]
          exact hsame.bind_same fun _ => hother.bind_same fun _ => .ok rfl

namespace Target

variable {t : Target n}
  {deref other : Ty n → Shape n → Literal → Except EmitFault (Initializer n)}
  {follow : Ty n → Literal → Option Literal}

theorem inlines_dereference {ty : Ty n}
    (hderef : ∀ v, Inlines (t.initializerWith other ty (t.shape ty))
      (deref ty (t.shape ty) v) (follow ty v)) (name : String) :
    Inlines (t.initializerWith other ty (t.shape ty)) (t.dereference deref ty (t.shape ty) name)
      (match t.schema.constant? name with
        | none => none
        | some c => follow ty c.value) := by
  rw [dereference]
  cases t.schema.constant? name with
  | none => exact .undefined fun _ hok => by cases hok
  | some c => exact hderef c.value

theorem initializerWith_of_keepsName {core : Ty n} {name : String}
    (h : core.keepsName name = true) (ty : Ty n) :
    t.initializerWith deref ty (t.shape core) (.identifier name) =
      t.initializerWith other ty (t.shape core) (.identifier name) := by
  cases core with
  | enum id => rfl
  | bool =>
      obtain rfl | rfl : name = "true" ∨ name = "false" := by simpa [Ty.keepsName] using h
      · rfl
      · rfl
  | _ => cases h

theorem initializerWith_of_not_keepsName {core : Ty n} {name : String}
    (hcore : ∀ id, core ≠ .typedef id) (h : core.keepsName name = false) (ty : Ty n) :
    t.initializerWith deref ty (t.shape core) (.identifier name) =
      t.dereference deref ty (t.shape core) name := by
  cases core with
  | typedef id => exact absurd rfl (hcore id)
  | enum id => cases h
  | bool =>
      rw [Ty.keepsName, Bool.or_eq_false_iff] at h
      change (if _ then _ else if _ then _ else _) = _
      rw [h.1, h.2]
      rfl
  | _ => rfl

theorem inlines_identifier {ty core : Ty n} (hcore : ∀ id, core ≠ .typedef id)
    (htrue : t.schema.trueType ty = .ok core) (hshape : t.shape ty = t.shape core)
    (hderef : ∀ v, Inlines (t.initializerWith other ty (t.shape ty))
      (deref ty (t.shape ty) v) (follow ty v)) (name : String) :
    Inlines (t.initializerWith other ty (t.shape ty))
      (t.initializerWith deref ty (t.shape ty) (.identifier name))
      (t.schema.inlineWith follow ty (.identifier name)) := by
  have hname := inlines_dereference hderef name
  simp only [Schema.inlineWith, htrue]
  rw [hshape] at hname ⊢
  by_cases hkeeps : core.keepsName name = true
  · rw [if_pos hkeeps]
    exact .of_eq (initializerWith_of_keepsName hkeeps ty)
  · rw [if_neg hkeeps, initializerWith_of_not_keepsName hcore (Bool.not_eq_true _ ▸ hkeeps) ty]
    exact hname

mutual

theorem inlines_initializerWith (h : t.schema.NoTypedefHoldsItself)
    (hderef : ∀ ty v, Inlines (t.initializerWith other ty (t.shape ty))
      (deref ty (t.shape ty) v) (follow ty v)) (ty : Ty n) (v : Literal) :
    Inlines (t.initializerWith other ty (t.shape ty)) (t.initializerWith deref ty (t.shape ty) v)
      (t.schema.inlineWith follow ty v) := by
  obtain ⟨core, htrue, hends⟩ := h.exists_trueType ty
  have hshape : t.shape ty = t.shape core := h.shape_of_endsAt htrue hends
  match v with
  | .identifier name => exact inlines_identifier hends.ne_typedef htrue hshape (hderef ty) name
  | .int v => exact .of_eq (by cases t.shape ty <;> rfl)
  | .double v => exact .of_eq (by cases t.shape ty <;> rfl)
  | .string v => exact .of_eq (by cases t.shape ty <;> rfl)
  | .list items =>
      simp only [Schema.inlineWith, htrue]
      rw [hshape]
      cases core with
      | list element | set element =>
          have hitems := inlines_initializerItems h hderef element items
          exact .map (hitems.bind_return (t.typeText _) _)
      | typedef id => exact absurd rfl (hends.ne_typedef id)
      | _ => exact .defined .error
  | .map entries =>
      simp only [Schema.inlineWith, htrue]
      rw [hshape]
      cases core with
      | map key value =>
          have hentries := inlines_initializerEntries h hderef key value entries
          exact .map (hentries.bind_return (t.typeText _) _)
      | typedef id => exact absurd rfl (hends.ne_typedef id)
      | _ => exact .defined .error

theorem inlines_initializerItems (h : t.schema.NoTypedefHoldsItself)
    (hderef : ∀ ty v, Inlines (t.initializerWith other ty (t.shape ty))
      (deref ty (t.shape ty) v) (follow ty v)) (ty : Ty n) (items : List Literal) :
    Inlines (t.initializerItems other ty (t.shape ty))
      (t.initializerItems deref ty (t.shape ty) items)
      (t.schema.inlineItems follow ty items) := by
  match items with
  | [] => exact .defined (.ok rfl)
  | item :: items =>
      have hitem := inlines_initializerWith h hderef ty item
      have hitems := inlines_initializerItems h hderef ty items
      exact hitem.seq hitems fun _ _ => rfl

theorem inlines_initializerEntries (h : t.schema.NoTypedefHoldsItself)
    (hderef : ∀ ty v, Inlines (t.initializerWith other ty (t.shape ty))
      (deref ty (t.shape ty) v) (follow ty v)) (keyTy valueTy : Ty n)
    (entries : List (Literal × Literal)) :
    Inlines (t.initializerEntries other keyTy (t.shape keyTy) valueTy (t.shape valueTy))
      (t.initializerEntries deref keyTy (t.shape keyTy) valueTy (t.shape valueTy) entries)
      (t.schema.inlineEntries follow keyTy valueTy entries) := by
  match entries with
  | [] => exact .defined (.ok rfl)
  | (key, value) :: entries =>
      have hkey := inlines_initializerWith h hderef keyTy key
      have hvalue := inlines_initializerWith h hderef valueTy value
      have hentries := inlines_initializerEntries h hderef keyTy valueTy entries
      -- Key and value first make an entry, so that the entries are items of one kind.
      let again (entry : Literal × Literal) : Except EmitFault (Initializer n × Initializer n) := do
        return (← t.initializerWith other keyTy (t.shape keyTy) entry.1,
          ← t.initializerWith other valueTy (t.shape valueTy) entry.2)
      have hentry : Inlines again _ _ :=
        hkey.seq (g := Prod.mk) (f := Prod.mk) hvalue fun _ _ => rfl
      have hall : Inlines
          (t.initializerEntries other keyTy (t.shape keyTy) valueTy (t.shape valueTy)) _ _ :=
        hentry.seq (g := List.cons) (f := List.cons) hentries fun _ _ => by
          simp [initializerEntries, again]
      simpa [initializerEntries, Schema.inlineEntries, Option.bind_assoc] using hall

end

theorem inlines_initializerWithin (h : t.schema.NoTypedefHoldsItself) (references : Nat) (ty : Ty n)
    (v : Literal) :
    Inlines (t.initializerWith other ty (t.shape ty))
      (t.initializerWithin references ty (t.shape ty) v)
      (t.schema.inlineWithin references ty v) := by
  -- What a constant stands for may be followed once less than the literal that names it.
  induction references generalizing ty v with
  | zero => exact inlines_initializerWith h (fun _ _ => .undefined fun _ hok => by cases hok) ty v
  | succ references ih => exact inlines_initializerWith h ih ty v

end Target

namespace Schema

variable {s : Schema n} {follow other : Ty n → Literal → Option Literal}

/-! ### Nothing is left to inline -/

mutual

theorem inlineWith_again
    (hfollow : ∀ ty v v', follow ty v = some v' → s.inlineWith other ty v' = some v') {ty : Ty n}
    {v v' : Literal} (h : s.inlineWith follow ty v = some v') :
    s.inlineWith other ty v' = some v' := by
  match v with
  | .identifier name =>
      simp only [inlineWith] at h
      split at h
      · cases h
      · next core htrue =>
          split at h
          · next hkeeps =>
              cases h
              simp only [inlineWith, htrue, if_pos hkeeps]
          · split at h
            · cases h
            · exact hfollow _ _ _ h
  | .int _ | .double _ | .string _ =>
      cases h
      rfl
  | .list items =>
      simp only [inlineWith] at h
      split at h
      · next element htrue =>
          obtain ⟨items', hitems, rfl⟩ := Option.map_eq_some_iff.mp h
          simp only [inlineWith, htrue, inlineItems_again hfollow hitems, Option.map_some]
      · next element htrue =>
          obtain ⟨items', hitems, rfl⟩ := Option.map_eq_some_iff.mp h
          simp only [inlineWith, htrue, inlineItems_again hfollow hitems, Option.map_some]
      · cases h
        simp only [inlineWith]
  | .map entries =>
      simp only [inlineWith] at h
      split at h
      · next key value htrue =>
          obtain ⟨entries', hentries, rfl⟩ := Option.map_eq_some_iff.mp h
          simp only [inlineWith, htrue, inlineEntries_again hfollow hentries, Option.map_some]
      · cases h
        simp only [inlineWith]

theorem inlineItems_again
    (hfollow : ∀ ty v v', follow ty v = some v' → s.inlineWith other ty v' = some v') {ty : Ty n}
    {items items' : List Literal} (h : s.inlineItems follow ty items = some items') :
    s.inlineItems other ty items' = some items' := by
  match items with
  | [] =>
      cases h
      rfl
  | item :: items =>
      simp only [inlineItems, Option.bind_eq_bind, Option.bind_eq_some_iff] at h
      obtain ⟨item', hitem, rest, hrest, hmade⟩ := h
      cases hmade
      rw [inlineItems, inlineWith_again hfollow hitem, inlineItems_again hfollow hrest]
      rfl

theorem inlineEntries_again
    (hfollow : ∀ ty v v', follow ty v = some v' → s.inlineWith other ty v' = some v')
    {keyTy valueTy : Ty n} {entries entries' : List (Literal × Literal)}
    (h : s.inlineEntries follow keyTy valueTy entries = some entries') :
    s.inlineEntries other keyTy valueTy entries' = some entries' := by
  match entries with
  | [] =>
      cases h
      rfl
  | (key, value) :: entries =>
      simp only [inlineEntries, Option.bind_eq_bind, Option.bind_eq_some_iff] at h
      obtain ⟨key', hkey, value', hvalue, rest, hrest, hmade⟩ := h
      cases hmade
      rw [inlineEntries, inlineWith_again hfollow hkey, inlineWith_again hfollow hvalue,
        inlineEntries_again hfollow hrest]
      rfl

end

theorem inlineWithin_again {references : Nat} {ty : Ty n} {v v' : Literal}
    (h : s.inlineWithin references ty v = some v') : s.inlineWithin 0 ty v' = some v' := by
  induction references generalizing ty v v' with
  | zero => exact inlineWith_again (fun _ _ _ hnone => by cases hnone) h
  | succ references ih => exact inlineWith_again (fun _ _ _ => ih) h

end Schema

/-- A literal has a text exactly if its constants can be inlined and the inlined literal has that
text; in the inlined literal no constant is left. -/
theorem Target.literalText_inline (t : Target n) (h : t.schema.NoTypedefHoldsItself) (ty : Ty n)
    (v : Literal) :
    (∀ text, t.literalText ty v = .ok text ↔
      ∃ v', t.schema.inline? ty v = some v' ∧ t.literalText ty v' = .ok text) ∧
      ∀ v', t.schema.inline? ty v = some v' → t.schema.inlineWithin 0 ty v' = some v' := by
  have hinlines : Inlines (t.initializer ty) (t.initializer ty v) (t.schema.inline? ty v) :=
    inlines_initializerWithin h maxReferences ty v
  refine ⟨fun text => ?_, fun v' => Schema.inlineWithin_again⟩
  simp only [literalText, except_bind_eq_ok]
  constructor
  · rintro ⟨i, hi, htext⟩
    obtain ⟨v', hinlined, hi'⟩ := hinlines.eq_ok_iff.mp hi
    exact ⟨v', hinlined, i, hi', htext⟩
  · rintro ⟨v', hinlined, i, hi', htext⟩
    exact ⟨i, hinlines.eq_ok_iff.mpr ⟨v', hinlined, hi'⟩, htext⟩

abbrev ladderCensus : Census where
  records := 0
  enums := 0
  typedefs := 1
  services := 0

abbrev stepsId : Fin ladderCensus.typedefs := ⟨0, by decide⟩

/-- A constant of seven, and thirty-two more that each refer to the one before. -/
def ladder : Target ladderCensus where
  schema := {
    records := .ofFn Fin.elim0
    enums := .ofFn Fin.elim0
    typedefs := #v[{ name := "Steps", target := .list .i32 }]
    services := .ofFn Fin.elim0
    constants := (List.range 33).map fun k =>
      { name := "STEP_" ++ toString k
        ty := .i32
        value := if k = 0 then .int 7 else .identifier ("STEP_" ++ toString (k - 1)) } }
  config := {}

set_option maxRecDepth 4000 in
/-- Thirty-two references in a row are followed, and no more. -/
theorem Target.ladder_literalText :
    ladder.schema.NoTypedefHoldsItself ∧
      ladder.literalText (.typedef stepsId) (.list [.identifier "STEP_31", .int 2]) =
        .ok "::std::vec::Vec::from([7, 2])" ∧
      ∀ text, ladder.literalText (.typedef stepsId) (.list [.identifier "STEP_32"]) ≠ .ok text := by
  have hladder : ladder.schema.NoTypedefHoldsItself :=
    Schema.noTypedefHoldsItself_of_rank Fin.val (by decide)
  refine ⟨hladder, ?_, fun text htext => ?_⟩
  · exact ((literalText_inline ladder hladder _ _).1 _).mpr ⟨.list [.int 7, .int 2], rfl, rfl⟩
  · obtain ⟨_, hinlined, _⟩ := ((literalText_inline ladder hladder _ _).1 text).mp htext
    have hnone : (ladder.schema.inline? (.typedef stepsId)
        (.list [.identifier "STEP_32"])).isSome = false := by decide +kernel
    rw [hinlined] at hnone
    cases hnone

end WireIdl
