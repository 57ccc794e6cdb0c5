import WireIdl.Proofs.Demo
import WireIdl.Proofs.Record.RoundTrip
import WireIdl.Proofs.Value.Twin

/-! A reader that refuses fields of another wire type, beside one that skips them. As long as the
first refuses no such field, both do the same on every source, down to the bytes left and the fault;
the values they give have one content, each in the containers of its configuration. -/

namespace WireIdl

def Fault.IsTypeMismatch (fault : Fault) : Prop :=
  ∃ field expected actual, fault = .typeMismatch field expected actual

namespace Reader

variable {α β σ τ : Type} {R : α → β → Prop} {S : σ → τ → Prop}

/-- What a strict and a tolerant reader make of one source. -/
inductive Outcomes (R : α → β → Prop) :
    EStateM.Result Fault Source α → EStateM.Result Fault Source β → Prop where
  | ok {a : α} {b : β} {rest : Source} (related : R a b) : Outcomes R (.ok a rest) (.ok b rest)
  | refused {fault : Fault} {left : Source} {other : EStateM.Result Fault Source β}
      (mismatch : fault.IsTypeMismatch) : Outcomes R (.error fault left) other
  | failed (fault : Fault) (left : Source) : Outcomes R (.error fault left) (.error fault left)

def Agrees (R : α → β → Prop) (strict : Reader α) (tolerant : Reader β) : Prop :=
  ∀ source, Outcomes R (strict source) (tolerant source)

theorem agrees_pure {a : α} {b : β} (h : R a b) : Agrees R (pure a) (pure b) :=
  fun _ => .ok h

theorem agrees_throw (fault : Fault) : Agrees R (throw fault) (throw fault) :=
  fun source => .failed fault source

theorem agrees_self (x : Reader α) : Agrees Eq x x := by
  intro source
  cases x source with
  | ok a rest => exact .ok rfl
  | error fault left => exact .failed fault left

theorem Agrees.bind {x : Reader α} {y : Reader β} {f : α → Reader σ} {g : β → Reader τ}
    (hx : Agrees R x y) (hnext : ∀ a b, R a b → Agrees S (f a) (g b)) :
    Agrees S (x >>= f) (y >>= g) := by
  intro source
  change Outcomes S (EStateM.bind x f source) (EStateM.bind y g source)
  rw [EStateM.bind, EStateM.bind]
  have hsource := hx source
  generalize x source = strict at hsource
  generalize y source = tolerant at hsource
  cases hsource with
  | ok hab => exact hnext _ _ hab _
  | refused hmismatch => exact .refused hmismatch
  | failed fault left => exact .failed fault left

theorem agrees_bind_self {x : Reader α} {f : α → Reader σ} {g : α → Reader τ}
    (hnext : ∀ a, Agrees S (f a) (g a)) : Agrees S (x >>= f) (x >>= g) := by
  refine (agrees_self x).bind fun a b hab => ?_
  subst hab
  exact hnext a

theorem Agrees.collect {x : Reader α} {y : Reader β} (hx : Agrees R x y) (count : Nat) :
    Agrees (List.Forall₂ R) (collect x count) (collect y count) := by
  induction count with
  | zero => exact agrees_pure .nil
  | succ count ih =>
      refine hx.bind fun a b hab => ?_
      refine ih.bind fun as bs habs => ?_
      exact agrees_pure (.cons hab habs)

section Frames

variable {field : FieldHeader → σ → Reader σ} {other : FieldHeader → τ → Reader τ}

theorem agrees_fields
    (hfield : ∀ header s t, S s t → Agrees S (field header s) (other header t))
    (bytes : Nat) {s : σ} {t : τ} (hst : S s t) :
    Agrees S (fields field bytes s) (fields other bytes t) := by
  induction bytes generalizing s t with
  | zero => exact agrees_throw _
  | succ bytes ih =>
      refine agrees_bind_self fun header => ?_
      split
      · exact agrees_pure hst
      · exact (hfield header s t hst).bind fun _ _ hnext => ih hnext

theorem agrees_frame
    (hfield : ∀ header s t, S s t → Agrees S (field header s) (other header t))
    {s : σ} {t : τ} (hst : S s t) : Agrees S (frame field s) (frame other t) := by
  refine agrees_bind_self fun _ => agrees_bind_self fun source => ?_
  refine (agrees_fields hfield source.unread.length hst).bind fun _ _ hnext => ?_
  exact agrees_bind_self fun _ => agrees_pure hnext

end Frames

end Reader

namespace RecordDecl

variable {n : Census} {R : Value → Value → Prop} {slots others : Slots}

theorem firstMissing?_of_forall₂ (fields : List (Field n))
    (h : List.Forall₂ (Option.Rel R) slots others) :
    firstMissing? fields slots = firstMissing? fields others := by
  induction h generalizing fields with
  | nil => rfl
  | cons hslot _ ih =>
      cases fields with
      | nil => cases hslot <;> rfl
      | cons field fields => cases hslot <;> simp only [firstMissing?, ih fields]

theorem countP_isSome_of_forall₂ (h : List.Forall₂ (Option.Rel R) slots others) :
    slots.countP (·.isSome) = others.countP (·.isSome) := by
  induction h with
  | nil => rfl
  | cons hslot _ ih => cases hslot <;> simp [ih]

/-- Whether a record can be built depends only on which fields are there. -/
theorem build_of_forall₂ (decl : RecordDecl n) (h : List.Forall₂ (Option.Rel R) slots others) :
    (decl.build slots = .ok (.record slots) ∧ decl.build others = .ok (.record others)) ∨
      ∃ fault, decl.build slots = .error fault ∧ decl.build others = .error fault := by
  rw [build, build, firstMissing?_of_forall₂ decl.fields h, countP_isSome_of_forall₂ h]
  split
  · dsimp only
    split
    · exact .inl ⟨rfl, rfl⟩
    · exact .inr ⟨_, rfl, rfl⟩
  · split
    · exact .inr ⟨_, rfl, rfl⟩
    · exact .inl ⟨rfl, rfl⟩

end RecordDecl

open Value Reader

variable {n : Census} {s : Schema n} {c d : Config}

namespace Target

section Records

variable {record record' : Fin n.records → Reader Value}

theorem agrees_readValueWith (hrecord : ∀ id, Agrees (Twin c d) (record id) (record' id))
    (shape : Shape n) :
    Agrees (Twin c d) (readValueWith ⟨s, c⟩ record shape) (readValueWith ⟨s, d⟩ record' shape) := by
  induction shape with
  | bool | byte | i16 | i32 | i64 | double | string | binary =>
      exact agrees_bind_self fun _ => agrees_pure (twin_of_isLeaf trivial)
  | enum id =>
      refine agrees_bind_self fun value => ?_
      dsimp only
      cases (s.enum id).memberByValue? value with
      | none => exact agrees_throw _
      | some _ => exact agrees_pure (twin_of_isLeaf trivial)
  | record id => exact hrecord id
  | list _ _ ih =>
      refine agrees_bind_self fun header => ?_
      exact ((ih ()).collect header.size).bind fun _ _ hitems => agrees_pure (twin_seq hitems)
  | set _ _ ih =>
      refine agrees_bind_self fun header => ?_
      exact ((ih ()).collect header.size).bind fun _ _ hitems => agrees_pure (twin_setOf hitems)
  | map _ _ _ _ ihKey ihValue =>
      refine agrees_bind_self fun header => ?_
      refine (Agrees.collect (R := TwinEntry c d) ?_ header.size).bind fun _ _ hentries =>
        agrees_pure (twin_mapOf hentries)
      refine (ihKey ()).bind fun _ _ hkey => ?_
      exact (ihValue ()).bind fun _ _ hvalue => agrees_pure ⟨hkey, hvalue⟩
  | void | service | cyclic => exact agrees_throw _

theorem agrees_readField (hstrict : c.fieldTypeChecks = true)
    (hrecord : ∀ id, Agrees (Twin c d) (record id) (record' id)) (fields : List (KnownField n))
    (header : FieldHeader) (slots others : Slots)
    (hslots : List.Forall₂ (Option.Rel (Twin c d)) slots others) :
    Agrees (List.Forall₂ (Option.Rel (Twin c d))) (readField ⟨s, c⟩ record fields header slots)
      (readField ⟨s, d⟩ record' fields header others) := by
  induction hslots generalizing fields with
  | nil =>
      cases fields <;> exact agrees_bind_self fun _ => agrees_pure .nil
  | cons hslot hrest ih =>
      cases fields with
      | nil => exact agrees_bind_self fun _ => agrees_pure (.cons hslot hrest)
      | cons field fields =>
          rw [readField, readField]
          split
          · split
            · refine (agrees_readValueWith hrecord field.shape).bind fun _ _ htwin => ?_
              exact agrees_pure (.cons (.some htwin) hrest)
            · intro source
              rw [mismatched, if_pos hstrict]
              exact .refused ⟨_, _, _, rfl⟩
          · exact (ih fields).bind fun _ _ hothers => agrees_pure (.cons hslot hothers)

end Records

theorem agrees_readRecordWithin (hstrict : c.fieldTypeChecks = true)
    (hdefaults : ∀ id, List.Forall₂ (Option.Rel (Twin c d))
      (Builder.new ⟨s, c⟩ id).slots (Builder.new ⟨s, d⟩ id).slots)
    (frames : Nat) (id : Fin n.records) :
    Agrees (Twin c d) (readRecordWithin ⟨s, c⟩ frames id) (readRecordWithin ⟨s, d⟩ frames id) := by
  induction frames generalizing id with
  | zero => exact agrees_throw _
  | succ frames ih =>
      refine (agrees_frame (agrees_readField hstrict ih _) (hdefaults id)).bind ?_
      intro slots others hslots
      dsimp only
      obtain ⟨hslot, hother⟩ | ⟨fault, hslot, hother⟩ :=
        (s.record id).build_of_forall₂ hslots
      · rw [hslot, hother]
        exact agrees_pure (twin_record hslots)
      · rw [hslot, hother]
        exact agrees_throw _

theorem isLeaf_of_fitsLeaf {t : Target n} {shape : Shape n} {v : Value}
    (h : t.fitsLeaf shape v = true) : v.IsLeaf := by
  unfold fitsLeaf at h
  split at h
  any_goals exact trivial
  cases h

end Target

namespace Demo

theorem slots_new_ordered :
    ∀ id : Fin census.records, (Builder.new hashed id).slots = (Builder.new ordered id).slots
  | 0 | 1 | 2 | 3 | 4 | 5 | 6 => rfl

theorem twins_defaults (id : Fin census.records) :
    List.Forall₂ (Option.Rel (Twin hashed.config ordered.config))
      (Builder.new hashed id).slots (Builder.new ordered id).slots := by
  rw [← slots_new_ordered, List.forall₂_same]
  intro slot hslot
  obtain ⟨field, hfield, rfl⟩ := List.mem_map.mp hslot
  have hleaf := fitsLeaf_of_mem_targets hashed List.mem_cons_self id field hfield
  cases hdefault : hashed.defaultValue? field with
  | none => exact .none
  | some v =>
      rw [hdefault] at hleaf
      exact .some (twin_of_isLeaf (Target.isLeaf_of_fitsLeaf hleaf))

theorem agrees_readShape (shape : Shape census) :
    Agrees (Twin hashed.config ordered.config) (hashed.readShape shape)
      (ordered.readShape shape) :=
  Target.agrees_readValueWith (Target.agrees_readRecordWithin rfl twins_defaults maxFrames) shape

theorem readShape_tolerates (shape : Shape census) (source : Source) :
    (∀ v rest, hashed.readShape shape source = .ok v rest →
      ∃ w, ordered.readShape shape source = .ok w rest ∧ v.Alike False w) ∧
    ∀ fault left, hashed.readShape shape source = .error fault left → ¬ fault.IsTypeMismatch →
      ordered.readShape shape source = .error fault left := by
  have houtcomes := agrees_readShape shape source
  constructor
  · intro v rest hread
    rw [hread] at houtcomes
    generalize ordered.readShape shape source = outcome at houtcomes
    cases houtcomes with
    | ok htwin => exact ⟨_, rfl, htwin.alike⟩
  · intro fault left hread hmismatch
    rw [hread] at houtcomes
    generalize ordered.readShape shape source = outcome at houtcomes
    cases houtcomes with
    | refused hrefused => exact absurd hrefused hmismatch
    | failed => rfl

/-- A user with two scopes, of which the second comes first in the order of text. -/
def scopesBytes : Bytes :=
  [0x0b, 0, 1, 0, 0, 0, 4, 0x75, 0x73, 0x65, 0x72, 0x0e, 0, 4, 0x0b, 0, 0, 0, 2,
    0, 0, 0, 1, 0x77, 0, 0, 0, 1, 0x72, 0, 9]

theorem readShape_scopesBytes :
    hashed.readShape (.record credentialsId) ⟨scopesBytes, 0⟩ =
        .ok (withScopes "w" "r") ⟨[9], 0⟩ ∧
      (∃ w, ordered.readShape (.record credentialsId) ⟨scopesBytes, 0⟩ = .ok w ⟨[9], 0⟩ ∧
        (withScopes "w" "r").Alike False w) ∧
      hashed.readShape (.record nodeId) ⟨scopesBytes.take 1, 0⟩ =
        .error .unexpectedEof ⟨[], 1⟩ ∧
      ¬ Fault.unexpectedEof.IsTypeMismatch ∧
      ordered.readShape (.record nodeId) ⟨scopesBytes.take 1, 0⟩ =
        .error .unexpectedEof ⟨[], 1⟩ := by
  have hscopes : Value.setOf .hashed [.string .owned "w", .string .owned "r"] =
      .set .hashed [.string .owned "w", .string .owned "r"] := by
    simp [Value.setOf, insertItem, addPart, same]
  have hread : hashed.readShape (.record credentialsId) ⟨scopesBytes, 0⟩ =
      .ok (withScopes "w" "r") ⟨[9], 0⟩ := by
    rw [withScopes, ← hscopes]
    rfl
  have hcut : hashed.readShape (.record nodeId) ⟨scopesBytes.take 1, 0⟩ =
      .error .unexpectedEof ⟨[], 1⟩ := rfl
  have hmismatch : ¬ Fault.unexpectedEof.IsTypeMismatch := by
    rintro ⟨_, _, _, hfault⟩
    cases hfault
  exact ⟨hread, (readShape_tolerates _ _).1 _ _ hread, hcut, hmismatch,
    (readShape_tolerates _ _).2 _ _ hcut hmismatch⟩

end Demo

end WireIdl
