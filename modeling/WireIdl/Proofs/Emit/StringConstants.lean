import WireIdl.Emit.Constants
import WireIdl.Emit.Head
import WireIdl.Proofs.Lists
import WireIdl.Proofs.Schema.Expansion

/-! Where the text of a constant comes from. A declaration follows names in rounds, an expression
follows them to a depth, and both come to the text at the end of the chain. They part at one length
only: after the last name that may be followed, the declaration has no round left in which to look
at what it has come to. -/

namespace WireIdl

open Code

variable {n : Census}

/-- The literal leads to the text by that many names of constants. -/
inductive Schema.LeadsTo (s : Schema n) : Nat → Literal → String → Prop where
  | text (text : String) : LeadsTo s 0 (.string text) text
  | name {k : Nat} {name text : String} {c : Constant n} (declared : s.constant? name = some c)
      (rest : LeadsTo s k c.value text) : LeadsTo s (k + 1) (.identifier name) text

namespace Schema

variable {s : Schema n} {v : Literal} {text : String}

theorem LeadsTo.unique {k k' : Nat} {text' : String} (h : s.LeadsTo k v text)
    (h' : s.LeadsTo k' v text') : k = k' ∧ text = text' := by
  induction h generalizing k' with
  | text =>
      cases h'
      exact ⟨rfl, rfl⟩
  | name hdeclared _ ih =>
      cases h' with
      | name hdeclared' hrest' =>
          rw [hdeclared] at hdeclared'
          cases hdeclared'
          obtain ⟨rfl, rfl⟩ := ih hrest'
          exact ⟨rfl, rfl⟩

/-- The name of a constant leads one step further than its value. -/
theorem exists_leadsTo_name {name : String} {c : Constant n} (h : s.constant? name = some c)
    (limit : Nat) :
    (∃ k < limit + 1, s.LeadsTo k (.identifier name) text) ↔
      ∃ k < limit, s.LeadsTo k c.value text := by
  constructor
  · rintro ⟨_, hlimit, hleads⟩
    cases hleads with
    | name hdeclared hrest =>
        rw [h] at hdeclared
        cases hdeclared
        exact ⟨_, by omega, hrest⟩
  · rintro ⟨k, hlimit, hleads⟩
    exact ⟨k + 1, by omega, .name h hleads⟩

theorem not_leadsTo_of_undeclared {name : String} (h : s.constant? name = none) (k : Nat) :
    ¬ s.LeadsTo k (.identifier name) text := by
  intro hleads
  cases hleads with
  | name hdeclared _ =>
      rw [h] at hdeclared
      cases hdeclared

end Schema

namespace Target

variable {t : Target n}

/-- A declaration looks at one literal in each round. -/
theorem followNames_eq_string_iff {rounds : Nat} {v : Literal} {text : String} :
    t.followNames rounds v = .ok (.string text) ↔ ∃ k < rounds, t.schema.LeadsTo k v text := by
  induction rounds generalizing v with
  | zero => simp [followNames]
  | succ rounds ih =>
      cases v with
      | identifier name =>
          rw [followNames]
          cases hname : t.schema.constant? name with
          | none =>
              refine iff_of_false nofun ?_
              rintro ⟨k, _, hleads⟩
              exact Schema.not_leadsTo_of_undeclared hname k hleads
          | some c => rw [Schema.exists_leadsTo_name hname, ih]
      | string v =>
          constructor
          · intro h
            cases h
            exact ⟨0, by omega, .text _⟩
          · rintro ⟨_, _, hleads⟩
            cases hleads
            rfl
      | int | double | list | map =>
          refine iff_of_false nofun ?_
          rintro ⟨_, _, hleads⟩
          cases hleads

theorem initializerWith_string_iff {limit : Nat} {ty : Ty n}
    {deref : Ty n → Shape n → Literal → Except EmitFault (Initializer n)}
    (hderef : ∀ v i, deref ty .string v = .ok i ↔
      ∃ text, (∃ k < limit, t.schema.LeadsTo k v text) ∧ i = .string text)
    {v : Literal} {i : Initializer n} :
    t.initializerWith deref ty .string v = .ok i ↔
      ∃ text, (∃ k < limit + 1, t.schema.LeadsTo k v text) ∧ i = .string text := by
  cases v with
  | identifier name =>
      change t.dereference deref ty .string name = .ok i ↔ _
      rw [dereference]
      cases hname : t.schema.constant? name with
      | none =>
          refine iff_of_false nofun ?_
          rintro ⟨text, ⟨k, _, hleads⟩, _⟩
          exact Schema.not_leadsTo_of_undeclared hname k hleads
      | some c => simp only [hderef, Schema.exists_leadsTo_name hname]
  | string v =>
      change Except.ok (Initializer.string v) = .ok i ↔ _
      constructor
      · intro h
        cases h
        exact ⟨v, ⟨0, by omega, .text v⟩, rfl⟩
      · rintro ⟨text, ⟨_, _, hleads⟩, rfl⟩
        cases hleads
        rfl
  | int | double | list | map =>
      refine iff_of_false nofun ?_
      rintro ⟨_, ⟨_, _, hleads⟩, _⟩
      cases hleads

/-- An expression looks at a literal, and at what so many names lead to. -/
theorem initializerWithin_string_iff {references : Nat} {ty : Ty n} {v : Literal}
    {i : Initializer n} :
    t.initializerWithin references ty .string v = .ok i ↔
      ∃ text, (∃ k < references + 1, t.schema.LeadsTo k v text) ∧ i = .string text := by
  induction references generalizing v i with
  | zero => exact initializerWith_string_iff fun v i => by simp
  | succ references ih => exact initializerWith_string_iff fun v i => ih

/-! ### Declarations and expressions -/

theorem shape_eq_string {ty : Ty n} (h : t.schema.trueType ty = .ok .string) :
    t.shape ty = .string := by
  obtain ⟨link, hshape⟩ := Schema.exists_shape_eq_ofTy h
  exact hshape

/-- The expression for a text. -/
def textExpr (text : String) : String :=
  "::std::string::String::from(" ++ Text.quote text ++ ")"

theorem literalText_string_iff {ty : Ty n} (h : t.schema.trueType ty = .ok .string) {v : Literal}
    {expr : String} :
    t.literalText ty v = .ok expr ↔
      ∃ text, (∃ k < maxReferences + 1, t.schema.LeadsTo k v text) ∧ expr = textExpr text := by
  rw [literalText, except_bind_eq_ok, initializer, shape_eq_string h]
  simp only [initializerWithin_string_iff]
  constructor
  · rintro ⟨_, ⟨text, hleads, rfl⟩, hexpr⟩
    cases hexpr
    exact ⟨text, hleads, rfl⟩
  · rintro ⟨text, hleads, rfl⟩
    exact ⟨_, ⟨text, hleads, rfl⟩, rfl⟩

end Target

/-- The declaration of a constant of this text. -/
def Constant.textSteps (c : Constant n) (text : String) : List Step :=
  headSteps c.doc? c.deprecated ++
    [.line ("pub const " ++ Ident.constant c.name ++ ": &str = " ++ Text.quote text ++ ";")]

namespace Target

variable {t : Target n} {c : Constant n}

theorem constantSteps_string_iff (h : t.schema.trueType c.ty = .ok .string) {steps : List Step} :
    t.constantSteps c = .ok steps ↔
      ∃ text, t.followNames maxReferences c.value = .ok (.string text) ∧
        steps = c.textSteps text := by
  rw [constantSteps, except_bind_eq_ok, constantLine, shape_eq_string h]
  simp only [except_bind_eq_ok]
  constructor
  · rintro ⟨line, ⟨v, hfollow, hline⟩, hsteps⟩
    cases v with
    | string text =>
        cases hline
        cases hsteps
        exact ⟨text, hfollow, rfl⟩
    | _ => cases hline
  · rintro ⟨text, hfollow, rfl⟩
    exact ⟨_, ⟨_, hfollow, rfl⟩, rfl⟩

theorem constantsCode_string_iff (h : t.schema.trueType c.ty = .ok .string) {code : String} :
    t.constantsCode [c] = .ok code ↔
      ∃ text, (∃ k < maxReferences, t.schema.LeadsTo k c.value text) ∧
        code = Step.render (c.textSteps text) := by
  have hgroup : t.constantsCode [c] = do return Step.render (← t.constantSteps c) := by
    simp [constantsCode, List.intercalate]
  rw [hgroup, except_bind_eq_ok]
  simp only [constantSteps_string_iff h, followNames_eq_string_iff]
  constructor
  · rintro ⟨_, ⟨text, hleads, rfl⟩, hcode⟩
    cases hcode
    exact ⟨text, hleads, rfl⟩
  · rintro ⟨text, hleads, rfl⟩
    exact ⟨_, ⟨text, hleads, rfl⟩, rfl⟩

/-- The declaration of a text constant has the text that the expression for its value has. Both are
there or neither is, except where the value leads to a text by the greatest number of names that an
expression follows. -/
theorem constantsCode_agrees_literalText (t : Target n) (c : Constant n)
    (h : t.schema.trueType c.ty = .ok .string) :
    (∀ code, t.constantsCode [c] = .ok code → ∃ text, code = Step.render (c.textSteps text) ∧
      t.literalText c.ty c.value = .ok (textExpr text)) ∧
    (((∃ code, t.constantsCode [c] = .ok code) ↔ ∃ expr, t.literalText c.ty c.value = .ok expr) ↔
      ∀ text, ¬ t.schema.LeadsTo maxReferences c.value text) := by
  have hdeclared : ∀ code, t.constantsCode [c] = .ok code → ∃ text,
      code = Step.render (c.textSteps text) ∧
        t.literalText c.ty c.value = .ok (textExpr text) := by
    intro code hcode
    obtain ⟨text, ⟨k, hk, hleads⟩, rfl⟩ := (constantsCode_string_iff h).mp hcode
    exact ⟨text, rfl, (literalText_string_iff h).mpr ⟨text, ⟨k, by omega, hleads⟩, rfl⟩⟩
  refine ⟨hdeclared, ?_, ?_⟩
  · intro hboth text hlast
    have hexpr := (literalText_string_iff h).mpr ⟨text, ⟨_, Nat.lt_succ_self _, hlast⟩, rfl⟩
    obtain ⟨code, hcode⟩ := hboth.mpr ⟨_, hexpr⟩
    obtain ⟨_, ⟨k, hk, hleads⟩, _⟩ := (constantsCode_string_iff h).mp hcode
    obtain ⟨rfl, _⟩ := hleads.unique hlast
    exact hk.false
  · intro hlast
    constructor
    · rintro ⟨code, hcode⟩
      obtain ⟨text, _, hexpr⟩ := hdeclared code hcode
      exact ⟨_, hexpr⟩
    · rintro ⟨expr, hexpr⟩
      obtain ⟨text, ⟨k, hk, hleads⟩, _⟩ := (literalText_string_iff h).mp hexpr
      have hne : k ≠ maxReferences := by
        rintro rfl
        exact hlast text hleads
      exact ⟨_, (constantsCode_string_iff h).mpr ⟨text, ⟨k, by omega, hleads⟩, rfl⟩⟩

end Target

abbrev echoCensus : Census where
  records := 0
  enums := 0
  typedefs := 1
  services := 0

abbrev soundId : Fin echoCensus.typedefs := ⟨0, by decide⟩

/-- A text, or the name of the echo before. -/
def echo (k : Nat) : Constant echoCensus where
  name := "ECHO_" ++ toString k
  ty := .typedef soundId
  value := if k = 0 then .string "hello" else .identifier ("ECHO_" ++ toString (k - 1))

def echoes : Target echoCensus where
  schema := {
    records := .ofFn Fin.elim0
    enums := .ofFn Fin.elim0
    typedefs := #v[{ name := "Sound", target := .string }]
    services := .ofFn Fin.elim0
    constants := (List.range 33).map echo }
  config := {}

set_option maxRecDepth 4000 in
/-- By thirty-one names, a declaration and an expression come to the same text. -/
theorem Target.echoes_agree :
    echoes.schema.trueType (echo 31).ty = .ok .string ∧
      ∃ code text, echoes.constantsCode [echo 31] = .ok code ∧
        code = Step.render ((echo 31).textSteps text) ∧
        echoes.literalText (echo 31).ty (echo 31).value = .ok (textExpr text) := by
  have hfollow : echoes.followNames maxReferences (echo 31).value = .ok (.string "hello") := rfl
  have hcode := (constantsCode_string_iff (t := echoes) (c := echo 31) rfl).mpr
    ⟨"hello", followNames_eq_string_iff.mp hfollow, rfl⟩
  obtain ⟨text, hdeclared, hexpr⟩ :=
    (constantsCode_agrees_literalText echoes (echo 31) rfl).1 _ hcode
  exact ⟨rfl, _, text, hcode, hdeclared, hexpr⟩

/-- By thirty-two names, only the expression comes to it. -/
theorem Target.echoes_part :
    echoes.schema.trueType (echo 32).ty = .ok .string ∧
      echoes.literalText (echo 32).ty (echo 32).value =
        .ok "::std::string::String::from(\"hello\")" ∧
      echoes.constantsCode [echo 32] = .error (.constantDepth 32) := by
  refine ⟨rfl, ?_, ?_⟩
  · decide +kernel
  · decide +kernel

end WireIdl
