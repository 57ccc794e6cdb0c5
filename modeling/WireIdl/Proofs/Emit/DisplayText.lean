import WireIdl.Proofs.Emit.Boxing
import WireIdl.Proofs.Emit.Summaries
import WireIdl.Proofs.Text.Quoted
import WireIdl.Record.Display

/-! The text of a record as emitted code writes it. The format string is read by the rules of the
emitted language, and each argument is an expression over the fields of the record. Main statement:
the format takes all arguments in their order and shows of each field what it may show; run on a
record, the code writes the text of the record. -/

namespace WireIdl

open Code

variable {n : Census} {α β : Type}

/-! ### Format strings -/

/-- A part of what a format string writes: a character of its own, or an argument. -/
inductive FormatPart (α : Type) where
  | char (c : Char)
  | arg (a : α)

namespace FormatPart

def ofText (s : String) : List (FormatPart α) :=
  s.toList.map .char

/-- What a format string writes with its arguments: a doubled brace is a brace, a pair of braces is
the next argument. There is no reading if a brace stands alone, or if there are too few or too many
arguments. -/
def fill : List Char → List α → Option (List (FormatPart α))
  | [], [] => some []
  | [], _ :: _ => none
  | '\x7b' :: '\x7b' :: cs, args => (fill cs args).map (.char '\x7b' :: ·)
  | '\x7d' :: '\x7d' :: cs, args => (fill cs args).map (.char '\x7d' :: ·)
  | '\x7b' :: '\x7d' :: cs, next :: args => (fill cs args).map (.arg next :: ·)
  | c :: cs, args =>
      if c = '\x7b' || c = '\x7d' then none else (fill cs args).map (.char c :: ·)

theorem fill_cons {c : Char} (h : ¬ (c = '\x7b' || c = '\x7d')) (cs : List Char) (args : List α) :
    fill (c :: cs) args = (fill cs args).map (.char c :: ·) := by
  rw [fill.eq_def]
  split <;> simp_all

theorem fill_append {cs cs' : List Char} {args args' : List α} {parts parts' : List (FormatPart α)}
    (h : fill cs args = some parts) (h' : fill cs' args' = some parts') :
    fill (cs ++ cs') (args ++ args') = some (parts ++ parts') := by
  -- Each step of the reading ends at a whole token, so what follows cannot change it.
  fun_induction fill cs args generalizing parts with
  | case1 =>
      cases h
      exact h'
  | case2 => cases h
  | case3 args cs ih | case4 args cs ih =>
      obtain ⟨rest, hrest, rfl⟩ := Option.map_eq_some_iff.mp h
      simp [fill, ih hrest]
  | case5 cs next args ih =>
      obtain ⟨rest, hrest, rfl⟩ := Option.map_eq_some_iff.mp h
      simp [fill, ih hrest]
  | case6 args c cs _ _ _ _ => cases h
  | case7 args c cs _ _ _ hbrace ih =>
      obtain ⟨rest, hrest, rfl⟩ := Option.map_eq_some_iff.mp h
      rw [List.cons_append, fill_cons hbrace, ih hrest]
      rfl

theorem fill_escapeBraces (s : String) :
    fill (escapeBraces s).toList ([] : List α) = some (ofText s) := by
  rw [escapeBraces, String.toList_ofList, ofText]
  induction s.toList with
  | nil => rfl
  | cons c cs ih =>
      rw [List.flatMap_cons, List.map_cons]
      by_cases hbrace : (c = '\x7b' || c = '\x7d') = true
      · rw [if_pos hbrace]
        simp only [Bool.or_eq_true, decide_eq_true_eq] at hbrace
        rcases hbrace with rfl | rfl
        · rw [List.cons_append, List.singleton_append, fill, ih]
          rfl
        · rw [List.cons_append, List.singleton_append, fill, ih]
          rfl
      · rw [if_neg hbrace, List.singleton_append, fill_cons hbrace, ih]
        rfl

theorem fill_intercalate {text : β → String} {args : β → List α}
    {parts : β → List (FormatPart α)} (h : ∀ b, fill (text b).toList (args b) = some (parts b))
    (bs : List β) :
    fill (", ".intercalate (bs.map text)).toList (bs.flatMap args) =
      some ((ofText ", ").intercalate (bs.map parts)) := by
  induction bs with
  | nil => rfl
  | cons b bs ih =>
      cases bs with
      | nil => simpa using h b
      | cons next bs =>
          have hcomma : fill ", ".toList ([] : List α) = some (ofText ", ") := rfl
          have hrest := fill_append (fill_append (h b) hcomma) ih
          simpa [String.intercalate_cons_cons, List.intercalate_cons_cons] using hrest

def write (shown : α → Option String) : List (FormatPart α) → Option String
  | [] => some ""
  | .char c :: parts => (write shown parts).map (String.singleton c ++ ·)
  | .arg a :: parts => (shown a).bind fun text => (write shown parts).map (text ++ ·)

variable {shown : α → Option String}

theorem write_append {parts parts' : List (FormatPart α)} {text text' : String}
    (h : write shown parts = some text) (h' : write shown parts' = some text') :
    write shown (parts ++ parts') = some (text ++ text') := by
  induction parts generalizing text with
  | nil =>
      cases h
      simpa using h'
  | cons part parts ih =>
      cases part with
      | char c =>
          obtain ⟨rest, hrest, rfl⟩ := Option.map_eq_some_iff.mp h
          rw [List.cons_append, write, ih hrest, Option.map_some, String.append_assoc]
      | arg a =>
          obtain ⟨first, hfirst, h⟩ := Option.bind_eq_some_iff.mp h
          obtain ⟨rest, hrest, rfl⟩ := Option.map_eq_some_iff.mp h
          rw [List.cons_append, write, hfirst, Option.bind_some, ih hrest, Option.map_some,
            String.append_assoc]

theorem write_ofText (s : String) : write shown (ofText s) = some s := by
  have hchars : ∀ cs : List Char, write shown (cs.map .char) = some (String.ofList cs) := by
    intro cs
    induction cs with
    | nil => rfl
    | cons c cs ih => simp [write, ih, String.ofList_cons]
  rw [ofText, hchars, String.ofList_toList]

theorem write_intercalate {partss : List (List (FormatPart α))} {texts : List String}
    (h : List.Forall₂ (fun parts text => write shown parts = some text) partss texts) :
    write shown ((ofText ", ").intercalate partss) = some (", ".intercalate texts) := by
  induction h with
  | nil => rfl
  | cons hfirst hrest ih =>
      cases hrest with
      | nil => simpa using hfirst
      | cons _ _ =>
          rw [List.intercalate_cons_cons, String.intercalate_cons_cons]
          exact write_append (write_append hfirst (write_ofText _)) ih

end FormatPart

/-! ### Arguments -/

inductive FieldExpr where
  | field (ident : String)
  | ref (e : FieldExpr)
  | pointee (e : FieldExpr)
  | present (e : FieldExpr)
  | asRef (e : FieldExpr)
  | asDeref (e : FieldExpr)
  | len (e : FieldExpr)
  | mapLen (e : FieldExpr)

inductive Learned where
  | value
  | length
  | hash
  deriving DecidableEq

namespace FieldExpr

def text : FieldExpr → String
  | .field ident => "self." ++ ident
  | .ref e => "&" ++ e.text
  | .pointee e => "&*" ++ e.text
  | .present e => "Some(" ++ e.text ++ ")"
  | .asRef e => e.text ++ ".as_ref()"
  | .asDeref e => e.text ++ ".as_deref()"
  | .len e => e.text ++ ".len()"
  | .mapLen e => e.text ++ ".map(|v| v.len())"

/-- The field in an expression, and what the expression tells of it. -/
def use : FieldExpr → String × Learned
  | .field ident => (ident, .value)
  | .ref e | .pointee e | .present e | .asRef e | .asDeref e => e.use
  | .len e | .mapLen e => (e.use.1, .length)

end FieldExpr

inductive DisplayFunction where
  | orNull
  | debugOrNull
  | hash
  | summarizeCollection
  | summarizeMap

def DisplayFunction.name : DisplayFunction → String
  | .orNull => "OrNull"
  | .debugOrNull => "DebugOrNull"
  | .hash => "hash"
  | .summarizeCollection => "summarize_collection"
  | .summarizeMap => "summarize_map"

/-- An argument of a format string: a function of one expression over the fields and of words. -/
structure DisplayExpr where
  function : DisplayFunction
  subject : FieldExpr
  words : List String

namespace DisplayExpr

def text (rt : String) (e : DisplayExpr) : String :=
  rt ++ "::display::" ++ e.function.name ++ "(" ++
    ", ".intercalate (e.subject.text :: e.words.map Text.quote) ++ ")"

def use (e : DisplayExpr) : String × Learned :=
  match e.function with
  | .hash => (e.subject.use.1, if e.subject.use.2 = .value then .hash else e.subject.use.2)
  | _ => e.subject.use

end DisplayExpr

/-- What stands for a field in the text of a record. -/
inductive FieldContent where
  | redacted
  | shown (arg : DisplayExpr)

namespace FieldContent

def args : FieldContent → List DisplayExpr
  | .redacted => []
  | .shown arg => [arg]

def parts : FieldContent → List (FormatPart DisplayExpr)
  | .redacted => FormatPart.ofText "<REDACTED>"
  | .shown arg => [.arg arg]

end FieldContent

/-- The text of a record with a name and with labels for the contents of its fields. -/
def recordParts (name : String) (fields : List (String × FieldContent)) :
    List (FormatPart DisplayExpr) :=
  FormatPart.ofText (name ++ "\x7b") ++
    (FormatPart.ofText ", ").intercalate
      (fields.map fun (label, content) => FormatPart.ofText (label ++ "=") ++ content.parts) ++
    FormatPart.ofText "\x7d"

def writeCall (literal : String) (args : List String) : String :=
  "write!(f, " ++ ", ".intercalate (literal :: args) ++ ")"

namespace FieldPlan

def optionExpr (p : FieldPlan n) : FieldExpr :=
  match p.optional, p.boxed with
  | true, true => .asDeref (.field p.ident)
  | true, false => .asRef (.field p.ident)
  | false, true => .present (.pointee (.field p.ident))
  | false, false => .present (.ref (.field p.ident))

def lengthExpr (p : FieldPlan n) : FieldExpr :=
  match p.optional with
  | true => .mapLen (.asRef (.field p.ident))
  | false => .present (.len (.field p.ident))

def content (s : Schema n) (p : FieldPlan n) : FieldContent :=
  match s.showing p.field with
  | .redacted => .redacted
  | .plain => .shown ⟨.orNull, p.optionExpr, []⟩
  | .debug => .shown ⟨.debugOrNull, p.optionExpr, []⟩
  | .hash => .shown ⟨.hash, p.optionExpr, []⟩
  | .items kind element => .shown ⟨.summarizeCollection, p.lengthExpr, [kind, element]⟩
  | .entries key value => .shown ⟨.summarizeMap, p.lengthExpr, [key, value]⟩

theorem text_optionExpr (p : FieldPlan n) : p.optionExpr.text = p.option := by
  rw [option, asOption, asRef, optionExpr]
  cases p.optional <;> cases p.boxed <;> simp [FieldExpr.text, ← String.toList_inj]

theorem text_lengthExpr (p : FieldPlan n) : p.lengthExpr.text = p.length := by
  rw [length, lengthExpr]
  cases p.optional <;> simp [FieldExpr.text, ← String.toList_inj]

theorem use_optionExpr (p : FieldPlan n) : p.optionExpr.use = (p.ident, .value) := by
  rw [optionExpr]
  split <;> rfl

theorem use_lengthExpr (p : FieldPlan n) : p.lengthExpr.use = (p.ident, .length) := by
  rw [lengthExpr]
  split <;> rfl

theorem texts_args (s : Schema n) (rt : String) (p : FieldPlan n) :
    (p.displayArg? s).toList.map (·.text rt) = (p.content s).args.map (·.text rt) := by
  rw [displayArg?, content]
  cases s.showing p.field <;>
    simp [FieldContent.args, DisplayExpr.text, DisplayArg.text, DisplayFunction.name,
      text_optionExpr, text_lengthExpr, ← String.toList_inj]

end FieldPlan

/-! ### What may be shown -/

/-- What is shown of a field: nothing if it is redacted, its length or its hash if it is obfuscated,
and otherwise its value. -/
inductive Target.Shows (t : Target n) (field : Field n) : FieldContent → Prop where
  | redacted (secret : field.redacted = true) : Shows t field .redacted
  | blurred {core : Ty n} {arg : DisplayExpr} (not_secret : field.redacted = false)
      (blurred : field.obfuscated = true) (ends : t.schema.EndsAt field.ty core)
      (use : arg.use =
        (Ident.field t.config field.name, if core.isContainer then .length else .hash)) :
      Shows t field (.shown arg)
  | clear {core : Ty n} {arg : DisplayExpr} (not_secret : field.redacted = false)
      (clear : field.obfuscated = false) (ends : t.schema.EndsAt field.ty core)
      (use : arg.use = (Ident.field t.config field.name, .value))
      (function : arg.function =
        if core.isContainer || core = .binary then .debugOrNull else .orNull) :
      Shows t field (.shown arg)

namespace Target

variable {t : Target n}

theorem exists_trueType_of_needsBox {owner : Fin n.records} {ty : Ty n} {boxed : Bool}
    (h : t.needsBox owner ty = .ok boxed) : ∃ core, t.schema.trueType ty = .ok core := by
  obtain ⟨core, hcore, _⟩ := except_bind_eq_ok.mp (orFault_eq_ok.mp h)
  exact ⟨core, hcore⟩

theorem shows_content {owner : Fin n.records} {field : Field n} {p : FieldPlan n}
    (h : t.planField owner field = .ok p) : t.Shows field (p.content t.schema) := by
  obtain ⟨boxed, default?, valueType, hboxed, _, _, rfl⟩ := planField_eq_ok_iff.mp h
  obtain ⟨core, hcore⟩ := exists_trueType_of_needsBox hboxed
  obtain ⟨link, hshape⟩ := Schema.exists_shape_eq_ofTy hcore
  have hends := Schema.endsAt_of_trueType hcore
  rw [FieldPlan.content, Schema.showing, hshape]
  cases hredacted : field.redacted with
  | true => exact .redacted hredacted
  | false =>
      cases hblurred : field.obfuscated with
      | true =>
          cases core with
          | typedef id => exact absurd rfl (hends.ne_typedef id)
          | list _ | set _ | map _ _ =>
              exact .blurred hredacted hblurred hends (FieldPlan.use_lengthExpr _)
          | _ =>
              refine .blurred hredacted hblurred hends ?_
              rw [DisplayExpr.use, FieldPlan.use_optionExpr]
              rfl
      | false =>
          cases core with
          | typedef id => exact absurd rfl (hends.ne_typedef id)
          | _ => exact .clear hredacted hblurred hends (FieldPlan.use_optionExpr _) rfl

end Target

/-! ### Running the code -/

/-- What an expression stands for: a value that is held as such or behind a pointer, a number, or an
option. A reference is what it refers to. -/
inductive Operand (α : Type) where
  | value (v : α)
  | boxed (v : α)
  | number (k : Nat)
  | option (content : Option (Operand α))

namespace Operand

variable (size : α → Nat)

def pointee? : Operand α → Option (Operand α)
  | .boxed v => some (.value v)
  | _ => none

/-- The length of a container; a method finds it behind a pointer as well. -/
def length? : Operand α → Option (Operand α)
  | .value v | .boxed v => some (.number (size v))
  | _ => none

def inOption? (f : Operand α → Option (Operand α)) : Operand α → Option (Operand α)
  | .option none => some (.option none)
  | .option (some d) => (f d).map fun d => .option (some d)
  | _ => none

end Operand

def FieldExpr.eval? (size : α → Nat) (self : String → Operand α) : FieldExpr → Option (Operand α)
  | .field ident => some (self ident)
  | .ref e => e.eval? size self
  | .pointee e => (e.eval? size self).bind Operand.pointee?
  | .present e => (e.eval? size self).map fun d => .option (some d)
  | .asRef e => (e.eval? size self).bind (Operand.inOption? some)
  | .asDeref e => (e.eval? size self).bind (Operand.inOption? Operand.pointee?)
  | .len e => (e.eval? size self).bind (Operand.length? size)
  | .mapLen e => (e.eval? size self).bind (Operand.inOption? (Operand.length? size))

namespace Target

def applyDisplay (t : Target n) :
    DisplayFunction → Operand (Shape n × Value) → List String → Option String
  | _, .option none, _ => some nullText
  | .orNull, .option (some (.value (shape, v))), [] => some (t.text .plain shape v)
  | .debugOrNull, .option (some (.value (shape, v))), [] => some (t.text .debug shape v)
  | .hash, .option (some (.value (_, v))), [] => some v.hashText
  | .summarizeCollection, .option (some (.number k)), [kind, element] =>
      some (Value.itemsText kind element k)
  | .summarizeMap, .option (some (.number k)), [key, value] =>
      some (Value.entriesText key value k)
  | _, _, _ => none

def display? (t : Target n) (self : String → Operand (Shape n × Value)) (e : DisplayExpr) :
    Option String :=
  (e.subject.eval? (·.2.size) self).bind fun d => t.applyDisplay e.function d e.words

end Target

namespace FieldPlan

def hold (p : FieldPlan n) (v : Value) : Operand (Shape n × Value) :=
  if p.boxed then .boxed (p.shape, v) else .value (p.shape, v)

/-- A field that holds the content of a slot, as its type says. -/
def Holds (p : FieldPlan n) (slot : Option Value) (d : Operand (Shape n × Value)) : Prop :=
  if p.optional then d = .option (slot.map p.hold) else ∃ v, slot = some v ∧ d = p.hold v

variable {p : FieldPlan n} {slot : Option Value} {self : String → Operand (Shape n × Value)}

theorem eval?_optionExpr (h : p.Holds slot (self p.ident)) :
    p.optionExpr.eval? (·.2.size) self =
      some (.option (slot.map fun v => .value (p.shape, v))) := by
  rw [Holds] at h
  rw [optionExpr]
  cases hoptional : p.optional with
  | true =>
      rw [hoptional] at h
      cases hboxed : p.boxed <;> cases slot <;>
        simp_all [hold, FieldExpr.eval?, Operand.inOption?, Operand.pointee?]
  | false =>
      rw [hoptional] at h
      obtain ⟨v, rfl, hself⟩ := h
      cases hboxed : p.boxed <;> simp_all [hold, FieldExpr.eval?, Operand.pointee?]

theorem eval?_lengthExpr (h : p.Holds slot (self p.ident)) :
    p.lengthExpr.eval? (·.2.size) self = some (.option (slot.map fun v => .number v.size)) := by
  rw [Holds] at h
  rw [lengthExpr]
  cases hoptional : p.optional with
  | true =>
      rw [hoptional] at h
      cases hboxed : p.boxed <;> cases slot <;>
        simp_all [hold, FieldExpr.eval?, Operand.inOption?, Operand.length?]
  | false =>
      rw [hoptional] at h
      obtain ⟨v, rfl, hself⟩ := h
      cases hboxed : p.boxed <;> simp_all [hold, FieldExpr.eval?, Operand.length?]

end FieldPlan

namespace Target

variable {t : Target n} {self : String → Operand (Shape n × Value)}

def slotText (t : Target n) (field : Field n) (slot : Option Value) : String :=
  match slot with
  | none => t.absentText field
  | some v =>
      match t.schema.showing field with
      | .redacted => redactedText
      | .plain => t.text .plain (t.schema.shape field.ty) v
      | .debug => t.text .debug (t.schema.shape field.ty) v
      | .hash => v.hashText
      | .items kind element => Value.itemsText kind element v.size
      | .entries key value => Value.entriesText key value v.size

theorem fieldTexts_cons (t : Target n) (field : Field n) (fields : List (Field n))
    (slot : Option Value) (slots : Slots) :
    t.fieldTexts (field :: fields) (slot :: slots) =
      t.labelled field (t.slotText field slot) :: t.fieldTexts fields slots := by
  cases slot with
  | none => rw [fieldTexts, slotText]
  | some v =>
      rw [fieldTexts]
      rfl

theorem write_content {p : FieldPlan n} {slot : Option Value}
    (hshape : p.shape = t.schema.shape p.field.ty) (h : p.Holds slot (self p.ident)) :
    FormatPart.write (t.display? self) (p.content t.schema).parts =
      some (t.slotText p.field slot) := by
  have hvalue := FieldPlan.eval?_optionExpr h
  have hlength := FieldPlan.eval?_lengthExpr h
  -- The code sees the field as an option, whatever pointer or option the record holds it in.
  rw [hshape] at hvalue
  rw [FieldPlan.content, slotText.eq_def, absentText]
  cases t.schema.showing p.field with
  | redacted =>
      cases slot <;> exact FormatPart.write_ofText _
  | plain | debug | hash =>
      cases slot <;> simp [FieldContent.parts, FormatPart.write, display?, hvalue, applyDisplay]
  | items kind element | entries key value =>
      cases slot <;> simp [FieldContent.parts, FormatPart.write, display?, hlength, applyDisplay]

/-- The parts of the text of a record, given what stands for each field. -/
def displayParts (t : Target n) (id : Fin n.records) (contents : List FieldContent) :
    List (FormatPart DisplayExpr) :=
  recordParts (t.schema.record id).name
    (((t.schema.record id).fields.map (t.config.fieldNaming.apply ·.name)).zip contents)

theorem fields_of_planFields {id : Fin n.records} {plans : List (FieldPlan n)}
    (h : t.planFields id = .ok plans) : (t.schema.record id).fields = plans.map (·.field) := by
  rw [← List.map_id (t.schema.record id).fields, map_eq_map_iff_forall₂]
  exact (forall₂_of_mapM h).imp fun _ _ hplan => (field_of_planField hplan).symm

theorem fill_displayText (t : Target n) (p : FieldPlan n) :
    FormatPart.fill (p.displayText t.config).toList (p.content t.schema).args =
      some (FormatPart.ofText (t.config.fieldNaming.apply p.field.name ++ "=") ++
        (p.content t.schema).parts) := by
  have hlabel := FormatPart.fill_escapeBraces (α := DisplayExpr)
    (t.config.fieldNaming.apply p.field.name ++ "=")
  rw [FieldPlan.displayText, String.toList_append]
  cases hredacted : p.field.redacted with
  | true =>
      have hcontent : p.content t.schema = .redacted := by
        rw [FieldPlan.content, Schema.showing, hredacted]
        rfl
      have hredactedText : FormatPart.fill redactedText.toList ([] : List DisplayExpr) =
          some (FormatPart.ofText "<REDACTED>") := by
        simp [redactedText, FormatPart.fill, FormatPart.ofText]
      rw [hcontent, if_pos rfl, FieldContent.args, FieldContent.parts,
        ← FormatPart.fill_append hlabel hredactedText, List.append_nil]
  | false =>
      obtain ⟨arg, hcontent⟩ : ∃ arg, p.content t.schema = .shown arg := by
        rw [FieldPlan.content, Schema.showing, hredacted]
        split <;> grind
      have hplace : FormatPart.fill "\x7b\x7d".toList [arg] = some [.arg arg] := by
        simp [FormatPart.fill]
      rw [hcontent, if_neg Bool.false_ne_true, FieldContent.args, FieldContent.parts,
        ← FormatPart.fill_append hlabel hplace, List.nil_append]

theorem displayCall_eq (t : Target n) (name : String) (plans : List (FieldPlan n)) :
    t.displayCall name plans =
      writeCall (Text.quote (t.displayFormat name plans))
        (((plans.map (·.content t.schema)).flatMap FieldContent.args).map
          (·.text t.config.runtimePath)) := by
  have hargs : (t.displayArgs plans).map (·.text t.config.runtimePath) =
      ((plans.map (·.content t.schema)).flatMap FieldContent.args).map
        (·.text t.config.runtimePath) := by
    induction plans with
    | nil => rfl
    | cons p plans ih =>
        have hfirst := p.texts_args t.schema t.config.runtimePath
        simp only [displayArgs, List.filterMap_eq_flatMap_toList, List.map_cons, List.flatMap_cons,
          List.map_append] at ih ⊢
        rw [hfirst, ih]
  rw [displayCall, writeCall, hargs]
  cases ((plans.map (·.content t.schema)).flatMap FieldContent.args).map
    (·.text t.config.runtimePath) with
  | nil => simp [String.append_assoc]
  | cons arg args => simp [String.intercalate_cons_cons, String.append_assoc]

theorem fill_displayFormat (t : Target n) (name : String) (plans : List (FieldPlan n)) :
    FormatPart.fill (t.displayFormat name plans).toList
        ((plans.map (·.content t.schema)).flatMap FieldContent.args) =
      some (recordParts name (plans.map fun p =>
        (t.config.fieldNaming.apply p.field.name, p.content t.schema))) := by
  have hname := FormatPart.fill_escapeBraces (α := DisplayExpr) (name ++ "\x7b")
  have hfields := FormatPart.fill_intercalate t.fill_displayText plans
  have hend : FormatPart.fill "\x7d\x7d".toList ([] : List DisplayExpr) =
      some (FormatPart.ofText "\x7d") := by simp [FormatPart.fill, FormatPart.ofText]
  have hall := FormatPart.fill_append (FormatPart.fill_append hname hfields) hend
  rw [List.nil_append, List.append_nil] at hall
  rw [displayFormat, String.toList_append, String.toList_append, List.flatMap_map, hall,
    recordParts, List.map_map]
  rfl

theorem fieldTexts_of_holds {plans : List (FieldPlan n)} {slots : Slots}
    (hshapes : ∀ p ∈ plans, p.shape = t.schema.shape p.field.ty)
    (h : List.Forall₂ (fun p slot => p.Holds slot (self p.ident)) plans slots) :
    List.Forall₂ (fun parts text => FormatPart.write (t.display? self) parts = some text)
      (plans.map fun p => FormatPart.ofText (t.config.fieldNaming.apply p.field.name ++ "=") ++
        (p.content t.schema).parts)
      (t.fieldTexts (plans.map (·.field)) slots) := by
  induction h with
  | nil => exact .nil
  | cons hfirst _ ih =>
      rw [List.forall_mem_cons] at hshapes
      rw [List.map_cons, List.map_cons, fieldTexts_cons]
      refine .cons ?_ (ih hshapes.2)
      exact FormatPart.write_append (FormatPart.write_ofText _) (write_content hshapes.1 hfirst)

theorem write_recordParts {plans : List (FieldPlan n)} {slots : Slots} (name : String)
    (hshapes : ∀ p ∈ plans, p.shape = t.schema.shape p.field.ty)
    (h : List.Forall₂ (fun p slot => p.Holds slot (self p.ident)) plans slots) :
    FormatPart.write (t.display? self)
        (recordParts name (plans.map fun p =>
          (t.config.fieldNaming.apply p.field.name, p.content t.schema))) =
      some (recordText name (t.fieldTexts (plans.map (·.field)) slots)) := by
  have hfields := FormatPart.write_intercalate (fieldTexts_of_holds hshapes h)
  rw [recordParts, recordText, List.map_map]
  exact FormatPart.write_append (FormatPart.write_append (FormatPart.write_ofText _) hfields)
    (FormatPart.write_ofText _)

theorem Shows.of_mem_args {field : Field n} {content : FieldContent} (h : t.Shows field content)
    {arg : DisplayExpr} (harg : arg ∈ content.args) :
    field.redacted = false ∧ arg.use.1 = Ident.field t.config field.name := by
  cases h with
  | redacted _ => cases harg
  | blurred hshown _ _ huse | clear hshown _ _ huse _ =>
      cases List.mem_singleton.mp harg
      exact ⟨hshown, by rw [huse]⟩

/-- The code of a record writes its name and the labelled contents of its fields: its format string
is well formed, takes each argument once and in order, and no argument looks at a field that is
redacted. Run on a record, it writes the text of the record. -/
theorem recordCode_writes_text (t : Target n) (id : Fin n.records) (code : String)
    (h : t.recordCode id = .ok code) :
    ∃ plans items contents literal format,
      t.planFields id = .ok plans ∧ code = Item.render items ∧
      RecordPlan.formatItem (Ident.type (t.schema.record id).name) "Display"
        [.text (writeCall literal
          ((contents.flatMap FieldContent.args).map (·.text t.config.runtimePath)))] ∈ items ∧
      Text.unquote? literal = some format ∧
      FormatPart.fill format.toList (contents.flatMap FieldContent.args) =
        some (t.displayParts id contents) ∧
      List.Forall₂ t.Shows (t.schema.record id).fields contents ∧
      (∀ arg ∈ contents.flatMap FieldContent.args, ∃ field ∈ (t.schema.record id).fields,
        field.redacted = false ∧ arg.use.1 = Ident.field t.config field.name) ∧
      ∀ self slots, List.Forall₂ (fun p slot => p.Holds slot (self p.ident)) plans slots →
        FormatPart.write (t.display? self) (t.displayParts id contents) =
          some (recordText (t.schema.record id).name
            (t.fieldTexts (t.schema.record id).fields slots)) := by
  obtain ⟨plans, items, hplans, hitems, hcode⟩ := recordCode_eq_ok h
  have hfields := fields_of_planFields hplans
  have hshapes : ∀ p ∈ plans, p.shape = t.schema.shape p.field.ty := by
    intro p hp
    obtain ⟨field, _, hplan⟩ := exists_of_forall₂ (forall₂_of_mapM hplans).flip hp
    obtain ⟨_, _, _, _, _, _, rfl⟩ := planField_eq_ok_iff.mp hplan
    rfl
  have hparts : t.displayParts id (plans.map (·.content t.schema)) =
      recordParts (t.schema.record id).name (plans.map fun p =>
        (t.config.fieldNaming.apply p.field.name, p.content t.schema)) := by
    rw [displayParts, hfields, List.map_map, List.zip_map']
    rfl
  have hshows : List.Forall₂ t.Shows (t.schema.record id).fields
      (plans.map (·.content t.schema)) :=
    List.forall₂_map_right_iff.mpr ((forall₂_of_mapM hplans).imp fun _ _ => shows_content)
  refine ⟨plans, items, plans.map (·.content t.schema),
    Text.quote (t.displayFormat (t.schema.record id).name plans),
    t.displayFormat (t.schema.record id).name plans, hplans, hcode, ?_, Text.unquote?_quote _, ?_,
    hshows, fun arg harg => ?_, fun self slots hslots => ?_⟩
  · rw [← displayCall_eq]
    exact displayItem_mem hitems
  · rw [hparts]
    exact t.fill_displayFormat _ plans
  · obtain ⟨content, hcontent, harg⟩ := List.mem_flatMap.mp harg
    obtain ⟨field, hfield, hshown⟩ := exists_of_forall₂ hshows.flip hcontent
    exact ⟨field, hfield, hshown.of_mem_args harg⟩
  · rw [hparts, hfields]
    exact write_recordParts _ hshapes hslots

abbrev vaultCensus : Census where
  records := 1
  enums := 0
  typedefs := 0
  services := 0

abbrev vaultId : Fin vaultCensus.records := ⟨0, by decide⟩

/-- A record with braces in its name and in its labels. -/
def vault : Target vaultCensus where
  schema := {
    records := .ofFn fun _ =>
      { name := "Vault\x7b"
        fields := [
          { id := 1, name := "token", ty := .string, redacted := true, obfuscated := true },
          { id := 2, name := "\x7dpin", ty := .i32, obfuscated := true },
          { id := 3, name := "keys", ty := .list .i64, requiredness := .required
            obfuscated := true },
          { id := 4, name := "note\x7b\x7d", ty := .string }] }
    enums := .ofFn Fin.elim0
    typedefs := .ofFn Fin.elim0
    services := .ofFn Fin.elim0 }
  config := { fieldNaming := .preserve }

def vaultSlots : Slots :=
  [some (.string .owned "secret"), some (.i32 255), some (.seq .vec [.i64 1, .i64 2]), none]

def vaultSelf (ident : String) : Operand (Shape vaultCensus × Value) :=
  if ident = "token" then .option (some (.value (.string, .string .owned "secret")))
  else if ident = "\x7dpin" then .option (some (.value (.i32, .i32 255)))
  else if ident = "keys" then
    .value (.list .i64 fun _ => .i64, .seq .vec [.i64 1, .i64 2])
  else .option none

theorem vault_holds {plans : List (FieldPlan vaultCensus)}
    (h : vault.planFields vaultId = .ok plans) :
    List.Forall₂ (fun p slot => p.Holds slot (vaultSelf p.ident)) plans vaultSlots := by
  have hplans : vault.planFields vaultId = .ok _ := rfl
  cases h.symm.trans hplans
  exact .cons rfl (.cons rfl (.cons ⟨_, rfl, rfl⟩ (.cons rfl .nil)))

theorem vault_writes_text :
    ∃ code, vault.recordCode vaultId = .ok code ∧
      ∃ items contents literal format, code = Item.render items ∧
        RecordPlan.formatItem "Vault\x7b" "Display"
          [.text (writeCall literal
            ((contents.flatMap FieldContent.args).map (·.text vault.config.runtimePath)))] ∈ items ∧
        Text.unquote? literal = some format ∧
        FormatPart.fill format.toList (contents.flatMap FieldContent.args) =
          some (vault.displayParts vaultId contents) ∧
        List.Forall₂ vault.Shows (vault.schema.record vaultId).fields contents ∧
        FormatPart.write (vault.display? vaultSelf) (vault.displayParts vaultId contents) =
          some ("Vault\x7b\x7btoken=<REDACTED>, \x7dpin=000000FF, keys=list<i64>(size=2), " ++
            "note\x7b\x7d=null\x7d") := by
  obtain ⟨code, hcode⟩ : ∃ code, vault.recordCode vaultId = .ok code := ⟨_, rfl⟩
  obtain ⟨plans, items, contents, literal, format, hplans, hrender, hitem, hliteral, hfill, hshows,
    _, hrun⟩ := recordCode_writes_text vault vaultId code hcode
  refine ⟨code, hcode, items, contents, literal, format, hrender, hitem, hliteral, hfill, hshows,
    ?_⟩
  rw [hrun vaultSelf vaultSlots (vault_holds hplans)]
  decide +kernel

end Target

end WireIdl
