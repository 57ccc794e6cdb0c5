import Mathlib.Data.List.Chain
import Mathlib.Tactic.FunProp
import WireIdl.Proofs.Code.Ink
import WireIdl.Proofs.Emit.References

/-! Code as a template. Emission is run at every root path at once; a result of such a family of
runs is templated if its ink is always that of one text with references in it, each written out as
its path from the root and apart from the identifiers around it. -/

namespace WireIdl

open Code
open Text (SameInk)

variable {n : Census} {α β : Type}

/-- A choice without the proof that it can be decided, which might mention what is chosen from. -/
theorem ite_eq_cond (b : Bool) {decidable : Decidable (b = true)} (x y : α) :
    (if b = true then x else y) = bif b then x else y := by
  cases b <;> simp

/-- The same choices, but with another root for paths. -/
def Target.rooted (t : Target n) (root : String) : Target n :=
  { t with config := { t.config with rootPath := root } }

/-- Characters and references. -/
abbrev Template (n : Census) := List (Char ⊕ Reference n)

namespace Template

/-- The characters of a template, with every reference written as a path. -/
def fill (t : Target n) (template : Template n) : List Char :=
  template.flatMap (Sum.elim ([·]) fun ref => (ref.path t).toList)

theorem fill_append (t : Target n) (template more : Template n) :
    fill t (template ++ more) = fill t template ++ fill t more :=
  List.flatMap_append

theorem fill_ofChars (t : Target n) (cs : List Char) : fill t (cs.map .inl) = cs := by
  induction cs with
  | nil => rfl
  | cons c cs ih => exact congrArg (c :: ·) ih

/-- Parts that do not run into each other: what stands next to a reference is a character that no
identifier has. -/
def Apart : Char ⊕ Reference n → Char ⊕ Reference n → Prop
  | .inl _, .inl _ => True
  | .inl c, .inr _ | .inr _, .inl c => Text.isDelimiter c = true
  | .inr _, .inr _ => False

theorem apart_of_delimiter {c : Char} (h : Text.isDelimiter c = true) (part : Char ⊕ Reference n) :
    Apart (.inl c) part ∧ Apart part (.inl c) := by
  cases part with
  | inl d => exact ⟨trivial, trivial⟩
  | inr ref => exact ⟨h, h⟩

/-- At every root, a family has the ink of a template, in which references are to what the schema
has and stand apart from the rest. -/
structure Fits (t : Target n) (template : Template n) (chars : String → List Char) : Prop where
  isIn : ∀ ref, .inr ref ∈ template → ref.IsIn t.schema
  apart : template.IsChain Apart
  same : ∀ root, SameInk (chars root) (template.fill (t.rooted root))

/-- The part is not a reference, if there is one. -/
def IsChar (part? : Option (Char ⊕ Reference n)) : Prop :=
  ∀ part ∈ part?, ∃ c, part = .inl c

theorem isChar_or {part? other? : Option (Char ⊕ Reference n)} (h : IsChar part?)
    (hother : IsChar other?) : IsChar (part?.or other?) := by
  cases part? with
  | none => exact hother
  | some part => exact h

namespace Fits

variable {t : Target n} {template others : Template n} {chars more : String → List Char}

theorem append (h : template.Fits t chars) (hmore : others.Fits t more)
    (hapart : ∀ part ∈ template.getLast?, ∀ other ∈ others.head?, Apart part other) :
    (template ++ others).Fits t fun root => chars root ++ more root where
  isIn ref href := (List.mem_append.mp href).elim (h.isIn ref) (hmore.isIn ref)
  apart := List.isChain_append.mpr ⟨h.apart, hmore.apart, hapart⟩
  same root := by
    rw [fill_append]
    exact (h.same root).append (hmore.same root)

theorem ofChars (t : Target n) (cs : List Char) : Fits t (cs.map .inl) fun _ => cs where
  isIn := by simp
  apart := by
    rw [List.isChain_map]
    exact List.Pairwise.isChain (List.pairwise_of_forall fun _ _ => trivial)
  same root := .of_eq (fill_ofChars (t.rooted root) cs).symm

/-- A family that begins with a delimiter fits a template that does, unless it begins with a
reference. -/
theorem exists_delimiter (h : template.Fits t chars) (hfirst : IsChar template.head?)
    (hchars : Text.startsDelimited (chars "") = true) :
    ∃ c, template.head? = some (.inl c) ∧ Text.isDelimiter c = true := by
  have hfill := (h.same "").startsDelimited hchars
  cases template with
  | nil => cases hfill
  | cons part template =>
      obtain ⟨c, rfl⟩ := hfirst part rfl
      exact ⟨c, rfl, hfill⟩

end Fits

end Template

open Template (Fits IsChar)

/-! Families of characters by how their templates begin and end. -/

/-- The template may begin and end with a reference. -/
@[fun_prop]
def Templated (t : Target n) (chars : String → List Char) : Prop :=
  ∃ template : Template n, template.Fits t chars

/-- The template may begin with a reference and does not end with one. -/
@[fun_prop]
def Ended (t : Target n) (chars : String → List Char) : Prop :=
  ∃ template : Template n, template.Fits t chars ∧ IsChar template.getLast?

/-- The template neither begins nor ends with a reference. -/
@[fun_prop]
def Closed (t : Target n) (chars : String → List Char) : Prop :=
  ∃ template : Template n, template.Fits t chars ∧ IsChar template.head? ∧
    IsChar template.getLast?

section Families

variable {t : Target n} {chars more : String → List Char}

theorem Template.isChar_head?_ofChars (cs : List Char) :
    IsChar (n := n) (cs.map .inl).head? := by
  intro part hpart
  rw [List.head?_map] at hpart
  obtain ⟨c, _, rfl⟩ := Option.map_eq_some_iff.mp hpart
  exact ⟨c, rfl⟩

theorem Template.isChar_getLast?_ofChars (cs : List Char) :
    IsChar (n := n) (cs.map .inl).getLast? := by
  intro part hpart
  rw [List.getLast?_map] at hpart
  obtain ⟨c, _, rfl⟩ := Option.map_eq_some_iff.mp hpart
  exact ⟨c, rfl⟩

@[fun_prop]
theorem Closed.const (cs : List Char) : Closed t fun _ => cs :=
  ⟨cs.map .inl, .ofChars t cs, Template.isChar_head?_ofChars cs,
    Template.isChar_getLast?_ofChars cs⟩

@[fun_prop]
theorem Closed.ended (h : Closed t chars) : Ended t chars := by
  obtain ⟨template, hfits, _, hlast⟩ := h
  exact ⟨template, hfits, hlast⟩

@[fun_prop]
theorem Ended.templated (h : Ended t chars) : Templated t chars := by
  obtain ⟨template, hfits, _⟩ := h
  exact ⟨template, hfits⟩

theorem Closed.templated (h : Closed t chars) : Templated t chars :=
  h.ended.templated

@[fun_prop]
theorem Templated.const (cs : List Char) : Templated t fun _ => cs :=
  (Closed.const cs).templated

theorem Closed.congr (h : Closed t chars) (hsame : ∀ root, SameInk (more root) (chars root)) :
    Closed t more := by
  obtain ⟨template, hfits, hends⟩ := h
  exact ⟨template, ⟨hfits.isIn, hfits.apart, fun root => (hsame root).trans (hfits.same root)⟩,
    hends⟩

theorem Templated.path (ref : Reference n) (h : ref.IsIn t.schema) :
    Templated t fun root => (ref.path (t.rooted root)).toList := by
  refine ⟨[.inr ref], by simpa using h, List.isChain_singleton _, fun root => .of_eq ?_⟩
  simp [Template.fill]

@[fun_prop]
theorem Closed.append (h : Closed t chars) (hmore : Closed t more) :
    Closed t fun root => chars root ++ more root := by
  obtain ⟨template, hfits, hfirst, hlast⟩ := h
  obtain ⟨others, hothers, hnext, hend⟩ := hmore
  refine ⟨template ++ others, hfits.append hothers fun part hpart other hother => ?_, ?_, ?_⟩
  -- Characters may always stand next to each other.
  · obtain ⟨c, rfl⟩ := hlast part hpart
    obtain ⟨d, rfl⟩ := hnext other hother
    exact trivial
  · rw [List.head?_append]
    exact Template.isChar_or hfirst hnext
  · rw [List.getLast?_append]
    exact Template.isChar_or hend hlast

theorem Template.exists_last_delimiter {cs : List Char} (h : Text.endsDelimited cs = true)
    {part : Char ⊕ Reference n} (hpart : part ∈ (cs.map Sum.inl).getLast?) :
    ∃ c, part = .inl c ∧ Text.isDelimiter c = true := by
  rw [List.getLast?_map] at hpart
  obtain ⟨c, hc, rfl⟩ := Option.map_eq_some_iff.mp hpart
  rw [Text.endsDelimited, hc] at h
  exact ⟨c, rfl, h⟩

/-- Characters that end with a delimiter may come before anything. -/
theorem Template.Fits.before {cs : List Char} (h : Text.endsDelimited cs = true)
    {others : Template n} (hothers : others.Fits t more) :
    Fits t (cs.map .inl ++ others) fun root => cs ++ more root := by
  refine (Fits.ofChars t cs).append hothers fun part hpart other _ => ?_
  obtain ⟨c, rfl, hc⟩ := Template.exists_last_delimiter h hpart
  exact (Template.apart_of_delimiter hc other).1

@[fun_prop]
theorem Closed.before {cs : List Char} (h : Text.endsDelimited cs = true) (hmore : Ended t more) :
    Closed t fun root => cs ++ more root := by
  obtain ⟨others, hothers, hend⟩ := hmore
  refine ⟨_, hothers.before h, ?_, ?_⟩
  · cases cs with
    | nil => cases h
    | cons c cs => exact Template.isChar_head?_ofChars (c :: cs)
  · rw [List.getLast?_append]
    exact Template.isChar_or hend (Template.isChar_getLast?_ofChars cs)

-- Declared after `Closed.before`, so that it is tried first: it has no side condition.
@[fun_prop]
theorem Closed.after (cs : List Char) (hmore : Closed t more) :
    Closed t fun root => cs ++ more root :=
  (Closed.const cs).append hmore

@[fun_prop]
theorem Templated.before {cs : List Char} (h : Text.endsDelimited cs = true)
    (hmore : Templated t more) : Templated t fun root => cs ++ more root := by
  obtain ⟨others, hothers⟩ := hmore
  exact ⟨_, hothers.before h⟩

/-- What begins with a delimiter may come after a reference. -/
@[fun_prop]
theorem Ended.append (h : Templated t chars) (hmore : Closed t more)
    (hstart : Text.startsDelimited (more "") = true) :
    Ended t fun root => chars root ++ more root := by
  obtain ⟨template, hfits⟩ := h
  obtain ⟨others, hothers, hnext, hend⟩ := hmore
  obtain ⟨c, hhead, hc⟩ := hothers.exists_delimiter hnext hstart
  refine ⟨template ++ others, hfits.append hothers fun part _ other hother => ?_, ?_⟩
  · rw [hhead] at hother
    cases hother
    exact (Template.apart_of_delimiter hc part).2
  · cases others with
    | nil => cases hhead
    | cons other others =>
        rw [List.getLast?_append, List.getLast?_cons, Option.some_or, ← List.getLast?_cons]
        exact hend

theorem Templated.separated {cs : List Char} (hstart : Text.startsDelimited cs = true)
    (hend : Text.endsDelimited cs = true) (h : Templated t chars) (hmore : Templated t more) :
    Templated t fun root => chars root ++ (cs ++ more root) := by
  obtain ⟨template, hfits⟩ := h
  obtain ⟨others, hothers⟩ := hmore
  refine ⟨_, hfits.append (hothers.before hend) fun part _ other hother => ?_⟩
  cases cs with
  | nil => cases hstart
  | cons c cs =>
      cases hother
      exact (Template.apart_of_delimiter hstart part).2

theorem Closed.flatMap {chars : String → α → List Char} {parts : List α}
    (h : ∀ part ∈ parts, Closed t fun root => chars root part) :
    Closed t fun root => parts.flatMap (chars root) := by
  induction parts with
  | nil => exact .const []
  | cons part parts ih =>
      rw [List.forall_mem_cons] at h
      exact h.1.append (ih h.2)

theorem Closed.of_same {texts : String → String} {text : String}
    (h : ∀ root, texts root = text) : Closed t fun root => (texts root).toList := by
  simp only [h]
  exact .const _

end Families

/-- Texts with the ink of one template. -/
abbrev TemplatedText (t : Target n) (texts : String → String) : Prop :=
  Templated t fun root => (texts root).toList

abbrev ClosedText (t : Target n) (texts : String → String) : Prop :=
  Closed t fun root => (texts root).toList

/-- Steps with the ink of one template, on lines of their own. -/
abbrev TemplatedSteps (t : Target n) (steps : String → List Step) : Prop :=
  Closed t fun root => ['\n'] ++ Step.allChars (steps root)

/-- Code with the ink of one template. -/
abbrev TemplatedCode (t : Target n) (codes : String → String) : Prop :=
  Closed t fun root => Text.alone (codes root)

namespace TemplatedSteps

variable {t : Target n} {steps : String → List Step}

theorem render (h : TemplatedSteps t steps) :
    TemplatedCode t fun root => Step.render (steps root) := by
  refine Closed.congr (h.append (.const ['\n'])) fun root => ?_
  rw [Text.alone, ← List.append_assoc]
  exact (Step.sameInk_render _).append (SameInk.refl ['\n'])

theorem intercalate {groups : String → List (List Step)}
    (h : Closed t fun root => (groups root).flatMap fun group => ['\n'] ++ Step.allChars group) :
    TemplatedSteps t fun root => List.intercalate [.blank] (groups root) :=
  Closed.congr ((Closed.const ['\n']).append h) fun _ => Step.sameInk_intercalate _

theorem trimmed (h : TemplatedSteps t steps) :
    TemplatedCode t fun root => Text.trimEnd (Step.render (steps root)) :=
  Closed.congr h.render fun _ => (SameInk.refl ['\n']).append (Text.sameInk_trimEnd _)

/-- Code among steps, after some that are all lines. -/
theorem lines {more : String → List Step} {codes : String → String} (h : TemplatedSteps t steps)
    (hlines : ∀ root, ∀ step ∈ steps root, ∃ s, step = .line s) (hcodes : TemplatedCode t codes)
    (hmore : Closed t fun root => Step.allChars (more root)) :
    TemplatedSteps t fun root => steps root ++ [.lines (codes root)] ++ more root := by
  refine Closed.congr (h.append (hcodes.append hmore)) fun root => ?_
  have hcode := (Step.endsBlank_of_lines (hlines root)).sameInk_fedLines (codes root)
  simpa only [Step.allChars_append, Step.allChars, Step.chars, List.append_assoc, List.append_nil]
    using hcode.append (SameInk.refl (Step.allChars (more root)))

end TemplatedSteps

/-- Items with the ink of one template, laid out. -/
theorem Closed.items {t : Target n} {items : String → List Item}
    (h : Closed t fun root => (items root).flatMap Item.chars) :
    TemplatedCode t fun root => Item.render (items root) :=
  Closed.congr (h.append (.const ['\n'])) fun _ => Item.sameInk_render _

/-- Forgets how a family is made. -/
theorem exists_family {P : (String → α) → Prop} {family : String → α} (h : P family) :
    ∃ others, P others ∧ ∀ root, family root = others root :=
  ⟨family, h, fun _ => rfl⟩

/-- Lists whose parts are a list of families. -/
inductive ListOf (P : (String → α) → Prop) : (String → List α) → Prop where
  | parts (families : List (String → α)) (h : ∀ family ∈ families, P family) :
      ListOf P fun root => families.map (· root)

namespace ListOf

variable {P : (String → α) → Prop} {Q : (String → β) → Prop} {lists : String → List α}

theorem nil : ListOf P fun _ => [] :=
  .parts [] (by simp)

theorem cons {first : String → α} (hfirst : P first) (h : ListOf P lists) :
    ListOf P fun root => first root :: lists root := by
  obtain ⟨families, h⟩ := h
  exact .parts (first :: families) (List.forall_mem_cons.mpr ⟨hfirst, h⟩)

theorem append {others : String → List α} (h : ListOf P lists) (hothers : ListOf P others) :
    ListOf P fun root => lists root ++ others root := by
  obtain ⟨families, h⟩ := h
  obtain ⟨more, hmore⟩ := hothers
  have hboth := ListOf.parts (families ++ more) (List.forall_mem_append.mpr ⟨h, hmore⟩)
  simpa only [List.map_append] using hboth

theorem map {f : String → α → β} (h : ListOf P lists)
    (hmap : ∀ family, P family → Q fun root => f root (family root)) :
    ListOf Q fun root => (lists root).map (f root) := by
  obtain ⟨families, h⟩ := h
  have hall := ListOf.parts (families.map fun family root => f root (family root))
    (List.forall_mem_map.mpr fun family hfamily => hmap family (h family hfamily))
  simpa only [List.map_map, Function.comp_def] using hall

/-- What does not depend on the root is one list. -/
theorem exists_map {f : α → β} (h : ListOf P lists)
    (hsame : ∀ family, P family → ∀ root, f (family root) = f (family "")) :
    ∃ parts, ∀ root, (lists root).map f = parts := by
  obtain ⟨families, h⟩ := h
  refine ⟨families.map fun family => f (family ""), fun root => ?_⟩
  rw [List.map_map]
  exact List.map_congr_left fun family hfamily => hsame family (h family hfamily) root

theorem closed {t : Target n} {chars : String → α → List Char} (h : ListOf P lists)
    (hchars : ∀ family, P family → Closed t fun root => chars root (family root)) :
    Closed t fun root => (lists root).flatMap (chars root) := by
  obtain ⟨families, h⟩ := h
  simp only [List.flatMap_map]
  exact Closed.flatMap fun family hfamily => hchars family (h family hfamily)

/-- Families with a separator between them. -/
theorem intercalate {t : Target n} {separator : List Char}
    (hstart : Text.startsDelimited separator = true) (hend : Text.endsDelimited separator = true)
    {lists : String → List (List Char)} (h : ListOf (Templated t) lists) :
    Templated t fun root => separator.intercalate (lists root) := by
  obtain ⟨families, h⟩ := h
  induction families with
  | nil => exact .const []
  | cons first families ih =>
      rw [List.forall_mem_cons] at h
      cases families with
      | nil => simpa only [List.map_cons, List.map_nil, List.intercalate_singleton] using h.1
      | cons next families =>
          simp only [List.map_cons, List.intercalate_cons_cons, List.append_assoc]
          exact .separated hstart hend h.1 (ih h.2)

theorem intercalate_texts {t : Target n} {lists : String → List String}
    (h : ListOf (TemplatedText t) lists) :
    TemplatedText t fun root => ", ".intercalate (lists root) := by
  simp only [TemplatedText, String.toList_intercalate]
  exact (h.map fun _ hfamily => hfamily).intercalate rfl rfl

theorem zipIdx (h : ListOf P lists) :
    ListOf (fun family => ∃ first index, P first ∧ family = fun root => (first root, index))
      fun root => (lists root).zipIdx := by
  obtain ⟨families, h⟩ := h
  have hpart : ∀ family ∈ families.zipIdx.map fun part root => (part.1 root, part.2),
      ∃ first index, P first ∧ family = fun root => (first root, index) := by
    intro family hfamily
    obtain ⟨⟨first, index⟩, hmem, rfl⟩ := List.mem_map.mp hfamily
    exact ⟨first, index, h first (List.fst_mem_of_mem_zipIdx hmem), rfl⟩
  have hall := ListOf.parts _ hpart
  simp only [List.map_map, Function.comp_def] at hall
  simp only [List.zipIdx_map]
  exact hall

end ListOf

/-- A parameter or an associated type: a name and a type. -/
def NamedType (t : Target n) (parts : String → String × String) : Prop :=
  ∃ name types, TemplatedText t types ∧ parts = fun root => (name, types root)

theorem argChars_eq (receiver? : Option String) (args : List (String × String)) :
    argChars receiver? args = List.intercalate ", ".toList
      (receiver?.toList.map String.toList ++
        args.map fun arg => arg.1.toList ++ (": ".toList ++ arg.2.toList)) := by
  have hparts : receiver?.toList.map String.toList ++
        args.map (fun arg => arg.1.toList ++ (": ".toList ++ arg.2.toList)) =
      (receiver?.toList.map ([·]) ++ args.map fun arg => [arg.1, ": ", arg.2]).map
        (·.flatMap String.toList) := by
    simp only [List.map_append, List.map_map, Function.comp_def, List.flatMap_cons,
      List.flatMap_nil, List.append_nil]
  rw [hparts, argChars]
  simp only [Function.argPieces]
  generalize receiver?.toList.map ([·]) ++ args.map (fun arg => [arg.1, ": ", arg.2]) = parts
  cases parts with
  | nil => rfl
  | cons first rest =>
      simp only [List.map_cons, intercalate_cons, List.flatMap_append, List.flatMap_assoc,
        List.flatMap_cons, List.flatMap_map]

theorem templated_argChars {t : Target n} (receiver? : Option String)
    {args : String → List (String × String)} (h : ListOf (NamedType t) args) :
    Templated t fun root => argChars receiver? (args root) := by
  have hreceiver : ListOf (Templated t) fun _ => receiver?.toList.map String.toList := by
    cases receiver? with
    | none => exact .nil
    | some receiver => exact .cons (.const _) .nil
  have hargs : ListOf (Templated t) fun root =>
      (args root).map fun arg => arg.1.toList ++ (": ".toList ++ arg.2.toList) := by
    refine h.map fun family hfamily => ?_
    obtain ⟨name, types, htypes, rfl⟩ := hfamily
    simp only [← List.append_assoc]
    exact .before (Text.endsDelimited_append rfl _) htypes
  simp only [argChars_eq]
  exact (hreceiver.append hargs).intercalate rfl rfl

/-- Runs that all fail with one fault, or all give a result. -/
inductive Uniform (P : (String → α) → Prop) : (String → Except EmitFault α) → Prop where
  | ok {results : String → α} (h : P results) : Uniform P fun root => .ok (results root)
  | error (fault : EmitFault) : Uniform P fun _ => .error fault

namespace Uniform

variable {P : (String → α) → Prop} {Q : (String → β) → Prop}
  {runs : String → Except EmitFault α}

theorem bind {next : String → α → Except EmitFault β} (h : Uniform P runs)
    (hnext : ∀ results, P results → Uniform Q fun root => next root (results root)) :
    Uniform Q fun root => runs root >>= next root := by
  cases h with
  | ok hresults => exact hnext _ hresults
  | error fault => exact .error fault

/-- Runs that go on from one result. -/
theorem bind_same {run : Except EmitFault α} {next : String → α → Except EmitFault β}
    (hnext : ∀ a, run = .ok a → Uniform Q fun root => next root a) :
    Uniform Q fun root => run >>= next root := by
  cases run with
  | ok a => exact hnext a rfl
  | error fault => exact .error fault

theorem mapM {f : String → α → Except EmitFault β} {parts : List α}
    (h : ∀ part ∈ parts, Uniform Q fun root => f root part) :
    Uniform (ListOf Q) fun root => parts.mapM (f root) := by
  induction parts with
  | nil => exact .ok .nil
  | cons part parts ih =>
      rw [List.forall_mem_cons] at h
      simp only [List.mapM_cons]
      refine h.1.bind fun first hfirst => ?_
      exact (ih h.2).bind fun rest hrest => .ok (.cons hfirst hrest)

theorem mapM_families {f : String → α → Except EmitFault β} {lists : String → List α}
    (hlists : ListOf P lists)
    (h : ∀ family, P family → Uniform Q fun root => f root (family root)) :
    Uniform (ListOf Q) fun root => (lists root).mapM (f root) := by
  obtain ⟨families, hfamilies⟩ := hlists
  simp only [List.mapM_map, Function.comp_def]
  exact mapM fun family hfamily => h family (hfamilies family hfamily)

end Uniform

end WireIdl
