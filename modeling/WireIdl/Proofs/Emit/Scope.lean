import Mathlib.Data.List.TakeWhile
import WireIdl.Emit.Method
import WireIdl.Proofs.Emit.Calls

/-! Temporaries in emitted code. A program is code in which it can be seen where temporaries are
bound and where they are used; its steps are its text. Programs whose temporaries are numbered in
the order in which they are bound keep them apart. -/

namespace WireIdl

namespace Code

/-- An expression: text, with temporaries in it. -/
inductive Expr where
  | text (s : String)
  | temp (x : Temporary)
  | append (first second : Expr)

instance : Append Expr := ⟨.append⟩

namespace Expr

def written : Expr → String
  | .text s => s
  | .temp x => x.text
  | .append first second => first.written ++ second.written

def uses : Expr → List Temporary
  | .text _ => []
  | .temp x => [x]
  | .append first second => first.uses ++ second.uses

def rename (f : Temporary → Temporary) : Expr → Expr
  | .text s => .text s
  | .temp x => .temp (f x)
  | .append first second => .append (first.rename f) (second.rename f)

@[simp] theorem written_append (e e' : Expr) : (e ++ e').written = e.written ++ e'.written := rfl

@[simp] theorem uses_append (e e' : Expr) : (e ++ e').uses = e.uses ++ e'.uses := rfl

end Expr

/-- What stands before the brace of a block. A loop and a match on an optional value bind
temporaries for the block. -/
inductive Head where
  | plain (e : Expr)
  | eachItem (x : Temporary) (source : Expr)
  | eachEntry (key value : Temporary) (source : Expr)
  | ifSome (x : Temporary) (source : Expr)

namespace Head

def written : Head → String
  | .plain e => e.written
  | .eachItem x source => "for " ++ x.text ++ " in " ++ source.written
  | .eachEntry key value source =>
      "for (" ++ key.text ++ ", " ++ value.text ++ ") in " ++ source.written
  | .ifSome x source => "if let Some(" ++ x.text ++ ") = " ++ source.written

def bound : Head → List Temporary
  | .plain _ => []
  | .eachItem x _ | .ifSome x _ => [x]
  | .eachEntry key value _ => [key, value]

def uses : Head → List Temporary
  | .plain e | .eachItem _ e | .eachEntry _ _ e | .ifSome _ e => e.uses

def rename (f : Temporary → Temporary) : Head → Head
  | .plain e => .plain (e.rename f)
  | .eachItem x source => .eachItem (f x) (source.rename f)
  | .eachEntry key value source => .eachEntry (f key) (f value) (source.rename f)
  | .ifSome x source => .ifSome (f x) (source.rename f)

@[simp] theorem written_plain (e : Expr) : (plain e).written = e.written := rfl

end Head

/-- Statements, each with those that follow it in the same block. -/
inductive Program where
  | nil
  | line (e : Expr) (rest : Program)
  /-- `let`, for the statements that follow. -/
  | bind (mutable : Bool) (x : Temporary) (e : Expr) (rest : Program)
  | block (head : Head) (body rest : Program)
  /-- A block and the one after its `else`. -/
  | branch (header : Expr) (body otherwise rest : Program)

namespace Program

def steps : Program → List Step
  | .nil => []
  | .line e rest => .line e.written :: rest.steps
  | .bind mutable x e rest =>
      .line ((if mutable then "let mut " else "let ") ++ x.text ++ " = " ++ e.written ++ ";") ::
        rest.steps
  | .block head body rest => .block head.written body.steps :: rest.steps
  | .branch header body otherwise rest =>
      .blockWith header.written " else \x7b" body.steps :: .indent :: otherwise.steps ++
        .dedent :: .line "\x7d" :: rest.steps

/-- All temporaries that are bound anywhere, in the order of the text. -/
def bound : Program → List Temporary
  | .nil => []
  | .line _ rest => rest.bound
  | .bind _ x _ rest => x :: rest.bound
  | .block head body rest => head.bound ++ body.bound ++ rest.bound
  | .branch _ body otherwise rest => body.bound ++ otherwise.bound ++ rest.bound

/-- Each temporary that is used has a name of the scope, or one that was bound before: by a `let`
of the same block or of one around it, or by the head of such a block. -/
def InScope : List String → Program → Prop
  | _, .nil => True
  | scope, .line e rest => (∀ x ∈ e.uses, x.text ∈ scope) ∧ rest.InScope scope
  | scope, .bind _ x e rest =>
      (∀ y ∈ e.uses, y.text ∈ scope) ∧ rest.InScope (x.text :: scope)
  | scope, .block head body rest =>
      (∀ x ∈ head.uses, x.text ∈ scope) ∧
        body.InScope (head.bound.map Temporary.text ++ scope) ∧ rest.InScope scope
  | scope, .branch header body otherwise rest =>
      (∀ x ∈ header.uses, x.text ∈ scope) ∧ body.InScope scope ∧ otherwise.InScope scope ∧
        rest.InScope scope

def rename (f : Temporary → Temporary) : Program → Program
  | .nil => .nil
  | .line e rest => .line (e.rename f) (rest.rename f)
  | .bind mutable x e rest => .bind mutable (f x) (e.rename f) (rest.rename f)
  | .block head body rest => .block (head.rename f) (body.rename f) (rest.rename f)
  | .branch header body otherwise rest =>
      .branch (header.rename f) (body.rename f) (otherwise.rename f) (rest.rename f)

/-- One program after the other, in the same block. -/
def append : Program → Program → Program
  | .nil, more => more
  | .line e rest, more => .line e (rest.append more)
  | .bind mutable x e rest, more => .bind mutable x e (rest.append more)
  | .block head body rest, more => .block head body (rest.append more)
  | .branch header body otherwise rest, more => .branch header body otherwise (rest.append more)

instance : Append Program := ⟨append⟩

def concat (programs : List Program) : Program :=
  programs.foldr append .nil

/-- The names that are in scope after a program. -/
def opened : Program → List String
  | .nil => []
  | .bind _ x _ rest => rest.opened ++ [x.text]
  | .line _ rest | .block _ _ rest | .branch _ _ _ rest => rest.opened

variable {p more : Program}

@[simp] theorem steps_append (p more : Program) : (p ++ more).steps = p.steps ++ more.steps := by
  change (p.append more).steps = _
  induction p with
  | nil => rfl
  | line e rest ih => rw [append, steps, steps, ih, List.cons_append]
  | bind mutable x e rest ih => rw [append, steps, steps, ih, List.cons_append]
  | block head body rest _ ih => rw [append, steps, steps, ih, List.cons_append]
  | branch header body otherwise rest _ _ ih =>
      rw [append, steps, steps, ih]
      simp only [List.cons_append, List.append_assoc]

@[simp] theorem bound_append (p more : Program) : (p ++ more).bound = p.bound ++ more.bound := by
  change (p.append more).bound = _
  induction p with
  | nil => rfl
  | line e rest ih => rw [append, bound, bound, ih]
  | bind mutable x e rest ih => rw [append, bound, bound, ih, List.cons_append]
  | block head body rest _ ih => simp only [append, bound, ih, List.append_assoc]
  | branch header body otherwise rest _ _ ih => simp only [append, bound, ih, List.append_assoc]

@[simp] theorem rename_append (f : Temporary → Temporary) (p more : Program) :
    (p ++ more).rename f = p.rename f ++ more.rename f := by
  change (p.append more).rename f = (p.rename f).append (more.rename f)
  induction p with
  | nil => rfl
  | line e rest ih => rw [append, rename, rename, append, ih]
  | bind mutable x e rest ih => rw [append, rename, rename, append, ih]
  | block head body rest _ ih => rw [append, rename, rename, append, ih]
  | branch header body otherwise rest _ _ ih => rw [append, rename, rename, append, ih]

@[simp] theorem opened_append (p more : Program) :
    (p ++ more).opened = more.opened ++ p.opened := by
  change (p.append more).opened = _
  induction p with
  | nil => rw [append, opened, List.append_nil]
  | bind mutable x e rest ih => rw [append, opened, opened, ih, List.append_assoc]
  | line e rest ih => rw [append, opened, opened, ih]
  | block head body rest _ ih => rw [append, opened, opened, ih]
  | branch header body otherwise rest _ _ ih => rw [append, opened, opened, ih]

theorem InScope.append {scope : List String} (h : p.InScope scope)
    (hmore : more.InScope (p.opened ++ scope)) : (p ++ more).InScope scope := by
  change (p.append more).InScope scope
  induction p generalizing scope with
  | nil => exact hmore
  | line e rest ih => exact ⟨h.1, ih h.2 hmore⟩
  | bind mutable x e rest ih =>
      rw [opened, List.append_assoc] at hmore
      exact ⟨h.1, ih h.2 hmore⟩
  | block head body rest _ ih => exact ⟨h.1, h.2.1, ih h.2.2 hmore⟩
  | branch header body otherwise rest _ _ ih =>
      exact ⟨h.1, h.2.1, h.2.2.1, ih h.2.2.2 hmore⟩

theorem steps_concat {α : Type} {program : α → Program} {steps : α → List Step} (parts : List α)
    (h : ∀ part, (program part).steps = steps part) :
    (concat (parts.map program)).steps = parts.flatMap steps := by
  induction parts with
  | nil => rfl
  | cons part parts ih =>
      rw [List.flatMap_cons, ← h part, ← ih]
      exact steps_append _ _

theorem rename_concat {α : Type} {program : α → Program} {rename : α → α}
    {f : Temporary → Temporary} (parts : List α)
    (h : ∀ part, program (rename part) = (program part).rename f) :
    (concat (parts.map program)).rename f = concat ((parts.map rename).map program) := by
  induction parts with
  | nil => rfl
  | cons part parts ih =>
      rw [List.map_cons, List.map_cons, List.map_cons, h part]
      exact (rename_append f _ _).trans (congrArg ((program part).rename f ++ ·) ih)

end Program

/-! ### Numbers in the order of binding -/

/-- Temporaries with some stems have the numbers from `next` up to `after`, in this order. -/
structure Numbered (stems : List String) (next after : Nat) (xs : List Temporary) : Prop where
  le : next ≤ after
  numbers : xs.map Temporary.number = List.range' next (after - next)
  stem : ∀ x ∈ xs, x.stem ∈ stems

namespace Numbered

variable {stems : List String} {next middle after : Nat} {xs ys : List Temporary}

theorem nil (stems : List String) (next : Nat) : Numbered stems next next [] where
  le := Nat.le_refl next
  numbers := by rw [Nat.sub_self, List.range'_zero, List.map_nil]
  stem := by simp

theorem cons {stem : String} (hstem : stem ∈ stems) (h : Numbered stems (next + 1) after xs) :
    Numbered stems next after (⟨stem, next⟩ :: xs) where
  le := Nat.le_of_succ_le h.le
  numbers := by
    have hlength : after - next = (after - (next + 1)) + 1 := by
      have hle := h.le
      omega
    rw [List.map_cons, h.numbers, hlength, List.range'_succ]
  stem := List.forall_mem_cons.mpr ⟨hstem, h.stem⟩

theorem append (h : Numbered stems next middle xs) (hmore : Numbered stems middle after ys) :
    Numbered stems next after (xs ++ ys) where
  le := Nat.le_trans h.le hmore.le
  numbers := by
    have hle := h.le
    have hmoreLe := hmore.le
    have hmiddle : middle = next + (middle - next) := by omega
    have hlength : after - next = (middle - next) + (after - middle) := by omega
    rw [List.map_append, h.numbers, hmore.numbers, hlength, ← List.range'_append_1, ← hmiddle]
  stem := List.forall_mem_append.mpr ⟨h.stem, hmore.stem⟩

end Numbered

/-- A program binds the temporaries from `next` up to `after` in this order, and uses none out of
scope. -/
structure Program.Allots (stems : List String) (next after : Nat) (scope : List String)
    (p : Program) : Prop where
  numbered : Numbered stems next after p.bound
  inScope : p.InScope scope

namespace Program.Allots

variable {stems scope : List String} {next middle later after : Nat} {p body rest more : Program}

theorem nil (stems : List String) (next : Nat) (scope : List String) :
    Program.nil.Allots stems next next scope :=
  ⟨.nil stems next, trivial⟩

theorem line {e : Expr} (huses : ∀ x ∈ e.uses, x.text ∈ scope)
    (h : rest.Allots stems next after scope) : (line e rest).Allots stems next after scope :=
  ⟨h.numbered, huses, h.inScope⟩

theorem bind {mutable : Bool} {stem : String} {e : Expr} (hstem : stem ∈ stems)
    (huses : ∀ x ∈ e.uses, x.text ∈ scope)
    (h : rest.Allots stems (next + 1) after (Temporary.text ⟨stem, next⟩ :: scope)) :
    (bind mutable ⟨stem, next⟩ e rest).Allots stems next after scope :=
  ⟨.cons hstem h.numbered, huses, h.inScope⟩

theorem block {head : Head} (huses : ∀ x ∈ head.uses, x.text ∈ scope)
    (hhead : Numbered stems next middle head.bound)
    (hbody : body.Allots stems middle later (head.bound.map Temporary.text ++ scope))
    (h : rest.Allots stems later after scope) :
    (block head body rest).Allots stems next after scope :=
  ⟨(hhead.append hbody.numbered).append h.numbered, huses, hbody.inScope, h.inScope⟩

theorem branch {header : Expr} {otherwise : Program} (huses : ∀ x ∈ header.uses, x.text ∈ scope)
    (hbody : body.Allots stems next middle scope)
    (hotherwise : otherwise.Allots stems middle later scope)
    (h : rest.Allots stems later after scope) :
    (branch header body otherwise rest).Allots stems next after scope :=
  ⟨(hbody.numbered.append hotherwise.numbered).append h.numbered, huses, hbody.inScope,
    hotherwise.inScope, h.inScope⟩

theorem append (h : p.Allots stems next middle scope)
    (hmore : more.Allots stems middle after (p.opened ++ scope)) :
    (p ++ more).Allots stems next after scope := by
  constructor
  · rw [bound_append]
    exact h.numbered.append hmore.numbered
  · exact h.inScope.append hmore.inScope

end Program.Allots

end Code

/-! ### Names -/

namespace Temporary

variable {x y : Temporary}

def lacksDigits (s : String) : Bool := s.toList.all (!·.isDigit)

theorem takeWhile_text (h : lacksDigits x.stem = true) :
    x.text.toList.takeWhile (!·.isDigit) = x.stem.toList := by
  have hdigits : (toString x.number).toList.takeWhile (!·.isDigit) = [] := by
    cases hlist : (toString x.number).toList with
    | nil => rfl
    | cons c rest =>
        have hc : c.isDigit = true :=
          Text.isDigit_of_mem_toString (hlist ▸ List.mem_cons_self)
        rw [List.takeWhile_cons_of_neg (by simp [hc])]
  rw [text, String.toList_append, List.takeWhile_append_of_pos (List.all_eq_true.mp h), hdigits,
    List.append_nil]

theorem toString_injective {i j : Nat} (h : toString i = toString j) : i = j := by
  have hdigits : Nat.toDigits 10 i = Nat.toDigits 10 j := by
    have hlists := congrArg String.toList h
    rwa [Nat.toString_eq_repr, Nat.toString_eq_repr, Nat.toList_repr, Nat.toList_repr] at hlists
  rw [← Nat.ofDigitChars_toDigits (b := 10) (n := i) (by decide) (by decide), hdigits,
    Nat.ofDigitChars_toDigits (by decide) (by decide)]

theorem eq_of_text_eq (hx : lacksDigits x.stem = true) (hy : lacksDigits y.stem = true)
    (h : x.text = y.text) : x = y := by
  have hstem : x.stem = y.stem := by
    rw [← String.toList_inj, ← takeWhile_text hx, h, takeWhile_text hy]
  have hnumber : x.number = y.number := by
    rw [text, text, hstem, String.append_right_inj] at h
    exact toString_injective h
  cases x
  cases y
  cases hstem
  cases hnumber
  rfl

end Temporary

namespace Code.Program

/-- The names of the code around a frame. The variables of declared exceptions are numbered too. -/
def outerNames : List String := ["protocol", "builder", "field", "result"]

/-- All temporaries have names of their own, also beside the code around, and each is used only
where it is in scope. -/
structure KeepsApart (stems : List String) (p : Program) : Prop where
  stem : ∀ x ∈ p.bound, x.stem ∈ stems
  distinct : (p.bound.map Temporary.text).Nodup
  unlike : ∀ x ∈ p.bound,
    x.text ∉ outerNames ∧ ∀ index, x.text ≠ MethodPlan.exceptionSlot index
  inScope : p.InScope []

theorem Allots.keepsApart {stems : List String} {next after : Nat} {p : Program}
    (h : p.Allots stems next after [])
    (hplain : ∀ stem ∈ stems, Temporary.lacksDigits stem = true)
    (houter : ∀ stem ∈ stems, stem ∉ "exception" :: outerNames) : p.KeepsApart stems := by
  have hdigits : ∀ x ∈ p.bound, Temporary.lacksDigits x.stem = true :=
    fun x hx => hplain x.stem (h.numbered.stem x hx)
  refine ⟨h.numbered.stem, ?_, fun x hx => ⟨fun hname => ?_, fun index hname => ?_⟩, h.inScope⟩
  · have hnumbers : (p.bound.map Temporary.number).Nodup := by
      rw [h.numbered.numbers]
      exact List.nodup_range'
    rw [List.Nodup, List.pairwise_map] at hnumbers ⊢
    refine hnumbers.imp_of_mem fun {x y} hx hy hne htext => hne ?_
    rw [Temporary.eq_of_text_eq (hdigits x hx) (hdigits y hy) htext]
  · -- A name without digits would be the whole stem.
    have hstem : x.stem = x.text := by
      have hwhole : ∀ name ∈ outerNames, Temporary.lacksDigits name = true := by decide
      rw [← String.toList_inj, ← Temporary.takeWhile_text (hdigits x hx),
        List.takeWhile_eq_self_iff.mpr (List.all_eq_true.mp (hwhole x.text hname))]
    exact houter x.stem (h.numbered.stem x hx) (List.mem_cons_of_mem _ (hstem ▸ hname))
  · have hexception : Temporary.lacksDigits "exception" = true := by decide
    have hsame : x = ⟨"exception", index⟩ :=
      Temporary.eq_of_text_eq (hdigits x hx) hexception hname
    exact houter x.stem (h.numbered.stem x hx) (hsame ▸ List.mem_cons_self)

end Code.Program

end WireIdl
