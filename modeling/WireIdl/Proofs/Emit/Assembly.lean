import Mathlib.Algebra.GroupWithZero.Nat
import Mathlib.Data.List.Induction
import Mathlib.Data.List.Sort
import Mathlib.Data.String.Basic
import WireIdl.Emit.Assembly
import WireIdl.Proofs.Code.Writer

/-! The modules of a source. The tree that grows unit by unit is the tree that groups all units by
the first module of their paths, and so on inside each module. -/

namespace WireIdl

open Code

namespace Text

theorem mem_eraseRepsBy_loop {first text : String} {texts found : List String} :
    text ∈ List.eraseRepsBy.loop (· == ·) first texts found ↔
      text ∈ found ∨ text = first ∨ text ∈ texts := by
  induction texts generalizing first found with
  | nil => simp [List.eraseRepsBy.loop]
  | cons next texts ih =>
      rw [List.eraseRepsBy.loop]
      split
      · next hsame =>
          rw [ih, beq_iff_eq.mp hsame]
          simp
      · rw [ih]
        simp [or_assoc, or_left_comm]

theorem pairwise_eraseRepsBy_loop {first : String} {texts found : List String}
    (hfound : found.reverse.Pairwise (· < ·)) (hbefore : ∀ text ∈ found, text < first)
    (htexts : (first :: texts).Pairwise (· ≤ ·)) :
    (List.eraseRepsBy.loop (· == ·) first texts found).Pairwise (· < ·) := by
  induction texts generalizing first found with
  | nil =>
      rw [List.eraseRepsBy.loop, List.reverse_cons, List.pairwise_append]
      refine ⟨hfound, List.pairwise_singleton _ _, ?_⟩
      simpa using hbefore
  | cons next texts ih =>
      rw [List.pairwise_cons, List.forall_mem_cons] at htexts
      obtain ⟨⟨hnext, _⟩, hrest⟩ := htexts
      rw [List.eraseRepsBy.loop]
      split
      · next hsame =>
          rw [beq_iff_eq.mp hsame] at hbefore
          rw [beq_iff_eq.mp hsame]
          exact ih hfound hbefore hrest
      · next hdiffers =>
          have hlt : first < next := lt_of_le_of_ne hnext (by simpa using hdiffers)
          refine ih ?_ ?_ hrest
          · rw [List.reverse_cons, List.pairwise_append]
            refine ⟨hfound, List.pairwise_singleton _ _, ?_⟩
            simpa using hbefore
          · rw [List.forall_mem_cons]
            exact ⟨hlt, fun text htext => (hbefore text htext).trans hlt⟩

theorem mem_ascending {text : String} {texts : List String} :
    text ∈ ascending texts ↔ text ∈ texts := by
  rw [ascending, ← (List.mergeSort_perm texts fun a b => decide (a ≤ b)).mem_iff]
  cases texts.mergeSort fun a b => decide (a ≤ b) with
  | nil => rfl
  | cons first rest => simp [List.eraseReps, List.eraseRepsBy, mem_eraseRepsBy_loop]

theorem pairwise_ascending (texts : List String) : (ascending texts).Pairwise (· < ·) := by
  have hsorted := @List.pairwise_mergeSort String (fun a b => decide (a ≤ b))
    (by simpa using fun a b c => le_trans) (by simpa using le_total) texts
  rw [ascending]
  cases hmerged : texts.mergeSort fun a b => decide (a ≤ b) with
  | nil => exact .nil
  | cons first rest =>
      rw [hmerged] at hsorted
      exact pairwise_eraseRepsBy_loop .nil nofun (by simpa using hsorted)

end Text

/-- A unit, and the modules that are still to be entered on the way to it. -/
structure Placement where
  path : List String
  unit : SourceUnit

namespace Placement

def ofUnit (unit : SourceUnit) : Placement :=
  ⟨Ident.modules unit.scope, unit⟩

/-- The unit, if it stands in the module at hand. -/
def here? : Placement → Option SourceUnit
  | ⟨[], unit⟩ => some unit
  | ⟨_ :: _, _⟩ => none

/-- The placement as it is seen inside a module, if its path leads there. -/
def enter? (name : String) : Placement → Option Placement
  | ⟨[], _⟩ => none
  | ⟨first :: path, unit⟩ => if first = name then some ⟨path, unit⟩ else none

/-- The placement as it is seen outside of a module. -/
def leave (name : String) (p : Placement) : Placement :=
  ⟨name :: p.path, p.unit⟩

end Placement

/-! ### Units grouped by module -/

namespace Layout

def here (ps : List Placement) : List SourceUnit :=
  ps.filterMap Placement.here?

/-- The modules that some path enters first. -/
def names (ps : List Placement) : List String :=
  Text.ascending (ps.filterMap (·.path.head?))

def inside (name : String) (ps : List Placement) : List Placement :=
  ps.filterMap (Placement.enter? name)

def depth (ps : List Placement) : Nat :=
  (ps.map (·.path.length)).sum

theorem mem_names {name : String} {ps : List Placement} :
    name ∈ names ps ↔ ∃ p ∈ ps, p.path.head? = some name := by
  rw [names, Text.mem_ascending, List.mem_filterMap]

theorem inside_eq_nil {name : String} {ps : List Placement} (h : name ∉ names ps) :
    inside name ps = [] := by
  rw [inside, List.filterMap_eq_nil_iff]
  rintro ⟨path, unit⟩ hp
  cases path with
  | nil => rfl
  | cons first path =>
      refine if_neg ?_
      rintro rfl
      exact h (mem_names.mpr ⟨_, hp, rfl⟩)

theorem depth_inside_le (name : String) (ps : List Placement) :
    depth (inside name ps) ≤ depth ps := by
  induction ps with
  | nil => exact Nat.le_refl _
  | cons p ps ih =>
      obtain ⟨path, unit⟩ := p
      cases path with
      | nil => simpa [inside, depth, Placement.enter?, List.filterMap_cons] using ih
      | cons first path =>
          by_cases h : first = name
          · simp only [inside, depth, Placement.enter?, h, if_true, List.filterMap_cons,
              List.map_cons, List.sum_cons, List.length_cons] at ih ⊢
            omega
          · simp only [inside, depth, Placement.enter?, h, if_false, List.filterMap_cons,
              List.map_cons, List.sum_cons] at ih ⊢
            omega

theorem depth_inside_lt {name : String} {ps : List Placement} (h : name ∈ names ps) :
    depth (inside name ps) < depth ps := by
  obtain ⟨⟨path, unit⟩, hp, hfirst⟩ := mem_names.mp h
  obtain ⟨before, after, rfl⟩ := List.append_of_mem hp
  cases path with
  | nil => cases hfirst
  | cons first path =>
      cases hfirst
      have hbefore := depth_inside_le name before
      have hafter := depth_inside_le name after
      simp only [inside, depth, Placement.enter?, if_true, List.filterMap_append,
        List.filterMap_cons, List.map_append, List.map_cons, List.sum_append, List.sum_cons,
        List.length_cons] at hbefore hafter ⊢
      omega

/-- A line of a source at a level. -/
def lineAt (level : Nat) (s : String) : String :=
  margin "    " level ++ s

/-- The lines of a unit at a level; lines of blanks are left empty. -/
def unitLines (level : Nat) (unit : SourceUnit) : List String :=
  (Text.lines unit.code).map fun s => if Text.isBlankText s then "" else lineAt level s

/-- The lines of a module: its own units in their order, and then the modules inside it in ascending
order, each with the units that its name leads to. -/
def lines (level : Nat) (ps : List Placement) : List String :=
  List.intercalate [""] ((here ps).map (unitLines level) ++
    (names ps).attach.map fun name =>
      lineAt level ("#[" ++ moduleAttribute ++ "]") ::
        lineAt level ("pub mod " ++ name.1 ++ " \x7b") ::
        lines (level + 1) (inside name.1 ps) ++ [lineAt level "\x7d"])
termination_by depth ps
decreasing_by exact depth_inside_lt name.2

end Layout

/-! ### The tree that grows unit by unit -/

/-- Modules from their names. -/
def Modules.ofNames (tree : String → ModuleTree) : List String → Modules
  | [] => .none
  | name :: names => .cons name (tree name) (ofNames tree names)

namespace Modules

theorem ofNames_congr {tree other : String → ModuleTree} {names : List String}
    (h : ∀ name ∈ names, tree name = other name) : ofNames tree names = ofNames other names := by
  induction names with
  | nil => rfl
  | cons name names ih =>
      rw [List.forall_mem_cons] at h
      rw [ofNames, ofNames, h.1, ih h.2]

/-- A change keeps the names in ascending order and affects the module of one name. -/
theorem update_ofNames {tree : String → ModuleTree} {names : List String} (name : String)
    (change : ModuleTree → ModuleTree) (hnames : names.Pairwise (· < ·))
    (htree : name ∉ names → tree name = .empty) :
    ∃ changed : List String, changed.Pairwise (· < ·) ∧
      (∀ other, other ∈ changed ↔ other = name ∨ other ∈ names) ∧
      (ofNames tree names).update name change =
        ofNames (Function.update tree name (change (tree name))) changed := by
  induction names with
  | nil =>
      refine ⟨[name], List.pairwise_singleton _ _, by simp, ?_⟩
      simp [ofNames, update, htree]
  | cons first names ih =>
      rw [List.pairwise_cons] at hnames
      rw [ofNames, update]
      split
      · next hlt =>
          have hnew : ∀ other ∈ first :: names, name < other := by
            rw [List.forall_mem_cons]
            exact ⟨hlt, fun other hother => hlt.trans (hnames.1 other hother)⟩
          refine ⟨name :: first :: names,
            List.pairwise_cons.mpr ⟨hnew, List.pairwise_cons.mpr hnames⟩, by simp, ?_⟩
          have hkept : ∀ other ∈ first :: names,
              Function.update tree name (change (tree name)) other = tree other :=
            fun other hother => Function.update_of_ne (hnew other hother).ne' _ _
          rw [ofNames, Function.update_self, ofNames_congr hkept, ofNames,
            htree fun h => lt_irrefl _ (hnew name h)]
      · next hge =>
          split
          · next hsame =>
              subst hsame
              refine ⟨name :: names, List.pairwise_cons.mpr hnames, by simp, ?_⟩
              have hkept : ∀ other ∈ names,
                  Function.update tree name (change (tree name)) other = tree other :=
                fun other hother => Function.update_of_ne (hnames.1 other hother).ne' _ _
              rw [ofNames, Function.update_self, ofNames_congr hkept]
          · next hdiffers =>
              have hlt : first < name := lt_of_le_of_ne (not_lt.mp hge) (Ne.symm hdiffers)
              obtain ⟨changed, hsorted, hmem, hupdate⟩ := ih hnames.2
                fun h => htree (List.not_mem_cons_of_ne_of_not_mem hdiffers h)
              refine ⟨first :: changed, List.pairwise_cons.mpr ⟨fun other hother => ?_, hsorted⟩,
                fun other => ?_, ?_⟩
              · obtain rfl | hother := (hmem other).mp hother
                · exact hlt
                · exact hnames.1 other hother
              · rw [List.mem_cons, hmem, List.mem_cons, or_left_comm]
              · rw [ofNames, hupdate, Function.update_of_ne (Ne.symm hdiffers)]

end Modules

namespace ModuleTree

def ofPlacements (ps : List Placement) : ModuleTree :=
  ps.foldl (fun tree p => tree.insert p.unit p.path) .empty

theorem ofUnits_eq_ofPlacements (units : List SourceUnit) :
    ofUnits units = ofPlacements (units.map .ofUnit) := by
  rw [ofUnits, ofPlacements, List.foldl_map]
  rfl

theorem ofPlacements_concat (ps : List Placement) (p : Placement) :
    ofPlacements (ps ++ [p]) = (ofPlacements ps).insert p.unit p.path := by
  rw [ofPlacements, List.foldl_append]
  rfl

/-- The tree groups the units by the first modules of their paths. -/
theorem ofPlacements_eq (ps : List Placement) :
    ofPlacements ps = .node (Layout.here ps)
      (.ofNames (fun name => ofPlacements (Layout.inside name ps)) (Layout.names ps)) := by
  induction ps using List.reverseRecOn with
  | nil =>
      have hnames : Layout.names [] = [] := by
        simp [Layout.names, Text.ascending, List.eraseReps, List.eraseRepsBy]
      rw [hnames]
      rfl
  | append_singleton ps p ih =>
      obtain ⟨path, unit⟩ := p
      rw [ofPlacements_concat, ih]
      cases path with
      | nil =>
          simp [insert, Layout.here, Layout.names, Layout.inside, Placement.here?,
            Placement.enter?, List.filterMap_cons]
      | cons name path =>
          have hhere : Layout.here (ps ++ [⟨name :: path, unit⟩]) = Layout.here ps := by
            simp [Layout.here, Placement.here?]
          have hsame : Layout.inside name (ps ++ [⟨name :: path, unit⟩]) =
              Layout.inside name ps ++ [⟨path, unit⟩] := by
            simp [Layout.inside, Placement.enter?]
          have hother : ∀ other, other ≠ name →
              Layout.inside other (ps ++ [⟨name :: path, unit⟩]) = Layout.inside other ps := by
            intro other hne
            simp [Layout.inside, Placement.enter?, hne.symm]
          obtain ⟨changed, hsorted, hmem, hupdate⟩ :=
            @Modules.update_ofNames (fun name => ofPlacements (Layout.inside name ps))
              (Layout.names ps) name (insert unit path) (Text.pairwise_ascending _)
              fun habsent => by rw [Layout.inside_eq_nil habsent]; rfl
          have hnames : changed = Layout.names (ps ++ [⟨name :: path, unit⟩]) := by
            refine hsorted.eq_of_mem_iff (Text.pairwise_ascending _) fun other => ?_
            rw [hmem, Layout.mem_names]
            simp [Layout.mem_names, or_comm, eq_comm]
          rw [insert, hhere, hupdate, hnames]
          congr 1
          refine Modules.ofNames_congr fun other _ => ?_
          obtain rfl | hne := eq_or_ne other name
          · rw [Function.update_self, hsame, ofPlacements_concat]
          · rw [Function.update_of_ne hne, hother other hne]

end ModuleTree

/-! ### The text of a tree -/

mutual

/-- The units of a tree with the modules that lead to them. -/
def ModuleTree.placements : ModuleTree → List Placement
  | .node units inner => units.map (⟨[], ·⟩) ++ inner.placements

def Modules.placements : Modules → List Placement
  | .none => []
  | .cons name tree rest => tree.placements.map (.leave name) ++ rest.placements

end

theorem Modules.placements_update {name : String} {change : ModuleTree → ModuleTree}
    {p : Placement}
    (hchange : ∀ tree, (change tree).placements.Perm (tree.placements ++ [p])) (inner : Modules) :
    (inner.update name change).placements.Perm (inner.placements ++ [p.leave name]) := by
  have hleave : ∀ tree, ((change tree).placements.map (.leave name)).Perm
      (tree.placements.map (.leave name) ++ [p.leave name]) := by
    intro tree
    simpa using (hchange tree).map (Placement.leave name)
  match inner with
  | .none => simpa [update, placements, ModuleTree.empty, ModuleTree.placements] using hleave .empty
  | .cons other tree rest =>
      rw [update]
      split
      · rw [placements]
        exact ((hleave .empty).append_right _).trans List.perm_append_comm
      · split
        · next hsame =>
            subst hsame
            rw [placements, placements, List.append_assoc]
            refine ((hleave tree).append_right _).trans ?_
            rw [List.append_assoc]
            exact List.perm_append_comm.append_left _
        · rw [placements, placements, List.append_assoc]
          exact (placements_update hchange rest).append_left _

theorem ModuleTree.placements_insert (unit : SourceUnit) (path : List String) (tree : ModuleTree) :
    (tree.insert unit path).placements.Perm (tree.placements ++ [⟨path, unit⟩]) := by
  induction path generalizing tree with
  | nil =>
      obtain ⟨units, inner⟩ := tree
      rw [insert, placements, placements, List.map_append, List.append_assoc, List.append_assoc]
      exact List.perm_append_comm.append_left _
  | cons name path ih =>
      obtain ⟨units, inner⟩ := tree
      rw [insert, placements, placements, List.append_assoc]
      exact (Modules.placements_update ih inner).append_left _

theorem ModuleTree.placements_ofPlacements (ps : List Placement) :
    (ofPlacements ps).placements.Perm ps := by
  induction ps using List.reverseRecOn with
  | nil => exact .nil
  | append_singleton ps p ih =>
      rw [ofPlacements_concat]
      exact (placements_insert p.unit p.path _).trans (ih.append_right [p])


namespace Layout

theorem indentLine_eq_lineAt {level : Nat} {s : String} (h : Text.isBlankText s = false) :
    indentLine "    " level s = lineAt level s := by
  rw [indentLine, h]
  rfl

theorem printedAll_intercalate (indentation : String) (level : Nat) (items : List (List Step)) :
    Step.printedAll indentation level (List.intercalate [.blank] items) =
      List.intercalate [""] (items.map (Step.printedAll indentation level)) := by
  induction items with
  | nil => simp [Step.printedAll]
  | cons item items ih =>
      cases items with
      | nil => simp
      | cons next items =>
          rw [List.map_cons, List.map_cons, List.intercalate_cons_cons, List.intercalate_cons_cons,
            Step.printedAll_append, Step.printedAll_append, ih, List.map_cons]
          rfl

variable {c : Config}

theorem items_ofNames (tree : String → ModuleTree) (names : List String) :
    (Modules.ofNames tree names).items c = names.map fun name =>
      [ .attribute moduleAttribute,
        .block ("pub mod " ++ name) (List.intercalate [.blank] ((tree name).items c))] := by
  induction names with
  | nil => rfl
  | cons name names ih => rw [Modules.ofNames, Modules.items, ih, List.map_cons]

theorem printedAll_steps (hc : c.fileComment = false) (level : Nat) (unit : SourceUnit) :
    Step.printedAll "    " level (unit.steps c) = unitLines level unit := by
  simp only [SourceUnit.steps, hc, Bool.false_eq_true, if_false, List.nil_append, Step.printedAll,
    Step.printed, List.append_nil]
  rfl

theorem printedAll_module (level : Nat) (name : String) (body : List Step) :
    Step.printedAll "    " level [.attribute moduleAttribute, .block ("pub mod " ++ name) body] =
      lineAt level ("#[" ++ moduleAttribute ++ "]") ::
        lineAt level ("pub mod " ++ name ++ " \x7b") ::
        Step.printedAll "    " (level + 1) body ++ [lineAt level "\x7d"] := by
  have hattribute : Text.isBlankText ("#[" ++ moduleAttribute ++ "]") = false :=
    Text.isBlankText_append (Text.isBlankText_append (by decide) _) _
  have hmodule : Text.isBlankText ("pub mod " ++ name ++ " \x7b") = false :=
    Text.isBlankText_append (Text.isBlankText_append (by decide) _) _
  have hclose : Text.isBlankText "\x7d" = false := by decide
  simp only [Step.printedAll, Step.printed, indentLine_eq_lineAt hattribute,
    indentLine_eq_lineAt hmodule, indentLine_eq_lineAt hclose, List.append_nil,
    List.cons_append, List.nil_append]

/-- The tree prints what its grouped units print. -/
theorem printedAll_items (hc : c.fileComment = false) (level : Nat) (ps : List Placement) :
    Step.printedAll "    " level
      (List.intercalate [.blank] ((ModuleTree.ofPlacements ps).items c)) = lines level ps := by
  induction level, ps using lines.induct with
  | case1 level ps ih =>
      have hunits : (here ps).map (Step.printedAll "    " level ∘ (·.steps c)) =
          (here ps).map (unitLines level) :=
        List.map_congr_left fun unit _ => printedAll_steps hc level unit
      have hmodules : ∀ name ∈ (names ps).attach,
          Step.printedAll "    " level
              [.attribute moduleAttribute, .block ("pub mod " ++ name.1) (List.intercalate [.blank]
                ((ModuleTree.ofPlacements (inside name.1 ps)).items c))] =
            lineAt level ("#[" ++ moduleAttribute ++ "]") ::
              lineAt level ("pub mod " ++ name.1 ++ " \x7b") ::
              lines (level + 1) (inside name.1 ps) ++ [lineAt level "\x7d"] := by
        intro name _
        rw [printedAll_module, ih name]
      rw [printedAll_intercalate, lines, ModuleTree.ofPlacements_eq, ModuleTree.items,
        items_ofNames, List.map_append, List.map_map, List.map_map, hunits,
        ← List.map_congr_left hmodules, ← List.attach_map_val (l := names ps)]
      rfl

theorem areWhole_intercalate {items : List (List Step)}
    (h : ∀ item ∈ items, Step.areWhole item = true) :
    Step.areWhole (List.intercalate [.blank] items) = true := by
  induction items with
  | nil => simp [Step.areWhole]
  | cons item items ih =>
      rw [List.forall_mem_cons] at h
      cases items with
      | nil => simpa using h.1
      | cons next items =>
          rw [List.intercalate_cons_cons, Step.areWhole_append, Step.areWhole_append, h.1, ih h.2]
          rfl

theorem areWhole_steps (unit : SourceUnit) : Step.areWhole (unit.steps c) = true := by
  rw [SourceUnit.steps, Step.areWhole_append]
  split
  · cases unit.location? <;> rfl
  · rfl

mutual

theorem areWhole_items (tree : ModuleTree) :
    ∀ item ∈ tree.items c, Step.areWhole item = true := by
  match tree with
  | .node units inner =>
      rw [ModuleTree.items, List.forall_mem_append, List.forall_mem_map]
      exact ⟨fun unit _ => areWhole_steps unit, areWhole_inner inner⟩

theorem areWhole_inner (inner : Modules) :
    ∀ item ∈ inner.items c, Step.areWhole item = true := by
  match inner with
  | .none => simp [Modules.items]
  | .cons name tree rest =>
      rw [Modules.items, List.forall_mem_cons]
      refine ⟨?_, areWhole_inner rest⟩
      simp [Step.areWhole, Step.isWhole, areWhole_intercalate (areWhole_items tree)]

end

end Layout

namespace Config

open Layout

/-- A source is its units grouped by module, and each unit stands once, in the module of its
namespace. -/
theorem assemble_eq_lines (c : Config) (hc : c.fileComment = false) (stamp : String)
    (units : List SourceUnit) :
    c.assemble stamp units = Text.unlines (lines 0 (units.map .ofUnit)) ∧
      (ModuleTree.ofUnits units).placements.Perm (units.map .ofUnit) := by
  rw [ModuleTree.ofUnits_eq_ofPlacements]
  refine ⟨?_, ModuleTree.placements_ofPlacements _⟩
  rw [assemble, headerSteps, hc, if_neg Bool.false_ne_true, List.nil_append,
    Step.render_of_areWhole (areWhole_intercalate (areWhole_items _)),
    ModuleTree.ofUnits_eq_ofPlacements, printedAll_items hc]

/-- Units of two namespaces and of one inside the other, out of order. -/
def sampleUnits : List SourceUnit := [
  { name := "Late", scope := "b", kind := .enum, location? := none, code := "enum Late;" },
  { name := "Deep", scope := "a..b", kind := .struct, location? := none,
    code := "struct Deep;\n \n" },
  { name := "Top", scope := "", kind := .constants, location? := none, code := "" },
  { name := "More", scope := "b", kind := .enum, location? := none, code := "enum More;" },
  { name := "Word", scope := "a.self", kind := .union, location? := none, code := "enum Word;" }]

def bareConfig : Config :=
  { fileComment := false }

theorem assemble_sampleUnits :
    bareConfig.fileComment = false ∧
      sampleUnits.map (fun unit => (Placement.ofUnit unit).path) =
        [["b"], ["a", "b"], [], ["b"], ["a", "self_"]] ∧
      bareConfig.assemble "" sampleUnits = Text.unlines (lines 0 (sampleUnits.map .ofUnit)) ∧
      (ModuleTree.ofUnits sampleUnits).placements.Perm (sampleUnits.map .ofUnit) :=
  ⟨rfl, by decide, assemble_eq_lines bareConfig rfl "" sampleUnits⟩

end Config

end WireIdl
