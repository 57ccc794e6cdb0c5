import WireIdl.Demo.Targets
import WireIdl.Proofs.Record.Fits
import WireIdl.Proofs.Record.Meaning

/-! The demo schema meets what reading and writing ask of a schema. -/

namespace WireIdl.Demo

def targets : List (Target census) :=
  [hashed, ordered, pruned]

theorem mem_targets {t : Target census} : t ∈ targets ↔ t = hashed ∨ t = ordered ∨ t = pruned := by
  simp only [targets, List.mem_cons, List.not_mem_nil, or_false]

theorem hasDistinctIds : schema.HasDistinctIds := by
  unfold Schema.HasDistinctIds
  decide

theorem hasDistinctIds_of_mem_targets {t : Target census} (h : t ∈ targets) :
    t.schema.HasDistinctIds := by
  obtain rfl | rfl | rfl := mem_targets.mp h <;> exact hasDistinctIds

theorem fitsLeaf_of_mem_targets : ∀ t ∈ targets, ∀ id, ∀ field ∈ (t.schema.record id).fields,
    (t.defaultValue? field).all (t.fitsLeaf (t.schema.shape field.ty)) = true := by
  decide

theorem defaultsFit_of_mem_targets {t : Target census} (h : t ∈ targets) : t.DefaultsFit := by
  intro id field hmem v hv
  have hdefault := fitsLeaf_of_mem_targets t h id field hmem
  rw [hv] at hdefault
  exact Target.fits_of_fitsLeaf hdefault

end WireIdl.Demo
