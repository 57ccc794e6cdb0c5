import WireIdl.Proofs.Demo
import WireIdl.Proofs.Record.RoundTrip
import WireIdl.Proofs.Value.Building

/-! Identity of the values that records are made of. Being the same is an equivalence, values that
are the same have one hash, and the hash sees only the content of a container. -/

namespace WireIdl

variable {n : Census} {t : Target n}

theorem Target.Fits.proper {shape : Shape n} {v : Value} (h : t.Fits shape v) : v.Proper := by
  induction h with
  | bool | byte | i16 | i32 | i64 | double | string | binary | enum => exact .leaf trivial
  | list _ ih => exact .seq ih
  | set walk _ ih =>
      refine .set (walk.imp_of_mem fun ha hb hbefore => ?_) ih
      exact Value.not_alike_of_same_eq_false (ih _ ha) (ih _ hb) hbefore.not_same
  | map walk _ _ ihKeys ihValues =>
      refine .map (walk.imp_of_mem fun ha hb hbefore => ?_) ihKeys ihValues
      exact Value.not_alike_of_same_eq_false (ihKeys _ ha) (ihKeys _ hb) hbefore.not_same
  | record length _ _ _ ih =>
      have hslots := List.forall₂_iff_zip.mpr ⟨length, fun hmem => ih _ hmem⟩
      exact .record (forall_mem_of_forall₂ hslots)

namespace Value

theorem same_comm_of_proper {v w : Value} (hv : v.Proper) (hw : w.Proper) :
    v.same w = w.same v := by
  rw [Bool.eq_iff_iff, tells_proper hv hw, tells_proper hw hv]
  exact ⟨Alike.symm, Alike.symm⟩

theorem same_trans_of_proper {u v w : Value} (hu : u.Proper) (hv : v.Proper) (hw : w.Proper)
    (huv : u.same v = true) (hvw : v.same w = true) : u.same w = true := by
  rw [tells_proper hu hv] at huv
  rw [tells_proper hv hw] at hvw
  rw [tells_proper hu hw]
  exact huv.trans hvw

end Value

namespace Demo

open Value

theorem same_equivalence_respected_by_hash :
    (∀ v : Value, v.Proper → v.same v = true) ∧
    (∀ v w : Value, v.Proper → w.Proper → v.same w = w.same v) ∧
    (∀ u v w : Value, u.Proper → v.Proper → w.Proper → u.same v = true → v.same w = true →
      u.same w = true) ∧
    (∀ v w : Value, v.Proper → w.Proper → (v.same w = true ↔ v.Alike True w)) ∧
    (∀ v w : Value, v.Proper → w.Proper → v.same w = true → v.hash = w.hash) ∧
    (∀ v w : Value, v.Alike False w → v.hash = w.hash) ∧
    (∀ (f g : KeyedForm) (items others : List Value), (∀ item ∈ items, item.Proper) →
      (∀ item, item ∈ items ↔ item ∈ others) →
      (setOf f items).Proper ∧ (setOf f items).hash = (setOf g others).hash) ∧
    (∀ (f g : KeyedForm) (entries others : List (Value × Value)),
      (∀ entry ∈ entries, entry.1.Proper ∧ entry.2.Proper) →
      (entries.Pairwise fun a b => a.1.same b.1 = false) → entries.Perm others →
      (mapOf f entries).Proper ∧ (mapOf f entries).hash = (mapOf g others).hash) ∧
    ∀ t ∈ targets, ∀ (shape : Shape census) (v : Value), t.Fits shape v → v.Proper := by
  refine ⟨?_, ?_, ?_, ?_, ?_, ?_, ?_, ?_, ?_⟩
  · intro v hv
    exact (tells_proper hv hv).mpr (.refl v)
  · intro v w hv hw
    exact same_comm_of_proper hv hw
  · intro u v w hu hv hw huv hvw
    exact same_trans_of_proper hu hv hw huv hvw
  · intro v w hv hw
    exact tells_proper hv hw
  · intro v w hv hw hsame
    exact ((tells_proper hv hw).mp hsame).hash_eq
  · intro v w halike
    exact halike.hash_eq
  · intro f g items others hitems hmem
    exact ⟨proper_setOf hitems, hash_setOf_congr hitems hmem⟩
  · intro f g entries others hentries hapart hperm
    have hkeys : ∀ entry ∈ entries, entry.1.Proper := fun entry hmem => (hentries entry hmem).1
    refine ⟨proper_mapOf hkeys fun entry hmem => (hentries entry hmem).2,
      hash_mapOf_of_perm hkeys (hapart.imp_of_mem fun ha hb hne => ?_) hperm⟩
    exact not_alike_of_same_eq_false (hkeys _ ha) (hkeys _ hb) hne
  · intro t _ shape v hfits
    exact hfits.proper

def orderedScopes (first second : String) : Value :=
  .record [some (.string .owned "user"), none, none,
    some (.set .ordered [.string .owned first, .string .owned second]), none]

theorem withScopes_alike (first second : String) :
    (withScopes first second).Alike False (orderedScopes second first) := by
  have hset : Value.Alike False (.set .hashed [.string .owned first, .string .owned second])
      (.set .ordered [.string .owned second, .string .owned first]) :=
    .of_matched nofun ⟨_, .swap _ _ _, List.forall₂_same.mpr fun item _ => .refl item⟩
  exact .of_slots (.cons (.some (.refl _)) (.cons .none (.cons .none
    (.cons (.some hset) (.cons .none .nil)))))

theorem hash_withScopes :
    hashed ∈ targets ∧ hashed.Fits (.record credentialsId) (withScopes "write" "read") ∧
      (withScopes "write" "read").same (withScopes "write" "read") = true ∧
      (withScopes "write" "read").hash = (orderedScopes "read" "write").hash ∧
      (Value.double ⟨0x7ff8000000000001⟩).same (.double ⟨0x7ff8000000000001⟩) = true := by
  have hmem : hashed ∈ targets := List.mem_cons_self
  have hfits : hashed.Fits (.record credentialsId) (withScopes "write" "read") :=
    scopesBuilder_collects.fits_of_build (defaultsFit_of_mem_targets hmem) rfl
  obtain ⟨hrefl, _, _, _, _, hcontent, _, _, hproper⟩ := same_equivalence_respected_by_hash
  exact ⟨hmem, hfits, hrefl _ (hproper hashed hmem _ _ hfits),
    hcontent _ _ (withScopes_alike "write" "read"), hrefl _ (.leaf trivial)⟩

end Demo

end WireIdl
