import CloudProvider.Proofs.StemcellImage

/-! Images that are packed in a series of members. Unpacking ends with the first of them, and so an upload
holds all that has been packed only if nothing is packed in the others. -/

namespace CloudProvider.Pipeline

open Archive
open Archive.Gzip (Member Spoilt)

def held (series : List Member) : Bytes :=
  series.flatMap Member.contents

theorem held_cons_eq_iff {m : Member} {series : List Member} :
    held (m :: series) = m.contents ↔ ∀ o ∈ series, o.contents = [] := by
  rw [held, List.flatMap_cons, List.append_right_eq_self]
  exact List.flatMap_eq_nil_iff

/-- A success is the upload of the first member, whatever the others hold. -/
theorem createStemcell_members (s : Settings) (path : String) (w : Surroundings) (keeps : w.KeepsFiles) :
    let run := (createStemcell s path).play w []
    ∀ name directory bytes rest, run.2.deeds = ⟨.freshName "stemcell", name⟩ ::
        ⟨.makeScratch name, .ok directory⟩ :: ⟨.readFile path, .ok bytes⟩ :: rest →
      ∀ (m : Member) series, Stemcell.Packs bytes ((m :: series).flatMap Member.bytes) →
        ∀ id, run.1 = .ok id →
          run.2.images = [m.contents] ∧ m.contents <+: held (m :: series) ∧
          (run.2.images = [held (m :: series)] ↔ ∀ o ∈ series, o.contents = []) := by
  intro run name directory bytes rest read m series packs id ok
  obtain ⟨inner, handles, images⟩ := handles_of_read keeps read
  rw [List.flatMap_cons] at packs
  have fine : ¬ Spoilt (m.bytes ++ series.flatMap Member.bytes) := by
    intro spoilt
    obtain ⟨-, fault, failed⟩ := handles.of_spoilt packs spoilt
    cases ok.symm.trans failed
  have uploads := handles.of_begins packs (Member.begins_of_not_spoilt fine)
  rw [show ((createStemcell s path).play w []).1 = .ok id from ok] at uploads
  have first : run.2.images = [m.contents] := images.trans uploads.images_of_ok
  refine ⟨first, List.prefix_append .., ?_⟩
  rw [first, List.singleton_inj, eq_comm]
  exact held_cons_eq_iff

def pair : List Member :=
  [.plain [1, 2, 3], .plain [4]]

theorem sound_pair : Stemcell.Sound (pair.flatMap Member.bytes).length := by
  have whole : (pair.flatMap Member.bytes).length = 50 := by
    simp [pair, Member.length_bytes_plain]
  rw [whole]
  exact Stemcell.sound_of_mem _ (by decide)

theorem begins_pair : (Member.plain [1, 2, 3]).Begins (pair.flatMap Member.bytes) :=
  Member.begins_plain [1, 2, 3] _

theorem createStemcell_members_pair :
    let stemcell := Stemcell.stemcellOf (pair.flatMap Member.bytes) sound_pair
    (Surroundings.shelving stemcell).KeepsFiles ∧ (shelved stemcell).1 = .ok ⟨"image-1"⟩ ∧
      (shelved stemcell).2.images = [[1, 2, 3]] := by
  intro stemcell
  have packs : Stemcell.Packs stemcell (pair.flatMap Member.bytes) := Stemcell.packs_stemcellOf sound_pair
  have keeps := Surroundings.shelving_keepsFiles stemcell
  obtain ⟨ok, -⟩ := shelved_of_begins packs begins_pair
  obtain ⟨rest, read⟩ := shelved_read stemcell
  exact ⟨keeps, ok, (createStemcell_members leisurely "stemcell.tgz"
    (.shelving stemcell) keeps _ _ _ _ read _ _ packs _ ok).1⟩

/-- The image of both is uploaded without the last byte, and nobody hears of it. -/
theorem shelved_shortened :
    let stemcell := Stemcell.stemcellOf (pair.flatMap Member.bytes) sound_pair
    Stemcell.Packs stemcell (pair.flatMap Member.bytes) ∧ held pair = [1, 2, 3, 4] ∧
      (shelved stemcell).1 = .ok ⟨"image-1"⟩ ∧ (shelved stemcell).2.images ≠ [held pair] := by
  intro stemcell
  have packs : Stemcell.Packs stemcell (pair.flatMap Member.bytes) := Stemcell.packs_stemcellOf sound_pair
  obtain ⟨ok, images⟩ := shelved_of_begins packs begins_pair
  refine ⟨packs, rfl, ok, ?_⟩
  rw [images]
  decide

end CloudProvider.Pipeline
