import Specimen.Proofs.Schema.Canonical

/-! Digests written in hexadecimal digits, and the canonical texts they can be taken of. -/
namespace Specimen.Fingerprint
open Text (IsDecimal IsHexLetter Encodable)

/-- A digest that takes every text without surrogates and writes hexadecimal digits. -/
structure Digest.IsHexadecimal (digest : Digest) : Prop where
  total : ∀ text : Text, Encodable text → ∃ print, digest text = .ok print
  hexadecimal : ∀ text print : Text, digest text = .ok print →
    ∀ c ∈ print, IsDecimal c ∨ IsHexLetter c

theorem sha256_isHexadecimal : sha256.IsHexadecimal where
  total text h := by
    obtain ⟨bytes, hb⟩ := Text.encodeUtf8_ok h
    rw [sha256, hb]
    exact ⟨_, rfl⟩
  hexadecimal text print h c hc := by
    rw [sha256] at h
    cases hb : Text.encodeUtf8 text with
    | error _ => rw [hb] at h; cases h
    | ok bytes =>
      rw [hb] at h
      cases h
      exact Sha256.isHex_of_mem_digest hc

/-- Texts of one digest are the same, among the given ones. -/
def Digest.InjectiveOn (digest : Digest) (texts : List Text) : Prop :=
  ∀ left ∈ texts, ∀ right ∈ texts, digest left = digest right → left = right

/-- The digests of the given texts contain a letter. -/
def Digest.LetteredOn (digest : Digest) (texts : List Text) : Prop :=
  ∀ text ∈ texts, ∀ print, digest text = .ok print → ∃ c ∈ print, IsHexLetter c

instance (digest : Digest) (texts : List Text) : Decidable (digest.InjectiveOn texts) :=
  inferInstanceAs (Decidable (∀ left ∈ texts, ∀ right ∈ texts,
    digest left = digest right → left = right))

instance (digest : Digest) (texts : List Text) : Decidable (digest.LetteredOn texts) :=
  decidable_of_iff (∀ text ∈ texts, ∀ print ∈ (digest text).toOption, ∃ c ∈ print, IsHexLetter c)
    (forall_congr' fun text => forall_congr' fun _ => forall_congr' fun print => by
      cases digest text <;> simp [Except.toOption])

theorem Digest.isLettered {digest : Digest} (hex : digest.IsHexadecimal) {texts : List Text}
    (lettered : digest.LetteredOn texts) {text print : Text} (ht : text ∈ texts)
    (h : digest text = .ok print) : IsLettered print :=
  ⟨hex.hexadecimal text print h, lettered text ht print h⟩

private theorem encodable_text {digests : Text → Prop} {signature : Signature}
    (hexadecimal : ∀ digest, digests digest → ∀ c ∈ digest, IsDecimal c ∨ IsHexLetter c)
    (built : signature.IsBuilt digests) (key : Encodable signature.key) :
    Encodable signature.entry.text := by
  have hname := Text.encodable_iff.mpr (built.named.misses Text.gap_surrogates (by decide))
  have htype := Text.encodable_iff.mpr
    (built.typed.misses Text.gap_surrogates (by decide) hexadecimal)
  have mark : Encodable (if signature.optional then ("?" : Text) else []) := by
    split <;> simp
  change Encodable (signature.key ++ "=" ++ signature.name ++ ":" ++ signature.typeKey ++
    (if signature.optional then ("?" : Text) else []))
  simp [key, hname, htype, mark]

/-- The canonical text of built entries can be encoded when their keys can. -/
theorem encodable_canonical {digests : Text → Prop} {signatures : List Signature}
    (hexadecimal : ∀ digest, digests digest → ∀ c ∈ digest, IsDecimal c ∨ IsHexLetter c)
    (built : ∀ s ∈ signatures, s.IsBuilt digests) (keys : ∀ s ∈ signatures, Encodable s.key) :
    Encodable (canonical (signatures.map Signature.entry)) := by
  rw [canonical, Text.encodable_intercalate (Text.encodable_ofString ";")]
  intro part hp
  obtain ⟨entry, he, rfl⟩ := List.mem_map.mp hp
  obtain ⟨signature, hs, rfl⟩ := List.mem_map.mp ((sort_perm _).mem_iff.mp he)
  exact encodable_text hexadecimal (built _ hs) (keys _ hs)

end Specimen.Fingerprint
