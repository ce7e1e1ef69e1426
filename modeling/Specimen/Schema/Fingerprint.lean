import Specimen.Digest.Sha256
import Specimen.Text.Utf8

/-!
Structural fingerprints: the digest of a record's entries in sorted order, so the order of its fields
makes no difference.
-/
namespace Specimen.Fingerprint

structure Entry where
  name : Text
  typeKey : Text
  optional : Bool
  deriving DecidableEq, Repr

/-- Order by name, then type key, then required before optional; strict. -/
def Entry.precedes (a b : Entry) : Bool :=
  Text.precedes a.name b.name ||
    (a.name = b.name && (Text.precedes a.typeKey b.typeKey ||
      (a.typeKey = b.typeKey && !a.optional && b.optional)))

/-- The entry put in front of the first one it precedes or equals. -/
def insert (entry : Entry) : List Entry → List Entry
  | [] => [entry]
  | other :: rest =>
    if other.precedes entry then other :: insert entry rest else entry :: other :: rest

def sort (entries : List Entry) : List Entry := entries.foldr insert []

def Entry.text (entry : Entry) : Text :=
  entry.name ++ ":" ++ entry.typeKey ++ (if entry.optional then ("?" : Text) else [])

def canonical (entries : List Entry) : Text := List.intercalate ";" ((sort entries).map Entry.text)

/-- A digest of texts; one that works on bytes refuses a text that cannot be encoded. -/
abbrev Digest := Text → Except Text.Unencodable Text

def sha256 : Digest := fun text => (Text.encodeUtf8 text).map Sha256.digest

def ofEntries (digest : Digest) (entries : List Entry) : Except Text.Unencodable Text :=
  digest (canonical entries)

end Specimen.Fingerprint
