import Specimen.Roundtrip

/-!
A fixed sample taken through both directions, with a text that shows every step.
-/
namespace Specimen.Tour

private def entry (key : Text) (value : Json.Document) : Text × Json.Document := (key, value)

private def person (name : Text) (email : Json.Document) : Json.Document :=
  .object [entry "name" (.string name), entry "email" email]

def sample : Json.Document :=
  .object [entry "id" (.number "42"), entry "title" (.string "Learning Python"),
    entry "author" (person "Bob Smith" (.string "bob@example.com")),
    entry "comments" (.array
      [.object [entry "author" (person "Alice Johnson" (.string "alice@example.com")),
          entry "score" (.number "4")],
        .object [entry "author" (person "Carol White" .null), entry "score" (.number "4.5"),
          entry "edited" (.bool true)]]),
    entry "tags" (.array [.string "python", .string "programming"])]

def nameSpace : Text := "Blog"

def rootName : Text := "Post"

def shownLength : Nat := 200

private def conflictLine (conflict : Conflict) : Text :=
  "   Conflict at " ++ conflict.path ++ ": " ++ conflict.message

def lines : Except Failure (List Text) := do
  let options := { Options.standard with nameSpace := nameSpace }
  let text ← Json.render .indented sample
  let (generated, root) ← options.generateAndLoad none rootName "blog_types" text
  let csharp ← options.generate none rootName (some .csharp) text
  let made ← root.world.serialize Settings.standard
    (some (root.handle (nameSpace ++ "." ++ rootName)))
  let opening : List Text := ["JSON Butler Example", List.replicate 50 0x3D,
    "Sample of original JSON:\n" ++ text.take shownLength ++ "...\n",
    "Generated " ++ Text.ofNat generated.typeCount ++ " type(s):\n", generated.source]
  let closing : List Text := ["C# rendering is " ++ Text.ofNat csharp.source.length ++ " characters\n",
    "Representative document for " ++ made.qualifiedName ++ ":", made.text]
  return opening ++ generated.conflicts.map conflictLine ++ closing

def text : Except Failure Text := lines.map Emission.unlines

end Specimen.Tour
