import NameHunt.Document.Basic
import NameHunt.Entry

/-!
# Entries as documents

* `Entry.document`: an entry as a table; a comment that is not there is left out.
* `Entry.ofDocument?`: the entry of a document.
* `Entry.ofDocument?_document`: reading gives back what was written.
-/

namespace NameHunt.Entry

def document (entry : Entry) : Document :=
  .table <|
    [("pattern", .text entry.pattern), ("extensions", .list (entry.extensions.map .text))] ++
      (entry.comment.map fun comment => ("comment", Document.text comment)).toList

/-- The pattern and the extensions have to be there. -/
def ofDocument? (d : Document) : Option Entry := do
  let field ← d.record? false ["pattern", "extensions", "comment"]
  let pattern ← Document.required? Document.text? (field "pattern")
  let extensions ← Document.required? Document.texts? (field "extensions")
  let comment ← Document.optional? Document.text? (field "comment")
  return { pattern, extensions, comment }

theorem texts?_map_text (texts : List String) :
    Document.texts? (.list (texts.map .text)) = some texts := by
  simp only [Document.texts?]
  induction texts with
  | nil => rfl
  | cons text rest ih => simp [ih, Document.text?]

theorem ofDocument?_document (entry : Entry) : ofDocument? entry.document = some entry := by
  obtain ⟨pattern, extensions, comment⟩ := entry
  cases comment <;>
    simp [ofDocument?, document, Document.record?, Document.required?, Document.optional?,
      texts?_map_text, Document.text?, List.lookup_cons]

end NameHunt.Entry
