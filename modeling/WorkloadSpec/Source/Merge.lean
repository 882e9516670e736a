import WorkloadSpec.Value.Mapping

/-!
Merging documents section by section. A later document replaces a whole section
in the place it has, a null takes it away, and a new section goes to the end.
-/
namespace WorkloadSpec.Mapping

/-- One entry of a later document. -/
def overlayEntry (base : Mapping) (e : String × Value) : Mapping :=
  if e.2.isNull then erase base e.1 else put base e.1 e.2

def overlay (base later : Mapping) : Mapping := later.foldl overlayEntry base

theorem lookup_overlayEntry (base : Mapping) (e : String × Value) (key : String) :
    (overlayEntry base e).lookup key =
      if key = e.1 then (if e.2.isNull then none else some e.2) else base.lookup key := by
  unfold overlayEntry
  by_cases hn : e.2.isNull = true
  · rw [if_pos hn, lookup_erase, if_pos hn]
  · rw [if_neg hn, lookup_put, if_neg hn]

def merge (documents : List Mapping) : Mapping := documents.foldl overlay []

end WorkloadSpec.Mapping
