import StyledEffects.Style.Span

/-! Style tables: what is written where a span begins and where it ends. -/

namespace StyledEffects.Style

structure Escapes where
  opening : String
  closing : String
  deriving DecidableEq, Repr

abbrev Table := Span → Escapes

namespace Table

def ansi : Table := fun span => ⟨span.codes.1.text, span.codes.2.text⟩

/-- No escapes at all, for output that is not shown on a terminal. -/
def plain : Table := fun _ => ⟨"", ""⟩

/-- The table that lists spans by name; spans that are not listed have no escapes. -/
def ofEntries (entries : List (String × Escapes)) : Table := fun span =>
  (entries.lookup span.name).getD ⟨"", ""⟩

end Table

end StyledEffects.Style
