/-!
# Loose data

Values of a data format, before they are read as records, and the places inside them.
-/

namespace DecoratorVeil.Record

inductive Data where
  | null
  | bool (value : Bool)
  /-- The number with the given digits, divided by a power of ten. -/
  | number (digits : Int) (places : Nat)
  | text (value : String)
  | list (items : List Data)
  | record (fields : List (String × Data))
  deriving Inhabited

inductive Step where
  | field (name : String)
  | index (position : Nat)
  deriving DecidableEq, Repr

/-- The value of a field; the first one counts. -/
def get? (fields : List (String × Data)) (name : String) : Option Data :=
  fields.lookup name

theorem sizeOf_get?_lt {fields : List (String × Data)} {name : String} {value : Data}
    (h : get? fields name = some value) : sizeOf value < sizeOf (Data.record fields) := by
  obtain ⟨before, after, hsplit, -⟩ := List.lookup_eq_some_iff.1 h
  have hmem : (name, value) ∈ fields := by simp [hsplit]
  have hlt := List.sizeOf_lt_of_mem hmem
  simp only [Data.record.sizeOf_spec, Prod.mk.sizeOf_spec] at hlt ⊢
  omega

theorem sizeOf_item_lt {fields : List (String × Data)} {name : String} {items : List Data}
    {item : Data} (h : get? fields name = some (.list items)) (hmem : item ∈ items) :
    sizeOf item < sizeOf (Data.record fields) := by
  have hlist := sizeOf_get?_lt h
  have hitem := List.sizeOf_lt_of_mem hmem
  simp only [Data.list.sizeOf_spec] at hlist
  omega

end DecoratorVeil.Record
