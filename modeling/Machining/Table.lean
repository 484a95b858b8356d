namespace Machining

/-- Tables remember in which order their keys were first put. -/
structure Table (κ ν : Type) where
  entries : List (κ × ν)
  deriving Repr

namespace Table
variable {κ ν : Type} [BEq κ]

def empty : Table κ ν := ⟨[]⟩

instance : Inhabited (Table κ ν) := ⟨empty⟩

def get? (t : Table κ ν) (k : κ) : Option ν :=
  (t.entries.find? fun e => e.1 == k).map (·.2)

def contains (t : Table κ ν) (k : κ) : Bool := t.entries.any fun e => e.1 == k

/-- A key that is present keeps its place and its own spelling, and takes the new value. -/
def put (t : Table κ ν) (k : κ) (v : ν) : Table κ ν :=
  ⟨go t.entries⟩
where
  go : List (κ × ν) → List (κ × ν)
    | [] => [(k, v)]
    | e :: es => if e.1 == k then (e.1, v) :: es else e :: go es

/-- Change the value of a key that is present. -/
def modify (t : Table κ ν) (k : κ) (f : ν → ν) : Table κ ν :=
  ⟨t.entries.map fun e => if e.1 == k then (e.1, f e.2) else e⟩

def keys (t : Table κ ν) : List κ := t.entries.map (·.1)

def size (t : Table κ ν) : Nat := t.entries.length

def ofList (entries : List (κ × ν)) : Table κ ν :=
  entries.foldl (fun t e => t.put e.1 e.2) empty

end Table
end Machining
