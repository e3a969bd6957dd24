import Mathlib.Tactic

/-! The map helpers of public/basic/template.h on `std::map<int64,ValType>`. A
call names the first template arguments, and the overload this selects decides
whether its key passes through `int`. -/
namespace Migfm.Basic

abbrev Map (ValType : Type) := Std.ExtTreeMap Int64 ValType

/-- An `int64` passed as `int` and looked up among `int64` keys. -/
def narrow (idx : Int64) : Int64 := idx.toInt32.toInt64

section Template
variable {ValType : Type}

/-- `MapGet<MapType,MapTypeIT,ValType>`. An `int64` is no `ValType`, so the
overload that takes `int idx` is the only one. -/
def MapGetInt (map : Map ValType) (idx : Int64) : Option ValType := map[narrow idx]?

/-- `MapGet<MapType,MapTypeIT,KeyType,ValType>`, which is also what
`MapGet<MapType,MapTypeIT,int64>` means: `int64` is then the `KeyType` and needs
no conversion. -/
def MapGet (map : Map ValType) (idx : Int64) : Option ValType := map[idx]?

/-- Both overloads of `MapAdd` take the whole key. -/
def MapAdd (map : Map ValType) (idx : Int64) (val : ValType) : Map ValType := map.insert idx val

/-- `MapDel<MapType,MapTypeIT>` deduces `KeyType` as `int64`. -/
def MapDel (map : Map ValType) (id : Int64) : Map ValType × Bool := (map.erase id,map.contains id)

/-- The narrowed lookup of `idx` meets no other key. -/
def Plain (map : Map ValType) (idx : Int64) : Prop := narrow idx = idx ∨ (idx ∉ map ∧ narrow idx ∉ map)

theorem MapGetInt_plain {map : Map ValType} {idx : Int64} (plain : Plain map idx) : MapGetInt map idx = map[idx]? := by
  rcases plain with same | ⟨absent,absent'⟩
  · rw [MapGetInt,same]
  · rw [MapGetInt,Std.ExtTreeMap.getElem?_eq_none absent,Std.ExtTreeMap.getElem?_eq_none absent']

theorem MapAdd_get (map : Map ValType) (idx other : Int64) (val : ValType) :
    (MapAdd map idx val)[other]? = if other = idx then some val else map[other]? := by
  rw [MapAdd,Std.ExtTreeMap.getElem?_insert]
  simp only [Std.compare_eq_iff_eq,@eq_comm _ idx]

theorem MapDel_get (map : Map ValType) (id other : Int64) :
    (MapDel map id).1[other]? = if other = id then none else map[other]? := by
  rw [MapDel,Std.ExtTreeMap.getElem?_erase]
  simp only [Std.compare_eq_iff_eq,@eq_comm _ id]

/-- An entry is the added one or an old one. -/
theorem MapAdd_found {map : Map ValType} {idx other : Int64} {val found : ValType}
    (entry : (MapAdd map idx val)[other]? = some found) : (other = idx ∧ found = val) ∨ map[other]? = some found := by
  rw [MapAdd_get] at entry
  split at entry
  · rename_i same
    exact .inl ⟨same,(Option.some.inj entry).symm⟩
  · exact .inr entry

theorem MapDel_found {map : Map ValType} {id other : Int64} {found : ValType}
    (entry : (MapDel map id).1[other]? = some found) : map[other]? = some found := by
  rw [MapDel_get] at entry
  split at entry
  · cases entry
  · exact entry

theorem MapAdd_mem (map : Map ValType) (idx other : Int64) (val : ValType) :
    other ∈ MapAdd map idx val ↔ other = idx ∨ other ∈ map := by
  rw [MapAdd,Std.ExtTreeMap.mem_insert,Std.compare_eq_iff_eq,eq_comm]

theorem MapDel_mem (map : Map ValType) (id other : Int64) : other ∈ (MapDel map id).1 ↔ other ≠ id ∧ other ∈ map := by
  rw [MapDel,Std.ExtTreeMap.mem_erase,ne_eq,Std.compare_eq_iff_eq,ne_comm]

theorem keys_nodup (map : Map ValType) : map.keys.Nodup := by
  refine Std.ExtTreeMap.ordered_keys.imp ?_
  rintro one other less rfl
  rw [Std.compare_self] at less
  exact absurd less (by decide)

theorem keys_card (map : Map ValType) : map.keys.toFinset.card = map.size := by
  rw [List.toFinset_card_of_nodup (keys_nodup map),Std.ExtTreeMap.length_keys]

end Template

theorem narrow_narrow (idx : Int64) : narrow (narrow idx) = narrow idx := by
  unfold narrow
  simp

/-- An id that passed through `int` before. -/
theorem MapGetInt_narrow {ValType : Type} {map : Map ValType} {idx : Int64} (plain : Plain map idx) :
    MapGetInt map (narrow idx) = map[idx]? := by
  rw [← MapGetInt_plain plain,MapGetInt,MapGetInt,narrow_narrow]

end Migfm.Basic
