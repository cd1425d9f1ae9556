import BenchLedger.NameMap

/-!
Maps by name, their look-ups and their totals. Main statements: a map is rebuilt from its own pairs,
whatever is looked up stands among the pairs, and maps with the same look-ups are equal.
-/

namespace BenchLedger

universe u v

variable {α : Type u} {β : Type v}

/-- A name larger than all others goes to the end. -/
theorem putSorted_of_largest {name : String} (value : α) {ps : List (String × α)}
    (h : ∀ p ∈ ps, p.1 < name) : putSorted name value ps = ps ++ [(name, value)] := by
  induction ps with
  | nil => rfl
  | cons p ps ih =>
    obtain ⟨k, v⟩ := p
    have before : k < name := h (k, v) (by simp)
    have notAfter : ¬ name < k := String.lt_asymm before
    have other : name ≠ k := by
      rintro rfl
      exact String.lt_irrefl _ before
    simp only [putSorted, notAfter, other, if_false, List.cons_append]
    rw [ih fun q member => h q (by simp [member])]

namespace NameMap

private theorem foldl_insert_pairs (ps : List (String × α)) (m : NameMap α)
    (increasing : NamesIncrease (m.pairs ++ ps)) :
    (ps.foldl (fun m p => m.insert p.1 p.2) m).pairs = m.pairs ++ ps := by
  induction ps generalizing m with
  | nil => simp
  | cons p ps ih =>
    have apart := List.pairwise_append.1 increasing
    have put : (m.insert p.1 p.2).pairs = m.pairs ++ [p] :=
      putSorted_of_largest p.2 fun q member => apart.2.2 q member p (by simp)
    rw [List.foldl_cons, ih (m.insert p.1 p.2) (by simpa [put] using increasing), put,
      List.append_assoc, List.singleton_append]

/-- A map is the map of its own pairs. -/
@[simp] theorem ofList_pairs (m : NameMap α) : ofList m.pairs = m := by
  apply ext_pairs
  exact foldl_insert_pairs m.pairs empty m.increasing

/-! ### Look-ups -/

private theorem findName_of_mem {ps : List (String × α)} (increasing : NamesIncrease ps)
    {name : String} {value : α} (member : (name, value) ∈ ps) :
    findName name ps = some value := by
  induction ps with
  | nil => cases member
  | cons p ps ih =>
    obtain ⟨k, v⟩ := p
    have apart := List.pairwise_cons.1 increasing
    rcases List.mem_cons.1 member with same | later
    · cases same
      simp [findName]
    · have before : k < name := apart.1 _ later
      have other : name ≠ k := by
        rintro rfl
        exact String.lt_irrefl _ before
      simp [findName, other, ih apart.2 later]

private theorem mem_of_findName {ps : List (String × α)} {name : String} {value : α}
    (found : findName name ps = some value) : (name, value) ∈ ps := by
  induction ps with
  | nil => cases found
  | cons p ps ih =>
    obtain ⟨k, v⟩ := p
    simp only [findName] at found
    split at found
    next same =>
      cases found
      simp [same]
    · exact List.mem_cons_of_mem _ (ih found)

theorem get?_eq_some {m : NameMap α} {name : String} {value : α} :
    m.get? name = some value ↔ (name, value) ∈ m.pairs :=
  ⟨mem_of_findName, findName_of_mem m.increasing⟩

theorem mem_names {m : NameMap α} {name : String} :
    name ∈ m.names ↔ (m.get? name).isSome = true := by
  simp only [names, List.mem_map, Option.isSome_iff_exists, get?_eq_some]
  constructor
  · rintro ⟨⟨k, v⟩, member, rfl⟩
    exact ⟨v, member⟩
  · rintro ⟨v, member⟩
    exact ⟨(name, v), member, rfl⟩

theorem nodup_names (m : NameMap α) : m.names.Nodup :=
  List.pairwise_map.2 (m.increasing.imp fun before same => by
    rw [same] at before
    exact String.lt_irrefl _ before)

theorem mem_values {m : NameMap α} {value : α} :
    value ∈ m.values ↔ ∃ name, m.get? name = some value := by
  simp only [values, List.mem_map, get?_eq_some]
  constructor
  · rintro ⟨⟨k, v⟩, member, rfl⟩
    exact ⟨k, member⟩
  · rintro ⟨k, member⟩
    exact ⟨(k, value), member, rfl⟩

private theorem mem_of_get?_foldl {ps : List (String × α)} {m : NameMap α} {name : String}
    {value : α} (found : (ps.foldl (fun m p => m.insert p.1 p.2) m).get? name = some value) :
    (name, value) ∈ ps ∨ m.get? name = some value := by
  induction ps generalizing m with
  | nil => exact .inr found
  | cons p ps ih =>
    rcases ih found with later | here
    · exact .inl (List.mem_cons_of_mem _ later)
    · rw [get?_insert] at here
      split at here
      next same =>
        cases here
        exact .inl (by simp [same])
      · exact .inr here

/-- What is found in the map of a list of pairs stands in the list. -/
theorem mem_of_get?_ofList {ps : List (String × α)} {name : String} {value : α}
    (found : (ofList ps).get? name = some value) : (name, value) ∈ ps :=
  (mem_of_get?_foldl found).elim id fun none => by simp at none

@[simp] theorem get?_map (f : String → α → β) (m : NameMap α) (name : String) :
    (m.map f).get? name = (m.get? name).map (f name) := by
  have walk (ps : List (String × α)) :
      findName name (ps.map fun p => (p.1, f p.1 p.2)) = (findName name ps).map (f name) := by
    induction ps with
    | nil => rfl
    | cons p ps ih =>
      obtain ⟨k, v⟩ := p
      simp only [List.map_cons, findName]
      split
      next same => simp [same]
      · exact ih
  exact walk m.pairs

/-- Maps with the same look-ups are equal. -/
theorem ext_get? {a b : NameMap α} (h : ∀ name, a.get? name = b.get? name) : a = b := by
  apply ext_pairs
  have same (p : String × α) : p ∈ a.pairs ↔ p ∈ b.pairs := by
    obtain ⟨k, v⟩ := p
    rw [← get?_eq_some, ← get?_eq_some, h k]
  have apart {ps : List (String × α)} (increasing : NamesIncrease ps) : ps.Nodup :=
    increasing.imp fun before => by
      rintro rfl
      exact String.lt_irrefl _ before
  refine List.Perm.eq_of_pairwise ?_ a.increasing b.increasing
    ((List.perm_ext_iff_of_nodup (apart a.increasing) (apart b.increasing)).2 same)
  intro p q _ _ before after
  exact absurd after (String.lt_asymm before)

/-! ### Totals -/

private theorem total_putSorted (measure : α → Nat) (name : String) (value : α)
    {ps : List (String × α)} (increasing : NamesIncrease ps) :
    ((putSorted name value ps).map (·.2)).foldr (fun v n => measure v + n) 0
        + ((findName name ps).map measure).getD 0
      = (ps.map (·.2)).foldr (fun v n => measure v + n) 0 + measure value := by
  induction ps with
  | nil => simp [putSorted, findName]
  | cons p ps ih =>
    obtain ⟨k, v⟩ := p
    have apart := List.pairwise_cons.1 increasing
    simp only [putSorted, findName]
    split
    next first =>
      -- All names of the list are larger.
      have other : name ≠ k := by
        rintro rfl
        exact String.lt_irrefl _ first
      have absent : findName name ps = none := by
        refine Option.eq_none_iff_forall_ne_some.2 fun value found => ?_
        have later : k < name := apart.1 _ (mem_of_findName found)
        exact String.lt_asymm first later
      simp [other, absent, Nat.add_comm]
    · split
      · simp only [List.map_cons, List.foldr_cons, Option.map_some, Option.getD_some]
        omega
      · have rest := ih apart.2
        simp only [List.map_cons, List.foldr_cons]
        omega

/-- An insertion replaces what the name contributed to a total. -/
theorem total_insert (measure : α → Nat) (m : NameMap α) (name : String) (value : α) :
    (m.insert name value).total measure + ((m.get? name).map measure).getD 0
      = m.total measure + measure value :=
  total_putSorted measure name value m.increasing

end NameMap

end BenchLedger
