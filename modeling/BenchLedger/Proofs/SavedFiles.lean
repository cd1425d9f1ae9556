import BenchLedger.Files.Disk

/-!
What is saved can be read. Main statement: `read_save`: a file reads back once it has been saved.
-/

namespace BenchLedger.Disk

/-! ### Targets -/

/-- A name that is no dots is a step down. -/
theorem child_ne_nil {p q : Place} {name : String} (h : child p name = .ok q)
    (hdots : ¬(name = "." ∨ name = "..")) : q ≠ [] := by
  unfold child at h
  split at h
  · next dot => exact absurd (.inl dot) hdots
  · split at h
    · next dots => exact absurd (.inr dots) hdots
    · split at h
      · contradiction
      · cases h
        simp

theorem target_ne_nil {d : Disk} {p q : Place} {names : List String}
    (h : d.target p names = .ok (.entry q)) : q ≠ [] := by
  unfold target at h
  split at h
  · cases h
  · next name _ =>
    cases above : d.enter p names.dropLast with
    | error fault => simp [above, bind, Except.bind] at h
    | ok r =>
      simp only [above, bind, Except.bind] at h
      split at h
      · cases h
      · next hdots =>
        cases step : child r name with
        | error fault => simp [step] at h
        | ok s =>
          simp only [step, pure, Except.pure, Except.ok.injEq, Target.entry.injEq] at h
          subst h
          exact child_ne_nil step hdots

/-- Directories are entered alike where they are directories too. -/
theorem enter_mono {d e : Disk}
    (keeps : ∀ p, d.node? p = some .directory → e.node? p = some .directory)
    {p r : Place} {names : List String} (h : d.enter p names = .ok r) :
    e.enter p names = .ok r := by
  have check : ∀ q u, d.checkDirectory q = .ok u → e.checkDirectory q = .ok u := by
    intro q u hq
    unfold checkDirectory at hq ⊢
    split at hq
    · next dir =>
      rw [keeps q dir]
    · contradiction
    · contradiction
  induction names generalizing p with
  | nil =>
    simp only [enter, bind, Except.bind] at h ⊢
    cases hc : d.checkDirectory p with
    | error fault => simp [hc] at h
    | ok u =>
      simp only [hc] at h
      simp only [check p u hc]
      exact h
  | cons name rest ih =>
    simp only [enter, bind, Except.bind] at h ⊢
    cases hc : d.checkDirectory p with
    | error fault => simp [hc] at h
    | ok u =>
      simp only [hc] at h
      simp only [check p u hc]
      cases step : child p name with
      | error fault => simp [step] at h
      | ok q =>
        simp only [step] at h ⊢
        exact ih h

theorem target_mono {d e : Disk}
    (keeps : ∀ p, d.node? p = some .directory → e.node? p = some .directory)
    {p : Place} {names : List String} {t : Target} (h : d.target p names = .ok t) :
    e.target p names = .ok t := by
  unfold target at h ⊢
  split at h
  · exact h
  · next name _ =>
    cases above : d.enter p names.dropLast with
    | error fault => simp [above, bind, Except.bind] at h
    | ok r =>
      simp only [above, bind, Except.bind] at h
      simp only [enter_mono keeps above, bind, Except.bind]
      exact h

/-! ### Saves -/

/-- What it takes to replace a file, and what comes of it. -/
theorem replace_ok {d d' : Disk} {path : String} {bytes : List Nat}
    (h : d.replace path bytes = .ok d') :
    checkPath path = .ok () ∧ endsInSlash path = false ∧
      ∃ q, d.target (d.start path) (names path) = .ok (.entry q) ∧
        d.node? q ≠ some .directory ∧ d' = d.put q (.file bytes) := by
  unfold replace at h
  cases hc : checkPath path with
  | error fault => simp [hc, bind, Except.bind] at h
  | ok u =>
    simp only [hc, bind, Except.bind] at h
    cases ht : d.target (d.start path) (names path) with
    | error fault => simp [ht] at h
    | ok t =>
      simp only [ht] at h
      cases t with
      | onTheWay => contradiction
      | entry q =>
        simp only at h
        split at h
        · contradiction
        · next slash =>
          split at h
          · contradiction
          · next directory =>
            cases h
            refine ⟨rfl, by simpa using slash, q, rfl, ?_, rfl⟩
            intro same
            exact directory (by simp [isDirectory, same])

/-- A file that was replaced reads back. -/
theorem read_replace {d d' : Disk} {path : String} {bytes : List Nat}
    (h : d.replace path bytes = .ok d') : d'.read path = .ok bytes := by
  obtain ⟨usable, slash, q, ht, other, rfl⟩ := replace_ok h
  have hq := target_ne_nil ht
  have keeps : ∀ p, d.node? p = some .directory →
      (d.put q (.file bytes)).node? p = some .directory := by
    intro p hp
    rw [node?_put d _ hq]
    split
    · next same =>
      subst same
      exact absurd hp other
    · exact hp
  have ht' : (d.put q (.file bytes)).target ((d.put q (.file bytes)).start path) (names path)
      = .ok (.entry q) := target_mono keeps ht
  have hn : (d.put q (.file bytes)).node? q = some (.file bytes) := by
    rw [node?_put d _ hq]
    simp
  simp [read, usable, slash, ht', hn, bind, Except.bind]

/-- A file that was saved reads back. -/
theorem read_save {d d' : Disk} {path : String} {bytes : List Nat}
    (h : d.save path bytes = (d', .ok ())) : d'.read path = .ok bytes := by
  unfold save at h
  simp only at h
  split at h
  · cases h
  · split at h
    · next done =>
      cases h
      exact read_replace done
    · cases h

end BenchLedger.Disk
