import BenchLedger.Proofs.SavedFiles
import BenchLedger.Proofs.DecodedValues
import BenchLedger.Proofs.PathText

/-!
Which files a save touches. Main statements: a save that succeeds writes to one place
(`Disk.save_effect`), one that fails leaves every file alone (`Disk.MoreDirectories.of_save`), and a
file that can be read after a failed save could be read before (`Disk.read_of_save_error`).
-/

namespace BenchLedger.Disk

variable {d d' d'' : Disk} {path : String} {p q : Place} {bytes : List Nat}

/-! ### Where paths lead -/

/-- The last name of a path is looked up in the directory that the others lead to. -/
theorem target_eq_entry {names : List String} :
    d.target p names = .ok (.entry q) ↔
      ∃ init name above, names = init ++ [name] ∧ d.enter p init = .ok above ∧
        ¬(name = "." ∨ name = "..") ∧ child above name = .ok q := by
  rcases List.eq_nil_or_concat names with rfl | ⟨init, name, rfl⟩
  · simp [target]
  · simp only [target, List.concat_eq_append, List.getLast?_concat, List.dropLast_concat]
    constructor
    · intro h
      obtain ⟨above, entered, h⟩ := bind_eq_ok.1 h
      split at h
      · cases h
      next dots =>
        obtain ⟨q', step, same⟩ := bind_eq_ok.1 h
        cases same
        exact ⟨init, name, above, rfl, entered, dots, step⟩
    · rintro ⟨init', name', above, split, entered, dots, step⟩
      obtain ⟨rfl, last⟩ := List.append_inj' split rfl
      obtain rfl := List.singleton_inj.1 last
      simp only [entered, step, dots, bind, Except.bind, if_false]
      rfl

/-- The place of the file that a path leads to. The file need not exist, but the directories do. -/
structure LeadsTo (d : Disk) (path : String) (p : Place) : Prop where
  usable : checkPath path = .ok ()
  file : endsInSlash path = false
  target : d.target (d.start path) (names path) = .ok (.entry p)

theorem fileAt?_eq_some : d.fileAt? p = some bytes ↔ d.node? p = some (.file bytes) := by
  unfold fileAt?
  split <;> simp_all

/-- What can be read is the file that the path leads to. -/
theorem read_eq_ok :
    d.read path = .ok bytes ↔ ∃ p, d.LeadsTo path p ∧ d.fileAt? p = some bytes := by
  simp only [fileAt?_eq_some]
  constructor
  · intro h
    obtain ⟨⟨⟩, usable, h⟩ := bind_eq_ok.1 h
    obtain ⟨t, found, h⟩ := bind_eq_ok.1 h
    cases t with
    | onTheWay => cases h
    | entry p =>
      have file : endsInSlash path = false := by
        cases slash : endsInSlash path with
        | false => rfl
        | true =>
          obtain ⟨init, name, _, split, _, dots, _⟩ := target_eq_entry.1 found
          rw [slash, if_pos rfl] at split
          obtain ⟨_, last⟩ := List.append_inj' split rfl
          exact absurd (.inl (List.singleton_inj.1 last).symm) dots
      rw [file, if_neg (by simp), List.append_nil] at found
      dsimp only at h
      split at h
      next here =>
        cases h
        exact ⟨p, ⟨usable, file, found⟩, here⟩
      · cases h
      · cases h
  · rintro ⟨p, ⟨usable, file, target⟩, here⟩
    simp [read, usable, file, target, here, bind, Except.bind]

/-! ### Disks with more directories -/

/-- At most directories have been added. -/
structure MoreDirectories (d d' : Disk) : Prop where
  home : d'.home = d.home
  directories : ∀ p, d.node? p = some .directory → d'.node? p = some .directory
  files : ∀ p, d'.fileAt? p = d.fileAt? p

namespace MoreDirectories

theorem refl (d : Disk) : d.MoreDirectories d :=
  ⟨rfl, fun _ => id, fun _ => rfl⟩

theorem trans (h : d.MoreDirectories d') (h' : d'.MoreDirectories d'') : d.MoreDirectories d'' :=
  ⟨h'.home.trans h.home, fun p here => h'.directories p (h.directories p here),
    fun p => (h'.files p).trans (h.files p)⟩

theorem of_makeDirectory {names : List String} (h : d.makeDirectory p names = .ok d') :
    d.MoreDirectories d' := by
  obtain ⟨t, found, h⟩ := bind_eq_ok.1 h
  cases t with
  | onTheWay => cases h
  | entry q =>
    dsimp only at h
    split at h
    · cases h
    next free =>
      cases h
      have below : q ≠ [] := target_ne_nil found
      have none : d.node? q = none := by simpa using free
      refine ⟨rfl, fun r here => ?_, fun r => ?_⟩
      · rw [node?_put d _ below]
        split
        · rfl
        · exact here
      · by_cases same : r = q
        · simp [fileAt?, node?_put d _ below, same, none]
        · simp [fileAt?, node?_put d _ below, same]

theorem of_makeTree (d : Disk) (p : Place) (names : List String) :
    d.MoreDirectories (d.makeTree p names).1 := by
  induction names generalizing d with
  | nil => exact refl d
  | cons name above ih =>
    unfold makeTree
    simp only
    split
    next made => exact of_makeDirectory made
    · have first := ih d
      split
      next stopped =>
        rw [stopped] at first
        exact first
      next done =>
        rw [done] at first
        split
        next made => exact first.trans (of_makeDirectory made)
        · exact first
    · exact refl d

theorem of_makeDirectories (d : Disk) (path : String) :
    d.MoreDirectories (d.makeDirectories path).1 := by
  unfold makeDirectories
  split
  · exact refl d
  split
  · exact refl d
  · exact of_makeTree d _ _

/-- A save that fails leaves every file alone. -/
theorem of_save {e : FileError} (h : d.save path bytes = (d', .error e)) :
    d.MoreDirectories d' := by
  have above := of_makeDirectories d ((Path.parent? path).getD "")
  simp only [save] at h
  split at h
  next stopped =>
    cases h
    rw [stopped] at above
    exact above
  next made =>
    rw [made] at above
    split at h
    · cases h
    · cases h
      exact above

end MoreDirectories

/-- Paths lead where they led if no directory is lost. -/
theorem LeadsTo.mono (h : d.LeadsTo path p) (home : d'.home = d.home)
    (directories : ∀ q, d.node? q = some .directory → d'.node? q = some .directory) :
    d'.LeadsTo path p := by
  refine ⟨h.usable, h.file, ?_⟩
  have same : d'.start path = d.start path := by simp only [start, home]
  rw [same]
  exact target_mono directories h.target

/-! ### Saves -/

/-- What a save that succeeds does: the file that the path leads to holds the bytes, every other
file is as it was, and no directory is lost. -/
structure Wrote (d : Disk) (path : String) (bytes : List Nat) (q : Place) (d' : Disk) : Prop where
  leads : d'.LeadsTo path q
  here : d'.fileAt? q = some bytes
  elsewhere : ∀ p, p ≠ q → d'.fileAt? p = d.fileAt? p
  home : d'.home = d.home
  directories : ∀ p, d.node? p = some .directory → d'.node? p = some .directory

theorem save_effect (h : d.save path bytes = (d', .ok ())) : ∃ q, d.Wrote path bytes q d' := by
  have above := MoreDirectories.of_makeDirectories d ((Path.parent? path).getD "")
  simp only [save] at h
  split at h
  · cases h
  next e made =>
    rw [made] at above
    split at h
    next replaced =>
      cases h
      obtain ⟨usable, file, q, target, other, rfl⟩ := replace_ok replaced
      have below : q ≠ [] := target_ne_nil target
      have keeps : ∀ p, e.node? p = some .directory →
          (e.put q (.file bytes)).node? p = some .directory := by
        intro p here
        have apart : p ≠ q := by
          rintro rfl
          exact other here
        rw [node?_put e _ below, if_neg apart]
        exact here
      refine ⟨q, LeadsTo.mono ⟨usable, file, target⟩ rfl keeps, ?_, fun p apart => ?_, above.home,
        fun p here => keeps p (above.directories p here)⟩
      · simp [fileAt?, node?_put e _ below]
      · rw [← above.files p]
        simp [fileAt?, node?_put e _ below, apart]
    · cases h

/-- Whatever is saved to a path gets there. -/
def Writable (d : Disk) (path : String) : Prop :=
  ∀ bytes, ∃ d', d.save path bytes = (d', .ok ())

/-- The way to a directory leads through directories. -/
theorem enter_of_append {as bs : List String} {r : Place} (h : d.enter p (as ++ bs) = .ok r) :
    ∃ q, d.enter p as = .ok q := by
  induction as generalizing p with
  | nil =>
    refine ⟨p, ?_⟩
    rw [List.nil_append] at h
    have here : d.checkDirectory p = .ok () := by
      cases bs with
      | nil => exact (bind_eq_ok.1 h).choose_spec.1
      | cons name rest => exact (bind_eq_ok.1 h).choose_spec.1
    rw [enter, here]
    rfl
  | cons name rest ih =>
    rw [List.cons_append, enter] at h
    obtain ⟨⟨⟩, here, h⟩ := bind_eq_ok.1 h
    obtain ⟨q, step, h⟩ := bind_eq_ok.1 h
    obtain ⟨r, found⟩ := ih h
    refine ⟨r, ?_⟩
    rw [enter, here]
    show (child p name >>= fun q => d.enter q rest) = _
    rw [step]
    exact found

theorem leadsToDirectory_of_append {as bs : List String}
    (h : d.leadsToDirectory p (as ++ bs) = true) : d.leadsToDirectory p as = true := by
  unfold leadsToDirectory at h ⊢
  split at h
  next r entered =>
    obtain ⟨q, found⟩ := enter_of_append entered
    rw [found]
  · cases h

/-- If the directories of a path cannot be made, they are not all there afterwards. -/
theorem not_leadsToDirectory_of_makeTree {names : List String} {fault : FileFault}
    (h : d.makeTree p names = (d', .error fault)) :
    d'.leadsToDirectory p names.reverse = false := by
  have settled {e : Disk} {fault' : FileFault} {names : List String}
      (h : ((e, if e.leadsToDirectory p names then .ok () else .error fault') :
        Disk × Except FileFault Unit) = (d', .error fault)) :
      d'.leadsToDirectory p names = false := by
    split at h
    · cases h
    next missing =>
      cases h
      simpa using missing
  induction names generalizing d with
  | nil => cases h
  | cons name above ih =>
    unfold makeTree at h
    simp only at h
    split at h
    · cases h
    · split at h
      next stopped =>
        cases h
        have missing := ih stopped
        rw [List.reverse_cons]
        by_contra present
        rw [leadsToDirectory_of_append (by simpa using present)] at missing
        cases missing
      next done =>
        split at h
        · cases h
        · exact settled h
    · exact settled h

/-- A path that leads to a file has its directories. -/
theorem leadsToDirectory_above {names above rest : List String} (leads : d.target p names =
    .ok (.entry q)) (split : names = above ++ rest) (some : rest ≠ []) :
    d.leadsToDirectory p above = true := by
  obtain ⟨init, name, r, last, entered, _⟩ := target_eq_entry.1 leads
  obtain ⟨others, final, rfl⟩ := List.eq_nil_or_concat' rest |>.resolve_left some
  rw [split, ← List.append_assoc] at last
  obtain ⟨rfl, _⟩ := List.append_inj' last rfl
  obtain ⟨s, found⟩ := enter_of_append entered
  rw [leadsToDirectory, found]

/-- A file that is there can be replaced. -/
theorem replace_isOk (bytes : List Nat) {found : List Nat} (leads : d.LeadsTo path p)
    (here : d.fileAt? p = some found) : ∃ e, d.replace path bytes = .ok e := by
  have other : d.isDirectory p = false := by
    rw [isDirectory, fileAt?_eq_some.1 here]
    rfl
  exact ⟨d.put p (.file bytes), by
    simp [replace, leads.usable, leads.target, leads.file, other, bind, Except.bind]⟩

/-- A file that can be read after a save has failed could be read before. -/
theorem read_of_save_error {e : FileError} (failed : d.save path bytes = (d', .error e))
    {found : List Nat} (read : d'.read path = .ok found) : d.read path = .ok found := by
  obtain ⟨p, leads, here⟩ := read_eq_ok.1 read
  simp only [save] at failed
  split at failed
  next stopped =>
    cases failed
    unfold makeDirectories at stopped
    split at stopped
    · cases stopped
    next visible =>
      split at stopped
      · cases stopped
        exact read
      next =>
        -- The directories that were not made would have been needed to read the file.
        cases above : Path.parent? path with
        | none =>
          rw [above] at visible
          exact absurd rfl visible
        | some above' =>
          rw [above, Option.getD_some] at stopped visible
          obtain ⟨same, rest, some, split⟩ := names_of_parent? above (by simpa using visible)
          have missing := not_leadsToDirectory_of_makeTree stopped
          have home := (MoreDirectories.of_makeTree d (d.start above') (names above').reverse).home
          rw [stopped] at home
          have start : d.start above' = d'.start path := by
            simp only [start, same]
            rw [← home]
          rw [List.reverse_reverse, start,
            leadsToDirectory_above leads.target split some] at missing
          cases missing
  next made =>
    split at failed
    · cases failed
    next refused =>
      cases failed
      obtain ⟨e, replaced⟩ := replace_isOk bytes leads here
      rw [replaced] at refused
      cases refused

/-! ### Files that are left alone -/

/-- What is on the disk is in directories, up to the root. -/
def Rooted (d : Disk) : Prop :=
  ∀ p n, p ≠ [] → d.node? p = some n → d.node? p.dropLast = some .directory

theorem checkDirectory_of_directory (here : d.node? p = some .directory) :
    d.checkDirectory p = .ok () := by
  simp only [checkDirectory, here]

/-- Without steps back, the directories on the way to one that is there are there, too. -/
theorem Rooted.enter (rooted : d.Rooted) {names : List String} (forward : ".." ∉ names)
    (entered : d'.enter p names = .ok q) (here : d.node? q = some .directory) :
    d.enter p names = .ok q ∧ d.node? p = some .directory := by
  induction names generalizing p with
  | nil =>
    obtain ⟨⟨⟩, _, same⟩ := bind_eq_ok.1 entered
    cases same
    exact ⟨bind_eq_ok.2 ⟨(), checkDirectory_of_directory here, rfl⟩, here⟩
  | cons name rest ih =>
    rw [List.mem_cons, not_or] at forward
    obtain ⟨⟨⟩, _, later⟩ := bind_eq_ok.1 entered
    obtain ⟨r, step, later⟩ := bind_eq_ok.1 later
    obtain ⟨found, next⟩ := ih forward.2 later
    have above : d.node? p = some .directory := by
      unfold child at step
      split at step
      · cases step
        exact next
      split at step
      next back => exact absurd back.symm forward.1
      split at step
      · cases step
      · cases step
        simpa using rooted _ _ (by simp) next
    refine ⟨bind_eq_ok.2 ⟨(), checkDirectory_of_directory above, ?_⟩, above⟩
    exact bind_eq_ok.2 ⟨r, step, found⟩

theorem child_eq_append {name : String} (dots : ¬(name = "." ∨ name = ".."))
    (step : child p name = .ok q) : q = p ++ [name] := by
  rw [not_or] at dots
  rw [child, if_neg dots.1, if_neg dots.2] at step
  split at step
  · cases step
  · cases step
    rfl

/-- A file to which a path without steps back leads on another disk is one to which it leads. -/
theorem Rooted.leadsTo (rooted : d.Rooted) (forward : ".." ∉ names path)
    (leads : d'.LeadsTo path p) (home : d'.home = d.home) (here : d.fileAt? p = some bytes) :
    d.LeadsTo path p := by
  refine ⟨leads.usable, leads.file, ?_⟩
  obtain ⟨init, name, above, split, entered, dots, step⟩ := target_eq_entry.1 leads.target
  have start : d'.start path = d.start path := by simp only [start, home]
  rw [start] at entered
  rw [split] at forward
  have inside : d.node? above = some .directory := by
    obtain rfl := child_eq_append dots step
    simpa using rooted _ _ (by simp) (fileAt?_eq_some.1 here)
  obtain ⟨found, _⟩ := rooted.enter (fun back => forward (by simp [back])) entered inside
  exact target_eq_entry.2 ⟨init, name, above, split, found, dots, step⟩

/-- Who looks for the file of a path finds on `d'` what was there on `d`. -/
structure Spares (path : String) (d d' : Disk) : Prop where
  -- What could be read can be read.
  kept : ∀ bytes, d.read path = .ok bytes → d'.read path = .ok bytes
  -- Where the path leads, there is the same file, or none as before.
  here : ∀ p, d'.LeadsTo path p → d'.fileAt? p = d.fileAt? p
  -- A path that goes straight ahead does not get at a file which it did not get at before.
  absent : d.Rooted → ".." ∉ names path → (∀ bytes, d.read path ≠ .ok bytes) →
    ∀ bytes, d'.read path ≠ .ok bytes

namespace Spares

theorem of_frame (home : d'.home = d.home)
    (directories : ∀ q, d.node? q = some .directory → d'.node? q = some .directory)
    (here : ∀ p, d'.LeadsTo path p → d'.fileAt? p = d.fileAt? p) : Spares path d d' where
  kept := by
    intro bytes read
    obtain ⟨p, leads, file⟩ := read_eq_ok.1 read
    have still := leads.mono home directories
    exact read_eq_ok.2 ⟨p, still, (here p still).trans file⟩
  here := here
  absent := by
    intro rooted forward none bytes read
    obtain ⟨p, leads, file⟩ := read_eq_ok.1 read
    rw [here p leads] at file
    exact none bytes (read_eq_ok.2 ⟨p, rooted.leadsTo forward leads home file, file⟩)

theorem refl (path : String) (d : Disk) : Spares path d d :=
  of_frame rfl (fun _ => id) fun _ _ => rfl

theorem of_moreDirectories (h : d.MoreDirectories d') (path : String) : Spares path d d' :=
  of_frame h.home h.directories fun p _ => h.files p

/-- A save leaves every file alone but its own. -/
theorem of_wrote {output : String} (wrote : d.Wrote output bytes q d')
    (other : ¬ d'.LeadsTo path q) : Spares path d d' := by
  refine of_frame wrote.home wrote.directories fun p leads => wrote.elsewhere p ?_
  rintro rfl
  exact other leads

end Spares

end BenchLedger.Disk
