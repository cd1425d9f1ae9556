import BenchLedger.History.Series

/-!
Lists of entries in the order of their run times. Main statements: `Series.ordered` puts a list into
stable order, and a list has only one stable order.
-/

namespace BenchLedger

/-- Run times never decrease along a list. -/
def DatesIncrease (es : List CommitEntry) : Prop :=
  es.Pairwise fun a b => a.date ≤ b.date

/-- The entries of one run time, in the order of the list. -/
def onDate (date : Int) (es : List CommitEntry) : List CommitEntry :=
  es.filter fun e => decide (e.date = date)

/-- `view` is the stable order of `es` by run time: the same entries, sorted, and those of one run
time in the order in which `es` has them. -/
structure StablyOrdered (es view : List CommitEntry) : Prop where
  perm : view.Perm es
  sorted : DatesIncrease view
  ties : ∀ date, onDate date view = onDate date es

@[simp] theorem mem_onDate {date : Int} {e : CommitEntry} {es : List CommitEntry} :
    e ∈ onDate date es ↔ e ∈ es ∧ e.date = date := by
  simp [onDate]

theorem onDate_append (date : Int) (as bs : List CommitEntry) :
    onDate date (as ++ bs) = onDate date as ++ onDate date bs :=
  List.filter_append ..

theorem datesIncrease_of_inOrder {es : List CommitEntry} (h : Series.inOrder es = true) :
    DatesIncrease es := by
  induction es with
  | nil => exact List.Pairwise.nil
  | cons a rest ih =>
    cases rest with
    | nil => exact List.pairwise_singleton _ a
    | cons b rest =>
      simp only [Series.inOrder, Bool.and_eq_true, decide_eq_true_eq] at h
      have tail := ih h.2
      refine List.pairwise_cons.2 ⟨?_, tail⟩
      intro c member
      rcases List.mem_cons.1 member with rfl | member
      · exact h.1
      · exact Int.le_trans h.1 ((List.pairwise_cons.1 tail).1 c member)

theorem inOrder_of_datesIncrease {es : List CommitEntry} (h : DatesIncrease es) :
    Series.inOrder es = true := by
  induction es with
  | nil => rfl
  | cons a rest ih =>
    cases rest with
    | nil => rfl
    | cons b rest =>
      obtain ⟨first, tail⟩ := List.pairwise_cons.1 h
      simp only [Series.inOrder, Bool.and_eq_true, decide_eq_true_eq]
      exact ⟨first b (by simp), ih tail⟩

/-- A sorted list stays as it is. -/
theorem ordered_of_datesIncrease {es : List CommitEntry} (h : DatesIncrease es) :
    Series.ordered es = es := by
  simp [Series.ordered, inOrder_of_datesIncrease h]

private theorem dateOrder_trans (a b c : CommitEntry) (hab : decide (a.date ≤ b.date) = true)
    (hbc : decide (b.date ≤ c.date) = true) : decide (a.date ≤ c.date) = true := by
  simp only [decide_eq_true_eq] at *
  exact Int.le_trans hab hbc

private theorem dateOrder_total (a b : CommitEntry) :
    (decide (a.date ≤ b.date) || decide (b.date ≤ a.date)) = true := by
  simp only [Bool.or_eq_true, decide_eq_true_eq]
  exact Int.le_total a.date b.date

private theorem mergeSort_ties (date : Int) (es : List CommitEntry) :
    onDate date (es.mergeSort fun a b => a.date ≤ b.date) = onDate date es := by
  -- Entries of one date are a sorted sublist, which the sort keeps; the count leaves no others.
  have sorted : (onDate date es).Pairwise fun a b => decide (a.date ≤ b.date) = true := by
    refine List.Pairwise.imp_of_mem (R := fun _ _ => True) ?_
      (List.pairwise_of_forall fun _ _ => trivial)
    intro a b ha hb _
    have da := (mem_onDate.1 ha).2
    have db := (mem_onDate.1 hb).2
    simp [da, db]
  have kept : (onDate date es).Sublist (es.mergeSort fun a b => a.date ≤ b.date) :=
    List.sublist_mergeSort dateOrder_trans dateOrder_total sorted List.filter_sublist
  have within := kept.filter fun e => decide (e.date = date)
  have same : (onDate date es).filter (fun e => decide (e.date = date)) = onDate date es := by
    simp [onDate, List.filter_filter]
  rw [same] at within
  refine (within.eq_of_length ?_).symm
  exact ((List.mergeSort_perm es _).filter _).length_eq.symm

theorem ordered_stable (es : List CommitEntry) : StablyOrdered es (Series.ordered es) := by
  unfold Series.ordered
  split
  next already => exact ⟨.refl es, datesIncrease_of_inOrder already, fun _ => rfl⟩
  · refine ⟨List.mergeSort_perm es _, ?_, fun date => mergeSort_ties date es⟩
    have sorted := List.pairwise_mergeSort dateOrder_trans dateOrder_total es
    exact sorted.imp fun h => of_decide_eq_true h

private theorem head_le_of_ties {a b : CommitEntry} {as bs : List CommitEntry}
    (sorted : DatesIncrease (b :: bs))
    (ties : ∀ date, onDate date (a :: as) = onDate date (b :: bs)) : b.date ≤ a.date := by
  have here : a ∈ onDate a.date (b :: bs) := by
    rw [← ties]
    simp
  rcases List.mem_cons.1 (mem_onDate.1 here).1 with rfl | member
  · exact Int.le_refl _
  · exact (List.pairwise_cons.1 sorted).1 a member

/-- A sorted list is determined by its ties. -/
theorem eq_of_ties {xs ys : List CommitEntry} (hx : DatesIncrease xs) (hy : DatesIncrease ys)
    (ties : ∀ date, onDate date xs = onDate date ys) : xs = ys := by
  induction xs generalizing ys with
  | nil =>
    cases ys with
    | nil => rfl
    | cons b bs =>
      have none := ties b.date
      simp [onDate] at none
  | cons a as ih =>
    cases ys with
    | nil =>
      have none := ties a.date
      simp [onDate] at none
    | cons b bs =>
      have same : a.date = b.date :=
        Int.le_antisymm (head_le_of_ties hx fun date => (ties date).symm) (head_le_of_ties hy ties)
      have heads := ties b.date
      simp only [onDate, List.filter_cons, same, decide_true, if_true, List.cons.injEq] at heads
      obtain ⟨rfl, _⟩ := heads
      have tails : as = bs := by
        refine ih (List.pairwise_cons.1 hx).2 (List.pairwise_cons.1 hy).2 fun date => ?_
        have cut := ties date
        simp only [onDate, List.filter_cons] at cut ⊢
        split at cut
        · exact (List.cons.inj cut).2
        · exact cut
      rw [tails]

/-- Two lists whose ties agree have one stable order. -/
theorem StablyOrdered.unique {es fs view view' : List CommitEntry} (h : StablyOrdered es view)
    (h' : StablyOrdered fs view') (ties : ∀ date, onDate date es = onDate date fs) :
    view = view' :=
  eq_of_ties h.sorted h'.sorted fun date =>
    (h.ties date).trans ((ties date).trans (h'.ties date).symm)

/-- Sorted lists of the same entries have the same run times in turn. -/
theorem dates_eq_of_perm {xs ys : List CommitEntry} (hx : DatesIncrease xs) (hy : DatesIncrease ys)
    (perm : xs.Perm ys) : xs.map (·.date) = ys.map (·.date) := by
  have sorted {zs : List CommitEntry} (hz : DatesIncrease zs) :
      (zs.map (·.date)).Pairwise (· ≤ ·) :=
    List.pairwise_map.2 hz
  refine List.Perm.eq_of_pairwise ?_ (sorted hx) (sorted hy) (perm.map _)
  intro a b _ _ before after
  exact Int.le_antisymm before after

end BenchLedger
