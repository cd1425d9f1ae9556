import BenchLedger.Proofs.AppendedEntries
import BenchLedger.Proofs.ValidEntries
import BenchLedger.Query.Engine
import Mathlib.Data.List.Basic

/-!
Queries for a part of a series. Main statement: `Session.latest_range`: whatever a session has
gone through, the newest entries are the last ones of a series, and the entries between two run
times are those that a filter leaves.
-/

namespace BenchLedger

/-! ### Binary search -/

/-- A condition holds at the first `k` entries of a list and at no later one. -/
def HoldsBefore (p : CommitEntry → Bool) (es : List CommitEntry) (k : Nat) : Prop :=
  ∀ i, HistoryStore.holdsAt p es i = true ↔ i < k

namespace HoldsBefore

variable {p : CommitEntry → Bool} {es : List CommitEntry} {k : Nat}

theorem le_length (h : HoldsBefore p es k) : k ≤ es.length := by
  refine Nat.not_lt.1 fun short => ?_
  have beyond := (h es.length).2 short
  simp [HistoryStore.holdsAt] at beyond

/-- A window that contains the last position at which the condition holds keeps it while it is
halved. -/
theorem lastHolding_eq (h : HoldsBefore p es k) (base size : Nat) (started : base = 0 ∨ base < k)
    (reaches : k ≤ base + size) : HistoryStore.lastHolding p es base size = k - 1 := by
  fun_induction HistoryStore.lastHolding p es base size with
  | case1 base size several half middle ih =>
    have shorter : half ≤ size - half := by omega
    by_cases holds : HistoryStore.holdsAt p es middle = true
    · have below := (h middle).1 holds
      rw [dif_pos holds] at ih
      rw [if_pos holds]
      exact ih (.inr below) (by omega)
    · have above : k ≤ middle := Nat.not_lt.1 fun below => holds ((h middle).2 below)
      rw [dif_neg holds] at ih
      rw [if_neg holds]
      exact ih started (by omega)
  | case2 base size few =>
    omega

theorem partitionPoint_eq (h : HoldsBefore p es k) : HistoryStore.partitionPoint p es = k := by
  have last := h.lastHolding_eq 0 es.length (.inl rfl) (by simpa using h.le_length)
  have holds := h (k - 1)
  unfold HistoryStore.partitionPoint
  dsimp only
  rw [last]
  split
  next here =>
    have some := holds.1 here
    omega
  next absent =>
    have none : ¬k - 1 < k := fun below => absent (holds.2 below)
    omega

end HoldsBefore

/-! ### Windows of run times -/

/-- A condition that holds of every entry that is no later than one of which it holds. -/
def HoldsEarlier (p : CommitEntry → Bool) : Prop :=
  ∀ a b : CommitEntry, a.date ≤ b.date → p b = true → p a = true

theorem holdsEarlier_before (date : Int) : HoldsEarlier fun e => e.date < date := by
  intro a b earlier holds
  simp only [decide_eq_true_eq] at holds ⊢
  omega

theorem holdsEarlier_until (date : Int) : HoldsEarlier fun e => e.date ≤ date := by
  intro a b earlier holds
  simp only [decide_eq_true_eq] at holds ⊢
  omega

section

variable {p : CommitEntry → Bool} {es : List CommitEntry} (earlier : HoldsEarlier p)
  (sorted : DatesIncrease es)

include earlier sorted

/-- In the order of run times, the entries of which such a condition holds come first. -/
theorem filter_append_filter_not_of_sorted :
    es.filter p ++ es.filter (fun e => !p e) = es := by
  induction es with
  | nil => rfl
  | cons e rest ih =>
    obtain ⟨first, sorted⟩ := List.pairwise_cons.1 sorted
    by_cases holds : p e = true
    · simpa [holds] using ih sorted
    · have none : rest.filter p = [] := by
        rw [List.filter_eq_nil_iff]
        exact fun e' later holds' => holds (earlier e e' (first e' later) holds')
      have all : rest.filter (fun e => !p e) = rest := by
        rw [List.filter_eq_self]
        intro e' later
        have fails := List.filter_eq_nil_iff.1 none e' later
        simpa using fails
      simp [holds, none, all]

theorem partitionPoint_of_sorted :
    HistoryStore.partitionPoint p es = (es.filter p).length := by
  apply HoldsBefore.partitionPoint_eq
  intro i
  have whole := filter_append_filter_not_of_sorted earlier sorted
  rw [HistoryStore.holdsAt]
  conv_lhs => rw [← whole]
  by_cases early : i < (es.filter p).length
  · have member := List.getElem_mem early
    rw [List.getElem?_append_left early, List.getElem?_eq_getElem early]
    exact iff_of_true (List.mem_filter.1 member).2 early
  · refine iff_of_false (fun holds => ?_) early
    rw [List.getElem?_append_right (Nat.not_lt.1 early)] at holds
    obtain ⟨e, found, holds⟩ := (Option.any_eq_true ..).1 holds
    have fails := (List.mem_filter.1 (List.mem_of_getElem? found)).2
    rw [holds] at fails
    cases fails

theorem take_partitionPoint :
    es.take (HistoryStore.partitionPoint p es) = es.filter p := by
  have front : (es.filter p ++ es.filter fun e => !p e).take (es.filter p).length = es.filter p :=
    List.take_left
  rw [filter_append_filter_not_of_sorted earlier sorted] at front
  rw [partitionPoint_of_sorted earlier sorted, front]

theorem drop_partitionPoint :
    es.drop (HistoryStore.partitionPoint p es) = es.filter fun e => !p e := by
  have back : (es.filter p ++ es.filter fun e => !p e).drop (es.filter p).length
      = es.filter fun e => !p e := List.drop_left
  rw [filter_append_filter_not_of_sorted earlier sorted] at back
  rw [partitionPoint_of_sorted earlier sorted, back]

end

/-- Between the first entry that is not before `first` and the last one that is not after `last`
lie the entries of this window, and both ends are positions of the list. -/
theorem window_of_sorted {es : List CommitEntry} (sorted : DatesIncrease es) {first last : Int}
    (proper : first ≤ last) :
    let start := HistoryStore.partitionPoint (fun e => e.date < first) es
    let stop := HistoryStore.partitionPoint (fun e => e.date ≤ last) es
    start ≤ stop ∧ stop ≤ es.length ∧
      (es.take stop).drop start = es.filter fun e => first ≤ e.date ∧ e.date ≤ last := by
  intro start stop
  have bounds := partitionPoint_of_sorted (holdsEarlier_before first) sorted
  have bounds' := partitionPoint_of_sorted (holdsEarlier_until last) sorted
  refine ⟨?_, ?_, ?_⟩
  · simp only [start, stop, bounds, bounds', ← List.countP_eq_length_filter]
    apply List.countP_mono_left
    intro e _ before
    simp only [decide_eq_true_eq] at before ⊢
    omega
  · simp only [stop, bounds']
    exact List.length_filter_le _ _
  · -- The start lies as far behind in the part up to `last` as in the whole list.
    have front : DatesIncrease (es.filter fun e => e.date ≤ last) := sorted.filter _
    have same : start = HistoryStore.partitionPoint (fun e => e.date < first)
        (es.filter fun e => e.date ≤ last) := by
      rw [partitionPoint_of_sorted (holdsEarlier_before first) front, List.filter_filter]
      simp only [start, bounds]
      refine congrArg List.length (List.filter_congr fun e _ => ?_)
      simp only [← Bool.decide_and, decide_eq_decide]
      omega
    rw [take_partitionPoint (holdsEarlier_until last) sorted, same,
      drop_partitionPoint (holdsEarlier_before first) front, List.filter_filter]
    refine List.filter_congr fun e _ => ?_
    simp only [← decide_not, ← Bool.decide_and, not_lt]

/-! ### The newest entries -/

/-- What is left out at the front of a list in order is not later than the rest. -/
theorem newest_of_sorted {es : List CommitEntry} (sorted : DatesIncrease es) (n : Nat) :
    ∃ omitted, es = omitted ++ es.drop (es.length - n) ∧
      (es.drop (es.length - n)).length = min n es.length ∧
      ∀ old ∈ omitted, ∀ new ∈ es.drop (es.length - n), old.date ≤ new.date := by
  have whole := List.take_append_drop (es.length - n) es
  refine ⟨es.take (es.length - n), whole.symm, ?_, ?_⟩
  · rw [List.length_drop]
    omega
  · unfold DatesIncrease at sorted
    rw [← whole] at sorted
    exact (List.pairwise_append.1 sorted).2.2

/-! ### Queries -/

namespace HistoryStore

variable {s : HistoryStore} {series : String} {snapshot : SeriesSnapshot}

theorem latest_eq (here : s.getSeries series = .ok snapshot) (n : Nat) :
    s.latest series n = .ok (snapshot.entries.drop (snapshot.entries.length - n)) := by
  unfold latest
  split
  next zero => simp [zero]
  · rw [here]
    rfl

theorem range_eq (here : s.getSeries series = .ok snapshot)
    (sorted : DatesIncrease snapshot.entries) (first last : Int) :
    s.range series first last
      = .ok (snapshot.entries.filter fun e => first ≤ e.date ∧ e.date ≤ last) := by
  unfold range
  split
  next improper =>
    have none : snapshot.entries.filter (fun e => first ≤ e.date ∧ e.date ≤ last) = [] := by
      rw [List.filter_eq_nil_iff]
      intro e _ inside
      simp only [decide_eq_true_eq] at inside
      omega
    rw [none]
  next proper =>
    obtain ⟨_, _, entries⟩ := window_of_sorted sorted (Int.not_lt.1 proper)
    rw [here, ← entries]
    rfl

end HistoryStore

namespace Session

open HistoryStore (window)

/-- Whatever a session has gone through, the newest `n` entries are the last `n` of a series, or all
if there are fewer, and nothing that is left out is later; and the entries between two run times are
those that a filter leaves, with both ends inside the series. A missing series is an error, except
if nothing was asked for. -/
theorem latest_range {s : Session} (reached : s.Reached) (series : String) :
    (series ∈ s.store.seriesNames → ∃ snapshot, s.store.getSeries series = .ok snapshot ∧
      (∀ n, ∃ omitted newest, s.store.latest series n = .ok newest ∧
        snapshot.entries = omitted ++ newest ∧ newest.length = min n snapshot.entries.length ∧
        ∀ old ∈ omitted, ∀ new ∈ newest, old.date ≤ new.date) ∧
      ∀ first last, s.store.range series first last
          = .ok (snapshot.entries.filter fun e => first ≤ e.date ∧ e.date ≤ last) ∧
        (first ≤ last → (window snapshot.entries first last).1
            ≤ (window snapshot.entries first last).2 ∧
          (window snapshot.entries first last).2 ≤ snapshot.entries.length)) ∧
    (series ∉ s.store.seriesNames →
      (∀ n, s.store.latest series n
        = if n = 0 then .ok [] else .error (.missing (.series series))) ∧
      ∀ first last, s.store.range series first last
        = if last < first then .ok [] else .error (.missing (.series series))) := by
  obtain ⟨represented, _⟩ := reached.invariant
  constructor
  · intro known
    rcases s.store.getSeries_cases series with ⟨_, t, here⟩ | ⟨unknown, _⟩
    · obtain ⟨_, view⟩ := represented.isViewOf here
      refine ⟨t, here, fun n => ?_, fun first last => ⟨?_, fun proper => ?_⟩⟩
      · obtain ⟨omitted, parts⟩ := newest_of_sorted view.sorted n
        exact ⟨omitted, _, HistoryStore.latest_eq here n, parts⟩
      · exact HistoryStore.range_eq here view.sorted first last
      · obtain ⟨ordered, inside, _⟩ := window_of_sorted view.sorted proper
        exact ⟨ordered, inside⟩
    · exact absurd known unknown
  · intro unknown
    rcases s.store.getSeries_cases series with ⟨known, _⟩ | ⟨_, missing⟩
    · exact absurd known unknown
    · constructor
      · intro n
        rw [HistoryStore.latest, missing]
        rfl
      · intro first last
        rw [HistoryStore.range, missing]
        rfl

/-- A run without records. -/
def datedEntry (id : String) (date : Int) : CommitEntry :=
  .plain id date []

/-- A session over a document with a run before 1970 and an empty series. -/
def datedSession : Session :=
  let document : HistoryDocument := ⟨none, none, .ofList [("s", [datedEntry "aaaa" (-3),
    datedEntry "bbbb" 5]), ("t", [])]⟩
  { surroundings := ⟨0, 0, ⟨some document, 0, {}, []⟩, .zero⟩
    ingest := {}
    site := .ofStore (.ofDocument { policy := .manual } (some document))
    leftovers := [] }

/-- Two more runs have come, one of them of the time of another. -/
def datedRun : Session :=
  ((datedSession.append "s" (datedEntry "cccc" 5)).1.append "s" (datedEntry "dddd" 9)).1

/-- The oldest run is not among the newest three, the last one is not in the window, and a missing
series is an error unless nothing was asked for. -/
theorem latest_range_of_datedRun :
    (∃ newest, datedRun.store.latest "s" 3 = .ok newest ∧
      newest.map CommitEntry.id = ["bbbb", "cccc", "dddd"]) ∧
    (∃ within, datedRun.store.range "s" (-4) 5 = .ok within ∧
      within.map CommitEntry.id = ["aaaa", "bbbb", "cccc"]) ∧
    datedRun.store.range "t" (-4) 5 = .ok [] ∧
    datedRun.store.latest "u" 0 = .ok [] ∧ datedRun.store.range "u" 1 0 = .ok [] ∧
    datedRun.store.range "u" 0 0 = .error (.missing (.series "u")) := by
  have opens : start { policy := .manual } {} datedSession.storage 0 = .ok datedSession := rfl
  have reached : datedRun.Reached := ((Reached.opened opens).appended _ _).appended _ _
  obtain ⟨known, _⟩ := latest_range reached "s"
  obtain ⟨snapshot, here, newest, within⟩ := known (by decide +kernel)
  have shown : (datedRun.store.getSeries "s").toOption.map
      (fun snapshot => snapshot.entries.map fun e => (e.id, e.date))
        = some [("aaaa", -3), ("bbbb", 5), ("cccc", 5), ("dddd", 9)] := by
    decide +kernel
  rw [here] at shown
  have entries : snapshot.entries.map (fun e => (e.id, e.date))
      = [("aaaa", -3), ("bbbb", 5), ("cccc", 5), ("dddd", 9)] := Option.some.inj shown
  obtain ⟨_, unknown⟩ := latest_range reached "u"
  obtain ⟨none, nowhere⟩ := unknown (by decide +kernel)
  refine ⟨?_, ?_, ?_, none 0, nowhere 1 0, nowhere 0 0⟩
  · obtain ⟨omitted, newest, answer, parts, length, _⟩ := newest 3
    have four : snapshot.entries.length = 4 := by
      have count := congrArg List.length entries
      rwa [List.length_map] at count
    have one : omitted.length = 1 := by
      have both := congrArg List.length parts
      rw [List.length_append] at both
      omega
    have behind : snapshot.entries.drop 1 = newest := by
      rw [parts, ← one, List.drop_left]
    refine ⟨newest, answer, ?_⟩
    rw [← behind]
    have ids := congrArg (fun es => (es.drop 1).map Prod.fst) entries
    simpa [Function.comp_def] using ids
  · obtain ⟨answer, _⟩ := within (-4) 5
    refine ⟨_, answer, ?_⟩
    have ids := congrArg (fun es => (es.filter fun q => -4 ≤ q.2 ∧ q.2 ≤ 5).map Prod.fst) entries
    simpa [List.filter_map, Function.comp_def] using ids
  · obtain ⟨known, _⟩ := latest_range reached "t"
    obtain ⟨snapshot, here, _, within⟩ := known (by decide +kernel)
    obtain ⟨answer, _⟩ := within (-4) 5
    have empty : (datedRun.store.getSeries "t").toOption.map (fun snapshot =>
        snapshot.entries.length) = some 0 := by
      decide +kernel
    rw [here] at empty
    rw [answer, List.length_eq_zero_iff.1 (Option.some.inj empty)]
    rfl

end Session

end BenchLedger
