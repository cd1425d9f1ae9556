import BenchLedger.Proofs.FlusherSteps
import Mathlib.Logic.Relation

/-!
Runs of a site. Main statement: `Site.Scene.exists_abreast`: whatever callers, appends and the
background flusher do at a site, in any order and at any time, the tasks of a shared store can do,
and both end at the same point.
-/

namespace BenchLedger

namespace Site

/-- A site in its surroundings, with the calls of its callers and the appends that were made. -/
structure Scene where
  surroundings : Surroundings
  site : Site
  -- The calls by number; each caller makes one.
  calls : Nat → Option Call
  appended : List AppendRequest

namespace Scene

/-- A site that was just opened on what was loaded, if anything. -/
def opened (w : Surroundings) (config : StoreConfig) (loaded : Option HistoryDocument) : Scene :=
  ⟨w, .ofStore (.ofDocument config loaded), fun _ => none, []⟩

def setCall (v : Scene) (number : Nat) (call : Call) : Scene :=
  { v with calls := fun other => if other = number then some call else v.calls other }

@[simp] theorem setCall_self (v : Scene) (number : Nat) (call : Call) :
    (v.setCall number call).calls number = some call := by
  simp [setCall]

theorem setCall_of_ne (v : Scene) {number other : Nat} (apart : other ≠ number) (call : Call) :
    (v.setCall number call).calls other = v.calls other := by
  simp [setCall, apart]

/-- What can happen at a site at one moment. -/
inductive Move (v : Scene) : Scene → Prop where
  | asks {number : Nat} {call : Call} (new : v.calls number = none) (waits : call.asks = true) :
      Move v ({ v with site := v.site.enqueue (.caller number) }.setCall number call)
  | polls {number : Nat} {call next : Call} {w : Surroundings} {t : Site}
      (asked : v.calls number = some call)
      (polled : v.site.Polled v.surroundings (.caller number) call w t next) :
      Move v ({ v with surroundings := w, site := t }.setCall number next)
  | runs {w : Surroundings} {t : Site}
      (stepped : v.site.stepFlusher v.surroundings = some (w, t)) :
      Move v { v with surroundings := w, site := t }
  | appends {r : AppendRequest} {store : HistoryStore} {position : Position}
      (accepted : v.site.store.append r.series r.entry = .ok (store, position)) :
      Move v { v with site := v.site.appended store, appended := v.appended ++ [r] }
  -- Time passes, or something is counted.
  | passes {w : Surroundings} (storage : w.storage = v.surroundings.storage) :
      Move v { v with surroundings := w }
  | cancels : Move v { v with site := { v.site with cancelled := true } }

/-- A caller is as far as a flush of a shared store. A look at the flush state is no flush. -/
inductive CallStandsAt : Option Call → FlushStage → Prop where
  | new : CallStandsAt none .idle
  | flushing {call : Call} {stage : FlushStage} (stands : call.StandsAt stage) :
      CallStandsAt (some call) stage
  | looking : CallStandsAt (some .looking) .idle
  | looked : CallStandsAt (some (.finished (.ok .clean))) .idle

/-- A site with all its callers is at the same point as a shared store. -/
structure Abreast (v : Scene) (s : SharedStore) : Prop
    extends SharedStore.Follows v.surroundings v.site s where
  locked : s.LockedInTurn v.site.turns
  calls : ∀ number, CallStandsAt (v.calls number) (s.flushes (.explicit number))
  unused : ∀ a, v.appended.length ≤ a → s.appends a = .idle

variable {requests : Nat → AppendRequest} {v v' : Scene} {s : SharedStore}

namespace Abreast

theorem opened (w : Surroundings) (config : StoreConfig) (loaded : Option HistoryDocument) :
    (Scene.opened w config loaded).Abreast (.ofDocument config loaded) where
  toFollows := .opened w config loaded
  locked := .of_free rfl _
  calls _ := .new
  unused _ _ := rfl

/-- A caller that asks for a flush or a look takes its place behind the others. -/
theorem asks (h : v.Abreast s) {number : Nat} {call : Call} (new : v.calls number = none)
    (waits : call.asks = true) :
    ∃ s', SharedStore.Reachable requests s s' ∧
      ({ v with site := v.site.enqueue (.caller number) }.setCall number call).Abreast s' := by
  have behind {turn : Turn} (first : v.site.turns.head? = some turn) :=
    SharedStore.head?_enqueue first (.caller number)
  have stands := h.calls number
  rw [new] at stands
  generalize idle : s.flushes (.explicit number) = stage at stands
  cases stands
  cases call with
  | queued =>
    have others {c : FlushCall} (apart : c ≠ .explicit number) :=
      SharedStore.setFlush_of_ne s _ apart .queued
    refine ⟨_, .step .start (.asks idle), ⟨h.store, h.cancelled, ?_, h.saved⟩,
      h.locked.mono rfl (fun _ => behind) fun c serves => ⟨others ?_, serves.current⟩,
      fun other => ?_, h.unused⟩
    · exact h.flusher.mono rfl rfl fun round => others (by simp)
    · rintro rfl
      obtain ⟨pending, saving⟩ := serves.saving
      rw [idle] at saving
      cases saving
    · by_cases same : other = number
      · subst same
        rw [setCall_self, SharedStore.setFlush_self]
        exact .flushing .queued
      · rw [setCall_of_ne _ same, others (by simpa using same)]
        exact h.calls other
  | looking =>
    refine ⟨s, .start, ⟨h.store, h.cancelled, h.flusher, h.saved⟩,
      h.locked.mono rfl (fun _ => behind) fun c serves => ⟨rfl, serves.current⟩,
      fun other => ?_, h.unused⟩
    by_cases same : other = number
    · subst same
      rw [setCall_self, idle]
      exact .looking
    · rw [setCall_of_ne _ same]
      exact h.calls other
  | _ => cases waits

/-- A look at the flush state does nothing but to give its turn away. -/
theorem looks (h : v.Abreast s) {number : Nat} (idle : s.flushes (.explicit number) = .idle)
    (served : v.site.hasTurn (.caller number) = true) :
    ({ v with site := v.site.release }.setCall number (.finished (.ok .clean))).Abreast s := by
  have first : v.site.turns.head? = some (.caller number) := by
    simpa [Site.hasTurn] using served
  have free : s.lock = none := by
    cases locked : s.lock with
    | none => rfl
    | some c =>
      obtain ⟨turn, ⟨pending, saving⟩, _⟩ := h.locked c locked
      cases c with
      | explicit n =>
        cases turn.symm.trans first
        rw [idle] at saving
        cases saving
      | round r => cases turn.symm.trans first
  refine ⟨⟨h.store, h.cancelled, h.flusher, h.saved⟩, .of_free free _, fun other => ?_, h.unused⟩
  by_cases same : other = number
  · subst same
    rw [setCall_self, idle]
    exact .looked
  · rw [setCall_of_ne _ same]
    exact h.calls other

/-- A call that stays where it is. -/
theorem stays (h : v.Abreast s) {number : Nat} {call : Call} (asked : v.calls number = some call) :
    (v.setCall number call).Abreast s := by
  have same : v.setCall number call = v := by
    obtain ⟨w, t, calls, appended⟩ := v
    simp only [setCall, Scene.mk.injEq, true_and, and_true]
    funext other
    split
    next here => rw [here, ← asked]
    · rfl
  rwa [same]

/-- A caller whose call goes on. -/
theorem polls (h : v.Abreast s) {number : Nat} {call next : Call} {w : Surroundings} {t : Site}
    (asked : v.calls number = some call)
    (polled : v.site.Polled v.surroundings (.caller number) call w t next) :
    ∃ s', SharedStore.Reachable requests s s' ∧
      ({ v with surroundings := w, site := t }.setCall number next).Abreast s' := by
  have stands := h.calls number
  rw [asked] at stands
  generalize here : s.flushes (.explicit number) = stage at stands
  cases stands with
  | flushing stands =>
    rw [← here] at stands
    obtain ⟨s', reached, beside, follows, locked, stands'⟩ :=
      h.toFollows.poll requests h.locked stands polled
    refine ⟨s', reached, follows, locked, fun other => ?_, beside.appends ▸ h.unused⟩
    by_cases same : other = number
    · subst same
      rw [setCall_self]
      exact .flushing stands'
    · rw [setCall_of_ne _ same, beside.others _ (by simpa using same)]
      exact h.calls other
  | looking =>
    cases polled with
    | waits _ _ => exact ⟨s, .start, h.stays asked⟩
    | looks served => exact ⟨s, .start, h.looks here served⟩
  | looked =>
    cases polled with
    | waits asks _ => cases asks
    | returned => exact ⟨s, .start, h.stays asked⟩

/-- Whatever happens at a site, the tasks of a shared store can do. -/
theorem move (h : v.Abreast s) (move : Move v v')
    (agree : ∀ a r, v'.appended[a]? = some r → requests a = r) :
    ∃ s', SharedStore.Reachable requests s s' ∧ v'.Abreast s' := by
  cases move with
  | asks new waits => exact h.asks new waits
  | polls asked polled => exact h.polls asked polled
  | runs stepped =>
    obtain ⟨s', reached, follows, locked, others, appends⟩ :=
      h.toFollows.flusherStep requests h.locked (flusherStep_of_stepFlusher stepped)
    exact ⟨s', reached, follows, locked, fun number => others number ▸ h.calls number,
      appends ▸ h.unused⟩
  | @appends r store position accepted =>
    have mine : requests v.appended.length = r := agree _ r (by simp)
    rw [← mine] at accepted
    obtain ⟨s', reached, follows, locked, flushes, others⟩ :=
      h.toFollows.append h.locked (h.unused _ (Nat.le_refl _)) accepted
    refine ⟨s', reached, follows, locked, flushes ▸ h.calls, fun a beyond => ?_⟩
    simp only [List.length_append, List.length_singleton] at beyond
    rw [others a (by omega)]
    exact h.unused a (by omega)
  | passes storage =>
    exact ⟨s, .start, ⟨h.store, h.cancelled, h.flusher, storage ▸ h.saved⟩, h.locked, h.calls,
      h.unused⟩
  | cancels =>
    exact ⟨_, .step .start .cancels,
      ⟨h.store, rfl, h.flusher.mono rfl rfl fun _ => rfl, h.saved⟩,
      h.locked.mono rfl (fun _ => id) fun _ serves => ⟨rfl, serves.current⟩, h.calls, h.unused⟩

end Abreast

/-- Appends keep their numbers. -/
theorem Move.keeps (move : Move v v') {a : Nat} {r : AppendRequest}
    (here : v.appended[a]? = some r) : v'.appended[a]? = some r := by
  cases move with
  | appends _ =>
    obtain ⟨known, _⟩ := List.getElem?_eq_some_iff.1 here
    rwa [List.getElem?_append_left known]
  | _ => exact here

/-- Whatever has happened at a site since it was opened, the tasks of a shared store can do. -/
theorem exists_abreast (requests : Nat → AppendRequest) {w : Surroundings}
    {config : StoreConfig} {loaded : Option HistoryDocument}
    (reached : Relation.ReflTransGen Move (opened w config loaded) v)
    (agree : ∀ a r, v.appended[a]? = some r → requests a = r) :
    ∃ s, SharedStore.Reachable requests (.ofDocument config loaded) s ∧ v.Abreast s := by
  induction reached with
  | refl => exact ⟨_, .start, .opened w config loaded⟩
  | tail _ move ih =>
    obtain ⟨s, before, abreast⟩ := ih fun a r here => agree a r (move.keeps here)
    obtain ⟨s', after, abreast'⟩ := abreast.move move agree
    exact ⟨s', before.trans after, abreast'⟩

end Scene

end Site

end BenchLedger
