import BenchLedger.History.Document
import BenchLedger.Proofs.RecordText
import BenchLedger.Proofs.ScaledDoubles
import Mathlib.Algebra.Ring.Int.Defs
import Mathlib.Algebra.Ring.Nat

/-!
What decoding promises. Main statement: `HistoryDocument.decode_storable`: whatever text decodes,
the entries of the document have times that a word holds, timestamps that exist and finite values.
-/

namespace BenchLedger

/-! ### Steps that succeed -/

theorem map_eq_ok {ε α β : Type} {x : Except ε α} {f : α → β} {b : β} :
    x.map f = .ok b ↔ ∃ a, x = .ok a ∧ f a = b := by
  cases x <;> simp [Except.map]

theorem bind_eq_ok {ε α β : Type} {x : Except ε α} {f : α → Except ε β} {b : β} :
    x >>= f = .ok b ↔ ∃ a, x = .ok a ∧ f a = .ok b := by
  cases x <;> simp [bind, Except.bind]

theorem mapError_eq_ok {ε ε' α : Type} {x : Except ε α} {f : ε → ε'} {a : α} :
    x.mapError f = .ok a ↔ x = .ok a := by
  cases x <;> simp [Except.mapError]

theorem mapError_eq_error {ε ε' α : Type} {x : Except ε α} {f : ε → ε'} {e' : ε'} :
    x.mapError f = .error e' ↔ ∃ e, x = .error e ∧ f e = e' := by
  cases x <;> simp [Except.mapError]

theorem eq_ok_of_toOption {ε α : Type} {x : Except ε α} {a : α} (h : x.toOption = some a) :
    x = .ok a := by
  cases x with
  | error e => cases h
  | ok b =>
    cases h
    rfl

theorem mapM_eq_ok {ε α β : Type} {f : α → Except ε β} {as : List α} {bs : List β}
    (h : as.mapM f = .ok bs) : ∀ b ∈ bs, ∃ a ∈ as, f a = .ok b := by
  induction as generalizing bs with
  | nil =>
    cases h
    simp
  | cons a as ih =>
    rw [List.mapM_cons] at h
    obtain ⟨b, first, h⟩ := bind_eq_ok.1 h
    obtain ⟨others, rest, h⟩ := bind_eq_ok.1 h
    cases h
    intro c member
    rcases List.mem_cons.1 member with rfl | later
    · exact ⟨a, by simp, first⟩
    · obtain ⟨a', here, found⟩ := ih rest c later
      exact ⟨a', by simp [here], found⟩

/-- What each step keeps, all steps together keep in the same order. -/
theorem mapM_map_eq {ε α β γ : Type} {f : α → Except ε β} {g : α → γ} {g' : β → γ} {as : List α}
    {bs : List β} (h : as.mapM f = .ok bs) (same : ∀ a ∈ as, ∀ b, f a = .ok b → g' b = g a) :
    bs.map g' = as.map g := by
  induction as generalizing bs with
  | nil =>
    cases h
    rfl
  | cons a as ih =>
    rw [List.mapM_cons] at h
    obtain ⟨b, first, h⟩ := bind_eq_ok.1 h
    obtain ⟨others, rest, h⟩ := bind_eq_ok.1 h
    cases h
    rw [List.map_cons, List.map_cons, same a (by simp) b first,
      ih rest fun a' member => same a' (by simp [member])]

namespace Json

/-- Whole numbers are within a machine word, signed or not, and doubles are finite. -/
def Number.InRange : Number → Prop
  | .whole i => -2 ^ 63 ≤ i ∧ i < 2 ^ 64
  | .real x => x.isFinite = true

theorem Number.InRange.isFinite_toFloat {n : Number} (h : n.InRange) :
    n.toFloat.isFinite = true := by
  cases n with
  | real x => exact h
  | whole i =>
    have bound : i.natAbs < 2 ^ 64 := by
      obtain ⟨low, high⟩ := h
      omega
    exact Decimal.isFinite_nearestFloat_whole _ bound

/-- Every number that is found in a tree is in range. -/
inductive Tree.NumbersFit : Tree → Prop where
  | null : NumbersFit .null
  | bool (b : Bool) : NumbersFit (.bool b)
  | number {leaf : Leaf Number} (h : ∀ n, leaf.value = .ok n → n.InRange) :
    NumbersFit (.number leaf)
  | string (leaf : Leaf String) : NumbersFit (.string leaf)
  | array {items : List Tree} (closing : Option Fault) (h : ∀ t ∈ items, NumbersFit t) :
    NumbersFit (.array items closing)
  | object {members : List (Leaf String × Tree)} (closing : Option Fault)
    (h : ∀ m ∈ members, NumbersFit m.2) : NumbersFit (.object members closing)
  | unreadable (fault : Fault) : NumbersFit (.unreadable fault)

/-! ### Reading -/

theorem Numeral.value_inRange {numeral : Numeral} {n : Number} (h : numeral.value = .ok n) :
    n.InRange := by
  unfold Numeral.value at h
  simp only at h
  split at h
  next positive =>
    cases h
    simp only [Bool.and_eq_true, decide_eq_true_eq, Nat.pow_eq] at positive
    simp only [Number.InRange]
    omega
  split at h
  next negative =>
    cases h
    simp only [Bool.and_eq_true, decide_eq_true_eq, Nat.pow_eq] at negative
    simp only [Number.InRange]
    omega
  split at h
  next finite =>
    cases h
    simp only [Number.InRange]
    split
    · exact Decimal.isFinite_neg finite
    · exact finite
  · cases h

theorem readNumber_numbersFit (cs : List Char) :
    Tree.NumbersFit (.number (readNumber cs).leaf) := by
  apply Tree.NumbersFit.number
  intro n value
  unfold readNumber at value
  split at value
  · exact Numeral.value_inRange value
  · cases value
  · cases value

theorem readWord_numbersFit {t : Tree} (h : t.NumbersFit) (word cs : List Char) :
    (readWord t word cs).tree.NumbersFit := by
  induction word generalizing cs with
  | nil => exact h
  | cons w word ih =>
    cases cs with
    | nil => exact .unreadable _
    | cons c cs =>
      unfold readWord
      split
      · exact ih cs
      · exact .unreadable _

section

variable {fuel : Nat} (value : ∀ cs, (readValue fuel cs).tree.NumbersFit)

include value

private theorem readItems_numbersFit
    (items : ∀ first cs, ∀ t ∈ (readItems first fuel cs).items, t.NumbersFit) (first : Bool)
    (cs : List Char) : ∀ t ∈ (readItems first (fuel + 1) cs).items, t.NumbersFit := by
  intro t member
  unfold readItems at member
  split at member
  · simp [Items.stop] at member
  split at member
  · simp at member
  split at member
  · simp only at member
    split at member
    · rcases List.mem_cons.1 member with rfl | later
      · exact value _
      · exact items false _ t later
    · rw [List.mem_singleton.1 member]
      exact value _
  · simp [Items.stop] at member

private theorem readMembers_numbersFit
    (members : ∀ first cs, ∀ m ∈ (readMembers first fuel cs).items, m.2.NumbersFit) (first : Bool)
    (cs : List Char) : ∀ m ∈ (readMembers first (fuel + 1) cs).items, m.2.NumbersFit := by
  intro m member
  unfold readMembers at member
  split at member
  · simp [Items.stop] at member
  split at member
  · simp at member
  split at member
  next =>
    split at member
    · simp [Items.stop] at member
    split at member
    next =>
      simp only at member
      split at member
      · rw [List.mem_singleton.1 member]
        exact .unreadable _
      split at member
      · rw [List.mem_singleton.1 member]
        exact .unreadable _
      split at member
      next =>
        split at member
        · rcases List.mem_cons.1 member with rfl | later
          · exact value _
          · exact members false _ m later
        · rw [List.mem_singleton.1 member]
          exact value _
      · rw [List.mem_singleton.1 member]
        exact .unreadable _
    · simp [Items.stop] at member
  · simp [Items.stop] at member

end

private theorem readValue_numbersFit {fuel : Nat}
    (items : ∀ first cs, ∀ t ∈ (readItems first fuel cs).items, t.NumbersFit)
    (members : ∀ first cs, ∀ m ∈ (readMembers first fuel cs).items, m.2.NumbersFit)
    (cs : List Char) : (readValue (fuel + 1) cs).tree.NumbersFit := by
  unfold readValue
  split
  · exact .unreadable _
  split
  · exact .string _
  split
  · exact readNumber_numbersFit _
  split
  · exact .array _ (items true _)
  split
  · exact .object _ (members true _)
  split
  · exact readWord_numbersFit .null _ _
  split
  · exact readWord_numbersFit (.bool true) _ _
  split
  · exact readWord_numbersFit (.bool false) _ _
  · exact .unreadable _

/-- Numbers fit in whatever is read, by induction on the fuel of all three readers at once. -/
private theorem readers_numbersFit (fuel : Nat) :
    (∀ cs, (readValue fuel cs).tree.NumbersFit) ∧
      (∀ first cs, ∀ t ∈ (readItems first fuel cs).items, t.NumbersFit) ∧
      (∀ first cs, ∀ m ∈ (readMembers first fuel cs).items, m.2.NumbersFit) := by
  induction fuel with
  | zero =>
    refine ⟨fun cs => .unreadable _, fun first cs => ?_, fun first cs => ?_⟩
    · simp [readItems, Items.stop]
    · simp [readMembers, Items.stop]
  | succ fuel ih =>
    obtain ⟨value, items, members⟩ := ih
    exact ⟨readValue_numbersFit items members, readItems_numbersFit value items,
      readMembers_numbersFit value members⟩

theorem read_numbersFit (cs : List Char) : (read cs).tree.NumbersFit :=
  (readers_numbersFit _).1 cs

/-! ### Decoding -/

namespace Decoder

/-- Whatever is decoded from a tree whose numbers fit has a property. -/
def Yields {α : Type} (d : Decoder α) (P : α → Prop) : Prop :=
  ∀ ⦃t v⦄, t.NumbersFit → d t = .ok v → P v

section

variable {α σ : Type} {d : Decoder α} {P : α → Prop}

theorem yields_trivial : d.Yields fun _ => True :=
  fun _ _ _ _ => trivial

/-- The numbers of a text that is decoded fit. -/
theorem Yields.of_decode (yields : d.Yields P) {text : String} {v : α}
    (h : Json.decode d text = .ok v) : P v := by
  obtain ⟨value, here, decoded⟩ := bind_eq_ok.1 h
  have holds := yields (read_numbersFit _) here
  split at decoded
  · split at decoded
    · cases decoded
      exact holds
    · cases decoded
  · cases decoded

theorem real_yields : real.Yields fun x => x.isFinite = true := by
  intro t x fit h
  cases fit with
  | number inRange =>
    obtain ⟨n, value, rfl⟩ := map_eq_ok.1 h
    exact (inRange n value).isFinite_toFloat
  | _ => cases h

theorem whole_yields : whole.Yields IsWord := by
  intro t i fit h
  cases fit with
  | number inRange =>
    obtain ⟨n, value, h⟩ := bind_eq_ok.1 h
    have range := inRange n value
    cases n with
    | real x => cases h
    | whole j =>
      simp only at h
      split at h
      next small =>
        cases h
        simp only [Number.InRange, Nat.pow_eq] at range small
        simp only [IsWord]
        omega
      · cases h
  | _ => cases h

theorem stringOf_yields (meaning : String → Option α) :
    (stringOf meaning).Yields fun v => ∃ text, meaning text = some v := by
  intro t v _ h
  obtain ⟨text, _, h⟩ := bind_eq_ok.1 h
  split at h
  next known =>
    cases h
    exact ⟨text, known⟩
  · cases h

theorem list_yields (each : d.Yields P) : (list d).Yields fun vs => ∀ v ∈ vs, P v := by
  intro t vs fit h
  cases fit with
  | array closing items =>
    obtain ⟨values, decoded, h⟩ := bind_eq_ok.1 h
    obtain ⟨_, _, h⟩ := bind_eq_ok.1 h
    cases h
    intro v member
    obtain ⟨t, here, value⟩ := mapM_eq_ok decoded v member
    exact each (items t here) value
  | _ => cases h

private theorem namedValues_yields (each : d.Yields P) {members : List (Leaf String × Tree)}
    (fit : ∀ m ∈ members, m.2.NumbersFit) {ps : List (String × α)}
    (h : namedValues d members = .ok ps) : ∀ p ∈ ps, P p.2 := by
  induction members generalizing ps with
  | nil =>
    cases h
    simp
  | cons m members ih =>
    obtain ⟨key, t⟩ := m
    obtain ⟨name, _, h⟩ := bind_eq_ok.1 h
    obtain ⟨v, value, h⟩ := bind_eq_ok.1 h
    obtain ⟨rest, others, h⟩ := bind_eq_ok.1 h
    cases h
    intro p member
    rcases List.mem_cons.1 member with rfl | later
    · exact each (fit (key, t) (by simp)) value
    · exact ih (fun m here => fit m (by simp [here])) others p later

theorem nameMap_yields (each : d.Yields P) : (nameMap d).Yields fun m => ∀ v ∈ m.values, P v := by
  intro t m fit h
  cases fit with
  | object closing members =>
    obtain ⟨pairs, decoded, h⟩ := bind_eq_ok.1 h
    obtain ⟨_, _, h⟩ := bind_eq_ok.1 h
    cases h
    intro v member
    obtain ⟨name, found⟩ := NameMap.mem_values.1 member
    have pair := NameMap.mem_of_get?_ofList found
    exact namedValues_yields each members decoded (name, v) pair
  | _ => cases h

/-! ### Records -/

/-- A field that keeps up an invariant of the record that is being filled. -/
def Field.Keeps (field : Field σ) (I : σ → Prop) : Prop :=
  ∀ ⦃t s s'⦄, t.NumbersFit → field.fill t s = .ok s' → I s → I s'

theorem Field.of_keeps {name : String} {get : σ → Option α} {set : α → σ → σ} {I : σ → Prop}
    (value : d.Yields P) (keeps : ∀ v s, P v → I s → I (set v s)) :
    (Field.of name d get set).Keeps I := by
  intro t s s' fit h held
  obtain ⟨v, decoded, rfl⟩ := map_eq_ok.1 h
  exact keeps v s (value fit decoded) held

variable {fields : List (Decoder.Field σ)} {I : σ → Prop}

private theorem fillByName_keeps (keeps : ∀ field ∈ fields, field.Keeps I)
    {members : List (Leaf String × Tree)} (fit : ∀ m ∈ members, m.2.NumbersFit) {s s' : σ}
    (h : fillByName fields members s = .ok s') (held : I s) : I s' := by
  induction members generalizing s with
  | nil =>
    cases h
    exact held
  | cons m members ih =>
    obtain ⟨key, t⟩ := m
    have later : ∀ m ∈ members, m.2.NumbersFit := fun m here => fit m (by simp [here])
    obtain ⟨name, _, h⟩ := bind_eq_ok.1 h
    split at h
    · obtain ⟨_, _, h⟩ := bind_eq_ok.1 h
      exact ih later h held
    next field known =>
      split at h
      · cases h
      · obtain ⟨s₁, filled, h⟩ := bind_eq_ok.1 h
        have member := List.mem_of_find?_eq_some known
        exact ih later h (keeps field member (fit (key, t) (by simp)) filled held)

private theorem fillInOrder_keeps {closing : Option Fault} {items : List Tree}
    (fit : ∀ t ∈ items, t.NumbersFit) (keeps : ∀ field ∈ fields, field.Keeps I) {s s' : σ}
    (h : fillInOrder closing fields items s = .ok s') (held : I s) : I s' := by
  induction items generalizing fields s with
  | nil =>
    have ended : (do raise? closing; return s) = Except.ok s' := by
      cases fields <;> exact h
    obtain ⟨_, _, ended⟩ := bind_eq_ok.1 ended
    cases ended
    exact held
  | cons t items ih =>
    cases fields with
    | nil => cases h
    | cons field fields =>
      obtain ⟨s₁, filled, h⟩ := bind_eq_ok.1 h
      have first := keeps field (by simp) (fit t (by simp)) filled held
      exact ih (fun t here => fit t (by simp [here]))
        (fun field here => keeps field (by simp [here]))
        h first

/-- A record keeps up what its fields do. -/
theorem record_yields {start : σ} {finish : σ → Option α} (init : I start)
    (keeps : ∀ field ∈ fields, field.Keeps I) (done : ∀ s v, I s → finish s = some v → P v) :
    (record fields start finish).Yields P := by
  intro t v fit h
  cases fit with
  | object closing members =>
    obtain ⟨s, byName, h⟩ := bind_eq_ok.1 h
    obtain ⟨_, _, h⟩ := bind_eq_ok.1 h
    dsimp only [pure, Except.pure, bind, Except.bind] at h
    split at h
    next finished =>
      cases h
      exact done s v (fillByName_keeps keeps members byName init) finished
    · cases h
  | array closing items =>
    obtain ⟨s, inOrder, h⟩ := bind_eq_ok.1 h
    dsimp only at h
    split at h
    next finished =>
      cases h
      exact done s v (fillInOrder_keeps items keeps inOrder init) finished
    · cases h
  | _ => cases h

end

end Decoder

end Json

open Json Json.Decoder
open Calendar (Timestamp)

/-! ### Entries -/

/-- An entry that is written without loss: times and timestamp as the types promise, finite
values. -/
structure CommitEntry.Storable (e : CommitEntry) : Prop extends CommitEntry.WellTyped e where
  finite : ∀ x ∈ e.values, x.isFinite = true

theorem BenchmarkRecord.decoder_yields :
    BenchmarkRecord.decoder.Yields fun r => r.value.isFinite = true := by
  refine record_yields (I := fun (s : Fields) => ∀ x ∈ s.value, x.isFinite = true) ?_ ?_ ?_
  · simp
  · intro field member
    simp only [List.mem_cons, List.not_mem_nil, or_false] at member
    rcases member with rfl | rfl | rfl | rfl
    · exact Field.of_keeps yields_trivial fun _ _ _ held => held
    · refine Field.of_keeps real_yields fun x s finite _ => ?_
      simpa using finite
    · exact Field.of_keeps yields_trivial fun _ _ _ held => held
    · exact Field.of_keeps yields_trivial fun _ _ _ held => held
  · intro s r held finished
    simp only [Option.bind_eq_bind, Option.bind_eq_some_iff] at finished
    obtain ⟨_, _, x, value, rest⟩ := finished
    cases rest
    exact held x value

theorem Commit.decoder_yields : Commit.decoder.Yields fun c => c.timestamp.exists = true := by
  refine record_yields (I := fun (s : Fields) => ∀ t ∈ s.timestamp, t.exists = true) ?_ ?_ ?_
  · simp
  · intro field member
    simp only [List.mem_cons, List.not_mem_nil, or_false] at member
    rcases member with rfl | rfl | rfl | rfl | rfl | rfl | rfl | rfl
    rotate_left
    · refine Field.of_keeps (stringOf_yields Timestamp.ofText?) fun t s known _ => ?_
      obtain ⟨text, known⟩ := known
      simpa using Timestamp.exists_of_ofText? known
    all_goals exact Field.of_keeps yields_trivial fun _ _ _ held => held
  · intro s c held finished
    simp only [Option.bind_eq_bind, Option.bind_eq_some_iff] at finished
    obtain ⟨_, _, t, timestamp, _, _, _, _, rest⟩ := finished
    cases rest
    exact held t timestamp

/-- What is known of an entry while its fields are being read. -/
private structure CommitEntry.Fields.Promise (s : CommitEntry.Fields) : Prop where
  commit : ∀ c ∈ s.commit, c.timestamp.exists = true
  date : ∀ i ∈ s.date, IsWord i
  benches : ∀ rs ∈ s.benches, ∀ r ∈ rs, r.value.isFinite = true

theorem CommitEntry.decoder_yields : CommitEntry.decoder.Yields CommitEntry.Storable := by
  refine record_yields (I := Fields.Promise) ⟨by simp, by simp, by simp⟩ ?_ ?_
  · intro field member
    simp only [List.mem_cons, List.not_mem_nil, or_false] at member
    rcases member with rfl | rfl | rfl | rfl
    · exact Field.of_keeps Commit.decoder_yields fun _ _ known held =>
        { held with commit := by simpa using known }
    · exact Field.of_keeps whole_yields fun _ _ known held =>
        { held with date := by simpa using known }
    · exact Field.of_keeps yields_trivial fun _ _ _ held => { held with }
    · exact Field.of_keeps (list_yields BenchmarkRecord.decoder_yields) fun _ _ known held =>
        { held with benches := by simpa using known }
  · intro s e held finished
    simp only [Option.bind_eq_bind, Option.bind_eq_some_iff] at finished
    obtain ⟨c, commit, i, date, _, _, rs, benches, rest⟩ := finished
    cases rest
    refine ⟨⟨held.date i date, held.commit c commit⟩, ?_⟩
    simpa [CommitEntry.values] using held.benches rs benches

namespace HistoryDocument

/-- Every entry of a document is written without loss. -/
def Storable (d : HistoryDocument) : Prop :=
  ∀ es ∈ d.entries.values, ∀ e ∈ es, e.Storable

theorem decoder_yields : decoder.Yields Storable := by
  refine record_yields (I := fun (s : Fields) =>
    ∀ m ∈ s.entries, ∀ es ∈ m.values, ∀ e ∈ es, e.Storable) (by simp) ?_ ?_
  · intro field member
    simp only [List.mem_cons, List.not_mem_nil, or_false] at member
    rcases member with rfl | rfl | rfl
    · exact Field.of_keeps yields_trivial fun _ _ _ held => held
    · exact Field.of_keeps yields_trivial fun _ _ _ held => held
    · exact Field.of_keeps (nameMap_yields (list_yields CommitEntry.decoder_yields))
        fun _ _ known _ => by simpa using known
  · intro s d held finished
    cases finished
    cases entries : s.entries with
    | none => simp [Storable, NameMap.values, NameMap.empty]
    | some m => simpa [Storable, entries] using held m entries

/-- Whatever text decodes, its document is storable. -/
theorem decode_storable {text : String} {d : HistoryDocument} (h : decode text = .ok d) :
    d.Storable := by
  obtain ⟨json, _, h⟩ := bind_eq_ok.1 h
  exact decoder_yields.of_decode (mapError_eq_ok.1 h)

end HistoryDocument

end BenchLedger
