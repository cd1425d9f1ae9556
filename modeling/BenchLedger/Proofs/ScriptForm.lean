import BenchLedger.History.Document
import BenchLedger.Proofs.BlankText
import BenchLedger.Proofs.JsonGrammar

/-!
The script form of a history document. Main statement: `HistoryDocument.decode_scriptForm`: a JSON
text is decoded alike with an assignment to the global variable around it, and the variable's name
without an assignment behind it is refused.
-/

namespace BenchLedger.HistoryDocument

open Text (isBlank allBlank trim trimStart trimEnd EndsVisible)
open Json (IsText Spaces Derives Part)

/-! ### The name of the variable -/

/-- An equals sign with nothing but blanks in front of it. -/
def StartsAssignment (cs : List Char) : Prop :=
  ∃ blanks value, allBlank blanks = true ∧ cs = blanks ++ '=' :: value

/-- Blanks around a text that starts with the name leave the name and what follows it. -/
theorem trim_globalName {before : List Char} (blank : allBlank before = true)
    (after : List Char) :
    trim (before ++ (globalName.toList ++ after)) = globalName.toList ++ trimEnd after := by
  have first : ∀ c ∈ (globalName.toList ++ after).head?, isBlank c = false := by
    intro c head
    obtain ⟨tail, name⟩ : ∃ tail, globalName.toList = 'w' :: tail := ⟨_, rfl⟩
    rw [name] at head
    cases head
    decide
  have last : ∀ c ∈ globalName.toList.getLast?, isBlank c = false := by
    have letter : globalName.toList.getLast? = some 'A' := rfl
    rw [letter]
    rintro c ⟨⟩
    decide
  rw [trim, Text.trimStart_append blank, Text.trimStart_eq_self.2 first,
    Text.trimEnd_append_of_visible last]

theorem afterStart?_append (start cs : List Char) : afterStart? start (start ++ cs) = some cs := by
  simp [afterStart?]

/-- An assignment's value is taken without its blanks and semicolons at the end. -/
theorem unwrap_assignment {before blanks : List Char} (blankBefore : allBlank before = true)
    (blank : allBlank blanks = true) (value : List Char) :
    unwrap (before ++ (globalName.toList ++ (blanks ++ '=' :: value)))
      = .ok ((trim value).rdropWhile (· == ';')) := by
  have finish : trimEnd (blanks ++ '=' :: value) = blanks ++ '=' :: trimEnd value := by
    have visible : ∀ c ∈ (blanks ++ ['=']).getLast?, isBlank c = false := by
      rw [List.getLast?_concat]
      rintro c ⟨⟩
      decide
    have split := Text.trimEnd_append_of_visible visible value
    rwa [List.append_assoc, List.append_assoc] at split
  have start : trimStart (blanks ++ '=' :: trimEnd value) = '=' :: trimEnd value := by
    rw [Text.trimStart_append blank, Text.trimStart_cons (by decide)]
  simp only [unwrap, trim_globalName blankBefore, afterStart?_append, finish, start,
    Text.trim_trimEnd]
  rfl

/-- The name alone is refused. -/
theorem unwrap_unassigned {before after : List Char} (blankBefore : allBlank before = true)
    (other : ¬StartsAssignment after) :
    unwrap (before ++ (globalName.toList ++ after))
      = .error (.backend ("`" ++ globalName ++ "` is not followed by an assignment")) := by
  simp only [unwrap, trim_globalName blankBefore, afterStart?_append]
  split
  next value start =>
    -- What was trimmed off the end does not matter for how the text starts.
    obtain ⟨dropped, whole⟩ := List.rdropWhile_prefix isBlank after
    refine absurd ⟨(trimEnd after).takeWhile isBlank, value ++ dropped, ?_, ?_⟩ other
    · exact List.all_eq_true.2 fun _ => List.mem_takeWhile_imp
    · have parts := List.takeWhile_append_dropWhile (p := isBlank) (l := trimEnd after)
      rw [trimStart] at start
      rw [start] at parts
      rw [← List.cons_append, ← List.append_assoc, parts]
      exact whole.symm
  next => rfl

/-! ### JSON texts -/

theorem rdropWhile_semicolon_self {cs : List Char} (last : ∀ c ∈ cs.getLast?, c ≠ ';') :
    cs.rdropWhile (· == ';') = cs := by
  refine List.rdropWhile_eq_self_iff.2 fun some => ?_
  simpa using last _ (List.getLast?_eq_some_getLast some)

/-- Semicolons are dropped up to another character. -/
theorem rdropWhile_semicolons {cs : List Char} (last : ∀ c ∈ cs.getLast?, c ≠ ';') (k : Nat) :
    (cs ++ List.replicate k ';').rdropWhile (· == ';') = cs := by
  induction k with
  | zero => rw [List.replicate_zero, List.append_nil, rdropWhile_semicolon_self last]
  | succ k ih =>
    rw [List.replicate_succ', ← List.append_assoc, List.rdropWhile_concat_pos _ _ _ rfl, ih]

section

variable {v blanks : List Char} (value : Derives .value v)

include value

theorem endsVisible_of_value : EndsVisible v := by
  obtain ⟨c, more, rfl, first, _⟩ := value.value_head
  obtain ⟨d, last, visible, _⟩ := value.value_last
  refine ⟨by simpa using first, fun e same => ?_⟩
  rw [Option.mem_unique same last]
  exact visible

/-- A value is not mistaken for the script form. -/
theorem unwrap_value {before : List Char} (left : Spaces before) (right : Spaces blanks) :
    unwrap (before ++ (v ++ blanks)) = .ok v := by
  have trimmed : trim (before ++ (v ++ blanks)) = v := by
    rw [← List.append_assoc, Text.trim_padded left.allBlank right.allBlank,
      Text.trim_eq_self.2 (endsVisible_of_value value)]
  obtain ⟨c, more, rfl, _, other⟩ := value.value_head
  have noName : afterStart? globalName.toList (c :: more) = none := by
    obtain ⟨tail, name⟩ : ∃ tail, globalName.toList = 'w' :: tail := ⟨_, rfl⟩
    have letter : 'w' ≠ c := by
      rintro rfl
      simp at other
    simp [afterStart?, name, letter]
  simp only [unwrap, trimmed, noName]

theorem last_ne_semicolon (spaces : Spaces blanks) : ∀ c ∈ (v ++ blanks).getLast?, c ≠ ';' := by
  rcases List.eq_nil_or_concat' blanks with rfl | ⟨blanks, b, rfl⟩
  · obtain ⟨d, last, _, other⟩ := value.value_last
    intro c same
    rw [List.append_nil] at same
    rwa [Option.mem_unique same last]
  · have space := spaces b (by simp)
    rw [← List.append_assoc, List.getLast?_concat]
    rintro c ⟨⟩ rfl
    cases space

/-- Of the semicolons and blanks behind a value, only blanks in front of a semicolon are left. -/
theorem drop_semicolons {before after : List Char} (blankBefore : allBlank before = true)
    (between : Spaces blanks) (k : Nat) (blankAfter : allBlank after = true) :
    ∃ rest, Spaces rest ∧
      (trim (before ++ (v ++ blanks ++ List.replicate k ';') ++ after)).rdropWhile (· == ';')
        = v ++ rest := by
  rw [Text.trim_padded blankBefore blankAfter]
  cases k with
  | zero =>
    have last := last_ne_semicolon value Json.spaces_nil
    rw [List.append_nil] at last
    refine ⟨[], Json.spaces_nil, ?_⟩
    rw [List.replicate_zero, List.append_nil, List.append_nil, Text.trim_append between.allBlank,
      Text.trim_eq_self.2 (endsVisible_of_value value), rdropWhile_semicolon_self last]
  | succ k =>
    have visible : EndsVisible (v ++ blanks ++ List.replicate (k + 1) ';') := by
      obtain ⟨c, more, rfl, first, _⟩ := value.value_head
      refine ⟨by simpa using first, ?_⟩
      rw [List.replicate_succ', ← List.append_assoc, List.getLast?_concat]
      rintro c ⟨⟩
      decide
    rw [Text.trim_eq_self.2 visible, rdropWhile_semicolons (last_ne_semicolon value between)]
    exact ⟨blanks, between, rfl⟩

end

/-! ### Decoding -/

theorem decode_of_unwrap {text : String} {json : List Char} (h : unwrap text.toList = .ok json) :
    decode text = (Json.decode decoder (String.ofList json)).mapError .undecodable := by
  simp only [decode, h, bind, Except.bind]

theorem refused_iff {before after : String} (blank : allBlank before.toList = true) :
    decode (before ++ globalName ++ after)
        = .error (.backend ("`" ++ globalName ++ "` is not followed by an assignment"))
      ↔ ¬StartsAssignment after.toList := by
  have text : (before ++ globalName ++ after).toList
      = before.toList ++ (globalName.toList ++ after.toList) := by
    simp only [String.toList_append, List.append_assoc]
  constructor
  · rintro refused ⟨blanks, value, space, parts⟩
    have taken := unwrap_assignment blank space value
    rw [← parts, ← text] at taken
    rw [decode_of_unwrap taken] at refused
    -- A value that was taken may be refused, but not as one that was not found.
    generalize Json.decode decoder _ = decoded at refused
    cases decoded <;> cases refused
  · intro other
    have refused := unwrap_unassigned blank other
    rw [← text] at refused
    simp only [decode, refused, bind, Except.bind]

/-- A JSON text is decoded as it is, and alike with an assignment around it, whatever blanks stand
between its tokens and however many semicolons behind it. The variable's name is refused just if no
assignment follows it. -/
theorem decode_scriptForm :
    (∀ (j w₀ w₁ w₂ w₃ w₄ : String) (k : Nat), IsText j.toList →
      (∀ w ∈ [w₀, w₁, w₂, w₃, w₄], Spaces w.toList) →
      decode j = (Json.decode decoder j).mapError .undecodable ∧
        decode (w₀ ++ globalName ++ w₁ ++ "=" ++ w₂ ++ j ++ w₃ ++
          String.ofList (List.replicate k ';') ++ w₄) = decode j) ∧
    ∀ before after : String, allBlank before.toList = true →
      (decode (before ++ globalName ++ after)
          = .error (.backend ("`" ++ globalName ++ "` is not followed by an assignment"))
        ↔ ¬StartsAssignment after.toList) := by
  refine ⟨?_, fun before after => refused_iff⟩
  intro j w₀ w₁ w₂ w₃ w₄ k text blank
  simp only [List.forall_mem_cons] at blank
  obtain ⟨blank₀, blank₁, blank₂, blank₃, blank₄, _⟩ := blank
  generalize same : j.toList = cs at text
  cases text with
  | @element before v after left value right =>
    obtain ⟨rest, spaces, dropped⟩ :=
      drop_semicolons value (blank₂.append left).allBlank (right.append blank₃) k blank₄.allBlank
    have bare := unwrap_value value left right
    have wrapped := unwrap_assignment blank₀.allBlank blank₁.allBlank
      (w₂.toList ++ before ++ (v ++ (after ++ w₃.toList) ++ List.replicate k ';') ++ w₄.toList)
    rw [dropped] at wrapped
    rw [← same] at bare
    have text : (w₀ ++ globalName ++ w₁ ++ "=" ++ w₂ ++ j ++ w₃ ++
        String.ofList (List.replicate k ';') ++ w₄).toList
          = w₀.toList ++ (globalName.toList ++ (w₁.toList ++ '=' :: (w₂.toList ++ before ++
            (v ++ (after ++ w₃.toList) ++ List.replicate k ';') ++ w₄.toList))) := by
      simp [String.toList_append, same]
    rw [← text] at wrapped
    have own : Json.decode decoder j = Json.decode decoder (String.ofList v) := by
      rw [← String.ofList_toList (s := j), same, Derives.decode_padded decoder left value right]
    have framed := Derives.decode_padded decoder Json.spaces_nil value spaces
    rw [List.nil_append] at framed
    rw [decode_of_unwrap wrapped, decode_of_unwrap bare, own, framed]
    exact ⟨rfl, rfl⟩

/-- A document with the tokens of the script form in a text. -/
def ownTokens : String :=
  "\x7b \"repoUrl\": \"window.BENCHMARK_DATA = \x7b\x7d;\" \x7d"

theorem isText_ownTokens : IsText ownTokens.toList := by
  have space : Spaces [' '] := by decide
  have name : Json.Characters "repoUrl".toList := .of_plain (by decide)
  have url : Json.Characters "window.BENCHMARK_DATA = \x7b\x7d;".toList := .of_plain (by decide)
  have member := Derives.member space name Json.spaces_nil (.element space (.string url) space)
  have text := Derives.element Json.spaces_nil (.object (.lastMember member)) Json.spaces_nil
  have same : ownTokens.toList
      = [] ++ ('\x7b' :: ([' '] ++ '"' :: ("repoUrl".toList ++ '"' :: ([] ++ ':' :: ([' '] ++
        ('"' :: ("window.BENCHMARK_DATA = \x7b\x7d;".toList ++ ['"']) ++ [' '])))) ++ ['\x7d']) ++
          []) := by
    decide
  rw [IsText, same]
  exact text

theorem decode_scriptForm_of_ownTokens :
    IsText ownTokens.toList ∧ (∀ w ∈ ["\n", " ", "\t", " ", "\r\n"], Spaces w.toList) ∧
      decode ownTokens = (Json.decode decoder ownTokens).mapError .undecodable ∧
      decode ("\n" ++ globalName ++ " " ++ "=" ++ "\t" ++ ownTokens ++ " " ++
        String.ofList (List.replicate 2 ';') ++ "\r\n") = decode ownTokens ∧
      (decode ownTokens).toOption.map (·.repoUrl)
        = some (some "window.BENCHMARK_DATA = \x7b\x7d;") ∧
      ¬StartsAssignment " \x7b".toList ∧
      decode (" " ++ globalName ++ " \x7b")
        = .error (.backend ("`" ++ globalName ++ "` is not followed by an assignment")) := by
  have spaces : ∀ w ∈ ["\n", " ", "\t", " ", "\r\n"], Spaces w.toList := by
    simp only [List.forall_mem_cons]
    decide
  have other : ¬StartsAssignment " \x7b".toList := by
    rintro ⟨blanks, value, _, same⟩
    have member : '=' ∈ " \x7b".toList := by simp [same]
    revert member
    decide
  have alike := decode_scriptForm.1 ownTokens "\n" " " "\t" " " "\r\n" 2 isText_ownTokens spaces
  refine ⟨isText_ownTokens, spaces, alike.1, alike.2, by decide +kernel, other, ?_⟩
  exact (decode_scriptForm.2 " " " \x7b" (by decide)).2 other

end BenchLedger.HistoryDocument
