import BenchLedger.Files.Disk
import BenchLedger.Proofs.BlankText
import Mathlib.Data.List.Basic

/-!
The texts of a path and of the path above it. Main statement: `Disk.names_of_parent?`: both begin at
the same place, and the names of the path above stand in front of those of the path.
-/

namespace BenchLedger

namespace Path

/-- Pieces without slashes can be joined and taken apart again. -/
theorem pieces_join {ps : List (List Char)} (some : ps ≠ []) (plain : ∀ p ∈ ps, '/' ∉ p) :
    pieces (join ps) = ps := by
  rw [pieces, join, String.toList_ofList, Text.pieces_eq_splitOn]
  exact List.splitOn_intercalate '/' plain some

theorem pieces_take (path : String) (n : Nat) :
    pieces (join ((pieces path).take (n + 1))) = (pieces path).take (n + 1) := by
  apply pieces_join
  · have some := Text.pieces_ne_nil (· == '/') path.toList
    rw [← pieces] at some
    cases found : pieces path with
    | nil => exact absurd found some
    | cons p ps => simp
  · intro p member slash
    have apart := Text.not_sep_of_mem_pieces (List.mem_of_mem_take member) slash
    simp at apart

/-- A path begins at the root if its first piece is empty and not the only one. -/
theorem isAbsolute_iff (path : String) :
    isAbsolute path = true ↔ (pieces path).head? = some [] ∧ 1 < (pieces path).length := by
  have some := Text.pieces_ne_nil (· == '/')
  unfold isAbsolute pieces
  cases path.toList with
  | nil => simp [Text.pieces]
  | cons c cs =>
    by_cases slash : c = '/'
    · have rest := List.length_pos_iff.2 (some cs)
      simp [Text.pieces, slash]
      omega
    · cases found : Text.pieces (· == '/') cs with
      | nil => exact absurd found (some cs)
      | cons p ps => simp [Text.pieces, slash, found]

/-- A component stands at its position and is not empty. -/
theorem mem_placed {path : String} {piece : List Char} {position : Nat}
    (member : (piece, position) ∈ placed path) :
    (pieces path)[position]? = some piece ∧ piece ≠ [] := by
  obtain ⟨indexed, counted⟩ := List.mem_filter.1 member
  refine ⟨List.mem_zipIdx_iff_getElem?.1 indexed, fun empty => ?_⟩
  simp [counts, empty] at counted

theorem placed_increases (path : String) : (placed path).Pairwise fun p q => p.2 < q.2 := by
  refine List.Pairwise.filter _ ?_
  rw [List.pairwise_iff_getElem]
  intro i j _ _ before
  simpa using before

/-- The path above stands before the last component, and has the same pieces up to there. -/
theorem parent?_cases {path above : String} (h : parent? path = some above)
    (some : above ≠ "") :
    (above = "/" ∧ isAbsolute path = true ∧ ∃ piece ∈ pieces path, piece ≠ []) ∨
      ∃ n, above = join ((pieces path).take (n + 1)) ∧
        (∃ piece ∈ (pieces path).drop (n + 1), piece ≠ []) ∧ (pieces path)[n]? ≠ .some [] := by
  unfold parent? at h
  split at h
  · cases h
  next only single =>
    left
    have member : only ∈ placed path := by
      rw [← List.mem_reverse, single]
      simp
    obtain ⟨here, visible⟩ := mem_placed member
    split at h
    next absolute =>
      cases h
      exact ⟨rfl, absolute, only.1, List.mem_of_getElem? here, visible⟩
    · cases h
      exact absurd rfl some
  next last piece position before several =>
    right
    cases h
    have order : placed path = before.reverse ++ [(piece, position), last] := by
      rw [← List.reverse_reverse (placed path), several]
      simp
    have increases := placed_increases path
    rw [order, List.pairwise_append] at increases
    have later : position < last.2 := by simpa using increases.2.1
    have first : (piece, position) ∈ placed path := by
      rw [order]
      simp
    have second : last ∈ placed path := by
      rw [order]
      simp
    obtain ⟨here, visible⟩ := mem_placed first
    obtain ⟨there, shown⟩ := mem_placed second
    refine ⟨position, rfl, ⟨last.1, ?_, shown⟩, ?_⟩
    · apply List.mem_of_getElem? (i := last.2 - (position + 1))
      rw [List.getElem?_drop, ← there]
      congr 1
      omega
    · rw [here]
      simpa using visible

end Path

namespace Disk

/-- A piece that is not empty is a name. -/
theorem names_ne_nil {ps : List (List Char)} {piece : List Char} (member : piece ∈ ps)
    (shown : piece ≠ []) : (ps.filter (!·.isEmpty)).map String.ofList ≠ [] := by
  have named : piece ∈ ps.filter (!·.isEmpty) := List.mem_filter.2 ⟨member, by simpa using shown⟩
  exact List.ne_nil_of_mem (List.mem_map_of_mem named)

/-- A path and the one above it begin at the same place, and the names of the path are those of the
one above and at least one more. -/
theorem names_of_parent? {path above : String} (h : Path.parent? path = some above)
    (visible : above ≠ "") :
    Path.isAbsolute above = Path.isAbsolute path ∧
      ∃ rest, rest ≠ [] ∧ names path = names above ++ rest := by
  rcases Path.parent?_cases h visible with ⟨rfl, absolute, piece, member, shown⟩ |
    ⟨n, rfl, ⟨piece, member, shown⟩, here⟩
  · refine ⟨absolute.symm, names path, ?_, rfl⟩
    exact names_ne_nil member shown
  · refine ⟨?_, _, names_ne_nil member shown, ?_⟩
    · apply Bool.eq_iff_iff.2
      rw [Path.isAbsolute_iff, Path.isAbsolute_iff, Path.pieces_take]
      cases pieces : Path.pieces path with
      | nil => simp
      | cons first others =>
        rw [pieces] at here
        simp only [List.take_succ_cons, List.head?_cons, List.length_cons, List.length_take]
        refine and_congr_right fun empty => ?_
        have behind : n ≠ 0 := by
          rintro rfl
          exact here empty
        omega
    · rw [names, names, Path.pieces_take, ← List.map_append, ← List.filter_append,
        List.take_append_drop]

end Disk

end BenchLedger
