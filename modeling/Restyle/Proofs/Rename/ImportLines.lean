import Restyle.Proofs.Table
import Restyle.Proofs.Text.Newlines
import Restyle.Rename.Import
import Restyle.Syntax.Dialect

/-!
New names in imports where none of the imported names gets one. The text is cut into lines, and
joined again by newlines. So it stays as it is exactly if its lines are ended by newlines and the
last one is not ended.
-/

namespace Restyle

namespace Rename

open Syntax (Tree parse?)

theorem foldlM_renameMention {names : NameMap} {ms : List Mention}
    (h : ∀ m ∈ ms, m.name ∉ names.keys) (state : List (List Char) × List String) :
    ms.foldlM (renameMention names) state = .ok state := by
  induction ms with
  | nil => rfl
  | cons m ms ih =>
    obtain ⟨hm, hms⟩ := List.forall_mem_cons.mp h
    have hnone : names.get? m.name = none := by
      cases hget : names.get? m.name with
      | none => rfl
      | some new => exact absurd (List.mem_map_of_mem (Table.mem_of_lookup hget)) hm
    have hkept : renameMention names state m = .ok state := by
      rw [renameMention, hnone]
    rw [List.foldlM_cons, hkept]
    exact ih hms

/-- If no name that a source imports is renamed, nothing is told, and the text is the same exactly
if its lines are ended by newlines and the last one is not ended. -/
theorem renameImports_same_iff [Dialect] {names : NameMap} {s : List Char} {t : Tree}
    (ht : parse? s = some t)
    (h : ∀ n ∈ t.breadthFirst, ∀ m ∈ mentionsAt n, m.name ∉ names.keys) :
    renameImports names s = .ok (List.intercalate ['\n'] (Text.lines s), []) ∧
      (renameImports names s = .ok (s, []) ↔ Text.PlainlyEnded s) := by
  have hmentions : ∀ m ∈ t.breadthFirst.flatMap mentionsAt, m.name ∉ names.keys := by
    intro m hm
    obtain ⟨n, hn, hm⟩ := List.mem_flatMap.mp hm
    exact h n hn m hm
  have hjoined : renameImports names s = .ok (List.intercalate ['\n'] (Text.lines s), []) := by
    rw [renameImports, ht]
    dsimp only
    rw [foldlM_renameMention hmentions]
    rfl
  refine ⟨hjoined, ?_⟩
  rw [hjoined, ← Text.intercalate_linesFrom_iff [] s]
  simp [Text.lines]

/-- A source whose last line is not ended. -/
theorem renameImports_same_iff_sample :
    renameImports ⟨[("a", "b")]⟩ "import os\nx = 1".toList =
      .ok ("import os\nx = 1".toList, []) := by
  have hsource : (parse? "import os\nx = 1".toList).any (fun t => decide
      (∀ n ∈ t.breadthFirst, ∀ m ∈ mentionsAt n, m.name ∉ ["a"])) = true := by decide +kernel
  have hends : ("import os\nx = 1".toList.filter Text.isLineEnd).all (· == '\n') = true := by decide
  have hplain : Text.PlainlyEnded "import os\nx = 1".toList :=
    ⟨fun c hc hend => eq_of_beq (List.all_eq_true.mp hends c (List.mem_filter.mpr ⟨hc, hend⟩)),
      by decide⟩
  cases ht : parse? "import os\nx = 1".toList with
  | none =>
    rw [ht] at hsource
    cases hsource
  | some t =>
    rw [ht] at hsource
    exact (@renameImports_same_iff _ ⟨[("a", "b")]⟩ _ t ht (of_decide_eq_true hsource)).2.mpr hplain

/-- The newline at the end of a source is lost. -/
theorem last_newline_lost :
    renameImports ⟨[("a", "b")]⟩ "import os\n".toList = .ok ("import os".toList, []) := by
  decide +kernel

end Rename

end Restyle
