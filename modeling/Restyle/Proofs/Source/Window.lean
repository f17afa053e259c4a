import Restyle.Proofs.Lists
import Restyle.Proofs.Source.Session

/-!
Windows on a source. The ends of a window are cut to the source, and the places between them are
read one after the other. The main statement is that, whatever the line and the context, no place
is outside of the source, and the lines that are shown are those with a number in the window.
-/

namespace Restyle

namespace Source

variable (lines : List (List Char)) (line context : Int)

/-- The lines with a number in the window. Numbers start at one. -/
def linesAround : List (List Char × Nat) :=
  (lines.zipIdx 1).filter fun p => line - context ≤ p.2 ∧ p.2 ≤ line + context

theorem readFrom?_eq_some {i n : Nat} (h : n ≤ lines.length - i) :
    readFrom? lines line i n =
      some (((lines.take (i + n)).zipIdx.drop i).map fun p => windowLine line (p.2 + 1) p.1) := by
  induction n generalizing i with
  | zero =>
    have hnone : (lines.take i).zipIdx.drop i = [] := by
      refine List.drop_eq_nil_of_le ?_
      rw [List.length_zipIdx]
      exact List.length_take_le i lines
    rw [readFrom?, Nat.add_zero, hnone, List.map_nil]
  | succ n ih =>
    have hplace : i < lines.length := by omega
    have hshown : i < (lines.take (i + 1 + n)).zipIdx.length := by simp; omega
    rw [readFrom?, List.getElem?_eq_getElem hplace, Option.bind_some, ih (by omega),
      show i + (n + 1) = i + 1 + n by omega, List.drop_eq_getElem_cons hshown]
    simp

/-- The places between the ends are a slice of the source. -/
theorem readWindow?_eq_some : readWindow? lines line context = some ("\n".intercalate
    (((lines.take (line + context).toNat).zipIdx.drop (line - context - 1).toNat).map
      fun p => windowLine line (p.2 + 1) p.1)) := by
  have hstart : (max 0 (line - context - 1)).toNat = (line - context - 1).toNat := by omega
  rw [readWindow?, hstart, readFrom?_eq_some lines line (by omega), Option.map_some]
  congr 3
  -- A window that ends before it starts is empty, and else both end at the same line.
  by_cases hempty : min (lines.length : Int) (line + context) ≤ max 0 (line - context - 1)
  · rw [List.drop_eq_nil_of_le (by simp; omega), List.drop_eq_nil_of_le (by simp; omega)]
  · congr 2
    exact List.take_eq_take_iff.mpr (by omega)

theorem readWindow?_eq_linesAround :
    readWindow? lines line context = some ("\n".intercalate
      ((linesAround lines line context).map fun p => windowLine line p.2 p.1)) := by
  have hstop : line + context + 1 - (1 : Nat) = line + context := by omega
  rw [linesAround, filter_zipIdx, hstop, List.zipIdx_succ, ← List.map_drop, List.map_map,
    readWindow?_eq_some]
  rfl

end Source

namespace Session

/-- Whatever the line and the context, the window on a loaded source is read without leaving the
source. It shows, in order, the lines with a number from `line - context` to `line + context`, each
with its number, and the line asked for is marked if it is among them. -/
theorem window_exact [Dialect] (ops : List Operation) {text : List Char}
    (htext : (start.after ops).text = .ok text) (line context : Int) :
    Source.readWindow? (Text.lines text) line context =
        some ((start.after ops).window line context) ∧
      (start.after ops).window line context = "\n".intercalate
        ((Source.linesAround (Text.lines text) line context).map fun p =>
          (if p.2 = line then ">>> " else "    ") ++ Source.paddedNumber p.2 ++ ": " ++
            String.ofList p.1) := by
  have hread := Source.readWindow?_eq_linesAround (Text.lines text) line context
  have hwindow : (start.after ops).window line context = "\n".intercalate
      ((Source.linesAround (Text.lines text) line context).map
        fun p => Source.windowLine line p.2 p.1) := by
    rw [(sound_start.after ops).window_eq, htext, windowOf, Source.window, hread, Option.getD_some]
  rw [hwindow]
  exact ⟨hread, rfl⟩

def threeLines : List Char := "x = 1\n\ny = 2\n".toList

/-- A window in the middle of a source, and one that goes past its end. -/
theorem window_exact_sample :
    (start.after [.load threeLines]).text = .ok threeLines ∧
      (start.after [.load threeLines]).window 2 1 =
        "      1: x = 1\n>>>   2: \n      3: y = 2" ∧
      (start.after [.load threeLines]).window 5 2 = "      3: y = 2" := by
  have hvalid : isValid threeLines = true := by decide +kernel
  obtain ⟨tree, htree⟩ := Option.isSome_iff_exists.mp hvalid
  have htext : (start.after [.load threeLines]).text = .ok threeLines := by
    simp [after, act, load, Source.read, Source.ofText?, htree, text]
  have hwindow := window_exact _ htext
  refine ⟨htext, (hwindow 2 1).2.trans ?_, (hwindow 5 2).2.trans ?_⟩ <;> decide +kernel

end Session

end Restyle
