import Restyle.Proofs.Naming.Spelled
import Restyle.Proofs.Text.Pieces
import Restyle.Syntax.Lexer

/-!
Names and words that may differ. Two texts are worded alike if they are the same but for some
words, which are names in both of them. A word has to stay where a reader of source code would not
take it for a name: in a number, in an escape, as the conversion of a field, and as the mark of a
string. It does not matter whether a word stands in code, in a string or in a comment.
-/

namespace Restyle.Syntax

open LexState (isQuote stringMarks)
open Naming (Spelled)
open Text (Apart IsRun isIdentifier isKeyword mayBeNameChar normalize)

/-! ### Names -/

/-- Names that mean something in the grammar where they stand. -/
def softWords : List String := ["_", "match", "case"]

/-- How names may differ. The grammar cannot tell related names apart. -/
structure NameLikeness where
  rel : String → String → Prop
  soft : ∀ {a b}, rel a b → ∀ w ∈ softWords, (a = w ↔ b = w)

/-- Names are the same, and spelled as names are. -/
def NameLikeness.same : NameLikeness where
  rel a b := a = b ∧ Spelled a
  soft := by
    rintro a b ⟨rfl, -⟩ w _
    rfl

/-- Whether a word may stay as it is. -/
def NameLikeness.Keeps (ν : NameLikeness) (w : List Char) : Prop :=
  ν.rel (String.ofList (normalize w)) (String.ofList (normalize w))

/-- An ASCII name that is no keyword. -/
@[mk_iff]
structure IsPlainName (w : List Char) : Prop where
  ascii : w.all (·.toNat < 128) = true
  identifier : isIdentifier w = true
  notKeyword : isKeyword (String.ofList w) = false

instance {w : List Char} : Decidable (IsPlainName w) :=
  decidable_of_iff' _ (isPlainName_iff w)

/-- A word that makes a string of the quotes after it. -/
def isStringMark (w : List Char) : Bool :=
  stringMarks.contains (String.ofList (w.map Char.toLower))

namespace IsPlainName

variable {w : List Char}

theorem normalize_eq (h : IsPlainName w) : normalize w = w := by
  rw [Text.normalize, if_pos h.ascii]

theorem exists_cons (h : IsPlainName w) : ∃ c rest, w = c :: rest ∧ c.isDigit = false := by
  obtain ⟨hascii, hidentifier, -⟩ := h
  cases w with
  | nil => cases hidentifier
  | cons c rest =>
    refine ⟨c, rest, rfl, ?_⟩
    have hstart : Text.isIdentifierStart c = true := (Bool.and_eq_true _ _ ▸ hidentifier).1
    have hc : c.toNat < 128 := by simpa using (List.all_eq_true.mp hascii) c List.mem_cons_self
    revert hstart
    exact Text.forall_ascii (P := fun c => Text.isIdentifierStart c = true → c.isDigit = false)
      (by decide +kernel) hc

theorem isRun (h : IsPlainName w) : IsRun mayBeNameChar w := by
  obtain ⟨hascii, hidentifier, -⟩ := h
  cases w with
  | nil => cases hidentifier
  | cons c rest =>
    refine ⟨List.cons_ne_nil _ _, fun d hd => ?_⟩
    have hsmall : d.toNat < 128 := by simpa using (List.all_eq_true.mp hascii) d hd
    obtain ⟨hstart, hrest⟩ := Bool.and_eq_true_iff.mp hidentifier
    have hchar : Text.isIdentifierStart d = true ∨ Text.isIdentifierChar d = true := by
      rcases List.mem_cons.mp hd with rfl | hd
      · exact .inl hstart
      · exact .inr (List.all_eq_true.mp hrest d hd)
    revert hchar
    exact Text.forall_ascii (P := fun d => Text.isIdentifierStart d = true ∨
      Text.isIdentifierChar d = true → mayBeNameChar d = true) (by decide +kernel) hsmall

end IsPlainName

/-! ### Words in their places -/

/-- What stands before a place in a text: a word that starts with a digit, the point after such a
word, a backslash, an exclamation mark, or anything else. -/
inductive Site where
  | plain
  | numeral
  | point
  | escape
  | conversion
deriving DecidableEq, Repr

def startsWithDigit (w : List Char) : Bool := w.head?.any Char.isDigit

theorem IsPlainName.startsWithDigit_append {w : List Char} (h : IsPlainName w) (s : List Char) :
    startsWithDigit (w ++ s) = false := by
  obtain ⟨c, rest, rfl, hc⟩ := h.exists_cons
  exact hc

/-- Whether a text starts with a word that may follow a number without a blank. -/
def startsWithFollower (s : List Char) : Bool := numberFollowers.any (·.isPrefixOf s)

namespace Site

def afterMark (site : Site) (c : Char) : Site :=
  if c = '\\' then .escape
  else if c = '!' then .conversion
  else if c = '.' ∧ site = .numeral then .point
  else .plain

def afterWord (w : List Char) : Site := if startsWithDigit w then .numeral else .plain

/-- Whether a name may stand at a site and is no part of what stands before it: of a number, of an
escape with digits or a name, or of the conversion of a field. -/
def admits : Site → List Char → Bool
  | .plain, _ => true
  | .numeral, _ => true
  | .point, w => !w.head?.any ['e', 'E', 'j', 'J'].contains && !startsWithFollower w
  | .escape, w => !w.head?.any ['x', 'u', 'U', 'N'].contains
  | .conversion, w => !([['s'], ['r'], ['a']].contains w)

end Site

/-- A word that stays where it is, before the text `s`. In a number there may be a name at its end.
Unless names are the same, a word after a backslash does not name a character. -/
structure Kept (ν : NameLikeness) (site : Site) (w s : List Char) : Prop where
  run : IsRun mayBeNameChar w
  apart : Apart mayBeNameChar s
  keeps : ν.Keeps w
  ends : startsWithDigit w = true ∨ site = .point →
    ∀ v, v <:+ w → startsWithFollower v = true → ν.Keeps v
  unnamed : ν ≠ .same → site = .escape → w = ['N'] → s.head? ≠ some '{'

/-- A word that becomes another one, before the text `s`. -/
structure Changed (ν : NameLikeness) (site : Site) (w w' s : List Char) : Prop where
  old : IsPlainName w
  new : IsPlainName w'
  rel : ν.rel (String.ofList w) (String.ofList w')
  admits : site.admits w = true ∧ site.admits w' = true
  apart : Apart mayBeNameChar s
  unmarked : s.head?.any isQuote = true → isStringMark w = false ∧ isStringMark w' = false

/-- What may stand after a word as well as `s`: it starts like `s`, or with a mark that has no
meaning for the word before it. -/
def Follows (s t : List Char) : Prop :=
  ∀ c ∈ t.head?, c ∈ s.head? ∨ mayBeNameChar c = false ∧ isQuote c = false ∧ c ≠ '{'

theorem Kept.before {ν : NameLikeness} {site : Site} {w s t : List Char} (hw : Kept ν site w s)
    (h : Follows s t) : Kept ν site w t where
  run := hw.run
  apart c hc := (h c hc).elim (hw.apart c) And.left
  keeps := hw.keeps
  ends := hw.ends
  unnamed hν hsite hN hbrace :=
    (h _ hbrace).elim (hw.unnamed hν hsite hN) fun hmark => hmark.2.2 rfl

theorem Changed.before {ν : NameLikeness} {site : Site} {w w' s t : List Char}
    (hw : Changed ν site w w' s) (h : Follows s t) : Changed ν site w w' t where
  old := hw.old
  new := hw.new
  rel := hw.rel
  admits := hw.admits
  apart c hc := (h c hc).elim (hw.apart c) And.left
  unmarked hquoted := by
    obtain ⟨q, hq, hquote⟩ := (Option.any_eq_true _ _).mp hquoted
    rcases h q hq with hs | hmark
    · exact hw.unmarked ((Option.any_eq_true _ _).mpr ⟨q, hs, hquote⟩)
    · simp [hmark.2.1] at hquote

/-- Texts that are worded alike. -/
inductive Reworded (ν : NameLikeness) : Site → List Char → List Char → Prop
  | nil (site : Site) : Reworded ν site [] []
  | mark {site : Site} {c : Char} {s s' : List Char} (hc : mayBeNameChar c = false)
      (h : Reworded ν (site.afterMark c) s s') : Reworded ν site (c :: s) (c :: s')
  | kept {site : Site} {w s s' : List Char} (hw : Kept ν site w s)
      (h : Reworded ν (.afterWord w) s s') : Reworded ν site (w ++ s) (w ++ s')
  | changed {site : Site} {w w' s s' : List Char} (hw : Changed ν site w w' s)
      (h : Reworded ν .plain s s') : Reworded ν site (w ++ s) (w' ++ s')

namespace Reworded

variable {ν : NameLikeness} {site : Site} {c : Char} {s s' t t' : List Char}

theorem not_apart_kept {w : List Char} (hw : Kept ν site w s) : ¬ Apart mayBeNameChar (w ++ t) :=
  hw.run.not_apart

theorem not_apart_changed {w w' : List Char} (hw : Changed ν site w w' s) :
    ¬ Apart mayBeNameChar (w ++ t) ∧ ¬ Apart mayBeNameChar (w' ++ t) :=
  ⟨hw.old.isRun.not_apart, hw.new.isRun.not_apart⟩

theorem same (site : Site) (s : List Char) : Reworded .same site s s := by
  have hkeeps {w : List Char} (hne : w ≠ []) (hw : Text.NameChars w) :
      NameLikeness.same.Keeps w := by
    refine ⟨rfl, ?_, mt String.ofList_eq_empty_iff.mp (Text.normalize_ne_nil hne)⟩
    rw [String.toList_ofList]
    exact Text.nameChars_normalize hw
  induction s using Text.pieces_induction mayBeNameChar generalizing site with
  | nil => exact .nil site
  | other c s hc ih => exact .mark hc (ih _)
  | run w s hw hs ih =>
    refine .kept ⟨hw, hs, hkeeps hw.ne_nil hw.all, fun _ v hv hfollower => hkeeps ?_ ?_, ?_⟩
      (ih _)
    · rintro rfl
      exact absurd hfollower (by decide)
    · exact fun c hc => hw.all c (hv.subset hc)
    · exact fun hν => absurd rfl hν

theorem eq_of_same (h : Reworded .same site s s') : s = s' := by
  induction h with
  | nil => rfl
  | mark _ _ ih => rw [ih]
  | kept _ _ ih => rw [ih]
  | changed hw _ ih => rw [ih, String.ofList_injective hw.rel.1]

theorem eq_nil_iff (h : Reworded ν site s s') : s = [] ↔ s' = [] := by
  cases h with
  | nil => exact Iff.rfl
  | mark => simp
  | kept hw => simp [hw.run.ne_nil]
  | changed hw => simp [hw.old.isRun.ne_nil, hw.new.isRun.ne_nil]

/-- At a mark both texts are at it. -/
theorem cons_mark (hc : mayBeNameChar c = false) (h : Reworded ν site (c :: s) t) :
    ∃ s', t = c :: s' ∧ Reworded ν (site.afterMark c) s s' := by
  generalize hx : c :: s = x at h
  cases h with
  | nil => cases hx
  | mark _ h =>
    cases hx
    exact ⟨_, rfl, h⟩
  | kept hw _ => exact absurd (hx ▸ Text.apart_cons.mpr hc) (not_apart_kept hw)
  | changed hw _ => exact absurd (hx ▸ Text.apart_cons.mpr hc) (not_apart_changed hw).1

theorem cons_mark_right (hc : mayBeNameChar c = false) (h : Reworded ν site t (c :: s')) :
    ∃ s, t = c :: s ∧ Reworded ν (site.afterMark c) s s' := by
  generalize hx : c :: s' = x at h
  cases h with
  | nil => cases hx
  | mark _ h =>
    cases hx
    exact ⟨_, rfl, h⟩
  | kept hw _ => exact absurd (hx ▸ Text.apart_cons.mpr hc) (not_apart_kept hw)
  | changed hw _ => exact absurd (hx ▸ Text.apart_cons.mpr hc) (not_apart_changed hw).2

theorem head?_eq_iff (hc : mayBeNameChar c = false) (h : Reworded ν site s s') :
    s.head? = some c ↔ s'.head? = some c := by
  simp only [List.head?_eq_some_iff]
  constructor
  · rintro ⟨t, rfl⟩
    obtain ⟨t', rfl, -⟩ := h.cons_mark hc
    exact ⟨t', rfl⟩
  · rintro ⟨t', rfl⟩
    obtain ⟨t, rfl, -⟩ := h.cons_mark_right hc
    exact ⟨t, rfl⟩

/-- Where no word stands, both texts start with the same character, if with any. -/
theorem head?_eq (h : Reworded ν site s s') (hs : Apart mayBeNameChar s) : s.head? = s'.head? := by
  cases h with
  | nil => rfl
  | mark => rfl
  | kept hw _ => exact absurd hs (not_apart_kept hw)
  | changed hw _ => exact absurd hs (not_apart_changed hw).1

theorem apart (h : Reworded ν site s s') (hs : Apart mayBeNameChar s) : Apart mayBeNameChar s' :=
  fun c hc => hs c (h.head?_eq hs ▸ hc)

theorem countP_marks (h : Reworded ν site s s') :
    s.countP (!mayBeNameChar ·) = s'.countP (!mayBeNameChar ·) := by
  have hword {w : List Char} (hw : IsRun mayBeNameChar w) : w.countP (!mayBeNameChar ·) = 0 := by
    rw [List.countP_eq_zero]
    intro c hc
    simp [hw.all c hc]
  induction h with
  | nil => rfl
  | mark hc _ ih => simp [List.countP_cons, ih]
  | kept hw _ ih => rw [List.countP_append, List.countP_append, ih]
  | changed hw _ ih =>
    rw [List.countP_append, List.countP_append, ih, hword hw.old.isRun, hword hw.new.isRun]

theorem any_eq {p : Char → Bool} (hp : ∀ {w}, IsPlainName w → w.any p = false)
    (h : Reworded ν site s s') : s.any p = s'.any p := by
  induction h with
  | nil => rfl
  | mark _ _ ih => rw [List.any_cons, List.any_cons, ih]
  | kept _ _ ih => rw [List.any_append, List.any_append, ih]
  | changed hw _ ih => rw [List.any_append, List.any_append, ih, hp hw.old, hp hw.new]

/-- Texts can be continued after a mark that is neither a quote nor a brace. -/
theorem append (h : Reworded ν site s s') (hc : mayBeNameChar c = false)
    (hquote : isQuote c = false) (hbrace : c ≠ '{')
    (ht : ∀ site, Reworded ν site (c :: t) (c :: t')) :
    Reworded ν site (s ++ c :: t) (s' ++ c :: t') := by
  have hfollows (s : List Char) : Follows s (s ++ c :: t) := by
    intro d hd
    cases s with
    | nil =>
      cases hd
      exact .inr ⟨hc, hquote, hbrace⟩
    | cons e s => exact .inl hd
  induction h with
  | nil => exact ht _
  | mark hd _ ih => exact .mark hd ih
  | @kept site w s s' hw _ ih =>
    rw [List.append_assoc, List.append_assoc]
    exact .kept (hw.before (hfollows s)) ih
  | @changed site w w' s s' hw _ ih =>
    rw [List.append_assoc, List.append_assoc]
    exact .changed (hw.before (hfollows s)) ih

end Reworded

end Restyle.Syntax
