import Restyle.Proofs.Docstring.Constants

/-!
When the docstrings of a source can be formatted, and when the result is a source again. The form of
a docstring is read as a template after the reference to the opening quotes, so digits at its start
belong to that reference: there is no group of that number, or the digits make it the code of a
character and the quotes are lost. A docstring is looked for by its content besides, and may be
found between two literals.
-/

namespace Restyle.Docstring

open Syntax (Tree tokens parse? plainMarks Standalone)

/-! ### Forms that are templates -/

/-- Whether the form of a docstring can be put into a text. -/
def isTemplate (new : List Char) : Bool := (Template.parse 2 (replacement new)).toOption.isSome

theorem isTemplate_of_literal {new : List Char} (h : Literal new) : isTemplate new = true := by
  rw [isTemplate, parse_replacement h]
  rfl

section Digits

open Template (isOctal piecesFrom)

variable {a b : Char} {rest : List Char}

/-- After the reference to the opening quotes nothing is wrong, wherever the reader stops. -/
theorem exists_piecesFrom_content (new : List Char) (fuel place : Nat) :
    ∃ pieces, piecesFrom 2 fuel ⟨place, new.map Template.Unit.plain ++ [.escaped '2'], false⟩ =
      .ok pieces := by
  induction new generalizing fuel place with
  | nil =>
    cases fuel with
    | zero => exact ⟨[], rfl⟩
    | succ fuel => cases fuel with
      | zero => exact ⟨[.group 2], rfl⟩
      | succ fuel => exact ⟨[.group 2], rfl⟩
  | cons c new ih =>
    cases fuel with
    | zero => exact ⟨[], rfl⟩
    | succ fuel =>
      obtain ⟨pieces, hpieces⟩ := ih fuel (place + 1)
      exact ⟨_, Template.piecesFrom_plain hpieces⟩

theorem isTemplate_of_octal (hplain : '\\' ∉ a :: b :: rest) (ha : isOctal a = true)
    (hb : isOctal b = true) : isTemplate (a :: b :: rest) = true := by
  obtain ⟨pieces, hpieces⟩ := exists_piecesFrom_content rest (rest.length + 4) 4
  have hparse := Template.piecesFrom_escaped (Template.escapePiece_octal ha hb 0) hpieces
  rw [isTemplate, parse_replacement_eq hplain]
  exact congrArg (·.toOption.isSome) hparse

theorem not_isTemplate_of_digit (hplain : '\\' ∉ a :: rest) (ha : a.isDigit = true)
    (hnext : isOctal a = true → ∀ b ∈ rest.head?, isOctal b = false) :
    isTemplate (a :: rest) = false := by
  have hother : isOctal a = true → Template.Reader.plainIf
      ⟨3, rest.map Template.Unit.plain ++ [.escaped '2'], false⟩ isOctal = none := by
    intro hoctal
    cases rest with
    | nil => rfl
    | cons b rest =>
      have hb := hnext hoctal b rfl
      exact if_neg (by simp [hb])
  have hescape := Template.escapePiece_number ha hother (by decide : 2 < 10) 0
  rw [isTemplate, parse_replacement_eq hplain]
  exact congrArg (·.toOption.isSome) (Template.piecesFrom_escaped_error hescape)

/-- Without backslashes, a form is a template exactly if it starts with no digit, or with two octal
digits. -/
theorem isTemplate_iff {new : List Char} (h : '\\' ∉ new) :
    isTemplate new = true ↔ (∀ c ∈ new.head?, c.isDigit = false) ∨
      ∃ a b rest, new = a :: b :: rest ∧ isOctal a = true ∧ isOctal b = true := by
  constructor
  · intro htemplate
    by_contra hneither
    push Not at hneither
    obtain ⟨⟨a, ha, hdigit⟩, hoctal⟩ := hneither
    obtain ⟨rest, rfl⟩ : ∃ rest, new = a :: rest := ⟨_, (List.cons_head?_tail ha).symm⟩
    rw [not_isTemplate_of_digit h (by simpa using hdigit) ?_] at htemplate
    · cases htemplate
    · intro hfirst b hb
      obtain ⟨tail, rfl⟩ : ∃ tail, rest = b :: tail := ⟨_, (List.cons_head?_tail hb).symm⟩
      simpa using hoctal a b tail rfl hfirst
  · rintro (hdigit | ⟨a, b, rest, rfl, ha, hb⟩)
    · exact isTemplate_of_literal ⟨h, hdigit⟩
    · exact isTemplate_of_octal h ha hb

end Digits

/-! ### One docstring in its turn -/

section Turn

variable {source old new : List Char}

theorem exists_replaceContent_iff : (∃ text, replaceContent source old new = .ok text) ↔
    ((found? source old).isSome = true → isTemplate new = true) := by
  unfold replaceContent
  split
  case h_1 hnone => simp [found?_eq_none_iff.mpr hnone]
  case h_2 p hp =>
    have hsome : (found? source old).isSome = true := by
      rw [found?_eq hp]
      simpa using List.find?_some hp
    obtain ⟨quotes, -, blanks, rfl⟩ := exists_of_mem_patterns (List.mem_of_find?_eq_some hp)
    rw [Pattern.replaceFirst, groupCount_quotedPattern, isTemplate]
    cases Template.parse 2 (replacement new) with
    | error fault => simp [hsome, bind, Except.bind, Except.toOption]
    | ok template => simp [bind, Except.bind, Except.toOption, pure, Except.pure]

def isOwnLiteral (source : List Char) (m : Pattern.Match) : Bool :=
  (tokens source).any fun toks => toks.any fun tok =>
    plainMarks.any (isLiteralOf m tok) &&
      decide (Standalone (fun line column => (line, column) = tok.place) toks)

theorem nonempty_ownToken {m : Pattern.Match} (h : isOwnLiteral source m = true) :
    Nonempty (OwnToken source m) := by
  obtain ⟨toks, htoks, hany⟩ := (Option.any_eq_true _ _).mp h
  obtain ⟨tok, hmem, htok⟩ := List.any_eq_true.mp hany
  rw [Bool.and_eq_true, decide_eq_true_eq, List.any_eq_true] at htok
  obtain ⟨⟨mark, hmark, hliteral⟩, halone⟩ := htok
  obtain ⟨own, -⟩ := exists_ownToken_of_isLiteralOf htoks hmem hmark hliteral halone
  exact ⟨own⟩

/-- Whether a docstring, if it is found, has a plain form and is found in a literal of its own. -/
def fits (source old : List Char) : Bool :=
  (found? source old).all fun m => isPlain old && isOwnLiteral source m

/-- A docstring that fits can be formatted, and the text stays a source. -/
theorem exists_source_replaceContent [Dialect] {t : Tree} (ht : parse? source = some t)
    (h : fits source old = true) :
    ∃ text t', replaceContent source old (format old) = .ok text ∧ parse? text = some t' := by
  cases hfound : found? source old with
  | none => exact ⟨source, t, replaceContent_of_none hfound, ht⟩
  | some m =>
    rw [fits, hfound, Option.all_some, Bool.and_eq_true] at h
    obtain ⟨hbackslash, hliteral⟩ := literal_of_isPlain h.1
    obtain ⟨text, splice, htext, hskipped, hmatch⟩ := exists_splice hliteral hfound
    obtain ⟨own⟩ := nonempty_ownToken h.2
    obtain ⟨t', ht', -⟩ := exists_tree_of_splice ht own splice hskipped hmatch hbackslash
    exact ⟨text, t', htext, ht'⟩

end Turn

/-! ### All docstrings -/

/-- The docstrings that change, each with the text at its turn, up to the first one that cannot be
put into the text. -/
def turns : List (Nat × List Char) → List Char → List (List Char × List Char)
  | [], _ => []
  | doc :: docs, source =>
    if format doc.2 = doc.2 then turns docs source
    else (source, doc.2) ::
      (replaceContent source doc.2 (format doc.2)).toOption.elim [] (turns docs)

section Steps

variable {doc : Nat × List Char}

theorem formatOne_of_eq (h : format doc.2 = doc.2) (state : List Char × List String) :
    formatOne state doc = .ok state :=
  if_pos h

theorem formatOne_of_ne (h : format doc.2 ≠ doc.2) (state : List Char × List String) :
    formatOne state doc = replaceContent state.1 doc.2 (format doc.2) >>= fun text =>
      pure (text, state.2 ++ [describe doc.2 (format doc.2) doc.1]) :=
  if_neg h

end Steps

theorem exists_foldlM_formatOne_iff (docs : List (Nat × List Char)) (source : List Char)
    (told : List String) :
    (∃ after, docs.foldlM formatOne (source, told) = .ok after) ↔ ∀ turn ∈ turns docs source,
      (found? turn.1 turn.2).isSome = true → isTemplate (format turn.2) = true := by
  induction docs generalizing source told with
  | nil => simp [turns, pure, Except.pure]
  | cons doc docs ih =>
    rw [List.foldlM_cons, turns]
    by_cases hsame : format doc.2 = doc.2
    · rw [formatOne_of_eq hsame, if_pos hsame]
      exact ih source told
    · rw [formatOne_of_ne hsame, if_neg hsame, List.forall_mem_cons, ← exists_replaceContent_iff]
      cases replaceContent source doc.2 (format doc.2) with
      | error fault => simp [bind, Except.bind]
      | ok text => exact (ih text _).trans (and_iff_right ⟨text, rfl⟩).symm

theorem exists_source_foldlM [Dialect] {docs : List (Nat × List Char)} {source : List Char}
    {t : Tree}
    (ht : parse? source = some t) (h : ∀ turn ∈ turns docs source, fits turn.1 turn.2 = true)
    (told : List String) :
    ∃ after t', docs.foldlM formatOne (source, told) = .ok after ∧ parse? after.1 = some t' := by
  induction docs generalizing source t told with
  | nil => exact ⟨(source, told), t, rfl, ht⟩
  | cons doc docs ih =>
    rw [turns] at h
    rw [List.foldlM_cons]
    by_cases hsame : format doc.2 = doc.2
    · rw [if_pos hsame] at h
      rw [formatOne_of_eq hsame]
      exact ih ht h told
    · rw [if_neg hsame, List.forall_mem_cons] at h
      obtain ⟨text, t', htext, ht'⟩ := exists_source_replaceContent ht h.1
      rw [htext] at h
      rw [formatOne_of_ne hsame, htext]
      exact ih ht' h.2 _

theorem apply_eq [Dialect] {source : List Char} {t : Tree} (ht : parse? source = some t) :
    apply source = (all t).foldlM formatOne (source, []) >>= fun after =>
      pure (if after.1 = source then none else some after) := by
  rw [apply, ht]

theorem exists_apply_iff [Dialect] {source : List Char} {t : Tree} (ht : parse? source = some t) :
    (∃ result, apply source = .ok result) ↔ ∀ turn ∈ turns (all t) source,
      (found? turn.1 turn.2).isSome = true → isTemplate (format turn.2) = true := by
  rw [apply_eq ht]
  refine Iff.trans ⟨?_, ?_⟩ (exists_foldlM_formatOne_iff (all t) source [])
  · rintro ⟨result, hresult⟩
    obtain ⟨after, hafter, -⟩ := Except.bind_eq_ok.mp hresult
    exact ⟨after, hafter⟩
  · rintro ⟨after, hafter⟩
    exact ⟨_, Except.bind_eq_ok.mpr ⟨after, hafter, rfl⟩⟩

theorem exists_source_apply [Dialect] {source : List Char} {t : Tree} (ht : parse? source = some t)
    (h : ∀ turn ∈ turns (all t) source, fits turn.1 turn.2 = true) :
    ∃ result, apply source = .ok result ∧
      ∀ text told, result = some (text, told) → ∃ t', parse? text = some t' := by
  obtain ⟨after, t', hafter, ht'⟩ := exists_source_foldlM ht h []
  refine ⟨_, by rw [apply_eq ht, hafter]; rfl, fun text told hsome => ⟨t', ?_⟩⟩
  obtain ⟨-, hsame⟩ := Option.ite_none_left_eq_some.mp hsome
  rw [Option.some.inj hsame] at ht'
  exact ht'

/-- Formatting the docstrings of a source ends with a result exactly if every form that is put into
the text is a template. Without backslashes this depends on the digits at its start. If all the
docstrings fit, there is a result, and a new text is a source again. -/
theorem apply_unbroken [Dialect] {source : List Char} {t : Tree} (ht : parse? source = some t) :
    ((∃ result, apply source = .ok result) ↔ ∀ turn ∈ turns (all t) source,
        (found? turn.1 turn.2).isSome = true → isTemplate (format turn.2) = true) ∧
      (∀ content, '\\' ∉ content → (isTemplate (format content) = true ↔
        (∀ c ∈ (format content).head?, c.isDigit = false) ∨
          ∃ a b rest, format content = a :: b :: rest ∧
            Template.isOctal a = true ∧ Template.isOctal b = true)) ∧
      ((∀ turn ∈ turns (all t) source, fits turn.1 turn.2 = true) →
        ∃ result, apply source = .ok result ∧
          ∀ text told, result = some (text, told) → ∃ t', parse? text = some t') :=
  ⟨exists_apply_iff ht, fun _ h => isTemplate_iff (backslash_notMem_format h),
    exists_source_apply ht⟩

theorem apply_unbroken_sample :
    ∃ t result, parse? sharedText = some t ∧
      (∀ turn ∈ turns (all t) sharedText, fits turn.1 turn.2 = true) ∧
      apply sharedText = .ok result ∧ result.isSome = true ∧
      (∀ text told, result = some (text, told) → ∃ t', parse? text = some t') ∧
      '\\' ∉ "12 items".toList ∧ isTemplate (format "12 items".toList) = true := by
  have hcheck : (parse? sharedText).any (fun t =>
      (turns (all t) sharedText).all fun turn => fits turn.1 turn.2) = true := by
    decide +kernel
  have hsome : (apply sharedText).toOption.join.isSome = true := by decide +kernel
  obtain ⟨t, ht, hall⟩ := (Option.any_eq_true _ _).mp hcheck
  have hfits : ∀ turn ∈ turns (all t) sharedText, fits turn.1 turn.2 = true :=
    List.all_eq_true.mp hall
  obtain ⟨-, htemplate, hsource⟩ := apply_unbroken ht
  obtain ⟨result, hresult, htext⟩ := hsource hfits
  rw [hresult] at hsome
  refine ⟨t, result, ht, hfits, hresult, hsome, htext, by decide, ?_⟩
  exact (htemplate _ (by decide)).mpr (.inr ⟨'1', '2', " items.".toList, by decide +kernel⟩)

def documented (docstring : String) : List Char :=
  ("def f():\n    \"\"\"" ++ docstring ++ "\"\"\"\n").toList

def parted : List Char := "x = \"\"\"a\"\"\"+\"\"\"b\"\"\"\n".toList ++ documented "+"

/-- There is no result for a docstring with a digit at its start. Two digits take the place of the
opening quotes, and the other docstring is replaced between the literals: the texts are no sources
then. -/
theorem docstrings_break_sources :
    (parse? (documented "3 items")).isSome = true ∧
      (∃ fault, apply (documented "3 items") = .error fault) ∧
      ∀ source ∈ [documented "12 items", parted], (parse? source).isSome = true ∧
        ∃ text told, apply source = .ok (some (text, told)) ∧ parse? text = none := by
  have hcheck : [documented "12 items", parted].all (fun source => (parse? source).isSome &&
      (apply source).toOption.any (·.any fun r => (parse? r.1).isNone)) = true := by
    decide +kernel
  refine ⟨by decide +kernel, exists_error_of_isNone (by decide +kernel), fun source hsource => ?_⟩
  have hbroken := List.all_eq_true.mp hcheck source hsource
  rw [Bool.and_eq_true] at hbroken
  obtain ⟨result, hresult, hany⟩ := exists_ok_of_any hbroken.2
  obtain ⟨r, rfl, hnone⟩ := (Option.any_eq_true _ _).mp hany
  exact ⟨hbroken.1, r.1, r.2, hresult, Option.isNone_iff_eq_none.mp hnone⟩

end Restyle.Docstring
