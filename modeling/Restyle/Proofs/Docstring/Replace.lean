import Restyle.Docstring.Apply
import Restyle.Proofs.Attempt
import Restyle.Proofs.Pattern
import Restyle.Proofs.Template

/-!
How the text of a source changes when its docstrings are formatted. Every step replaces, in one
place, a docstring that stands between triple quotes, and keeps the quotes, the blanks next to
them and all the rest of the text.
-/

namespace Restyle

namespace Docstring

variable {content new source : List Char}

/-- What formatting one docstring does: nothing, or the docstring is replaced and the change is
told. -/
theorem formatOne_cases {state after : List Char × List String} {doc : Nat × List Char}
    (h : formatOne state doc = .ok after) :
    format doc.2 = doc.2 ∧ after = state ∨
      format doc.2 ≠ doc.2 ∧ ∃ text, replaceContent state.1 doc.2 (format doc.2) = .ok text ∧
        after = (text, state.2 ++ [describe doc.2 (format doc.2) doc.1]) := by
  unfold formatOne at h
  dsimp only at h
  split at h
  case isTrue hsame =>
    cases h
    exact .inl ⟨hsame, rfl⟩
  case isFalse hother =>
    obtain ⟨text, htext, hafter⟩ := Except.bind_eq_ok.mp h
    cases hafter
    exact .inr ⟨hother, text, htext, rfl⟩

/-! ### Replacing in one place -/

def quoteMarks : List (List Char) := [doubleQuotes, singleQuotes]

/-- A text in which a content between triple quotes is replaced in one place. -/
structure Splice (source text old new : List Char) where
  quotes : List Char
  mem : quotes ∈ quoteMarks
  before : List Char
  left : List Char
  right : List Char
  after : List Char
  left_blank : left.all Text.isBlank = true
  right_blank : right.all Text.isBlank = true
  source_eq : source = before ++ quotes ++ left ++ old ++ right ++ quotes ++ after
  text_eq : text = before ++ quotes ++ left ++ new ++ right ++ quotes ++ after

/-- Where a docstring is found in a text: the first match of the first form that has one. -/
def found? (source content : List Char) : Option Pattern.Match :=
  (patterns content).findSome? (·.find? source)

theorem found?_eq {p : Pattern}
    (h : (patterns content).find? (fun p => (p.find? source).isSome) = some p) :
    found? source content = p.find? source := by
  unfold found?
  generalize patterns content = forms at h ⊢
  induction forms with
  | nil => cases h
  | cons form forms ih =>
    rw [List.find?_cons] at h
    rw [List.findSome?_cons]
    cases hform : form.find? source with
    | none =>
      rw [hform] at h
      exact ih h
    | some m =>
      rw [hform] at h
      cases h
      exact hform.symm

theorem found?_eq_none_iff : found? source content = none ↔
    (patterns content).find? (fun p => (p.find? source).isSome) = none := by
  rw [found?, List.findSome?_eq_none_iff, List.find?_eq_none]
  simp only [Option.not_isSome_iff_eq_none]

theorem exists_of_mem_patterns {p : Pattern} (h : p ∈ patterns content) :
    ∃ quotes ∈ quoteMarks, ∃ blanks, p = quotedPattern quotes blanks content := by
  simp only [patterns, List.mem_cons, List.not_mem_nil, or_false] at h
  simp only [quoteMarks, List.mem_cons, List.not_mem_nil, or_false]
  grind

/-- A content that stands for itself in a replacement. -/
def Literal (new : List Char) : Prop := '\\' ∉ new ∧ ∀ c, new.head? = some c → c.isDigit = false

theorem mem_ends_quoted {quotes : List Char} {blanks : Bool} {p q : Pattern.Place}
    {g : Pattern.Groups} : (q, g) ∈ (quotedPattern quotes blanks content).ends p [] ↔
      ∃ left right, left.all Text.isBlank = true ∧ right.all Text.isBlank = true ∧
        (blanks = false → left = [] ∧ right = []) ∧
        Pattern.Passes p (quotes ++ left ++ content ++ (right ++ quotes)) q ∧
        g = [(2, right ++ quotes), (1, quotes ++ left)] := by
  have hquotes := Pattern.takes_literal quotes
  have hblanks := (Pattern.takes_char .blank).many
  cases blanks with
  | false =>
    refine (hquotes.mem_ends_around hquotes).trans ⟨?_, ?_⟩
    · rintro ⟨_, _, rfl, rfl, hpass, rfl⟩
      exact ⟨[], [], rfl, rfl, by simp, by simpa using hpass, by simp⟩
    · rintro ⟨left, right, -, -, hnone, hpass, rfl⟩
      obtain ⟨rfl, rfl⟩ := hnone rfl
      exact ⟨_, _, rfl, rfl, by simpa using hpass, by simp⟩
  | true =>
    refine ((hquotes.seq hblanks).mem_ends_around (hblanks.seq hquotes)).trans ⟨?_, ?_⟩
    · rintro ⟨_, _, ⟨_, left, rfl, hleft, rfl⟩, ⟨right, _, hright, rfl, rfl⟩, hpass, rfl⟩
      exact ⟨left, right, hleft, hright, by simp, hpass, rfl⟩
    · rintro ⟨left, right, hleft, hright, -, hpass, rfl⟩
      exact ⟨_, _, ⟨_, left, rfl, hleft, rfl⟩, ⟨right, _, hright, rfl, rfl⟩, hpass, rfl⟩

/-! ### The replacement as a template -/

section Template

open Template

/-- The characters of a content, and the reference after it. -/
theorem piecesFrom_content (new : List Char) (place : Nat) :
    piecesFrom 2 (new.length + 2) ⟨place, new.map Template.Unit.plain ++ [.escaped '2'], false⟩ =
      .ok (new.map (fun c => .text [c]) ++ [.group 2]) := by
  induction new generalizing place with
  | nil => rfl
  | cons c new ih => exact piecesFrom_plain (ih (place + 1))

theorem parse_replacement_eq (h : '\\' ∉ new) :
    Template.parse 2 (replacement new) = piecesFrom 2 (new.length + 2 + 1)
      ⟨0, .escaped '1' :: (new.map Template.Unit.plain ++ [.escaped '2']), false⟩ := by
  have hunits : units (replacement new) =
      (.escaped '1' :: (new.map Template.Unit.plain ++ [.escaped '2']), false) := by
    change units ('\\' :: '1' :: (new ++ ['\\', '2'])) = _
    rw [units, units_append h _]
    rfl
  have hlength : (Template.Unit.escaped '1' ::
      (new.map Template.Unit.plain ++ [.escaped '2'])).length + 1 = new.length + 2 + 1 := by
    simp
  unfold Template.parse
  rw [hunits]
  dsimp only
  rw [hlength]
  rfl

/-- A content that stands for itself stays between the two groups. -/
theorem parse_replacement (h : Literal new) :
    Template.parse 2 (replacement new) =
      .ok (.group 1 :: (new.map (fun c => .text [c]) ++ [.group 2])) := by
  have hdigit : Reader.plainIf ⟨2, new.map Template.Unit.plain ++ [.escaped '2'], false⟩
      Char.isDigit = none := by
    cases new with
    | nil => rfl
    | cons c new => simp [Reader.plainIf, h.2 c rfl]
  rw [parse_replacement_eq h.1]
  exact piecesFrom_escaped (escapePiece_one Nat.two_pos hdigit) (piecesFrom_content new 2)

theorem groupCount_quotedPattern (quotes content : List Char) (blanks : Bool) :
    (quotedPattern quotes blanks content).groupCount = 2 := by
  have hliteral (s : List Char) : (Pattern.literal s).groupCount = 0 := by
    induction s with
    | nil => rfl
    | cons c s ih => exact (Nat.zero_add _).trans ih
  cases blanks with
  | false =>
    change (Pattern.literal quotes).groupCount + 1 + (Pattern.literal content).groupCount +
      ((Pattern.literal quotes).groupCount + 1) = 2
    rw [hliteral, hliteral]
  | true =>
    change (Pattern.literal quotes).groupCount + 0 + 1 + (Pattern.literal content).groupCount +
      (0 + (Pattern.literal quotes).groupCount + 1) = 2
    rw [hliteral, hliteral]

theorem expand_replacement (new a b : List Char) (m : Pattern.Match)
    (h : m.groups = [(2, b), (1, a)]) :
    Template.expand (.group 1 :: (new.map (fun c => .text [c]) ++ [.group 2])) m =
      a ++ new ++ b := by
  have hnew : Template.expand (new.map fun c => Piece.text [c]) m = new := by
    unfold Template.expand
    rw [List.flatMap_map]
    exact List.flatMap_singleton' new
  have hone : m.group 1 = a := by
    rw [Pattern.Match.group, h]
    rfl
  have htwo : m.group 2 = b := by
    rw [Pattern.Match.group, h]
    rfl
  unfold Template.expand at hnew ⊢
  rw [List.flatMap_cons, List.flatMap_append, hnew, List.flatMap_cons, List.flatMap_nil]
  dsimp only
  rw [hone, htwo, List.append_nil, List.append_assoc]

end Template

/-! ### One docstring -/

variable {old : List Char}

theorem replaceContent_of_none (h : found? source old = none) :
    replaceContent source old new = .ok source := by
  rw [replaceContent, found?_eq_none_iff.mp h]

/-- A docstring that is found gives way, between its triple quotes, to a content that stands for
itself. -/
theorem exists_splice {m : Pattern.Match} (hnew : Literal new) (h : found? source old = some m) :
    ∃ (text : List Char) (splice : Splice source text old new),
      replaceContent source old new = .ok text ∧ m.skipped = splice.before ∧
      m.text = splice.quotes ++ splice.left ++ old ++ splice.right ++ splice.quotes := by
  cases hp : (patterns old).find? fun p => (p.find? source).isSome with
  | none =>
    rw [found?_eq_none_iff.mpr hp] at h
    cases h
  | some p =>
    obtain ⟨quotes, hquotes, blanks, rfl⟩ :=
      exists_of_mem_patterns (List.mem_of_find?_eq_some hp)
    rw [found?_eq hp] at h
    have htemplate := parse_replacement hnew
    obtain ⟨passed, rest, q, hsource, hfound, hreplaced⟩ :=
      Pattern.exists_replaceFirst (by rw [groupCount_quotedPattern]; exact htemplate) h
    obtain ⟨left, right, hleft, hright, -, hpass, hgroups⟩ := mem_ends_quoted.mp hfound.mem
    rw [expand_replacement new _ _ m hgroups] at hreplaced
    refine ⟨passed ++ quotes ++ left ++ new ++ right ++ quotes ++ q.rest,
      ⟨quotes, hquotes, passed, left, right, q.rest, hleft, hright, ?_, rfl⟩, ?_,
      hfound.skipped, ?_⟩
    · rw [hsource, show rest = _ from hpass.1]
      simp only [List.append_assoc]
    · rw [replaceContent, hp]
      dsimp only
      rw [hreplaced]
      simp only [List.append_assoc]
    · rw [hfound.text, hpass.upTo]
      simp only [List.append_assoc]

/-! ### Where the new content stands -/

/-- A content stands in a text between triple quotes, with nothing but blanks next to it. -/
def Stands (source content : List Char) : Prop :=
  ∃ quotes ∈ quoteMarks, ∃ before left right after, left.all Text.isBlank = true ∧
    right.all Text.isBlank = true ∧
    source = before ++ quotes ++ left ++ content ++ right ++ quotes ++ after

/-- A content stands in a text directly between double quotes. -/
def StandsDirectly (source content before after : List Char) : Prop :=
  source = before ++ doubleQuotes ++ content ++ doubleQuotes ++ after

/-- A form is found where it stands, or before. -/
theorem exists_search_quoted (blanks : Bool) {quotes before left right after : List Char}
    (hleft : left.all Text.isBlank = true) (hright : right.all Text.isBlank = true)
    (hnone : blanks = false → left = [] ∧ right = [])
    (h : source = before ++ quotes ++ left ++ old ++ right ++ quotes ++ after) :
    ∃ m r, (quotedPattern quotes blanks old).search false [] [] source = some (m, r) ∧
      m.skipped.length ≤ before.length := by
  have hpass : Pattern.Passes
      ⟨before.reverse ++ [], quotes ++ left ++ old ++ (right ++ quotes) ++ after⟩
      (quotes ++ left ++ old ++ (right ++ quotes)) ⟨_, after⟩ := ⟨rfl, rfl⟩
  obtain ⟨m, r, hsearch, hle⟩ := Pattern.exists_search
    (mem_ends_quoted.mpr ⟨left, right, hleft, hright, hnone, hpass, rfl⟩) []
  refine ⟨m, r, ?_, by simpa using hle⟩
  rw [h, ← hsearch]
  simp only [List.append_assoc]

theorem Splice.stands {text : List Char} (splice : Splice source text old new) :
    Stands source old :=
  ⟨_, splice.mem, _, _, _, _, splice.left_blank, splice.right_blank, splice.source_eq⟩

/-- A match with nothing but double quotes around the content. -/
theorem Splice.eq_of_direct {text : List Char} (splice : Splice source text old new)
    (h : splice.quotes ++ splice.left ++ old ++ splice.right ++ splice.quotes =
      doubleQuotes ++ old ++ doubleQuotes) :
    splice.quotes = doubleQuotes ∧ splice.left = [] ∧ splice.right = [] := by
  have hlength : splice.quotes.length = doubleQuotes.length :=
    (by decide : ∀ quotes ∈ quoteMarks, quotes.length = 3) _ splice.mem
  simp only [List.append_assoc] at h
  have hnone := congrArg List.length h
  simp only [List.length_append, hlength] at hnone
  exact ⟨(List.append_inj h hlength).1, List.length_eq_zero_iff.mp (by omega),
    List.length_eq_zero_iff.mp (by omega)⟩

theorem Stands.exists_found (h : Stands source old) : ∃ m, found? source old = some m := by
  obtain ⟨quotes, hquotes, before, left, right, after, hleft, hright, hsource⟩ := h
  obtain ⟨m, r, hsearch, -⟩ := exists_search_quoted true hleft hright (by simp) hsource
  have hform : quotedPattern quotes true old ∈ patterns old := by
    simp only [quoteMarks, List.mem_cons, List.not_mem_nil, or_false] at hquotes
    rcases hquotes with rfl | rfl <;> simp [patterns]
  refine Option.ne_none_iff_exists'.mp fun hnone => ?_
  simpa [Pattern.find?, hsearch] using List.findSome?_eq_none_iff.mp hnone _ hform

theorem StandsDirectly.exists_found {u v : List Char} (h : StandsDirectly source old u v) :
    ∃ m, found? source old = some m ∧ m.text = doubleQuotes ++ old ++ doubleQuotes ∧
      m.skipped.length ≤ u.length := by
  have hsource : source = u ++ doubleQuotes ++ [] ++ old ++ [] ++ doubleQuotes ++ v := by
    simpa [StandsDirectly] using h
  obtain ⟨m, r, hsearch, hle⟩ := exists_search_quoted false rfl rfl (by simp) hsource
  obtain ⟨passed, rest, -, hfound⟩ := Pattern.exists_found hsearch
  obtain ⟨left, right, -, -, hnone, hpass, -⟩ := mem_ends_quoted.mp hfound.mem
  obtain ⟨rfl, rfl⟩ := hnone rfl
  refine ⟨m, ?_, by rw [hfound.text, hpass.upTo]; simp, hle⟩
  rw [found?, patterns, List.findSome?_cons, Pattern.find?, hsearch]
  rfl

/-- Replacing a docstring by a content that stands for itself is one splice. -/
theorem replaceContent_spliced (hnew : Literal new) :
    ∃ text, replaceContent source old new = .ok text ∧ (¬ Stands source old → text = source) ∧
      (Stands source old → Nonempty (Splice source text old new)) ∧
      ∀ u v, StandsDirectly source old u v → ∃ before after,
        StandsDirectly source old before after ∧ (∀ u v, StandsDirectly source old u v →
          before.length ≤ u.length) ∧ StandsDirectly text new before after := by
  cases hfound : found? source old with
  | none =>
    refine ⟨source, replaceContent_of_none hfound, fun _ => rfl, fun h => ?_, fun u v h => ?_⟩
    · simpa [hfound] using h.exists_found
    · simpa [hfound] using h.exists_found
  | some m =>
    obtain ⟨text, splice, htext, hskipped, hmatch⟩ := exists_splice hnew hfound
    refine ⟨text, htext, fun h => absurd splice.stands h, fun _ => ⟨splice⟩, fun u v h => ?_⟩
    obtain ⟨m', hm', hdirect, -⟩ := h.exists_found
    obtain rfl := Option.some.inj (hfound.symm.trans hm')
    obtain ⟨hquotes, hleft, hright⟩ := splice.eq_of_direct (hmatch.symm.trans hdirect)
    have hsource := splice.source_eq
    have hreplaced := splice.text_eq
    rw [hquotes, hleft, hright, List.append_nil, List.append_nil] at hsource hreplaced
    refine ⟨splice.before, splice.after, hsource, fun u v h => ?_, hreplaced⟩
    obtain ⟨m', hm', -, hle⟩ := h.exists_found
    rw [hfound, Option.some_inj] at hm'
    rwa [← hskipped, hm']

def roomy : List Char := "x = ''' a '''".toList

theorem replaceContent_spliced_sample : ∃ text, replaceContent roomy ['a'] ['b'] = .ok text ∧
    Nonempty (Splice roomy text ['a'] ['b']) := by
  obtain ⟨text, htext, -, hsplice, -⟩ :=
    replaceContent_spliced (⟨by decide, by simp⟩ : Literal ['b'])
  exact ⟨text, htext, hsplice
    ⟨singleQuotes, by decide, "x = ".toList, [' '], [' '], [], rfl, rfl, rfl⟩⟩

end Docstring

end Restyle
