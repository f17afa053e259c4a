import Restyle.Proofs.Docstring.InPlace
import Restyle.Syntax.Dialect

/-!
The string constants of a source whose docstrings are formatted. As long as every docstring is found
in the literal of a docstring, the other constants stay as they are, and the text stays a source. A
docstring may be found elsewhere, though: it is looked for in the text from the start, so a constant
with the same content that stands before it changes in its stead.
-/

namespace Restyle.Docstring

open Syntax

/-! ### Constants that are no docstrings -/

def textOf? : Label → Option String
  | .constant (.string s) => some s
  | _ => none

def isTextStmt (t : Tree) : Bool :=
  t.label == .exprStmt && (t.part? .value).any fun v => (textOf? v.label).isSome

mutual

/-- The string constants that are no docstrings, in the order of the tree. -/
def otherConstants : Tree → List Tree
  | .node label role span children =>
    (if (textOf? label).isSome then [.node label role span children] else []) ++
      otherConstantsIn (hasDocstring label) children

/-- The same for the children of a node. The first statement of a body may be a docstring, if
`first` says so. -/
def otherConstantsIn (first : Bool) : List Tree → List Tree
  | [] => []
  | t :: ts =>
    if first && t.role == .body then
      (if isTextStmt t then [] else otherConstants t) ++ otherConstantsIn false ts
    else otherConstants t ++ otherConstantsIn first ts

end

def texts (ts : List Tree) : List String := ts.filterMap (textOf? ·.label)

theorem texts_append (ts us : List Tree) : texts (ts ++ us) = texts ts ++ texts us :=
  List.filterMap_append

theorem texts_singleton (t : Tree) : texts [t] = (textOf? t.label).toList := by
  rw [texts, List.filterMap_cons]
  cases textOf? t.label <;> rfl

def otherStrings (t : Tree) : List String := texts (otherConstants t)

section Alike

variable {F : Places} {free : Prop} {l l' : Label}

theorem hasDocstring_eq (h : LabelLike .same free l l') : hasDocstring l = hasDocstring l' := by
  cases h <;> rfl

theorem isSome_textOf?_eq (h : LabelLike .same free l l') :
    (textOf? l).isSome = (textOf? l').isSome := by
  cases h <;> rfl

theorem textOf?_eq (h : LabelLike .same free l l') (hfree : ¬ free) : textOf? l = textOf? l' := by
  cases h with
  | changed h => exact absurd (h.resolve_right (absurd rfl)) hfree
  | _ => rfl

theorem eq_exprStmt_iff (h : LabelLike .same free l l') : l = .exprStmt ↔ l' = .exprStmt := by
  cases h <;> simp

theorem role_eq {t t' : Tree} (h : TreeLike .same F t t') : t.role = t'.role := by
  cases h
  rfl

theorem isTextStmt_eq {t t' : Tree} (h : TreeLike .same F t t') : isTextStmt t = isTextStmt t' := by
  have hlabel : (t.label == .exprStmt) = (t'.label == .exprStmt) := by
    rw [Bool.eq_iff_iff, beq_iff_eq, beq_iff_eq]
    exact eq_exprStmt_iff h.label
  have hvalue : Option.Rel (TreeLike .same F) (t.part? .value) (t'.part? .value) := by
    cases h with
    | node _ _ hcs =>
      exact rel_find? hcs fun a b h => congrArg (· == Role.value) (role_eq h)
  unfold isTextStmt
  rw [hlabel]
  generalize t.part? .value = v at hvalue ⊢
  generalize t'.part? .value = v' at hvalue ⊢
  cases hvalue with
  | none => rfl
  | some hv => rw [Option.any_some, Option.any_some, isSome_textOf?_eq hv.label]

def Apart (F : Places) (ts : List Tree) : Prop := ∀ v ∈ ts, ¬ F v.span.line v.span.column

theorem Apart.append {ts us : List Tree} (h : Apart F (ts ++ us)) : Apart F ts ∧ Apart F us :=
  List.forall_mem_append.mp h

mutual

theorem texts_otherConstants : ∀ t t' : Tree, TreeLike .same F t t' → Apart F (otherConstants t) →
    texts (otherConstants t) = texts (otherConstants t')
  | .node l r s cs, .node l' _ s' cs', h, hapart => by
    cases h with
    | node _ hl hcs =>
      rw [otherConstants] at hapart ⊢
      obtain ⟨hown, hbelow⟩ := hapart.append
      have hrest := texts_otherConstantsIn (hasDocstring l) cs cs' hcs hbelow
      rw [otherConstants, texts_append, texts_append, hrest, ← hasDocstring_eq hl,
        ← isSome_textOf?_eq hl]
      split
      case isTrue htext =>
        rw [if_pos htext] at hown
        have hsame := textOf?_eq hl (hown _ List.mem_cons_self)
        rw [texts_singleton, texts_singleton]
        exact congrArg (·.toList ++ _) hsame
      case isFalse => rfl

theorem texts_otherConstantsIn : ∀ (first : Bool) (ts ts' : List Tree), TreesLike .same F ts ts' →
    Apart F (otherConstantsIn first ts) →
    texts (otherConstantsIn first ts) = texts (otherConstantsIn first ts')
  | _, [], [], _, _ => rfl
  | first, t :: ts, t' :: ts', h, hapart => by
    obtain ⟨ht, hts⟩ := List.forall₂_cons.mp h
    rw [otherConstantsIn] at hapart ⊢
    rw [otherConstantsIn, ← role_eq ht, ← isTextStmt_eq ht]
    split
    case isTrue hbody =>
      rw [if_pos hbody] at hapart
      obtain ⟨hfirst, hrest⟩ := hapart.append
      rw [texts_append, texts_append, texts_otherConstantsIn false ts ts' hts hrest]
      split
      case isTrue => rfl
      case isFalse hstmt =>
        rw [if_neg hstmt] at hfirst
        rw [texts_otherConstants t t' ht hfirst]
    case isFalse hbody =>
      rw [if_neg hbody] at hapart
      obtain ⟨hfirst, hrest⟩ := hapart.append
      rw [texts_append, texts_append, texts_otherConstantsIn first ts ts' hts hrest,
        texts_otherConstants t t' ht hfirst]

end

end Alike

/-! ### Formatting in place -/

/-- Whether the form of a docstring stands for itself when it is put into the text. -/
def isPlain (content : List Char) : Bool :=
  !content.contains '\\' && (format content).head?.all (!·.isDigit)

theorem literal_of_isPlain {content : List Char} (h : isPlain content = true) :
    '\\' ∉ content ∧ Literal (format content) := by
  rw [isPlain, Bool.and_eq_true] at h
  have hbackslash : '\\' ∉ content := by simpa using h.1
  refine ⟨hbackslash, backslash_notMem_format hbackslash, fun c hc => ?_⟩
  simpa [hc] using h.2

/-- Whether a match is the literal of a token, after a mark. -/
def isLiteralOf (m : Pattern.Match) (tok : Token) (mark : List Char) : Bool :=
  match m.skipped.dropSuffix? mark, tok.kind with
  | some before, .string literal =>
    tok.place == placeAfter (Text.unifyNewlines before) &&
      quoteMarks.any fun quotes => Text.unifyNewlines m.text == quotes ++ literal.body ++ quotes
  | _, _ => false

/-- Whether a match is a literal of its own, which is no other constant than a docstring. -/
def isInDocstring [Dialect] (source : List Char) (m : Pattern.Match) : Bool :=
  match tokens source, parse? source with
  | some toks, some t =>
    toks.any fun tok =>
      plainMarks.any (isLiteralOf m tok) &&
      decide (Standalone (fun line column => (line, column) = tok.place) toks) &&
      (otherConstants t).all fun v => (v.span.line, v.span.column) != tok.place
  | _, _ => false

/-- Whether every docstring in its turn is found in the literal of a docstring, if it is found. -/
def isInPlace [Dialect] : List (Nat × List Char) → List Char → Bool
  | [], _ => true
  | doc :: docs, source =>
    if format doc.2 = doc.2 then isInPlace docs source
    else (found? source doc.2).all (isInDocstring source) &&
      (replaceContent source doc.2 (format doc.2)).toOption.all (isInPlace docs)

theorem exists_ownToken_of_isLiteralOf {source mark : List Char} {m : Pattern.Match}
    {toks : List Token} {tok : Token} (htoks : tokens source = some toks) (hmem : tok ∈ toks)
    (hmark : mark ∈ plainMarks) (h : isLiteralOf m tok mark = true)
    (halone : Standalone (fun line column => (line, column) = tok.place) toks) :
    ∃ own : OwnToken source m, own.token = tok := by
  unfold isLiteralOf at h
  split at h
  case h_2 => cases h
  case h_1 before literal hbefore hkind =>
    rw [Bool.and_eq_true, beq_iff_eq, List.any_eq_true] at h
    obtain ⟨hplace, quotes, hquotes, htext⟩ := h
    obtain ⟨mark', hskipped, hsame⟩ := List.dropSuffix?_eq_some_iff.mp hbefore
    rw [beq_iff_eq] at hsame htext
    subst hsame
    exact ⟨⟨toks, htoks, tok, hmem, literal, hkind, before, mark', hmark, hskipped, hplace,
      quotes, hquotes, htext, halone⟩, rfl⟩

theorem exists_ownToken [Dialect] {source : List Char} {m : Pattern.Match} {t : Tree}
    (ht : parse? source = some t) (h : isInDocstring source m = true) :
    ∃ own : OwnToken source m, Apart own.places (otherConstants t) := by
  unfold isInDocstring at h
  split at h
  case h_2 => cases h
  case h_1 toks u htoks hu =>
    obtain rfl := Option.some.inj (ht.symm.trans hu)
    obtain ⟨tok, hmem, htok⟩ := List.any_eq_true.mp h
    simp only [Bool.and_eq_true, decide_eq_true_eq] at htok
    obtain ⟨⟨hliteral, halone⟩, hconstants⟩ := htok
    obtain ⟨mark, hmark, hliteral⟩ := List.any_eq_true.mp hliteral
    obtain ⟨own, rfl⟩ := exists_ownToken_of_isLiteralOf htoks hmem hmark hliteral halone
    refine ⟨own, fun v hv hplace => ?_⟩
    have hother := List.all_eq_true.mp hconstants v hv
    rw [bne_iff_ne] at hother
    exact hother hplace

/-- A docstring that is formatted in place leaves the other constants as they are. -/
theorem otherStrings_replaceContent [Dialect] {source text old : List Char} {t : Tree}
    (ht : parse? source = some t) (hplain : isPlain old = true)
    (hfound : (found? source old).all (isInDocstring source) = true)
    (h : replaceContent source old (format old) = .ok text) :
    ∃ t', parse? text = some t' ∧ otherStrings t' = otherStrings t := by
  obtain ⟨hbackslash, hliteral⟩ := literal_of_isPlain hplain
  cases hm : found? source old with
  | none =>
    cases (replaceContent_of_none hm).symm.trans h
    exact ⟨t, ht, rfl⟩
  | some m =>
    obtain ⟨text', splice, htext, hskipped, hmatch⟩ := exists_splice hliteral hm
    cases htext.symm.trans h
    rw [hm] at hfound
    obtain ⟨own, hapart⟩ := exists_ownToken ht hfound
    obtain ⟨t', ht', halike⟩ := exists_tree_of_splice ht own splice hskipped hmatch hbackslash
    exact ⟨t', ht', (texts_otherConstants t t' halike hapart).symm⟩

theorem otherStrings_foldlM [Dialect] {docs : List (Nat × List Char)}
    {state after : List Char × List String}
    {t : Tree} (ht : parse? state.1 = some t) (hplain : ∀ doc ∈ docs, isPlain doc.2 = true)
    (hplace : isInPlace docs state.1 = true) (h : docs.foldlM formatOne state = .ok after) :
    ∃ t', parse? after.1 = some t' ∧ otherStrings t' = otherStrings t := by
  induction docs generalizing state t with
  | nil =>
    cases h
    exact ⟨t, ht, rfl⟩
  | cons doc docs ih =>
    rw [List.foldlM_cons] at h
    obtain ⟨next, hnext, hrest⟩ := Except.bind_eq_ok.mp h
    have hplains := fun d hd => hplain d (List.mem_cons_of_mem doc hd)
    rw [isInPlace] at hplace
    rcases formatOne_cases hnext with ⟨hsame, rfl⟩ | ⟨hother, text, htext, rfl⟩
    · rw [if_pos hsame] at hplace
      exact ih ht hplains hplace hrest
    · rw [if_neg hother, htext, Bool.and_eq_true] at hplace
      obtain ⟨t', ht', hstrings⟩ :=
        otherStrings_replaceContent ht (hplain doc List.mem_cons_self) hplace.1 htext
      have hlater : isInPlace docs text = true := hplace.2
      obtain ⟨t'', ht'', hstrings'⟩ := ih ht' hplains hlater hrest
      exact ⟨t'', ht'', hstrings'.trans hstrings⟩

/-- If every docstring is found in place, formatting the docstrings of a source gives a source
again, with the same string constants but for the docstrings. -/
theorem otherStrings_of_apply [Dialect] {source text : List Char} {told : List String} {t : Tree}
    (ht : parse? source = some t) (hplain : ∀ doc ∈ all t, isPlain doc.2 = true)
    (hplace : isInPlace (all t) source = true) (h : apply source = .ok (some (text, told))) :
    ∃ t', parse? text = some t' ∧ otherStrings t' = otherStrings t := by
  unfold apply at h
  rw [ht] at h
  obtain ⟨after, hfold, hafter⟩ := Except.bind_eq_ok.mp h
  have hsome : (if after.1 = source then none else some after) = some (text, told) :=
    Except.ok.inj hafter
  rw [Option.ite_none_left_eq_some] at hsome
  obtain rfl := Option.some.inj hsome.2
  exact otherStrings_foldlM ht hplain hplace hfold

def sharedText : List Char :=
  ("def f():\n    \"\"\"hello\"\"\"\n    return \"\"\"hello\"\"\"\n\n\n" ++
    "class A:\n    r''' more '''\n").toList

theorem otherStrings_of_apply_sample :
    ∃ t text told, parse? sharedText = some t ∧ (∀ doc ∈ all t, isPlain doc.2 = true) ∧
      isInPlace (all t) sharedText = true ∧ apply sharedText = .ok (some (text, told)) ∧
      ∃ t', parse? text = some t' ∧ otherStrings t' = otherStrings t := by
  have hcheck : (parse? sharedText).any (fun t => (all t).all (fun doc => isPlain doc.2) &&
      isInPlace (all t) sharedText) = true := by
    decide +kernel
  obtain ⟨t, ht, hboth⟩ := (Option.any_eq_true _ _).mp hcheck
  rw [Bool.and_eq_true, List.all_eq_true] at hboth
  have happly : (apply sharedText).toOption.join.isSome = true := by decide +kernel
  cases hresult : apply sharedText with
  | error f =>
    rw [hresult] at happly
    cases happly
  | ok formatted =>
    cases formatted with
    | none =>
      rw [hresult] at happly
      cases happly
    | some r =>
      exact ⟨t, r.1, r.2, ht, hboth.1, hboth.2, rfl,
        otherStrings_of_apply ht hboth.1 hboth.2 hresult⟩

def doubledText : List Char := "x = \"\"\"hello\"\"\"\n\n\ndef f():\n    \"\"\"hello\"\"\"\n".toList

/-- The constant changes, and the docstring does not. -/
theorem constant_in_docstrings_stead :
    (parse? doubledText).map otherStrings = some ["hello"] ∧
      ∃ text told, (apply doubledText).toOption = some (some (text, told)) ∧
        (parse? text).map otherStrings = some ["Hello."] := by
  refine ⟨by decide +kernel, "x = \"\"\"Hello.\"\"\"\n\n\ndef f():\n    \"\"\"hello\"\"\"\n".toList,
    ["Formatted docstring at line 5: capitalized first letter and added period"], ?_, ?_⟩
  · decide +kernel
  · decide +kernel

end Restyle.Docstring
