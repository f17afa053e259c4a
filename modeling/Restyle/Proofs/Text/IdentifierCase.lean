import Restyle.Proofs.Text.CodeSet
import Restyle.Text.Identifier

/-!
Case and identifiers. In another case, a character of identifiers gives characters of identifiers
again, and a character that can start an identifier gives a text that starts one. The characters
that only go on in identifiers, such as digits and marks, have no case, except for the iota
subscript, whose capital is a letter. All this lies in the tables and is checked on them once.
-/

namespace Restyle.Text

/-! ### Checking the tables -/

/-- A run of a case table that has no characters of identifiers, or else leads to characters that
start identifiers, and has none that only go on in identifiers, unless they are exempt. -/
def MapRun.Keeps (starts others exempt : Nat) (r : MapRun) : Prop :=
  (r.run.codes &&& starts = 0 ∧ r.run.codes &&& others = 0) ∨
    r.imageRun.codes &&& starts = r.imageRun.codes ∧
      r.run.codes &&& others &&& exempt = r.run.codes &&& others

instance {starts others exempt : Nat} {r : MapRun} : Decidable (r.Keeps starts others exempt) :=
  inferInstanceAs (Decidable (_ ∧ _ ∨ _ ∧ _))

/-- An entry of a case table that leads from the start of an identifier to an identifier. -/
def CodeWord.Keeps (starts others : Nat) (w : CodeWord) : Prop :=
  starts.testBit w.code = true ∧ w.word.head?.any (starts.testBit ·.toNat) = true ∧
    w.word.tail.all (fun c => starts.testBit c.toNat || others.testBit c.toNat) = true

instance {starts others : Nat} {w : CodeWord} : Decidable (w.Keeps starts others) :=
  inferInstanceAs (Decidable (_ ∧ _ ∧ _))

/-- A case table all of whose entries keep identifiers. -/
@[mk_iff]
structure KeepsIdentifiers (starts others exempt : Nat) (runs : List MapRun)
    (words : List CodeWord) : Prop where
  runs : ∀ r ∈ runs, r.Keeps starts others exempt
  words : ∀ w ∈ words, w.Keeps starts others

instance {starts others exempt : Nat} {runs : List MapRun} {words : List CodeWord} :
    Decidable (KeepsIdentifiers starts others exempt runs words) :=
  decidable_of_iff' _ (keepsIdentifiers_iff starts others exempt runs words)

theorem KeepsIdentifiers.mono {starts others exempt : Nat} {runs runs' : List MapRun}
    {words words' : List CodeWord} (h : KeepsIdentifiers starts others exempt runs words)
    (hruns : runs' ⊆ runs) (hwords : words' ⊆ words) :
    KeepsIdentifiers starts others exempt runs' words' :=
  ⟨fun r hr => h.runs r (hruns hr), fun w hw => h.words w (hwords hw)⟩

def asciiCodes : Nat := CodeRun.codes ⟨0, 127, 1⟩

def smallCodes : Nat := CodeRun.codes ⟨97, 122, 1⟩

/-- The code points of the letters in ASCII and those of a table. -/
def startCodes (runs : List CodeRun) : Nat :=
  codesOf (⟨65, 90, 1⟩ :: ⟨97, 122, 1⟩ :: runs)

def iotaSubscript : Char := '\u0345'

/-- What the tables are checked for. The first two are those of the characters of identifiers, and
the others belong to the three cases. -/
@[mk_iff]
structure TablesKeep (starts others : List CodeRun) (lower upper title : List MapRun)
    (lowerWords upperWords titleWords : List CodeWord) : Prop where
  startsBeyond : codesOf starts &&& asciiCodes = 0
  othersBeyond : codesOf others &&& asciiCodes = 0
  lowerKeeps : KeepsIdentifiers (startCodes starts) (codesOf others) 0 lower lowerWords
  upperKeeps : KeepsIdentifiers (startCodes starts) (codesOf others) (2 ^ iotaSubscript.toNat)
    upper upperWords
  titleKeeps : KeepsIdentifiers (startCodes starts) (codesOf others) (2 ^ iotaSubscript.toNat)
    title titleWords
  noSmall : ∀ r ∈ upper, r.imageRun.codes &&& smallCodes = 0
  noSmallWord : ∀ w ∈ upperWords, w.word.any (smallCodes.testBit ·.toNat) = false
  iota : (codesOf others).testBit iotaSubscript.toNat = true
  iotaTitle : ∃ r ∈ title, r.run.contains iotaSubscript.toNat = true ∧ r.isNaming = true
  sigmas : ['Σ', 'σ', 'ς'].all ((startCodes starts).testBit ·.toNat) = true

instance {starts others : List CodeRun} {lower upper title : List MapRun}
    {lowerWords upperWords titleWords : List CodeWord} :
    Decidable (TablesKeep starts others lower upper title lowerWords upperWords titleWords) :=
  decidable_of_iff' _ (tablesKeep_iff ..)

section Lettered

variable {ss os ls us ts lws uws tws : List String}
  {ss' os' ls' us' ts' lws' uws' tws' : List (List Char)}

/-- Tables are checked in the form that is taken apart into characters. -/
theorem tablesKeep_of_lettered (hs : Lettered ss ss') (ho : Lettered os os')
    (hl : Lettered ls ls') (hu : Lettered us us') (ht : Lettered ts ts')
    (hlw : Lettered lws lws') (huw : Lettered uws uws') (htw : Lettered tws tws')
    (h : TablesKeep ((wordsOf ss').map CodeRun.read) ((wordsOf os').map CodeRun.read)
      ((wordsOf ls').filterMap MapRun.read?) ((wordsOf us').filterMap MapRun.read?)
      ((wordsOf ts').filterMap MapRun.read?) ((wordsOf lws').filterMap CodeWord.read?)
      ((wordsOf uws').filterMap CodeWord.read?) ((wordsOf tws').filterMap CodeWord.read?)) :
    TablesKeep (CodeTable.read ss).runs.toList (CodeTable.read os).runs.toList
      (CodeMap.read ls).runs (CodeMap.read us).runs (CodeMap.read ts).runs
      (CodeWords.read lws).words (CodeWords.read uws).words (CodeWords.read tws).words := by
  rw [CodeTable.runs_read hs, CodeTable.runs_read ho]
  exact {
    startsBeyond := h.startsBeyond
    othersBeyond := h.othersBeyond
    lowerKeeps := h.lowerKeeps.mono (fun _ => CodeMap.mem_of_mem_read hl) fun _ =>
      CodeWords.mem_of_mem_read hlw
    upperKeeps := h.upperKeeps.mono (fun _ => CodeMap.mem_of_mem_read hu) fun _ =>
      CodeWords.mem_of_mem_read huw
    titleKeeps := h.titleKeeps.mono (fun _ => CodeMap.mem_of_mem_read ht) fun _ =>
      CodeWords.mem_of_mem_read htw
    noSmall := fun r hr => h.noSmall r (CodeMap.mem_of_mem_read hu hr)
    noSmallWord := fun w hw => h.noSmallWord w (CodeWords.mem_of_mem_read huw hw)
    iota := h.iota
    iotaTitle := by
      obtain ⟨r, hr, hcontains, hnaming⟩ := h.iotaTitle
      rw [← ht.entries_eq] at hr
      exact ⟨r, List.mem_filter.mpr ⟨hr, hnaming⟩, hcontains, hnaming⟩
    sigmas := h.sigmas }

end Lettered

theorem tablesKeep : TablesKeep identifierStartTable.runs.toList
    identifierContinueTable.runs.toList toLowerMap.runs toUpperMap.runs toTitleMap.runs
    toLowerWords.words toUpperWords.words toTitleWords.words := by
  unfold identifierStartTable identifierContinueTable toLowerMap toUpperMap toTitleMap toLowerWords
    toUpperWords toTitleWords
  -- constructors take the lines apart; then one evaluation reads every table once
  apply tablesKeep_of_lettered
  case hs => repeat constructor
  case ho => repeat constructor
  case hl => repeat constructor
  case hu => repeat constructor
  case ht => repeat constructor
  case hlw => repeat constructor
  case huw => repeat constructor
  case htw => repeat constructor
  decide +kernel

/-! ### Characters of identifiers -/

/-- Characters that can start an identifier, other than the underscore. -/
def isLead (c : Char) : Bool := isIdentifierStart c && c != '_'

/-- A text of characters of identifiers that starts with one that can start them. -/
structure Leads (s : List Char) : Prop where
  head : s.head?.any isLead = true
  all : ∀ c ∈ s, isIdentifierChar c = true

def identifierStarts : Nat := startCodes identifierStartTable.runs.toList

def identifierOthers : Nat := codesOf identifierContinueTable.runs.toList

section Codes

variable {c : Char}

theorem isIdentifierStart_of_isLead (h : isLead c = true) : isIdentifierStart c = true :=
  (Bool.and_eq_true_iff.mp h).1

theorem isIdentifierChar_of_start (h : isIdentifierStart c = true) :
    isIdentifierChar c = true := by
  unfold isIdentifierStart at h
  unfold isIdentifierChar
  split at h
  case isTrue hascii =>
    rw [if_pos hascii]
    simp only [Bool.or_eq_true] at h
    simp only [Char.isAlphanum, Bool.or_eq_true]
    exact h.imp_left .inl
  case isFalse hascii => rw [if_neg hascii, h, Bool.true_or]

theorem isIdentifierChar_of_isLead (h : isLead c = true) : isIdentifierChar c = true :=
  isIdentifierChar_of_start (isIdentifierStart_of_isLead h)

theorem leads_singleton (h : isLead c = true) : Leads [c] where
  head := h
  all := by simpa using isIdentifierChar_of_isLead h

theorem toNat_lt_of_isAscii (h : isAscii c = true) : c.toNat < 128 := of_decide_eq_true h

theorem not_isAscii_of_testBit {codes : Nat} (hcodes : codes &&& asciiCodes = 0)
    (h : codes.testBit c.toNat = true) : isAscii c = false := by
  have hbeyond := testBit_of_disjoint hcodes h
  by_contra hascii
  rw [Bool.not_eq_false] at hascii
  have hlt := toNat_lt_of_isAscii hascii
  rw [asciiCodes, CodeRun.testBit_codes, ← Bool.not_eq_true, CodeRun.contains_interval] at hbeyond
  omega

theorem isLead_of_testBit (h : identifierStarts.testBit c.toNat = true) : isLead c = true := by
  rw [identifierStarts, startCodes, testBit_codesOf, List.any_cons, List.any_cons,
    ← testBit_codesOf, ← Bool.or_assoc, Bool.or_eq_true] at h
  rcases h with hlatin | htable
  · have hlt : c.toNat < 128 := by
      simp only [Bool.or_eq_true, CodeRun.contains_interval] at hlatin
      omega
    revert hlatin
    exact forall_ascii (P := fun c => (CodeRun.contains ⟨65, 90, 1⟩ c.toNat ||
      CodeRun.contains ⟨97, 122, 1⟩ c.toNat) = true → isLead c = true) (by decide +kernel) hlt
  · have hascii := not_isAscii_of_testBit tablesKeep.startsBeyond htable
    have hne : c ≠ '_' := by
      rintro rfl
      cases hascii
    rw [CodeTable.testBit_codesOf] at htable
    simp [isLead, isIdentifierStart, hascii, htable, hne]

theorem isIdentifierChar_of_testBit (h : identifierStarts.testBit c.toNat = true ∨
    identifierOthers.testBit c.toNat = true) : isIdentifierChar c = true := by
  rcases h with hstart | hother
  · exact isIdentifierChar_of_isLead (isLead_of_testBit hstart)
  · have hascii := not_isAscii_of_testBit tablesKeep.othersBeyond hother
    rw [identifierOthers, CodeTable.testBit_codesOf] at hother
    simp [isIdentifierChar, hascii, hother]

theorem testBit_of_isIdentifierChar (hascii : isAscii c = false)
    (hc : isIdentifierChar c = true) :
    isIdentifierStart c = true ∧ identifierStarts.testBit c.toNat = true ∨
      identifierOthers.testBit c.toNat = true := by
  rw [isIdentifierChar, hascii, if_neg Bool.false_ne_true, Bool.or_eq_true] at hc
  rcases hc with hstart | hother
  · refine .inl ⟨?_, ?_⟩
    · rw [isIdentifierStart, hascii, if_neg Bool.false_ne_true, hstart]
    · rw [← CodeTable.testBit_codesOf, testBit_codesOf] at hstart
      rw [identifierStarts, startCodes, testBit_codesOf, List.any_cons, List.any_cons, hstart,
        Bool.or_true, Bool.or_true]
  · right
    rwa [identifierOthers, CodeTable.testBit_codesOf]

end Codes

/-! ### One character in another case -/

section Mapped

variable {m : CodeMap} {ws : CodeWords} {exempt : Nat} {c d : Char}

theorem leads_of_run
    (h : KeepsIdentifiers identifierStarts identifierOthers exempt m.runs ws.words)
    (hascii : isAscii c = false) (hc : isIdentifierChar c = true) {r : MapRun} (hr : r ∈ m.runs)
    (hcode : r.run.codes.testBit c.toNat = true)
    (himage : r.imageRun.codes.testBit d.toNat = true) :
    Leads [d] ∧ (isIdentifierStart c = true ∨ exempt.testBit c.toNat = true) := by
  have hcodes := testBit_of_isIdentifierChar hascii hc
  rcases h.runs r hr with ⟨hstarts, hothers⟩ | ⟨hstarts, hexempt⟩
  · rw [testBit_of_disjoint hstarts hcode, testBit_of_disjoint hothers hcode] at hcodes
    simp at hcodes
  · refine ⟨leads_singleton (isLead_of_testBit (testBit_of_subset hstarts himage)), ?_⟩
    rcases hcodes with ⟨hstart, -⟩ | hother
    · exact .inl hstart
    · right
      refine testBit_of_subset hexempt ?_
      rw [Nat.testBit_and, hcode, hother, Bool.and_true]

theorem leads_of_keeps {w : CodeWord} (h : w.Keeps identifierStarts identifierOthers) :
    Leads w.word := by
  obtain ⟨-, hhead, htail⟩ := h
  cases hword : w.word with
  | nil => simp [hword] at hhead
  | cons first rest =>
    -- rewritten, and not left to unfolding, which would read the whole table
    rw [hword, List.head?_cons, Option.any_some] at hhead
    rw [hword, List.tail_cons] at htail
    have hlead := isLead_of_testBit hhead
    refine ⟨hlead, List.forall_mem_cons.mpr ⟨?_, fun c hc => ?_⟩⟩
    · exact isIdentifierChar_of_isLead hlead
    · exact isIdentifierChar_of_testBit (Bool.or_eq_true_iff.mp (List.all_eq_true.mp htail c hc))

/-- A character of identifiers either has no other case or leads to the start of an identifier. -/
theorem mapped_cases
    (h : KeepsIdentifiers identifierStarts identifierOthers exempt m.runs ws.words)
    (hascii : isAscii c = false) (hc : isIdentifierChar c = true) :
    mapped m ws c = [c] ∨ Leads (mapped m ws c) ∧
      (isIdentifierStart c = true ∨ exempt.testBit c.toNat = true) := by
  have hmapped := mapped_spec m ws c
  generalize mapped m ws c = s at hmapped ⊢
  cases hmapped with
  | same => exact .inl rfl
  | run hr hcode himage => exact .inr (leads_of_run h hascii hc hr hcode himage)
  | word hw hcode =>
    have hkeeps := h.words _ hw
    refine .inr ⟨leads_of_keeps hkeeps, .inl ?_⟩
    exact isIdentifierStart_of_isLead (isLead_of_testBit (hcode ▸ hkeeps.1))

end Mapped

section Cases

variable {c d : Char}

theorem lowerChar_cases (hc : isIdentifierChar c = true) :
    lowerChar c = [c] ∨ Leads (lowerChar c) ∧ isIdentifierStart c = true := by
  unfold lowerChar
  split
  case isTrue hascii =>
    have hlower : isIdentifierChar c = true →
        c.toLower = c ∨ isLead c.toLower = true ∧ isIdentifierStart c = true :=
      forall_ascii (P := fun c => isIdentifierChar c = true →
        c.toLower = c ∨ isLead c.toLower = true ∧ isIdentifierStart c = true) (by decide +kernel)
        (toNat_lt_of_isAscii hascii)
    rcases hlower hc with hsame | ⟨hlead, hstart⟩
    · exact .inl (by rw [hsame])
    · exact .inr ⟨leads_singleton hlead, hstart⟩
  case isFalse hascii =>
    have hcases := mapped_cases tablesKeep.lowerKeeps (Bool.eq_false_iff.mpr hascii) hc
    simpa using hcases

/-- The capitals of ASCII are alike in upper and in title case. -/
theorem toUpper_cases (hascii : isAscii c = true) (hc : isIdentifierChar c = true) :
    c.toUpper = c ∨ isLead c.toUpper = true ∧ isIdentifierStart c = true :=
  forall_ascii (P := fun c => isIdentifierChar c = true →
    c.toUpper = c ∨ isLead c.toUpper = true ∧ isIdentifierStart c = true) (by decide +kernel)
    (toNat_lt_of_isAscii hascii) hc

theorem eq_iotaSubscript_of_testBit (h : (2 ^ iotaSubscript.toNat).testBit c.toNat = true) :
    c = iotaSubscript := by
  rw [Nat.testBit_two_pow, decide_eq_true_eq] at h
  exact (Char.toNat_inj.mp h).symm

theorem upperChar_cases (hc : isIdentifierChar c = true) :
    upperChar c = [c] ∨ Leads (upperChar c) := by
  unfold upperChar
  split
  case isTrue hascii =>
    rcases toUpper_cases hascii hc with hsame | ⟨hlead, -⟩
    · exact .inl (by rw [hsame])
    · exact .inr (leads_singleton hlead)
  case isFalse hascii =>
    exact (mapped_cases tablesKeep.upperKeeps (Bool.eq_false_iff.mpr hascii) hc).imp_right And.left

theorem titleChar_cases (hc : isIdentifierChar c = true) :
    titleChar c = [c] ∨
      Leads (titleChar c) ∧ (isIdentifierStart c = true ∨ c = iotaSubscript) := by
  unfold titleChar
  split
  case isTrue hascii =>
    rcases toUpper_cases hascii hc with hsame | ⟨hlead, hstart⟩
    · exact .inl (by rw [hsame])
    · exact .inr ⟨leads_singleton hlead, .inl hstart⟩
  case isFalse hascii =>
    have hcases := mapped_cases tablesKeep.titleKeeps (Bool.eq_false_iff.mpr hascii) hc
    exact hcases.imp_right fun h => ⟨h.1, h.2.imp_right eq_iotaSubscript_of_testBit⟩

theorem leads_titleChar_of_get? (hascii : isAscii c = false) (hc : isIdentifierChar c = true)
    (hd : toTitleMap.get? c = some d) : Leads (titleChar c) := by
  obtain ⟨r, hr, hcode, himage⟩ := toTitleMap.exists_run hd
  rw [titleChar, hascii, if_neg Bool.false_ne_true, mapped, hd]
  exact (leads_of_run tablesKeep.titleKeeps hascii hc hr hcode himage).1

theorem leads_titleChar_iotaSubscript : Leads (titleChar iotaSubscript) := by
  have hchar : isIdentifierChar iotaSubscript = true :=
    isIdentifierChar_of_testBit (.inr tablesKeep.iota)
  obtain ⟨r, hr, hcontains, -⟩ := tablesKeep.iotaTitle
  obtain ⟨d, hd⟩ := CodeMap.exists_get? hr hcontains
  exact leads_titleChar_of_get? rfl hchar hd

theorem not_small_of_mem_upperChar (hd : d ∈ upperChar c) : smallCodes.testBit d.toNat = false := by
  unfold upperChar at hd
  split at hd
  case isTrue hascii =>
    rw [List.mem_singleton.mp hd]
    exact forall_ascii (P := fun c => smallCodes.testBit c.toUpper.toNat = false)
      (by decide +kernel) (toNat_lt_of_isAscii hascii)
  case isFalse hascii =>
    have hmapped := mapped_spec toUpperMap toUpperWords c
    generalize mapped toUpperMap toUpperWords c = s at hmapped hd
    cases hmapped with
    | same =>
      rw [List.mem_singleton.mp hd, smallCodes, CodeRun.testBit_codes, ← Bool.not_eq_true,
        CodeRun.contains_interval]
      have hbeyond : ¬ c.toNat < 128 := fun hlt => hascii (decide_eq_true hlt)
      omega
    | run hr _ himage =>
      rw [List.mem_singleton.mp hd]
      exact testBit_of_disjoint (tablesKeep.noSmall _ hr) himage
    | word hw _ =>
      have hnone := tablesKeep.noSmallWord _ hw
      exact Bool.eq_false_iff.mpr (List.any_eq_false.mp hnone d hd)

end Cases

/-! ### Texts in another case -/

theorem isLead_sigma {c : Char} (hc : c ∈ ['Σ', 'σ', 'ς']) : isLead c = true :=
  isLead_of_testBit (List.all_eq_true.mp tablesKeep.sigmas c hc)

theorem all_of_same_or_leads {c : Char} {w : List Char} (hc : isIdentifierChar c = true)
    (h : w = [c] ∨ Leads w) : ∀ d ∈ w, isIdentifierChar d = true := by
  rcases h with rfl | hleads
  · simpa using hc
  · exact hleads.all

theorem caseClosed_isIdentifierChar : CaseClosed isIdentifierChar where
  lower _ hc := all_of_same_or_leads hc ((lowerChar_cases hc).imp_right And.left)
  upper _ hc := all_of_same_or_leads hc (upperChar_cases hc)
  title _ hc := all_of_same_or_leads hc ((titleChar_cases hc).imp_right And.left)
  sigmas := ⟨isIdentifierChar_of_isLead (isLead_sigma (by simp)),
    isIdentifierChar_of_isLead (isLead_sigma (by simp))⟩
  underscore := by decide

/-- The first character of a text in lower case. It differs from that of the text only if both can
start identifiers. -/
theorem exists_lowerAfter_cons {c : Char} (hc : isIdentifierChar c = true)
    (before rest : List Char) : ∃ d text, lowerAfter before (c :: rest) = d :: text ∧
      (d = c ∨ isLead d = true ∧ isIdentifierStart c = true) := by
  unfold lowerAfter
  split
  case isTrue hsigma =>
    refine ⟨_, _, rfl, .inr ⟨?_, ?_⟩⟩
    · split
      · exact isLead_sigma (by simp)
      · exact isLead_sigma (by simp)
    · rw [hsigma]
      exact isIdentifierStart_of_isLead (isLead_sigma (by simp))
  case isFalse =>
    rcases lowerChar_cases hc with hsame | ⟨hleads, hstart⟩
    · exact ⟨c, _, by rw [hsame, List.singleton_append], .inl rfl⟩
    · obtain ⟨d, hd, hlead⟩ := (Option.any_eq_true _ _).mp hleads.head
      obtain ⟨text, htext⟩ := List.head?_eq_some_iff.mp hd
      exact ⟨d, _, by rw [htext, List.cons_append], .inr ⟨hlead, hstart⟩⟩

end Restyle.Text
