import Mathlib.Data.List.Count
import Restyle.Proofs.Rename.Words
import Restyle.Proofs.Text.Blanks
import Restyle.Rename.Usage

/-!
New names where names are used. A name is replaced form by form: before brackets, after dots,
before equals signs, and last wherever it is a word. The first passes only do part of what the last
one does, so renaming uses is renaming words. After it no old name is left for the forms of
definitions.
-/

namespace Restyle

open Text (isWordChar pieces Apart IsRun)

namespace Pattern

variable {old new : List Char}
variable {a : Pattern}

theorem Passes.begins {p q : Place} {w : List Char} (hpass : Passes p w q)
    (hw : IsRun isWordChar w) (hp : p.isBoundary = true) : isWord p.before.head? = false := by
  rw [Place.isBoundary, hpass.1, isWord_head?_run hw] at hp
  simpa using hp

/-- Between a place and an end of a pattern there is a relation. -/
def Ensures (a : Pattern) (R : Place → Place → Prop) : Prop :=
  ∀ p q g g', (q, g') ∈ ends a p g → R p q

theorem Ensures.group {R : Place → Place → Prop} (h : Ensures a R) (n : Nat) :
    Ensures (.group n a) R := by
  intro p q g g' hmem
  obtain ⟨k, hk, -⟩ := mem_ends_group.mp hmem
  exact h p q g k hk

/-- The text of the pattern is passed over, and no word goes on after it. -/
abbrev LeavesWords (a : Pattern) : Prop :=
  Ensures a fun p q => q.text = p.text ∧ isWord q.before.head? = false

/-- No word goes on before the pattern. -/
abbrev MeetsNoWord (a : Pattern) : Prop := Ensures a fun p _ => Apart isWordChar p.rest

theorem MeetsNoWord.seq (h : MeetsNoWord a) (b : Pattern) : MeetsNoWord (a + b) := by
  intro p q g g' hmem
  obtain ⟨m, k, hm, -⟩ := mem_ends_seq.mp hmem
  exact h p m g k hm

theorem leavesWords_blanks1 : LeavesWords blanks1 := by
  intro p q g g' hmem
  obtain ⟨m, k, hfirst, hrest⟩ := mem_ends_seq.mp hmem
  obtain ⟨-, d, hd, hone⟩ := mem_ends_char.mp hfirst
  obtain ⟨-, s, hs, hmany⟩ := mem_ends_many.mp hrest
  have hbefore : q.before = s.reverse ++ d :: p.before := by
    rw [hmany.2, hone.2]
    rfl
  refine ⟨hmany.text_eq.trans hone.text_eq, ?_⟩
  rw [hbefore]
  cases hlast : s.reverse with
  | nil => exact Text.isWordChar_of_isBlank hd
  | cons c cs =>
    have hc : c ∈ s := List.mem_reverse.mp (hlast ▸ List.mem_cons_self)
    exact Text.isWordChar_of_isBlank (List.all_eq_true.mp hs c hc)

/-- A keyword with blanks after it, behind what `a` passes over. -/
theorem leavesWords_keyword (ha : Ensures a fun p q => q.text = p.text) (s : List Char) :
    LeavesWords (a + literal s + blanks1) := by
  intro p q g g' hmem
  obtain ⟨m, k, hword, hblanks⟩ := mem_ends_seq.mp hmem
  obtain ⟨n, l, hn, hm⟩ := mem_ends_seq.mp hword
  obtain ⟨htext, hend⟩ := leavesWords_blanks1 m q k g' hblanks
  exact ⟨by rw [htext, (mem_ends_literal.mp hm).2.text_eq, ha p n g l hn], hend⟩

theorem leavesWords_lineStart : LeavesWords .lineStart := by
  intro p q g g' hmem
  unfold ends at hmem
  split at hmem
  case isFalse => cases hmem
  case isTrue hstart =>
    obtain ⟨rfl, -⟩ := Prod.mk.inj (List.mem_singleton.mp hmem)
    unfold Place.isLineStart at hstart
    cases hbefore : q.before with
    | nil => exact ⟨rfl, rfl⟩
    | cons c before =>
      rw [hbefore] at hstart
      rw [beq_iff_eq.mp hstart]
      exact ⟨rfl, (by decide : isWordChar '\n' = false)⟩

theorem meetsNoWord_blanks {c : Char} (hc : isWordChar c = false) :
    MeetsNoWord (blanks + .char (.exactly c)) := by
  intro p q g g' hmem
  obtain ⟨m, k, hblanks, hchar⟩ := mem_ends_seq.mp hmem
  obtain ⟨-, s, hs, hmany⟩ := mem_ends_many.mp hblanks
  obtain ⟨-, hone⟩ := mem_ends_exactly.mp hchar
  rw [hmany.1, hone.1]
  cases s with
  | nil => exact Text.apart_cons.mpr hc
  | cons d s =>
    have hd := List.all_eq_true.mp hs d List.mem_cons_self
    exact Text.apart_cons.mpr (Text.isWordChar_of_isBlank hd)

/-- A pattern for a word between two others that no word goes on in finds the word. -/
theorem finds_between {name b : Pattern} {w : List Char} (ha : LeavesWords a)
    (hname : Ensures name (Passes · w)) (hb : MeetsNoWord b) (hw : IsRun isWordChar w) :
    Finds (a + name + b) w := by
  intro p q g h
  obtain ⟨n, k, hn, hq⟩ := mem_ends_seq.mp h
  obtain ⟨m, l, hm, hn⟩ := mem_ends_seq.mp hn
  obtain ⟨htext, hend⟩ := ha _ _ _ _ hm
  rw [← htext, Place.text, (hname _ _ _ _ hn).1, pieces_around hend hw (hb _ _ _ _ hq)]
  simp

end Pattern

namespace Rename

open Pattern (swap Swaps Passes)

variable {old new : List Char}
variable {r : String × String}

/-! ### The forms of a use -/

theorem swaps_wordBefore (hold : IsRun isWordChar old) (c : Char) :
    Swaps (wordBefore old c) (new.map fun c => .text [c]) old new := by
  intro p q g h
  obtain ⟨m, k, hword, hahead⟩ := Pattern.mem_ends_seq.mp h
  obtain ⟨hpass, hfirst, hlast⟩ := Pattern.mem_ends_word hword
  unfold Pattern.ends at hahead
  split at hahead
  case isTrue => cases hahead
  case isFalse =>
    obtain ⟨rfl, -⟩ := Prod.mk.inj (List.mem_singleton.mp hahead)
    exact ⟨p, [], Passes.refl p, hpass, hpass.begins hold hfirst, hpass.apart hold hlast,
      fun f _ => Pattern.expand_text new f⟩

theorem swaps_usedAttribute (hold : IsRun isWordChar old) :
    Swaps (.group 1 (.char (.exactly '.')) + .group 2 (.literal old) + .boundary)
      (.group 1 :: new.map fun c => .text [c]) old new := by
  intro p q g h
  obtain ⟨m, k, hparts, hlast⟩ := Pattern.mem_ends_seq.mp h
  obtain ⟨⟨rfl, rfl⟩, hboundary⟩ := Pattern.mem_ends_boundary.mp hlast
  obtain ⟨n, l, hone, htwo⟩ := Pattern.mem_ends_seq.mp hparts
  obtain ⟨k₁, hchar, rfl⟩ := Pattern.mem_ends_group.mp hone
  obtain ⟨rfl, hdot⟩ := Pattern.mem_ends_exactly.mp hchar
  obtain ⟨k₂, hname, rfl⟩ := Pattern.mem_ends_group.mp htwo
  obtain ⟨rfl, hpass⟩ := Pattern.mem_ends_literal.mp hname
  refine ⟨n, ['.'], hdot, hpass, ?_, hpass.apart hold hboundary, fun f hf => ?_⟩
  · rw [hdot.2]
    exact (by decide : isWordChar '.' = false)
  · have hgroup : f.group 1 = ['.'] := by
      rw [Pattern.Match.group, hf, hdot.upTo]
      rfl
    have hnew := Pattern.expand_text new f
    unfold Template.expand at hnew ⊢
    rw [List.flatMap_cons, hnew]
    exact congrArg (· ++ new) hgroup

/-- The passes over the forms of a use together replace the word. -/
theorem foldlM_usageForms (hold : IsRun isWordChar old) (hnew : IsRun isWordChar new)
    (hdigit : ∀ c ∈ new.head?, c.isDigit = false) (s : List Char) :
    (usageForms old new).foldlM (fun s form => replaceAll form.1 form.2 s) s =
      .ok ((pieces isWordChar s).flatMap (swap old new)) := by
  have hplain := noBackslash_of_run hnew
  obtain ⟨r₁, hr₁, h₁⟩ := (swaps_wordBefore hold '(').exists_replaceAll hold hnew
    (Template.parse_text hplain _) s
  obtain ⟨r₂, hr₂, h₂⟩ := (swaps_usedAttribute hold).exists_replaceAll hold hnew
    (Template.parse_reference (Nat.lt_add_right _ (Nat.lt_add_right _ Nat.one_pos)) hplain hdigit)
    r₁
  obtain ⟨r₃, hr₃, h₃⟩ := (swaps_wordBefore hold '=').exists_replaceAll hold hnew
    (Template.parse_text hplain _) r₂
  have hsame : (pieces isWordChar r₃).flatMap (swap old new) =
      (pieces isWordChar s).flatMap (swap old new) := by
    rw [List.flatMap_def, h₃, h₂, h₁, ← List.flatMap_def]
  have htemplate : "\\1".toList ++ new = '\\' :: '1' :: new := rfl
  simp only [usageForms, List.foldlM_cons, List.foldlM_nil, replaceAll, htemplate, hr₁, hr₂, hr₃,
    Pattern.replaceAll_word hold hplain, hsame, bind, Except.bind]
  rfl

/-! ### Counting words -/

/-- A name is found as often as it is a piece of the text. -/
theorem wordCount_eq {name : List Char} (hname : IsRun isWordChar name) (s : List Char) :
    wordCount name s = (pieces isWordChar s).count name := by
  -- one character for each match, against none
  have hlength (x : List Char) (hx : '\\' ∉ x) :
      (Pattern.replaceMatches ((Pattern.word name).allMatches s)
          (x.map fun c => .text [c])).length =
        ((pieces isWordChar s).flatMap (swap name x)).length := by
    have hall := Pattern.replaceAll_word hname hx s
    rw [Pattern.replaceAll, Template.parse_text hx] at hall
    exact congrArg List.length (Except.ok.inj hall)
  have hmatches (ms : List Pattern.Match × List Char) :
      (Pattern.replaceMatches ms [.text ['x']]).length =
        (Pattern.replaceMatches ms []).length + ms.1.length := by
    obtain ⟨ms, tail⟩ := ms
    induction ms with
    | nil => rfl
    | cons f ms ih =>
      simp [Pattern.replaceMatches, Template.expand] at ih ⊢
      omega
  have hwords (ws : List (List Char)) : (ws.flatMap (swap name ['x'])).length =
      (ws.flatMap (swap name [])).length + ws.count name := by
    induction ws with
    | nil => rfl
    | cons w ws ih =>
      by_cases hw : w = name
      · simp [swap, hw] at ih ⊢
        omega
      · simp [swap, hw] at ih ⊢
        omega
  have hone := hlength ['x'] (by decide)
  have hnone := hlength [] (by decide)
  have hcount := hmatches ((Pattern.word name).allMatches s)
  have hpieces := hwords (pieces isWordChar s)
  simp only [List.map_cons, List.map_nil] at hone hnone
  unfold wordCount
  omega

/-! ### Names -/

/-- A text of word characters that starts with no digit, as identifiers do. -/
def isWordName (name : String) : Bool :=
  name.toList.all isWordChar && name.toList.head?.any (!·.isDigit)

theorem isRun_of_isWordName {name : String} (h : isWordName name = true) :
    IsRun isWordChar name.toList := by
  obtain ⟨hall, hfirst⟩ := Bool.and_eq_true_iff.mp h
  refine ⟨fun hnil => ?_, List.all_eq_true.mp hall⟩
  rw [hnil] at hfirst
  cases hfirst

theorem noDigit_of_isWordName {name : String} (h : isWordName name = true) :
    ∀ c ∈ name.toList.head?, c.isDigit = false := by
  intro c hc
  have hfirst := (Bool.and_eq_true_iff.mp h).2
  rw [show name.toList.head? = some c from hc] at hfirst
  simpa using hfirst

abbrev WordNames (rs : List (String × String)) : Prop :=
  ∀ r ∈ rs, isWordName r.1 = true ∧ isWordName r.2 = true

/-! ### One name -/

/-- The text with a new name wherever the old one is a word. -/
def swapped (r : String × String) (s : List Char) : List Char :=
  (pieces isWordChar s).flatMap (swap r.1.toList r.2.toList)

theorem pieces_swapped (hold : isWordName r.1 = true) (hnew : isWordName r.2 = true)
    (s : List Char) : pieces isWordChar (swapped r s) =
      (pieces isWordChar s).map (swap r.1.toList r.2.toList) :=
  Text.pieces_flatMap (fun _ => isRun_swap (isRun_of_isWordName hnew))
    (fun _ => swap_other (isRun_of_isWordName hold)) s

theorem swapped_of_not_mem {s : List Char} (h : r.1.toList ∉ pieces isWordChar s) :
    swapped r s = s := by
  have hsame : (pieces isWordChar s).map (swap r.1.toList r.2.toList) = pieces isWordChar s := by
    refine (List.map_congr_left fun w hw => ?_).trans (List.map_id _)
    exact if_neg (ne_of_mem_of_not_mem hw h)
  rw [swapped, List.flatMap_def, hsame, Text.flatten_pieces]

/-- Whether a change is told hangs on what it gains. -/
theorem renameUsage_eq (hold : isWordName r.1 = true) (hnew : isWordName r.2 = true) (s : List Char)
    (told : List String) :
    renameUsage (s, told) r.1 r.2 = .ok (swapped r s, told ++
      let gain := usageGain r.1.toList r.2.toList s (swapped r s)
      if swapped r s ≠ s ∧ gain > 0 then [s!"Updated {gain} usage(s) of '{r.1}' to '{r.2}'"]
      else []) := by
  have hrun := isRun_of_isWordName hold
  have hforms := foldlM_usageForms hrun (isRun_of_isWordName hnew) (noDigit_of_isWordName hnew) s
  unfold renameUsage
  dsimp only
  by_cases hzero : wordCount r.1.toList s = 0
  · have hnone : r.1.toList ∉ pieces isWordChar s := by
      rwa [wordCount_eq hrun, List.count_eq_zero] at hzero
    simp [hzero, swapped_of_not_mem hnone, pure, Except.pure]
  · rw [if_neg hzero]
    refine (congrArg (fun x => x >>= _) hforms).trans ?_
    dsimp only [bind, Except.bind]
    rw [← swapped]
    split <;> simp_all [pure, Except.pure]

/-! ### All names -/

/-- Renaming uses is renaming words. -/
theorem exists_foldlM_renameUsage {rs : List (String × String)} (h : WordNames rs) (s : List Char)
    (told : List String) : ∃ t told',
      rs.foldlM (fun state r => renameUsage state r.1 r.2) (s, told) = .ok (t, told') ∧
        rs.foldlM (fun s r => renameWord r.1.toList r.2.toList s) s = .ok t := by
  induction rs generalizing s told with
  | nil => exact ⟨s, told, rfl, rfl⟩
  | cons r rs ih =>
    obtain ⟨hold, hnew⟩ := h r List.mem_cons_self
    rw [List.foldlM_cons, List.foldlM_cons, renameUsage_eq hold hnew,
      renameWord_eq (isRun_of_isWordName hold) (isRun_of_isWordName hnew)]
    exact ih (fun q hq => h q (List.mem_cons_of_mem r hq)) _ _

theorem not_mem_pieces_renamed {rs : List (String × String)} (h : WordNames rs) {s t w : List Char}
    (ht : rs.foldlM (fun s r => renameWord r.1.toList r.2.toList s) s = .ok t)
    (hw : w ∉ pieces isWordChar s ∨ ∃ r ∈ rs, r.1.toList = w) (hnew : ∀ r ∈ rs, r.2.toList ≠ w) :
    w ∉ pieces isWordChar t := by
  induction rs generalizing s with
  | nil =>
    cases ht
    simpa using hw
  | cons r rs ih =>
    obtain ⟨hold, hvalue⟩ := h r List.mem_cons_self
    rw [List.foldlM_cons, renameWord_eq (isRun_of_isWordName hold) (isRun_of_isWordName hvalue)]
      at ht
    refine ih (fun q hq => h q (List.mem_cons_of_mem r hq)) ht ?_
      fun q hq => hnew q (List.mem_cons_of_mem r hq)
    rw [← swapped, pieces_swapped hold hvalue]
    refine or_iff_not_imp_right.mpr fun hlater hmem => ?_
    obtain ⟨v, hv, heq⟩ := List.mem_map.mp hmem
    unfold swap at heq
    split at heq
    case isTrue => exact hnew r List.mem_cons_self heq
    case isFalse hne =>
      subst heq
      rcases hw with hw | ⟨q, hq, hkey⟩
      · exact hw hv
      · rcases List.mem_cons.mp hq with rfl | hq
        · exact hne hkey.symm
        · exact hlater ⟨q, hq, hkey⟩

theorem finds_definitionForms (hold : IsRun isWordChar old) (new : List Char) :
    ∀ f ∈ definitionForms old new, Pattern.Finds f.pattern old := by
  have hname : Pattern.Ensures (Pattern.literal old) (Passes · old) :=
    fun p q g g' h => (Pattern.mem_ends_literal.mp h).2
  have hopened := Pattern.meetsNoWord_blanks (by decide : isWordChar '(' = false)
  have hassigned := Pattern.meetsNoWord_blanks (by decide : isWordChar '=' = false)
  have hfirst : Pattern.Ensures .boundary fun p q => q.text = p.text := fun p q g g' h => by
    rw [(Pattern.mem_ends_boundary.mp h).1.1]
  have hkeyword (s : List Char) := Pattern.leavesWords_keyword hfirst s
  have hasync := Pattern.leavesWords_keyword
    (fun p q g g' h => (hkeyword "async".toList p q g g' h).1) "def".toList
  have hstart : Pattern.LeavesWords (.group 1 (.alt .lineStart Pattern.blanks1)) := by
    refine Pattern.Ensures.group (fun p q g g' h => ?_) 1
    exact (List.mem_append.mp h).elim (Pattern.leavesWords_lineStart p q g g')
      (Pattern.leavesWords_blanks1 p q g g')
  simp only [definitionForms, List.forall_mem_cons, List.not_mem_nil, false_implies, implies_true,
    and_true]
  exact ⟨Pattern.finds_between ((hkeyword _).group 1) hname (((hopened.seq _).seq _).group 2) hold,
    Pattern.finds_between ((hkeyword _).group 1) hname (hopened.group 2) hold,
    Pattern.finds_between (hasync.group 1) hname (hopened.group 2) hold,
    Pattern.finds_between hstart (hname.group 2) (hassigned.group 3) hold⟩

/-- Where no old name is a word, there is no definition to rename. -/
theorem renameDefinitions_of_not_mem {m : NameMap} {s : List Char}
    (hold : ∀ r ∈ m.entries, IsRun isWordChar r.1.toList)
    (h : ∀ r ∈ m.entries, r.1.toList ∉ pieces isWordChar s) :
    renameDefinitions m s = .ok (s, []) := by
  have hforms (r : String × String) (hr : r ∈ m.entries) :
      (definitionForms r.1.toList r.2.toList).foldlM (renameForm r.1 r.2) (s, []) =
        .ok (s, []) := by
    have hfinds := finds_definitionForms (hold r hr) r.2.toList
    generalize definitionForms r.1.toList r.2.toList = forms at hfinds
    induction forms with
    | nil => rfl
    | cons f forms ih =>
      obtain ⟨hf, hfinds⟩ := List.forall_mem_cons.mp hfinds
      have hkept : renameForm r.1 r.2 (s, []) f = .ok (s, []) := by
        rw [renameForm, Pattern.find?, hf.search_eq_none (h r hr)]
        rfl
      rw [List.foldlM_cons, hkept]
      exact ih hfinds
  unfold renameDefinitions
  generalize m.entries = rs at hforms
  induction rs with
  | nil => rfl
  | cons r rs ih =>
    rw [List.foldlM_cons]
    refine (congrArg (fun x => x >>= _) (hforms r List.mem_cons_self)).trans ?_
    exact ih fun q hq => hforms q (List.mem_cons_of_mem r hq)

/-- For identifiers made of word characters, renaming uses gives the same text as renaming words,
also where new names are renamed again. If no new name is an old one, there is nothing left to
rename where names are defined. -/
theorem renameUsages_agrees {m : NameMap} (h : WordNames m.entries) (s : List Char) :
    ∃ t told, renameUsages m s = .ok (t, told) ∧ renameWords m s = .ok t ∧
      ((∀ r ∈ m.entries, r.2 ∉ m.keys) → renameDefinitions m t = .ok (t, [])) := by
  have hsorted : m.longestFirst.Perm m.entries := List.mergeSort_perm _ _
  have hnames : WordNames m.longestFirst := fun r hr => h r (hsorted.mem_iff.mp hr)
  obtain ⟨t, told, husages, hwords⟩ := exists_foldlM_renameUsage hnames s []
  refine ⟨t, told, husages, hwords, fun hapart => ?_⟩
  refine renameDefinitions_of_not_mem (fun r hr => isRun_of_isWordName (h r hr).1) fun r hr => ?_
  refine not_mem_pieces_renamed hnames hwords (.inr ⟨r, hsorted.mem_iff.mpr hr, rfl⟩) ?_
  intro q hq heq
  apply hapart q (hsorted.mem_iff.mp hq)
  rw [String.toList_inj.mp heq]
  exact List.mem_map_of_mem hr

/-- A name before a bracket and after a dot, that is also where it is defined. -/
theorem renameUsages_agrees_sample :
    ∃ t, renameWords ⟨[("oldName", "old_name")]⟩ "def oldName(): x.oldName()".toList = .ok t ∧
      renameDefinitions ⟨[("oldName", "old_name")]⟩ t = .ok (t, []) := by
  have hnames : WordNames [("oldName", "old_name")] := by decide
  obtain ⟨t, -, -, hwords, hdefinitions⟩ := @renameUsages_agrees ⟨[("oldName", "old_name")]⟩ hnames
    "def oldName(): x.oldName()".toList
  exact ⟨t, hwords, hdefinitions (by decide)⟩

end Rename

end Restyle
