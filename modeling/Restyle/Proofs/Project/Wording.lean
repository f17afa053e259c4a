import Restyle.Proofs.Config.Settings
import Restyle.Proofs.Element.Names
import Restyle.Proofs.Pattern

/-!
The wording of changes. A change of a name tells the old name and the new one, both in quotes. What
else it tells has no quotes, and neither have the names, so the old name can be read back. A change
without quotes is about no name.
-/

namespace Restyle.Project

open Disk (Path)
open Naming (Spelled)
open Pattern (Place Groups Passes)
open Restyle.Symbol (SymbolMap)
open Text (singleQuote)

/-! ### Names in quotes -/

/-- A text that can stand between quotes as a name. -/
structure Quotable (name : List Char) : Prop where
  ne_nil : name ≠ []
  noQuote : singleQuote ∉ name

def quotedNames (old new : List Char) : List Char :=
  singleQuote :: (old ++ singleQuote :: (" to ".toList ++ singleQuote :: (new ++ [singleQuote])))

theorem count_quotedNames (old new : List Char) :
    (quotedNames old new).count singleQuote =
      old.count singleQuote + new.count singleQuote + 4 := by
  have hto : (" to ".toList).count singleQuote = 0 := by decide
  simp only [quotedNames, List.count_append, List.count_cons_self, List.count_nil, hto]
  omega

section Ends

variable {p q : Place} {g g' : Groups}

theorem mem_ends_quotable :
    (q, g') ∈ (Pattern.char (.other singleQuote) +
        Pattern.many (.char (.other singleQuote)) : Pattern).ends p g ↔
      g' = g ∧ ∃ name, Quotable name ∧ Passes p name q := by
  have hholds (d : Char) : (CharClass.other singleQuote).holds d = true ↔ d ≠ singleQuote := by
    simp
  rw [Pattern.mem_ends_seq]
  constructor
  · rintro ⟨m, k, hfirst, hrest⟩
    obtain ⟨rfl, d, hd, hone⟩ := Pattern.mem_ends_char.mp hfirst
    obtain ⟨rfl, s, hs, hmany⟩ := Pattern.mem_ends_many.mp hrest
    refine ⟨rfl, d :: s, ⟨List.cons_ne_nil d s, ?_⟩, hone.trans hmany⟩
    intro hmem
    rcases List.mem_cons.mp hmem with heq | hmem
    · exact (hholds d).mp hd heq.symm
    · exact (hholds singleQuote).mp (List.all_eq_true.mp hs singleQuote hmem) rfl
  · rintro ⟨rfl, name, hname, hpass⟩
    obtain ⟨d, s, rfl⟩ := List.exists_cons_of_ne_nil hname.ne_nil
    have hnoQuote := hname.noQuote
    obtain ⟨m, hone, hmany⟩ := hpass.split [d] s
    refine ⟨m, g', Pattern.mem_ends_char.mpr ⟨rfl, d, (hholds d).mpr ?_, hone⟩,
      Pattern.mem_ends_many.mpr ⟨rfl, s, List.all_eq_true.mpr fun c hc => (hholds c).mpr ?_, hmany⟩⟩
    · rintro rfl
      exact hnoQuote List.mem_cons_self
    · rintro rfl
      exact hnoQuote (List.mem_cons_of_mem d hc)

theorem mem_ends_renamePattern :
    (q, g) ∈ renamePattern.ends p [] ↔
      ∃ old new, Quotable old ∧ Quotable new ∧ Passes p (quotedNames old new) q ∧
        g = [(2, new), (1, old)] := by
  constructor
  · intro h
    obtain ⟨p₆, g₆, h, h₇⟩ := Pattern.mem_ends_seq.mp h
    obtain ⟨p₅, g₅, h, h₆⟩ := Pattern.mem_ends_seq.mp h
    obtain ⟨p₄, g₄, h, h₅⟩ := Pattern.mem_ends_seq.mp h
    obtain ⟨p₃, g₃, h, h₄⟩ := Pattern.mem_ends_seq.mp h
    obtain ⟨p₂, g₂, h, h₃⟩ := Pattern.mem_ends_seq.mp h
    obtain ⟨p₁, g₁, h₁, h₂⟩ := Pattern.mem_ends_seq.mp h
    -- a sequence leans to the left, so its parts come out from the last to the first
    obtain ⟨rfl, hfirst⟩ := Pattern.mem_ends_exactly.mp h₁
    obtain ⟨k₁, hinner, rfl⟩ := Pattern.mem_ends_group.mp h₂
    obtain ⟨rfl, old, hqold, hold⟩ := mem_ends_quotable.mp hinner
    obtain ⟨rfl, hsecond⟩ := Pattern.mem_ends_exactly.mp h₃
    obtain ⟨rfl, hto⟩ := Pattern.mem_ends_literal.mp h₄
    obtain ⟨rfl, hthird⟩ := Pattern.mem_ends_exactly.mp h₅
    obtain ⟨k₂, hinner', rfl⟩ := Pattern.mem_ends_group.mp h₆
    obtain ⟨rfl, new, hqnew, hnew⟩ := mem_ends_quotable.mp hinner'
    obtain ⟨rfl, hlast⟩ := Pattern.mem_ends_exactly.mp h₇
    refine ⟨old, new, hqold, hqnew, ?_, by rw [hold.upTo, hnew.upTo]⟩
    exact hfirst.trans (hold.trans (hsecond.trans (hto.trans (hthird.trans (hnew.trans hlast)))))
  · rintro ⟨old, new, hqold, hqnew, hpass, rfl⟩
    obtain ⟨p₁, hfirst, hpass⟩ := hpass.split [singleQuote] _
    obtain ⟨p₂, hold, hpass⟩ := hpass.split old _
    obtain ⟨p₃, hsecond, hpass⟩ := hpass.split [singleQuote] _
    obtain ⟨p₄, hto, hpass⟩ := hpass.split " to ".toList _
    obtain ⟨p₅, hthird, hpass⟩ := hpass.split [singleQuote] _
    obtain ⟨p₆, hnew, hlast⟩ := hpass.split new _
    have hold' := mem_ends_quotable (g := []).mpr ⟨rfl, old, hqold, hold⟩
    have hnew' := mem_ends_quotable (g := [(1, old)]).mpr ⟨rfl, new, hqnew, hnew⟩
    refine Pattern.mem_ends_seq.mpr ⟨p₆, _, Pattern.mem_ends_seq.mpr ⟨p₅, _,
      Pattern.mem_ends_seq.mpr ⟨p₄, _, Pattern.mem_ends_seq.mpr ⟨p₃, _,
      Pattern.mem_ends_seq.mpr ⟨p₂, _, Pattern.mem_ends_seq.mpr ⟨p₁, _,
      Pattern.mem_ends_exactly.mpr ⟨rfl, hfirst⟩, Pattern.mem_ends_group.mpr ⟨_, hold', ?_⟩⟩,
      Pattern.mem_ends_exactly.mpr ⟨rfl, hsecond⟩⟩, Pattern.mem_ends_literal.mpr ⟨rfl, hto⟩⟩,
      Pattern.mem_ends_exactly.mpr ⟨rfl, hthird⟩⟩, Pattern.mem_ends_group.mpr ⟨_, hnew', ?_⟩⟩,
      Pattern.mem_ends_exactly.mpr ⟨rfl, hlast⟩⟩
    · rw [hold.upTo]
    · rw [hnew.upTo]

end Ends

/-! ### Reading a change back -/

theorem exists_of_changedName? {change x : String} (h : changedName? change = some x) :
    ∃ before old new after, change.toList = before ++ (quotedNames old new ++ after) ∧
      x = String.ofList old := by
  obtain ⟨m, hfind, rfl⟩ := Option.map_eq_some_iff.mp h
  obtain ⟨⟨m, q⟩, hsearch, rfl⟩ := Option.map_eq_some_iff.mp hfind
  obtain ⟨before, rest, hchange, hfound⟩ := Pattern.exists_found hsearch
  obtain ⟨old, new, -, -, hpass, hgroups⟩ := mem_ends_renamePattern.mp hfound.mem
  refine ⟨before, old, new, q.rest, by rw [hchange, ← hpass.1], ?_⟩
  rw [Pattern.Match.group, hgroups]
  rfl

theorem changedName?_ne_none {change : String} {before old new after : List Char}
    (hchange : change.toList = before ++ (quotedNames old new ++ after)) (hold : Quotable old)
    (hnew : Quotable new) : changedName? change ≠ none := by
  have hpass : Passes ⟨before.reverse ++ [], quotedNames old new ++ after⟩ (quotedNames old new)
      ⟨(quotedNames old new).reverse ++ (before.reverse ++ []), after⟩ := ⟨rfl, rfl⟩
  have hend := mem_ends_renamePattern.mpr ⟨old, new, hold, hnew, hpass, rfl⟩
  obtain ⟨m, r, hsearch, -⟩ := Pattern.exists_search hend []
  simp [changedName?, Pattern.find?, hchange, hsearch]

theorem changedName?_eq_none {change : String} (h : singleQuote ∉ change.toList) :
    changedName? change = none := by
  by_contra hne
  obtain ⟨x, hx⟩ := Option.ne_none_iff_exists'.mp hne
  obtain ⟨before, old, new, after, hchange, -⟩ := exists_of_changedName? hx
  apply h
  simp [hchange, quotedNames]

/-- The text before the first quote is determined, and so is the text after it. -/
theorem append_quote_inj {s s' t t' : List Char} (hs : singleQuote ∉ s) (hs' : singleQuote ∉ s')
    (h : s ++ singleQuote :: t = s' ++ singleQuote :: t') : s = s' ∧ t = t' := by
  rcases List.append_eq_append_iff.mp h with ⟨u, rfl, hu⟩ | ⟨u, rfl, hu⟩ <;>
    cases u <;> simp_all

/-- Of two names in quotes the first one is read back, if there are no other quotes. -/
theorem changedName?_eq_some {change : String} {before old new after : List Char}
    (hchange : change.toList = before ++ (quotedNames old new ++ after))
    (hbefore : singleQuote ∉ before) (hafter : singleQuote ∉ after) (hold : Quotable old)
    (hnew : Quotable new) : changedName? change = some (String.ofList old) := by
  obtain ⟨x, hx⟩ := Option.ne_none_iff_exists'.mp (changedName?_ne_none hchange hold hnew)
  obtain ⟨before', old', new', after', hchange', rfl⟩ := exists_of_changedName? hx
  have hsame : before ++ (quotedNames old new ++ after) =
      before' ++ (quotedNames old' new' ++ after') := hchange ▸ hchange'
  -- there are four quotes, so none is left for what stands before the names found
  have hcount := congrArg (List.count singleQuote) hsame
  simp only [List.count_append, count_quotedNames, List.count_eq_zero_of_not_mem hbefore,
    List.count_eq_zero_of_not_mem hafter, List.count_eq_zero_of_not_mem hold.noQuote,
    List.count_eq_zero_of_not_mem hnew.noQuote] at hcount
  have hbefore' : singleQuote ∉ before' := List.count_eq_zero.mp (by omega)
  have hold' : singleQuote ∉ old' := List.count_eq_zero.mp (by omega)
  obtain ⟨-, hrest⟩ := append_quote_inj hbefore hbefore' hsame
  simp only [List.append_eq, List.append_assoc, List.cons_append] at hrest
  rw [hx, (append_quote_inj hold.noQuote hold' hrest).1]

/-! ### What stands around the names -/

/-- A text without quotes and without the bracket that a mark begins with. -/
structure Plain (text : String) : Prop where
  noQuote : singleQuote ∉ text.toList
  noBracket : '(' ∉ text.toList

instance (text : String) : Decidable (Plain text) :=
  decidable_of_iff (singleQuote ∉ text.toList ∧ '(' ∉ text.toList)
    ⟨fun h => ⟨h.1, h.2⟩, fun h => ⟨h.noQuote, h.noBracket⟩⟩

theorem Plain.append {text rest : String} (h : Plain text) (hrest : Plain rest) :
    Plain (text ++ rest) := by
  constructor
  · simpa [String.toList_append] using ⟨h.noQuote, hrest.noQuote⟩
  · simpa [String.toList_append] using ⟨h.noBracket, hrest.noBracket⟩

theorem plain_of_spelled {name : String} (h : Spelled name) : Plain name where
  noQuote hmem := absurd (h.chars singleQuote hmem) (by decide)
  noBracket hmem := absurd (h.chars '(' hmem) (by decide)

theorem quotable_of_spelled {name : String} (h : Spelled name) : Quotable name.toList where
  ne_nil := mt String.toList_eq_nil_iff.mp h.ne_empty
  noQuote := (plain_of_spelled h).noQuote

def kindWords : List String := "symbol" :: ElementKind.known.map ElementKind.label

theorem label_mem_kindWords {kind : ElementKind} (h : kind ∈ ElementKind.known) :
    kind.label ∈ kindWords := List.mem_cons_of_mem _ (List.mem_map_of_mem h)

theorem plain_kindWord {kind : String} (h : kind ∈ kindWords) : Plain kind :=
  (by decide : ∀ kind ∈ kindWords, Plain kind) kind h

/-! ### Changes of names -/

theorem spelled_newName? {s : Settings} {e : Element} {new : String} (hname : Spelled e.name)
    (hnew : s.newName? e = some new) : Spelled new := by
  obtain ⟨convention, rfl, hne, -⟩ := s.exists_of_newName? hnew
  exact ⟨Naming.nameChars_recaseAs hname.chars convention, hne⟩

/-- A change tells what has got another name, both names, and possibly a mark. -/
structure Tells (change label old new : String) (after : List Char) : Prop where
  text : change.toList = ("Renamed " ++ label ++ " ").toList ++
    (quotedNames old.toList new.toList ++ after)
  label : label ∈ kindWords
  old : Spelled old
  new : Spelled new
  after : after ∈ [[], " (cross-file)".toList]

theorem Tells.changedName? {change label old new : String} {after : List Char}
    (h : Tells change label old new after) : changedName? change = some old := by
  have hbefore : Plain ("Renamed " ++ label ++ " ") :=
    ((by decide : Plain "Renamed ").append (plain_kindWord h.label)).append (by decide)
  have hafter : singleQuote ∉ after :=
    (by decide : ∀ after ∈ [[], " (cross-file)".toList], singleQuote ∉ after) after h.after
  rw [changedName?_eq_some h.text hbefore.noQuote hafter (quotable_of_spelled h.old)
    (quotable_of_spelled h.new), String.ofList_toList]

/-- A renaming whose wording can be read back. -/
structure Tellable (r : Element × String) : Prop where
  label : r.1.kind.label ∈ kindWords
  old : Spelled r.1.name
  new : Spelled r.2

theorem Tellable.tells {r : Element × String} (h : Tellable r) :
    Tells (describe r) r.1.kind.label r.1.name r.2 [] := by
  refine ⟨?_, h.label, h.old, h.new, List.mem_cons_self⟩
  have hwording : describe r = "Renamed " ++ r.1.kind.label ++ " '" ++ r.1.name ++ "' to '" ++
      r.2 ++ "'" := rfl
  rw [hwording]
  simp [quotedNames, singleQuote]

theorem Tellable.changedName? {r : Element × String} (h : Tellable r) :
    changedName? (describe r) = some r.1.name := h.tells.changedName?

theorem tellable_of_mem_renamings [Dialect] {s : Settings} {d : Disk} {p : Path} {source : Source}
    (hsource : Source.ofFile d p = .ok source) :
    ∀ r ∈ renamings s (elements source.tree), Tellable r := by
  intro r hr
  rw [renamings_eq_filterMap] at hr
  obtain ⟨e, he, hr⟩ := List.mem_filterMap.mp hr
  obtain ⟨new, hnew, rfl⟩ := Option.map_eq_some_iff.mp hr
  have hold := spelled_of_mem_elements hsource e he
  exact ⟨label_mem_kindWords (known_of_mem_elements he), hold, spelled_newName? hold hnew⟩

/-- Of the changes that can be read back those stay whose name the project leaves alone. -/
theorem combinedChanges_eq (m : SymbolMap) (cross : NameMap) (path : Path)
    {own : List (Element × String)} (hown : ∀ r ∈ own, Tellable r) :
    combinedChanges m cross path own =
      (own.filter fun r => !cross.contains r.1.name).map describe ++
        cross.entries.map (describeCross m path) := by
  have hfilter : own.filter (isLeftAlone cross ∘ describe) =
      own.filter fun r => !cross.contains r.1.name := by
    refine List.filter_congr fun r hr => ?_
    simp [isLeftAlone, (hown r hr).changedName?]
  rw [combinedChanges, List.filter_map, hfilter]

end Restyle.Project
