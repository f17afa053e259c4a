import Mathlib.Data.List.Infix
import Restyle.Proofs.Rename.Relabelling
import Restyle.Proofs.Syntax.AlikeStatements

/-!
Renaming in trees and renaming in texts. A text whose words get new names is worded like the old
one, if old names stand in it only where they are read as names. Then it is a source again, and its
tree has the new names in all places. Renaming in the tree passes over some of these places, such
as parameters and imports. The main statement says that both ways lead to the same names exactly if
no old name stands in a place that is passed over.
-/

namespace Restyle

open Syntax
open LexState (isQuote)
open Naming (Spelled)
open Text (Apart IsRun isWordChar mayBeNameChar normalize pieces)

/-! ### Names in trees -/

namespace Syntax

/-- All names in a node itself, also those in patterns. -/
def Label.allNames : Label → List String
  | .matchMapping rest => rest.toList
  | .matchClass attrs => attrs
  | l => l.names.map (·.2)

def Tree.allNames (t : Tree) : List String := t.preorder.flatMap (·.label.allNames)

def Label.isRenamed : Label → Bool
  | .name _ _ => true
  | .attr _ _ => true
  | .functionDef _ _ => true
  | .classDef _ => true
  | _ => false

def nameParts (a : String) : List String := (a.toList.splitOn '.').map String.ofList

/-- The names in a tree that renaming in the tree does not look at. -/
def Tree.passedOver (t : Tree) : List String :=
  (t.preorder.filter (!·.label.isRenamed)).flatMap fun n => n.label.allNames.flatMap nameParts

end Syntax

/-! ### Maps of plain names -/

/-- Old and new names are plain names that mean nothing in the grammar, and no new name is an old
one. -/
@[mk_iff]
structure PlainMap (m : NameMap) : Prop where
  nodup : m.keys.Nodup
  old : ∀ r ∈ m.entries, IsPlainName r.1.toList ∧ r.1 ∉ softWords
  new : ∀ r ∈ m.entries, IsPlainName r.2.toList ∧ r.2 ∉ softWords
  apart : ∀ r ∈ m.entries, ∀ q ∈ m.entries, r.2 ≠ q.1

instance {m : NameMap} : Decidable (PlainMap m) := decidable_of_iff' _ (plainMap_iff m)

namespace NameMap

variable {m : NameMap} {a b : String}

/-- The new name of a dotted name, part by part. -/
def applyPath (m : NameMap) (a : String) : String :=
  String.intercalate "." ((nameParts a).map m.apply)

end NameMap

namespace PlainMap

variable {m : NameMap} {a b : String} {w : List Char}

theorem isWordChar_of_plain (hw : IsPlainName w) : IsRun isWordChar w := by
  refine ⟨hw.isRun.ne_nil, fun c hc => ?_⟩
  have hsmall : c.toNat < 128 := by simpa using List.all_eq_true.mp hw.ascii c hc
  have hname := hw.isRun.all c hc
  revert hname
  exact Text.forall_ascii (P := fun c => mayBeNameChar c = true → isWordChar c = true)
    (by decide) hsmall

theorem wordMap (h : PlainMap m) : Rename.WordMap m.entries :=
  ⟨fun r hr => isWordChar_of_plain (h.old r hr).1, fun r hr => isWordChar_of_plain (h.new r hr).1,
    h.apart⟩

theorem plain_of_mem (h : PlainMap m) (ha : a ∈ m.keys) :
    IsPlainName a.toList ∧ IsPlainName (m.apply a).toList := by
  obtain ⟨r, hr, rfl, happly⟩ := NameMap.exists_entry h.nodup ha
  rw [happly]
  exact ⟨(h.old r hr).1, (h.new r hr).1⟩

theorem apply_eq_self_iff (h : PlainMap m) : m.apply a = a ↔ a ∉ m.keys := by
  refine ⟨fun heq hmem => ?_, NameMap.apply_of_not_mem⟩
  obtain ⟨r, hr, rfl, happly⟩ := NameMap.exists_entry h.nodup hmem
  exact h.apart r hr r hr (happly.symm.trans heq)

def likeness (h : PlainMap m) : NameLikeness where
  rel a b := Spelled a ∧ b = m.apply a
  soft := by
    rintro a b ⟨-, rfl⟩ w hw
    by_cases ha : a ∈ m.keys
    · obtain ⟨r, hr, rfl, happly⟩ := NameMap.exists_entry h.nodup ha
      rw [happly]
      exact iff_of_false (fun heq => (h.old r hr).2 (heq ▸ hw))
        fun heq => (h.new r hr).2 (heq ▸ hw)
    · rw [NameMap.apply_of_not_mem ha]

end PlainMap

/-! ### Old names in a text -/

namespace Rename

variable {m : NameMap} {site : Site} {w s : List Char}

/-- An old name before the text `s` that is read as a name, and so is the new one. -/
def Named (m : NameMap) (site : Site) (w s : List Char) : Prop :=
  String.ofList w ∈ m.keys ∧ (site.admits w = true ∧ site.admits (m.applyWord w) = true) ∧
    (s.head?.any isQuote = true →
      isStringMark w = false ∧ isStringMark (m.applyWord w) = false)

/-- A word before the text `s` that has no old name in it, and is none in its normal form. In a
number no old name stands at the end, and after a backslash the word does not name a character. -/
def Inert (m : NameMap) (site : Site) (w s : List Char) : Prop :=
  (∀ v ∈ pieces isWordChar w, String.ofList v ∉ m.keys) ∧
    String.ofList (normalize w) ∉ m.keys ∧
    (startsWithDigit w = true ∨ site = .point → ∀ v ∈ w.tails, startsWithFollower v = true →
      String.ofList (normalize v) ∉ m.keys) ∧
    (site = .escape → w = ['N'] → s.head? ≠ some '{')

/-- Old names in a text, which is given in pieces, are read as names. -/
def Clear (m : NameMap) : Site → List (List Char) → Prop
  | _, [] => True
  | site, [] :: rest => Clear m site rest
  | site, (c :: v) :: rest =>
    if mayBeNameChar c then
      (Named m site (c :: v) rest.flatten ∨ Inert m site (c :: v) rest.flatten) ∧
        Clear m (.afterWord (c :: v)) rest
    else Clear m (site.afterMark c) rest

instance : Decidable (Named m site w s) := inferInstanceAs (Decidable (_ ∧ _ ∧ _))

instance : Decidable (Inert m site w s) := inferInstanceAs (Decidable (_ ∧ _ ∧ _ ∧ _))

instance decidableClear (m : NameMap) : ∀ site ps, Decidable (Clear m site ps)
  | _, [] => inferInstanceAs (Decidable True)
  | site, [] :: rest => decidableClear m site rest
  | site, (c :: v) :: rest =>
    have := decidableClear m (.afterWord (c :: v)) rest
    have := decidableClear m (site.afterMark c) rest
    inferInstanceAs (Decidable (if mayBeNameChar c then _ else _))

theorem keeps_of_not_mem (h : PlainMap m) (hne : w ≠ []) (hw : Text.NameChars w)
    (hmem : String.ofList (normalize w) ∉ m.keys) : h.likeness.Keeps w := by
  refine ⟨⟨?_, mt String.ofList_eq_empty_iff.mp (Text.normalize_ne_nil hne)⟩,
    (NameMap.apply_of_not_mem hmem).symm⟩
  rw [String.toList_ofList]
  exact Text.nameChars_normalize hw

theorem Named.changed (h : PlainMap m) (hw : Named m site w s) (hs : Apart mayBeNameChar s) :
    Changed h.likeness site w (m.applyWord w) s := by
  obtain ⟨hmem, hadmits, hunmarked⟩ := hw
  obtain ⟨hold, hnew⟩ := h.plain_of_mem hmem
  rw [String.toList_ofList] at hold
  refine ⟨hold, hnew, ⟨⟨?_, ?_⟩, String.ofList_toList⟩, hadmits, hs, hunmarked⟩
  · rw [String.toList_ofList]
    exact hold.isRun.all
  · exact mt String.ofList_eq_empty_iff.mp hold.isRun.ne_nil

theorem Inert.kept (h : PlainMap m) (hinert : Inert m site w s) (hw : IsRun mayBeNameChar w)
    (hs : Apart mayBeNameChar s) : Kept h.likeness site w s := by
  obtain ⟨-, hnormal, hends, hunnamed⟩ := hinert
  refine ⟨hw, hs, keeps_of_not_mem h hw.ne_nil hw.all hnormal, fun hnumber v hv hfollower => ?_,
    fun _ => hunnamed⟩
  refine keeps_of_not_mem h ?_ (fun c hc => hw.all c (hv.subset hc))
    (hends hnumber v ((List.mem_tails v w).mpr hv) hfollower)
  rintro rfl
  exact absurd hfollower (by decide)

theorem Inert.flatMap_eq (hinert : Inert m site w s) :
    (pieces isWordChar w).flatMap m.applyWord = w := by
  calc (pieces isWordChar w).flatMap m.applyWord
      = (pieces isWordChar w).flatMap id :=
        List.flatMap_congr fun v hv => applyWord_of_not_mem (hinert.1 v hv)
    _ = w := by rw [List.flatMap_id, Text.flatten_pieces]

theorem Named.flatMap_eq (h : PlainMap m) (hw : Named m site w s) :
    (pieces isWordChar w).flatMap m.applyWord = m.applyWord w := by
  have hplain := (h.plain_of_mem hw.1).1
  rw [String.toList_ofList] at hplain
  rw [Text.pieces_run (PlainMap.isWordChar_of_plain hplain), List.flatMap_singleton]

/-- A text with new names is worded like the old one. -/
theorem reworded_of_clear (h : PlainMap m) (s : List Char)
    (hclear : Clear m site (pieces mayBeNameChar s)) :
    Reworded h.likeness site s ((pieces isWordChar s).flatMap m.applyWord) := by
  have hword : InWords isWordChar := inWords_of_ascii (by decide)
  induction s using Text.pieces_induction mayBeNameChar generalizing site with
  | nil => exact .nil site
  | other c s hc ih =>
    have hmark : String.ofList [c] ∉ m.keys := by
      intro hmem
      have hrun := (h.plain_of_mem hmem).1.isRun
      rw [String.toList_ofList] at hrun
      exact absurd (hrun.all c List.mem_cons_self) (by simp [hc])
    rw [Text.pieces_cons hc, Clear, hc] at hclear
    rw [Text.pieces_cons (hword.eq_false hc), List.flatMap_cons, applyWord_of_not_mem hmark]
    exact .mark hc (ih hclear)
  | run w s hw hs ih =>
    obtain ⟨hpiece, hrest⟩ : (Named m site w s ∨ Inert m site w s) ∧
        Clear m (.afterWord w) (pieces mayBeNameChar s) := by
      obtain ⟨c, v, rfl⟩ := List.exists_cons_of_ne_nil hw.ne_nil
      rwa [Text.pieces_run_append hw hs, Clear, if_pos (hw.all c List.mem_cons_self),
        Text.flatten_pieces] at hclear
    rw [Text.pieces_append (hs.narrower hword), List.flatMap_append]
    rcases hpiece with hnamed | hinert
    · rw [hnamed.flatMap_eq h]
      exact .changed (hnamed.changed h hs) (ih hrest).toPlain
    · rw [hinert.flatMap_eq]
      exact .kept (hinert.kept h hw hs) (ih hrest)

/-- The text after renaming is a source if the old one is, and their trees are alike. -/
theorem exists_renamed [Dialect] {source : List Char} {t : Tree} (h : PlainMap m)
    (hclear : Clear m .plain (pieces mayBeNameChar source)) (hparse : parse? source = some t) :
    ∃ text t', renameWords m source = .ok text ∧ parse? text = some t' ∧
      TreeLike h.likeness .none t t' := by
  have htree := rel_parse?_reworded (reworded_of_clear h source hclear)
  rw [hparse] at htree
  generalize htext : parse? ((pieces isWordChar source).flatMap m.applyWord) = x at htree
  cases htree with
  | some hlike => exact ⟨_, _, renameWords_eq_flatMap h.wordMap h.nodup source, htext, hlike⟩

end Rename

/-! ### Names in two trees -/

section Names

variable {m : NameMap} {a b : String} {l l' : Label} {t t' : Tree}

theorem Syntax.nameParts_intercalate {as : List String} (hne : as ≠ [])
    (h : ∀ a ∈ as, '.' ∉ a.toList) : nameParts (String.intercalate "." as) = as := by
  have hsplit : (String.intercalate "." as).toList.splitOn '.' = as.map String.toList := by
    rw [String.toList_intercalate]
    exact List.splitOn_intercalate '.' (by simpa using h) (by simpa using hne)
  rw [nameParts, hsplit, List.map_map]
  simp

theorem Syntax.intercalate_nameParts (a : String) : String.intercalate "." (nameParts a) = a := by
  rw [← String.toList_inj, String.toList_intercalate, nameParts, List.map_map]
  have hid : String.toList ∘ String.ofList = id := by
    funext s
    exact String.toList_ofList
  rw [hid, List.map_id]
  exact List.intercalate_splitOn '.'

theorem Syntax.nameParts_ne_nil (a : String) : nameParts a ≠ [] := by
  simp [nameParts, List.splitOn_ne_nil]

theorem Syntax.not_mem_nameParts (h : b ∈ nameParts a) : '.' ∉ b.toList := by
  obtain ⟨w, hw, rfl⟩ := List.mem_map.mp h
  rw [← Text.splitOn_eq] at hw
  rw [String.toList_ofList]
  exact Text.notMem_of_mem_splitOn hw

theorem Syntax.nameParts_single (h : '.' ∉ a.toList) : nameParts a = [a] := by
  have hparts := nameParts_intercalate (List.cons_ne_nil a []) (by simpa using h)
  simpa using hparts

theorem Syntax.Label.isRenamed_of_isNameless (h : l.isNameless = true) : l.isRenamed = false := by
  cases l <;> first | rfl | cases h

theorem Syntax.Label.allNames_of_isNameless (h : l.isNameless = true) : l.allNames = [] := by
  cases l <;> first | rfl | cases h

theorem Syntax.Label.length_rename (m : NameMap) (l : Label) :
    (l.rename m).allNames.length = l.allNames.length := by
  cases l <;> rfl

namespace PlainMap

theorem not_mem_apply (h : PlainMap m) (ha : '.' ∉ a.toList) : '.' ∉ (m.apply a).toList := by
  by_cases hmem : a ∈ m.keys
  · intro hdot
    exact absurd ((h.plain_of_mem hmem).2.isRun.all '.' hdot) (by decide)
  · rwa [NameMap.apply_of_not_mem hmem]

/-- A dotted name stays if no part of it is an old name. -/
theorem applyPath_eq_self_iff (h : PlainMap m) :
    m.applyPath a = a ↔ ∀ b ∈ nameParts a, b ∉ m.keys := by
  have hparts : nameParts (m.applyPath a) = (nameParts a).map m.apply := by
    refine nameParts_intercalate (by simpa using nameParts_ne_nil a) fun b hb => ?_
    obtain ⟨c, hc, rfl⟩ := List.mem_map.mp hb
    exact h.not_mem_apply (not_mem_nameParts hc)
  constructor
  · intro heq b hb
    have hsame : (nameParts a).map m.apply = (nameParts a).map id := by
      rw [← hparts, heq, List.map_id]
    exact h.apply_eq_self_iff.mp (List.map_inj_left.mp hsame b hb)
  · intro hall
    rw [NameMap.applyPath, List.map_congr_left fun b hb => NameMap.apply_of_not_mem (hall b hb),
      List.map_id', intercalate_nameParts]

theorem applyPath_of_rel (h : PlainMap m) (hrel : h.likeness.rel a b) : b = m.applyPath a := by
  obtain ⟨hspelled, rfl⟩ := hrel
  have hdot : '.' ∉ a.toList := fun hdot => absurd (hspelled.chars '.' hdot) (by decide)
  rw [NameMap.applyPath, nameParts_single hdot]
  simp

theorem applyPath_of_not_run (h : PlainMap m) (hdot : '.' ∉ a.toList)
    (ha : ¬ IsRun mayBeNameChar a.toList) : m.applyPath a = a := by
  rw [h.applyPath_eq_self_iff, nameParts_single hdot]
  intro b hb hmem
  rw [List.mem_singleton.mp hb] at hmem
  exact ha (h.plain_of_mem hmem).1.isRun

theorem applyPath_of_dotted (h : PlainMap m) (hdotted : h.likeness.Dotted a b) :
    b = m.applyPath a := by
  obtain ⟨as, bs, hs, rfl, rfl⟩ := hdotted
  have hbs : bs = as.map m.apply := by
    induction hs with
    | nil => rfl
    | cons hab _ ih => rw [List.map_cons, ← hab.2, ← ih]
  have hdots : ∀ a ∈ as, '.' ∉ a.toList := by
    clear hbs
    induction hs with
    | nil => exact nofun
    | cons hab _ ih =>
      refine List.forall_mem_cons.mpr ⟨fun hdot => ?_, ih⟩
      exact absurd (hab.1.chars '.' hdot) (by decide)
  by_cases hne : as = []
  · subst hne
    rw [hbs]
    exact (h.applyPath_of_not_run (by simp) fun hrun => hrun.ne_nil (by simp)).symm
  · rw [NameMap.applyPath, nameParts_intercalate hne hdots, hbs]

/-- The text after renaming has the new names in all places. -/
theorem allNames_eq_map (h : PlainMap m) {free : Prop} (hl : LabelLike h.likeness free l l') :
    l'.allNames = l.allNames.map m.applyPath := by
  have hlist {as bs : List String} (hs : List.Forall₂ h.likeness.rel as bs) :
      bs = as.map m.applyPath := by
    induction hs with
    | nil => rfl
    | cons hab _ ih => rw [List.map_cons, ← h.applyPath_of_rel hab, ← ih]
  have hoption {R : String → String → Prop} (hR : ∀ {a b}, R a b → b = m.applyPath a)
      {x y : Option String} (hs : Option.Rel R x y) : y.toList = x.toList.map m.applyPath := by
    cases hs with
    | none => rfl
    | some hab => simp [hR hab]
  have hname {x y : Option String} (hs : Option.Rel h.likeness.rel x y) :
      y.toList = x.toList.map m.applyPath := hoption h.applyPath_of_rel hs
  cases hl with
  | same hnameless =>
    rw [Label.allNames_of_isNameless hnameless]
    rfl
  | changed _ a b => rfl
  | changedBytes _ a b => rfl
  | functionDef _ hab => simp [Label.allNames, Label.names, h.applyPath_of_rel hab]
  | classDef hab => simp [Label.allNames, Label.names, h.applyPath_of_rel hab]
  | importFrom _ hab =>
    simp [Label.allNames, Label.names, hoption h.applyPath_of_dotted hab]
  | globalStmt hab => simp [Label.allNames, Label.names, hlist hab]
  | nonlocalStmt hab => simp [Label.allNames, Label.names, hlist hab]
  | attr hab => simp [Label.allNames, Label.names, h.applyPath_of_rel hab]
  | name hab => simp [Label.allNames, Label.names, h.applyPath_of_rel hab]
  | exceptHandler hab => simp [Label.allNames, Label.names, hname hab]
  | arg hab => simp [Label.allNames, Label.names, h.applyPath_of_rel hab]
  | keyword hab => simp [Label.allNames, Label.names, hname hab]
  | importName hab hx => simp [Label.allNames, Label.names, h.applyPath_of_dotted hab, hname hx]
  | importAll =>
    have hstar : m.applyPath "*" = "*" := h.applyPath_of_not_run (by decide) fun hrun =>
      absurd (hrun.all '*' (by decide)) (by decide)
    simp [Label.allNames, Label.names, hstar]
  | matchMapping hab => simp [Label.allNames, hname hab]
  | matchClass hab => simp [Label.allNames, hlist hab]
  | matchStar hab => simp [Label.allNames, Label.names, hname hab]
  | matchAs hab => simp [Label.allNames, Label.names, hname hab]

/-- A node of the renamed tree has the names of the node in the other tree, unless it is passed over
and has an old name. -/
theorem allNames_rename_iff (h : PlainMap m) {free : Prop}
    (hl : LabelLike h.likeness free l l') :
    (l.rename m).allNames = l'.allNames ↔
      (l.isRenamed = false → ∀ a ∈ l.allNames, ∀ b ∈ nameParts a, b ∉ m.keys) := by
  rw [h.allNames_eq_map hl]
  cases hrenamed : l.isRenamed with
  | true =>
    refine iff_of_true ?_ nofun
    have happly {a b : String} (hab : h.likeness.rel a b) : m.apply a = m.applyPath a :=
      hab.2.symm.trans (h.applyPath_of_rel hab)
    cases hl with
    | same hnameless => rw [Label.isRenamed_of_isNameless hnameless] at hrenamed; cases hrenamed
    | functionDef _ hab => simp [Label.rename, Label.allNames, Label.names, happly hab]
    | classDef hab => simp [Label.rename, Label.allNames, Label.names, happly hab]
    | attr hab => simp [Label.rename, Label.allNames, Label.names, happly hab]
    | name hab => simp [Label.rename, Label.allNames, Label.names, happly hab]
    | _ => cases hrenamed
  | false =>
    have hsame : (l.rename m).allNames = l.allNames.map id := by
      rw [List.map_id]
      cases l <;> first | rfl | cases hrenamed
    rw [hsame, List.map_inj_left]
    simp only [id, forall_const, eq_comm (b := m.applyPath _), h.applyPath_eq_self_iff]

end PlainMap

namespace Syntax

variable {ν : NameLikeness} {F : Places}

mutual

/-- Alike trees have alike nodes in the same order. -/
theorem TreeLike.preorder : ∀ t t' : Tree, TreeLike ν F t t' →
    List.Forall₂ (fun n n' => LabelLike ν True n.label n'.label) t.preorder t'.preorder
  | .node _ _ _ cs, .node _ _ _ cs', h => by
    cases h with
    | node _ hl hcs =>
      rw [Tree.preorder_node, Tree.preorder_node]
      exact .cons (hl.weaken fun _ => trivial) (TreesLike.preorders cs cs' hcs)

theorem TreesLike.preorders : ∀ ts ts' : List Tree, TreesLike ν F ts ts' →
    List.Forall₂ (fun n n' => LabelLike ν True n.label n'.label) (Tree.preorders ts)
      (Tree.preorders ts')
  | [], [], _ => .nil
  | t :: ts, t' :: ts', h => by
    rw [Tree.preorders_cons, Tree.preorders_cons]
    exact List.rel_append (TreeLike.preorder t t' (List.forall₂_cons.mp h).1)
      (TreesLike.preorders ts ts' (List.forall₂_cons.mp h).2)

end

end Syntax

theorem PlainMap.flatMap_allNames_iff (h : PlainMap m) {ns ns' : List Tree}
    (hns : List.Forall₂ (fun n n' => LabelLike h.likeness True n.label n'.label) ns ns') :
    ns.flatMap (fun n => (n.label.rename m).allNames) = ns'.flatMap (·.label.allNames) ↔
      ∀ n ∈ ns, n.label.isRenamed = false →
        ∀ a ∈ n.label.allNames, ∀ b ∈ nameParts a, b ∉ m.keys := by
  induction hns with
  | nil => simp
  | @cons n n' ns ns' hn _ ih =>
    have hlength : (n.label.rename m).allNames.length = n'.label.allNames.length := by
      rw [Label.length_rename, h.allNames_eq_map hn, List.length_map]
    rw [List.flatMap_cons, List.flatMap_cons, List.forall_mem_cons, ← ih,
      ← h.allNames_rename_iff hn]
    constructor
    · intro heq
      exact List.append_inj heq hlength
    · rintro ⟨hfirst, hrest⟩
      rw [hfirst, hrest]

theorem PlainMap.flatMap_allNames (h : PlainMap m) {ns ns' : List Tree}
    (hns : List.Forall₂ (fun n n' => LabelLike h.likeness True n.label n'.label) ns ns') :
    ns'.flatMap (·.label.allNames) = (ns.flatMap (·.label.allNames)).map m.applyPath := by
  induction hns with
  | nil => rfl
  | cons hn _ ih =>
    rw [List.flatMap_cons, List.flatMap_cons, List.map_append, h.allNames_eq_map hn, ih]

theorem Syntax.Tree.mem_passedOver {b : String} : b ∈ t.passedOver ↔
    ∃ n ∈ t.preorder, n.label.isRenamed = false ∧ ∃ a ∈ n.label.allNames, b ∈ nameParts a := by
  simp [Tree.passedOver, and_assoc]

end Names

namespace Rename

/-- Renaming in the text gives new names to all names of the tree. Renaming in the tree leads to the
same names if and only if it passes over no old name. -/
theorem rename_tree_text_agree_iff [Dialect] {m : NameMap} {source : List Char} {t : Tree}
    (h : PlainMap m) (hclear : Clear m .plain (pieces mayBeNameChar source))
    (hparse : parse? source = some t) :
    ∃ text t', renameWords m source = .ok text ∧ parse? text = some t' ∧
      t'.allNames = t.allNames.map m.applyPath ∧
      ((t.rename m).allNames = t'.allNames ↔ ∀ b ∈ t.passedOver, b ∉ m.keys) := by
  obtain ⟨text, t', hrename, hparse', hlike⟩ := exists_renamed h hclear hparse
  have hnodes := TreeLike.preorder t t' hlike
  refine ⟨text, t', hrename, hparse', h.flatMap_allNames hnodes, ?_⟩
  have hnames : (t.rename m).allNames =
      t.preorder.flatMap fun n => (n.label.rename m).allNames := by
    rw [Tree.allNames, Tree.preorder_rename, List.flatMap_map]
    simp only [Tree.label_rename]
  rw [hnames, Tree.allNames, h.flatMap_allNames_iff hnodes]
  simp only [Tree.mem_passedOver]
  constructor
  · rintro hall b ⟨n, hn, hpassed, a, ha, hb⟩
    exact hall n hn hpassed a ha b hb
  · intro hall n hn hpassed a ha b hb
    exact hall b ⟨n, hn, hpassed, a, ha, hb⟩

private def oldMap : NameMap := ⟨[("old", "fresh")]⟩

/-- The name `old` as an attribute, in a field of a format, in its text and in a comment. -/
private def oldAttribute : List Char :=
  ("class A:\n    def run(self):\n        self.old = f\"\x7bself.old + 1!r\x7d old\"\n" ++
    "        return self.old  # \\old\n").toList

theorem rename_tree_text_agree_iff_sample :
    ∃ t, PlainMap oldMap ∧ Clear oldMap .plain (pieces mayBeNameChar oldAttribute) ∧
      parse? oldAttribute = some t ∧ (∀ b ∈ t.passedOver, b ∉ oldMap.keys) ∧
      ∃ text t', renameWords oldMap oldAttribute = .ok text ∧ parse? text = some t' ∧
        t'.allNames = t.allNames.map oldMap.applyPath ∧
        (t.rename oldMap).allNames = t'.allNames := by
  have hmap : PlainMap oldMap := by decide +kernel
  have hclear : Clear oldMap .plain (pieces mayBeNameChar oldAttribute) := by decide +kernel
  have hcheck : (parse? oldAttribute).any
      (fun t => decide (∀ b ∈ t.passedOver, b ∉ oldMap.keys)) = true := by
    decide +kernel
  obtain ⟨t, hparse, hpassed⟩ := (Option.any_eq_true _ _).mp hcheck
  have hkept := of_decide_eq_true hpassed
  obtain ⟨text, t', hrename, hparse', hnames, hiff⟩ :=
    rename_tree_text_agree_iff hmap hclear hparse
  exact ⟨t, hmap, hclear, hparse, hkept, text, t', hrename, hparse', hnames, hiff.mpr hkept⟩

private def parameterMap : NameMap := ⟨[("x", "y")]⟩

private def parameterUse : List Char := "def f(x):\n    return x\n".toList

/-- A parameter keeps its name in the tree and gets the new one in the text. -/
theorem parameter_passed_over :
    PlainMap parameterMap ∧ Clear parameterMap .plain (pieces mayBeNameChar parameterUse) ∧
      (parse? parameterUse).map (fun t => (t.rename parameterMap).allNames) =
        some ["f", "x", "y"] ∧
      (renameWords parameterMap parameterUse).toOption = some "def f(y):\n    return y\n".toList ∧
      (parse? "def f(y):\n    return y\n".toList).map Tree.allNames = some ["f", "y", "y"] := by
  decide +kernel

end Rename

end Restyle
