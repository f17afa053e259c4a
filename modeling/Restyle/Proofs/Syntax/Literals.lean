import Restyle.Proofs.Syntax.Rewording

/-!
String literals whose contents are worded alike. Escapes stay, and the parts of format strings are
alike: texts and fields stand at the same places among them, and the sources of fields are worded
alike. Nothing depends on the place where a literal stands, but for the places of its fields.
-/

namespace Restyle.Syntax

open LexState (isQuote)
open Text (Apart IsRun mayBeNameChar)

variable {ν : NameLikeness} {site : Site} {c : Char} {s s' w : List Char}
variable {done : List Char} {skip : Nat}

/-! ### Escapes -/

/-- Texts that literals with contents worded alike stand for. -/
def TextLike (ν : NameLikeness) (s t : List Char) : Prop := (ν = .same → s = t) ∧ (s = [] ↔ t = [])

theorem Reworded.textLike (h : Reworded ν site s s') : TextLike ν s s' := by
  refine ⟨?_, h.eq_nil_iff⟩
  rintro rfl
  exact h.eq_of_same

namespace TextLike

variable {t t' : List Char}

theorem nil (ν : NameLikeness) : TextLike ν [] [] := ⟨fun _ => rfl, Iff.rfl⟩

theorem append (h : TextLike ν s s') (ht : TextLike ν t t') : TextLike ν (s ++ t) (s' ++ t') := by
  refine ⟨fun hν => by rw [h.1 hν, ht.1 hν], ?_⟩
  rw [List.append_eq_nil_iff, List.append_eq_nil_iff, h.2, ht.2]

end TextLike

/-- A mark after a backslash is an escape of its own. -/
theorem escape?_mark [Dialect] (isBytes : Bool) (hc : mayBeNameChar c = false) :
    ∃ chars, ∀ s, escape? isBytes (c :: s) = some (chars, 1) := by
  have hletter : InWords fun c => isOctal c || ['x', 'u', 'U', 'N'].contains c :=
    inWords_of_ascii (by decide)
  have hother := hletter.eq_false hc
  simp only [List.contains_cons, List.contains_nil, Bool.or_false, Bool.or_eq_false_iff,
    beq_eq_false_iff_ne, ne_eq] at hother
  obtain ⟨hoctal, hx, hu, hU, hN⟩ := hother
  unfold escape?
  by_cases hline : c = '\n'
  · exact ⟨[], fun s => if_pos hline⟩
  · simp only [if_neg hline]
    cases simpleEscape? c with
    | some d => exact ⟨[d], fun s => rfl⟩
    | none => exact ⟨['\\', c], fun s => by simp [hoctal, hx, hu, hU, hN]⟩

theorem hexEscape?_append (count : Nat) (hs : Apart mayBeNameChar s) (v : List Char) :
    hexEscape? count (v ++ s) = hexEscape? count v := by
  have hhex : InWords isHex := inWords_of_ascii (by decide)
  unfold hexEscape?
  dsimp only
  by_cases hlong : count ≤ v.length
  · rw [List.take_append_of_le_length hlong]
  · -- both are too short, as a mark is no digit
    rw [if_neg (c := (v.take count).length = count ∧ _) (by rw [List.length_take]; omega)]
    cases s with
    | nil =>
      rw [List.append_nil, if_neg (by rw [List.length_take]; omega)]
    | cons d s =>
      refine if_neg fun hdigits => ?_
      have hmem : d ∈ (v ++ d :: s).take count := by
        rw [List.take_append, List.mem_append]
        right
        obtain ⟨n, hn⟩ : ∃ n, count - v.length = n + 1 := ⟨count - v.length - 1, by omega⟩
        rw [hn]
        exact List.mem_cons_self
      have hd := List.all_eq_true.mp hdigits.2 d hmem
      simp [hhex.eq_false (Text.apart_cons.mp hs)] at hd

theorem takeWhile_append_apart {p : Char → Bool} (hp : InWords p) (hs : Apart mayBeNameChar s)
    (w : List Char) : (w ++ s).takeWhile p = w.takeWhile p := by
  induction w with
  | nil =>
    cases s with
    | nil => rfl
    | cons c s => simp [hp.eq_false (Text.apart_cons.mp hs)]
  | cons c w ih => rw [List.cons_append, List.takeWhile_cons, List.takeWhile_cons, ih]

theorem escape?_unnamed [Dialect] (isBytes : Bool) (h : s.head? ≠ some '{') :
    escape? isBytes ('N' :: s) = if isBytes then some (['\\', 'N'], 1) else none := by
  have hsimple : simpleEscape? 'N' = none := by decide
  have hoctal : isOctal 'N' = false := by decide
  cases isBytes with
  | true => simp [escape?, hsimple, hoctal]
  | false =>
    simp only [escape?, hsimple, hoctal, Char.reduceEq, if_false, if_true, Bool.false_eq_true]
    split
    case h_1 => exact absurd rfl h
    case h_2 => rfl

/-- A word after a backslash decides what the escape is. -/
theorem escape?_word [Dialect] (isBytes : Bool) (hw : IsRun mayBeNameChar w)
    (hs : Apart mayBeNameChar s) (hN : w = ['N'] → s.head? ≠ some '{') :
    escape? isBytes (w ++ s) = escape? isBytes w := by
  obtain ⟨c, v, rfl⟩ := List.exists_cons_of_ne_nil hw.ne_nil
  by_cases hc : c = 'N'
  · subst hc
    have hv : v.head? ≠ some '{' := by
      intro hbrace
      have hmem := List.mem_of_head? hbrace
      exact absurd (hw.all _ (List.mem_cons_of_mem _ hmem)) (by decide)
    have hvs : (v ++ s).head? ≠ some '{' := by
      cases v with
      | nil => exact hN rfl
      | cons d v => exact hv
    rw [List.cons_append, escape?_unnamed isBytes hvs, escape?_unnamed isBytes hv]
  · have hoctal : InWords isOctal := inWords_of_ascii (by decide)
    have hdigits : ((c :: v ++ s).take 3).takeWhile isOctal =
        ((c :: v).take 3).takeWhile isOctal := by
      rw [← List.take_takeWhile, ← List.take_takeWhile, takeWhile_append_apart hoctal hs]
    unfold escape?
    rw [List.cons_append] at hdigits ⊢
    dsimp only
    rw [hdigits, hexEscape?_append 2 hs, hexEscape?_append 4 hs, hexEscape?_append 8 hs, if_neg hc,
      if_neg hc]

/-- A name after a backslash is an escape of one character, and the rest of it is text. -/
theorem escape?_name [Dialect] (isBytes : Bool) (hw : IsPlainName w)
    (hsite : Site.admits .escape w = true) :
    ∃ chars, chars ≠ [] ∧ ∀ s, escape? isBytes (w ++ s) = some (chars, 1) := by
  have hrun := hw.isRun
  obtain ⟨c, v, rfl, hdigit⟩ := hw.exists_cons
  simp only [Site.admits, List.head?_cons, Option.any_some, List.contains_cons, List.contains_nil,
    Bool.or_false, Bool.not_eq_true', Bool.or_eq_false_iff, beq_eq_false_iff_ne, ne_eq] at hsite
  obtain ⟨hx, hu, hU, hN⟩ := hsite
  have hline : c ≠ '\n' := Text.ne_of_other (hrun.all c List.mem_cons_self) (by decide)
  have hoctal : isOctal c = false := by
    have hsmall : c.toNat < 128 := by simpa using List.all_eq_true.mp hw.ascii c List.mem_cons_self
    revert hdigit
    exact Text.forall_ascii (P := fun c => c.isDigit = false → isOctal c = false) (by decide) hsmall
  unfold escape?
  cases hsimple : simpleEscape? c with
  | some d => exact ⟨[d], List.cons_ne_nil _ _, fun s => by simp [hline, hsimple]⟩
  | none =>
    exact ⟨['\\', c], List.cons_ne_nil _ _,
      fun s => by simp [hline, hsimple, hoctal, hx, hu, hU, hN]⟩

theorem length_hexEscape? {count value : Nat} (h : hexEscape? count s = some value) :
    count ≤ s.length := by
  unfold hexEscape? at h
  rw [Option.ite_none_right_eq_some] at h
  have hlength := h.1.1
  rw [List.length_take] at hlength
  omega

theorem length_escape? [Dialect] {isBytes : Bool} {chars : List Char} {n : Nat}
    (h : escape? isBytes s = some (chars, n)) : n ≤ s.length := by
  unfold escape? at h
  split at h
  · cases h
    exact Nat.zero_le _
  split at h
  · cases h
    simp
  split at h
  · cases h
    simp
  -- up to three octal digits
  split at h
  · cases h
    exact (List.takeWhile_prefix _).length_le.trans (List.take_prefix 3 _).length_le
  split at h
  · obtain ⟨value, hvalue, hn⟩ := Option.map_eq_some_iff.mp h
    cases hn
    exact Nat.succ_le_succ (length_hexEscape? hvalue)
  split at h
  · cases h
    simp
  split at h
  · obtain ⟨value, hvalue, hn⟩ := Option.map_eq_some_iff.mp h
    cases hn
    exact Nat.succ_le_succ (length_hexEscape? hvalue)
  split at h
  · split at h
    · rename_i hvalue
      rw [Option.ite_none_left_eq_some] at h
      cases h.2
      exact Nat.succ_le_succ (length_hexEscape? hvalue)
    · cases h
  -- a name in braces
  split at h
  · split at h
    · rename_i named
      rw [Option.ite_none_left_eq_some] at h
      obtain ⟨hname, h⟩ := h
      obtain ⟨c, -, hn⟩ := Option.map_eq_some_iff.mp h
      cases hn
      have hle := (List.takeWhile_prefix (· != '}') (l := named)).length_le
      simp only [List.length_cons]
      omega
    · cases h
  · cases h
    simp

theorem unescapeFrom_word [Dialect] (isBytes : Bool) {n : Nat} (hn : n ≤ w.length)
    (hw : ∀ c ∈ w, mayBeNameChar c = true) :
    unescapeFrom isBytes n (w ++ s) = (unescapeFrom isBytes 0 s).map (w.drop n ++ ·) := by
  induction w generalizing n with
  | nil =>
    rw [Nat.le_zero.mp hn]
    simp
  | cons c w ih =>
    have hrest : ∀ d ∈ w, mayBeNameChar d = true := fun d hd => hw d (List.mem_cons_of_mem c hd)
    cases n with
    | succ n => exact ih (Nat.le_of_succ_le_succ hn) hrest
    | zero =>
      have hc : c ≠ '\\' := Text.ne_of_other (hw c List.mem_cons_self) (by decide)
      rw [List.cons_append, unescapeFrom, if_neg hc, ih (Nat.zero_le _) hrest, Option.map_map]
      rfl

theorem unescapeFrom_backslash [Dialect] (isBytes : Bool) (s : List Char) :
    unescapeFrom isBytes 0 ('\\' :: s) =
      escape? isBytes s >>= fun r => (unescapeFrom isBytes r.2 s).map (r.1 ++ ·) := by
  rw [unescapeFrom, if_pos rfl]
  cases escape? isBytes s <;> rfl

theorem rel_unescapeFrom [Dialect] (hν : ν ≠ .same) (isBytes : Bool) (h : Reworded ν site s s') :
    Option.Rel (fun a b => a = [] ↔ b = []) (unescapeFrom isBytes 0 s)
      (unescapeFrom isBytes 0 s') := by
  suffices hboth : Option.Rel (fun a b => a = [] ↔ b = []) (unescapeFrom isBytes 0 s)
      (unescapeFrom isBytes 0 s') ∧ (site = .escape → Option.Rel (fun a b => a = [] ↔ b = [])
        (unescapeFrom isBytes 0 ('\\' :: s)) (unescapeFrom isBytes 0 ('\\' :: s'))) from hboth.1
  have hmore (chars : List Char) {a b : List Char} (hab : a = [] ↔ b = []) :
      chars ++ a = [] ↔ chars ++ b = [] := by
    rw [List.append_eq_nil_iff, List.append_eq_nil_iff, hab]
  -- the second part is about texts after a backslash, whose first piece is an escape
  induction h with
  | nil => exact ⟨.some Iff.rfl, fun _ => .some (by simp)⟩
  | @mark site c s s' hc _ ih =>
    refine ⟨?_, fun _ => ?_⟩
    · by_cases hbackslash : c = '\\'
      · subst hbackslash
        exact ih.2 rfl
      · rw [unescapeFrom, unescapeFrom, if_neg hbackslash, if_neg hbackslash]
        exact rel_map ih.1 fun _ _ _ => by simp
    · obtain ⟨chars, hchars⟩ := escape?_mark isBytes hc
      rw [unescapeFrom_backslash, unescapeFrom_backslash, hchars, hchars]
      exact rel_map ih.1 fun _ _ => hmore chars
  | @kept site w s s' hw h ih =>
    refine ⟨?_, fun hsite => ?_⟩
    · rw [unescapeFrom_word isBytes (Nat.zero_le _) hw.run.all,
        unescapeFrom_word isBytes (Nat.zero_le _) hw.run.all]
      exact rel_map ih.1 fun _ _ => hmore w
    · have hnamed := hw.unnamed hν hsite
      rw [unescapeFrom_backslash, unescapeFrom_backslash,
        escape?_word isBytes hw.run hw.apart hnamed, escape?_word isBytes hw.run
          (h.apart hw.apart) (by rwa [← h.head?_eq hw.apart])]
      cases hescape : escape? isBytes w with
      | none => exact .none
      | some r =>
        obtain ⟨chars, n⟩ := r
        have hn := length_escape? hescape
        dsimp only [Option.bind_eq_bind, Option.bind_some]
        rw [unescapeFrom_word isBytes hn hw.run.all, unescapeFrom_word isBytes hn hw.run.all,
          Option.map_map, Option.map_map]
        exact rel_map ih.1 fun _ _ hab => hmore chars (hmore _ hab)
  | changed hw _ ih =>
    have hne {x y : List Char} (hx : x ≠ []) : x ++ y ≠ [] := by simp [hx]
    refine ⟨?_, ?_⟩
    · rw [unescapeFrom_word isBytes (Nat.zero_le _) hw.old.isRun.all,
        unescapeFrom_word isBytes (Nat.zero_le _) hw.new.isRun.all]
      exact rel_map ih.1 fun _ _ _ => iff_of_false (hne hw.old.isRun.ne_nil)
        (hne hw.new.isRun.ne_nil)
    · rintro rfl
      obtain ⟨chars, hchars, hescape⟩ := escape?_name isBytes hw.old hw.admits.1
      obtain ⟨chars', hchars', hescape'⟩ := escape?_name isBytes hw.new hw.admits.2
      rw [unescapeFrom_backslash, unescapeFrom_backslash, hescape, hescape']
      dsimp only [Option.bind_eq_bind, Option.bind_some]
      rw [unescapeFrom_word isBytes (List.length_pos_of_ne_nil hw.old.isRun.ne_nil)
          hw.old.isRun.all, unescapeFrom_word isBytes
          (List.length_pos_of_ne_nil hw.new.isRun.ne_nil) hw.new.isRun.all,
        Option.map_map, Option.map_map]
      exact rel_map ih.1 fun _ _ _ => iff_of_false (hne hchars) (hne hchars')

theorem rel_unescape [Dialect] (isBytes isRaw : Bool) (h : Reworded ν site s s') :
    Option.Rel (TextLike ν) (unescape isBytes isRaw s) (unescape isBytes isRaw s') := by
  by_cases hν : ν = .same
  · subst hν
    rw [h.eq_of_same]
    exact rel_imp (rel_eq _) fun _ _ heq => ⟨fun _ => heq, by rw [heq]⟩
  · unfold unescape
    split
    · exact .some h.textLike
    · exact rel_imp (rel_unescapeFrom hν isBytes h) fun _ _ hab =>
        ⟨fun hsame => absurd hsame hν, hab⟩

/-! ### Texts between fields -/

theorem fieldText_cons {isRaw : Bool} (outermost : Bool) (done s : List Char)
    (hc : ¬ (c = '\\' ∧ (!isRaw) = true)) : fieldText isRaw outermost 0 done (c :: s) =
      if c = '{' ∨ c = '}' then
        if !outermost then some (done.reverse, false, c :: s)
        else if s.head? = some c then some ((c :: done).reverse, true, s.tail)
        else if c = '}' then none
        else some (done.reverse, false, c :: s)
      else fieldText isRaw outermost 0 (c :: done) s := by
  rw [fieldText.eq_def]
  exact if_neg hc

theorem fieldText_word (isRaw outermost : Bool) (hw : ∀ c ∈ w, mayBeNameChar c = true) :
    fieldText isRaw outermost 0 done (w ++ s) =
      fieldText isRaw outermost 0 (w.reverse ++ done) s := by
  induction w generalizing done with
  | nil => rfl
  | cons c w ih =>
    have hc := hw c List.mem_cons_self
    have hbackslash : c ≠ '\\' := Text.ne_of_other hc (by decide)
    have hopen : c ≠ '{' := Text.ne_of_other hc (by decide)
    have hclose : c ≠ '}' := Text.ne_of_other hc (by decide)
    rw [List.cons_append, fieldText_cons outermost done _ fun h => hbackslash h.1,
      if_neg fun h => h.elim hopen hclose, ih fun d hd => hw d (List.mem_cons_of_mem c hd)]
    simp

/-- A character after a backslash is text, unless it is a brace. -/
theorem fieldText_escape (outermost : Bool) (done : List Char)
    (hN : c = 'N' → s.head? ≠ some '{') :
    fieldText false outermost 0 done ('\\' :: c :: s) =
      fieldText false outermost (if c = '{' ∨ c = '}' then 0 else 1) ('\\' :: done) (c :: s) := by
  rw [fieldText.eq_def]
  dsimp only
  rw [if_pos ⟨rfl, rfl⟩]
  split
  case h_1 named heq =>
    cases heq
    exact absurd rfl (hN rfl)
  case h_2 heq =>
    cases heq
    rfl
  case h_3 heq => cases heq

theorem fieldText_escapedWord (outermost : Bool) (hw : IsRun mayBeNameChar w)
    (hN : w = ['N'] → s.head? ≠ some '{') {done : List Char} :
    fieldText false outermost 0 done ('\\' :: (w ++ s)) =
      fieldText false outermost 0 (w.reverse ++ '\\' :: done) s := by
  obtain ⟨c, v, rfl⟩ := List.exists_cons_of_ne_nil hw.ne_nil
  have hc := hw.all c List.mem_cons_self
  have hv : ∀ d ∈ v, mayBeNameChar d = true := fun d hd => hw.all d (List.mem_cons_of_mem c hd)
  have hunnamed : c = 'N' → (v ++ s).head? ≠ some '{' := by
    rintro rfl
    cases v with
    | nil => exact hN rfl
    | cons d v =>
      intro hbrace
      cases hbrace
      exact absurd (hv _ List.mem_cons_self) (by decide)
  have hbrace : ¬ (c = '{' ∨ c = '}') :=
    not_or.mpr ⟨Text.ne_of_other hc (by decide), Text.ne_of_other hc (by decide)⟩
  rw [List.cons_append, fieldText_escape outermost done hunnamed, if_neg hbrace, fieldText,
    fieldText_word false outermost hv]
  simp

/-- Texts up to the next field are worded alike, and so are the rests. -/
def TextAlike (ν : NameLikeness) (site : Site) (s done done' : List Char)
    (r r' : List Char × Bool × List Char) : Prop :=
  r.2.1 = r'.2.1 ∧ BodyAlike ν site s done done' (r.1, r.2.2) (r'.1, r'.2.2)

theorem rel_fieldText_stop {site' : Site} {t t' : List Char} (done done' : List Char)
    (doubled : Bool) (ht : Reworded ν site' t t') : Option.Rel (TextAlike ν site s done done')
      (some (done.reverse, doubled, t)) (some (done'.reverse, doubled, t')) :=
  .some ⟨rfl, [], [], by simp, by simp, List.nil_prefix, .nil _, ht.toPlain⟩

/-- Texts that are read alike up to the next field, also if they stand after a backslash. -/
structure TextsAlike (ν : NameLikeness) (isRaw outermost : Bool) (site : Site)
    (s s' : List Char) : Prop where
  plain : ∀ done done', Option.Rel (TextAlike ν site s done done')
    (fieldText isRaw outermost 0 done s) (fieldText isRaw outermost 0 done' s')
  escaped : site = .escape → isRaw = false → ∀ done done',
    Option.Rel (TextAlike ν site s ('\\' :: done) ('\\' :: done'))
      (fieldText isRaw outermost 0 done ('\\' :: s))
      (fieldText isRaw outermost 0 done' ('\\' :: s'))

namespace TextsAlike

variable {isRaw outermost : Bool}

theorem nil : TextsAlike ν isRaw outermost site [] [] where
  plain done done' := rel_fieldText_stop done done' false (.nil .plain)
  escaped := by
    rintro - rfl done done'
    exact rel_fieldText_stop ('\\' :: done) ('\\' :: done') false (.nil .plain)

theorem pass (hc : mayBeNameChar c = false)
    (ih : TextsAlike ν isRaw outermost (site.afterMark c) s s') (done done' : List Char) :
    Option.Rel (TextAlike ν site (c :: s) done done') (fieldText isRaw outermost 0 (c :: done) s)
      (fieldText isRaw outermost 0 (c :: done') s') :=
  rel_imp (ih.plain _ _) fun _ _ hr => ⟨hr.1, hr.2.mark hc⟩

theorem plain_mark (hc : mayBeNameChar c = false) (h : Reworded ν (site.afterMark c) s s')
    (ih : TextsAlike ν isRaw outermost (site.afterMark c) s s') (done done' : List Char) :
    Option.Rel (TextAlike ν site (c :: s) done done') (fieldText isRaw outermost 0 done (c :: s))
      (fieldText isRaw outermost 0 done' (c :: s')) := by
  by_cases hbackslash : c = '\\' ∧ (!isRaw) = true
  · obtain ⟨rfl, hraw⟩ := hbackslash
    exact rel_imp (ih.escaped rfl (by simpa using hraw) done done') fun _ _ hr =>
      ⟨hr.1, hr.2.mark hc⟩
  · rw [fieldText_cons outermost done s hbackslash, fieldText_cons outermost done' s' hbackslash]
    simp only [h.head?_eq_iff hc]
    have hall : Reworded ν site (c :: s) (c :: s') := .mark hc h
    split
    case isFalse => exact ih.pass hc done done'
    split
    case isTrue => exact rel_fieldText_stop done done' false hall
    split
    case isTrue hdouble =>
      -- the first one of two braces is text
      obtain ⟨t', rfl⟩ := List.head?_eq_some_iff.mp hdouble
      obtain ⟨t, rfl, ht⟩ := h.cons_mark_right hc
      refine .some ⟨rfl, [c], [c], by simp, by simp, by simp, .mark hc (.nil _), ?_⟩
      exact ht.toPlain
    split
    · exact .none
    · exact rel_fieldText_stop done done' false hall

theorem mark (hc : mayBeNameChar c = false) (h : Reworded ν (site.afterMark c) s s')
    (ih : TextsAlike ν isRaw outermost (site.afterMark c) s s') :
    TextsAlike ν isRaw outermost site (c :: s) (c :: s') where
  plain := plain_mark hc h ih
  escaped := by
    rintro - rfl done done'
    have hN {s : List Char} : c = 'N' → s.head? ≠ some '{' := by
      rintro rfl
      exact absurd hc (by decide)
    rw [fieldText_escape outermost done hN, fieldText_escape outermost done' hN]
    split
    · exact plain_mark hc h ih _ _
    · exact ih.pass hc _ _

theorem kept (hν : ν ≠ .same) (hw : Kept ν site w s) (h : Reworded ν (.afterWord w) s s')
    (ih : TextsAlike ν isRaw outermost (.afterWord w) s s') :
    TextsAlike ν isRaw outermost site (w ++ s) (w ++ s') := by
  have hword (done done' : List Char) : Option.Rel (TextAlike ν site (w ++ s) done done')
      (fieldText isRaw outermost 0 (w.reverse ++ done) s)
      (fieldText isRaw outermost 0 (w.reverse ++ done') s') :=
    rel_imp (ih.plain _ _) fun _ _ hr => ⟨hr.1, hr.2.kept hw⟩
  constructor
  · intro done done'
    rw [fieldText_word isRaw outermost hw.run.all, fieldText_word isRaw outermost hw.run.all]
    exact hword done done'
  · rintro hsite rfl done done'
    have hnamed := hw.unnamed hν hsite
    rw [fieldText_escapedWord outermost hw.run hnamed,
      fieldText_escapedWord outermost hw.run (by rwa [← h.head?_eq hw.apart])]
    exact hword _ _

theorem changed {w' : List Char} (hw : Changed ν site w w' s)
    (ih : TextsAlike ν isRaw outermost .plain s s') :
    TextsAlike ν isRaw outermost site (w ++ s) (w' ++ s') := by
  have hword (done done' : List Char) : Option.Rel (TextAlike ν site (w ++ s) done done')
      (fieldText isRaw outermost 0 (w.reverse ++ done) s)
      (fieldText isRaw outermost 0 (w'.reverse ++ done') s') :=
    rel_imp (ih.plain _ _) fun _ _ hr => ⟨hr.1, hr.2.changed hw⟩
  constructor
  · intro done done'
    rw [fieldText_word isRaw outermost hw.old.isRun.all,
      fieldText_word isRaw outermost hw.new.isRun.all]
    exact hword done done'
  · rintro rfl rfl done done'
    have hunnamed {w t : List Char} (hw : Site.admits .escape w = true) :
        w = ['N'] → t.head? ≠ some '{' := by
      rintro rfl
      exact absurd hw (by decide)
    rw [fieldText_escapedWord outermost hw.old.isRun (hunnamed hw.admits.1),
      fieldText_escapedWord outermost hw.new.isRun (hunnamed hw.admits.2)]
    exact hword _ _

end TextsAlike

theorem textsAlike_of_reworded (hν : ν ≠ .same) (isRaw outermost : Bool)
    (h : Reworded ν site s s') : TextsAlike ν isRaw outermost site s s' := by
  induction h with
  | nil => exact .nil
  | mark hc h ih => exact .mark hc h ih
  | kept hw h ih => exact .kept hν hw h ih
  | changed hw _ ih => exact .changed hw ih

theorem rel_fieldText (isRaw outermost : Bool) (h : Reworded ν site s s') :
    Option.Rel (fun r r' => (∃ site, Reworded ν site r.1 r'.1) ∧ r.2.1 = r'.2.1 ∧
      Reworded ν .plain r.2.2 r'.2.2) (fieldText isRaw outermost 0 [] s)
      (fieldText isRaw outermost 0 [] s') := by
  by_cases hν : ν = .same
  · subst hν
    rw [h.eq_of_same]
    refine rel_imp (rel_eq _) ?_
    rintro r _ rfl
    exact ⟨⟨.plain, .same _ _⟩, rfl, .same _ _⟩
  · refine rel_imp ((textsAlike_of_reworded hν isRaw outermost h).plain [] []) fun r r' hr => ?_
    obtain ⟨hdoubled, x, x', hx, hx', -, hreworded, hrest⟩ := hr
    refine ⟨⟨site, ?_⟩, hdoubled, hrest⟩
    have hr : r.1 = x := hx
    have hr' : r'.1 = x' := hx'
    rwa [hr, hr']

/-! ### Sources of fields -/

theorem fieldSource_word (quote : Option (Char × Bool)) (hquote : ∀ q ∈ quote, isQuote q.1 = true)
    (opened : List Char) (hw : ∀ c ∈ w, mayBeNameChar c = true) :
    fieldSource 0 quote opened done (w ++ s) =
      fieldSource 0 quote opened (w.reverse ++ done) s := by
  induction w generalizing done with
  | nil => rfl
  | cons c w ih =>
    have hc := hw c List.mem_cons_self
    have hstep : fieldSource 0 quote opened done (c :: (w ++ s)) =
        fieldSource 0 quote opened (c :: done) (w ++ s) := by
      have hmarks : isQuote c = false ∧ isOpening c = false ∧ isClosing c = false ∧
          ['!', ':', '}', '=', '<', '>'].contains c = false := by
        have hnot : c ∉ ['"', Text.singleQuote, '(', '[', '{', ')', ']', '}', '!', ':', '=', '<',
            '>'] := Text.not_mem_of_others (by decide) hc
        simp only [List.mem_cons, not_or] at hnot
        simp [isQuote, isOpening, isClosing, hnot]
      obtain ⟨hq, hopening, hclosing, hend⟩ := hmarks
      rw [fieldSource.eq_def]
      dsimp only
      rw [if_neg (Text.ne_of_other hc (by decide))]
      cases quote with
      | some q => exact if_pos (Text.ne_of_other hc (mark_of_isQuote (hquote q rfl)))
      | none =>
        dsimp only
        rw [hq, hopening, hclosing, hend, if_neg Bool.false_ne_true, if_neg Bool.false_ne_true,
          if_neg (Text.ne_of_other hc (by decide)), if_neg fun h => Bool.false_ne_true h.2,
          if_neg Bool.false_ne_true]
    rw [List.cons_append, hstep, ih fun d hd => hw d (List.mem_cons_of_mem c hd)]
    simp

/-- After the mark `c` the sources of two fields go on alike, in quotes or outside of them. The
first marks of the rests are not looked at. -/
def GoesOn (ν : NameLikeness) (site : Site) (c : Char) (s s' done done' : List Char) : Prop :=
  ∀ quote : Option (Char × Bool), (∀ q ∈ quote, isQuote q.1 = true) → ∀ opened p : List Char,
    (∀ c ∈ p, mayBeNameChar c = false) → p <+: s →
      Option.Rel (BodyAlike ν site (c :: s) done done')
        (fieldSource p.length quote opened (c :: done) s)
        (fieldSource p.length quote opened (c :: done') s')

section Marks

variable {done' opened : List Char} (hc : mayBeNameChar c = false)
  (h : Reworded ν (site.afterMark c) s s') (hon : GoesOn ν site c s s' done done')
include h hon

theorem rel_fieldSource_quoted {q : Char} {triple : Bool} (hq : isQuote q = true) :
    Option.Rel (BodyAlike ν site (c :: s) done done')
      (fieldSource 0 (some (q, triple)) opened done (c :: s))
      (fieldSource 0 (some (q, triple)) opened done' (c :: s')) := by
  have hquote : ∀ r ∈ some (q, triple), isQuote r.1 = true := by
    rintro r ⟨⟩
    exact hq
  rw [fieldSource.eq_def, fieldSource.eq_def _ _ _ done']
  dsimp only
  simp only [← h.take_quotes hq]
  split
  · exact .none
  split
  · exact hon _ hquote opened [] nofun List.nil_prefix
  split
  · exact hon none nofun opened [] nofun List.nil_prefix
  split
  case isTrue htake =>
    exact hon none nofun opened [q, q] (by simpa using mark_of_isQuote hq) (take_two_eq.mp htake)
  case isFalse => exact hon _ hquote opened [] nofun List.nil_prefix

include hc

theorem rel_fieldSource_unquoted : Option.Rel (BodyAlike ν site (c :: s) done done')
    (fieldSource 0 none opened done (c :: s)) (fieldSource 0 none opened done' (c :: s')) := by
  have hgo (opened : List Char) := hon none nofun opened [] nofun List.nil_prefix
  rw [fieldSource.eq_def, fieldSource.eq_def _ _ _ done']
  dsimp only
  split
  · exact .none
  split
  case isTrue hq =>
    have hstring (triple : Bool) : ∀ r ∈ some (c, triple), isQuote r.1 = true := by
      rintro r ⟨⟩
      exact hq
    simp only [← h.take_quotes hq]
    split
    case isTrue htake =>
      exact hon _ (hstring true) opened [c, c] (by simpa using hc) (take_two_eq.mp htake)
    case isFalse => exact hon _ (hstring false) opened [] nofun List.nil_prefix
  split
  · split
    · exact .none
    · exact hgo _
  split
  · exact .none
  split
  · simp only [← h.head?_eq_iff (c := '=') (by decide)]
    split
    case isTrue hequal =>
      obtain ⟨t, rfl⟩ := List.head?_eq_some_iff.mp hequal.1
      exact hon none nofun opened ['='] (by simp; decide) (by simp)
    split
    · exact hgo opened
    · have hall : Reworded ν site (c :: s) (c :: s') := .mark hc h
      exact .some ⟨[], [], by simp, by simp, List.nil_prefix, .nil _, hall.toPlain⟩
  split
  · cases opened with
    | nil => exact .none
    | cons top below =>
      dsimp only
      split
      · exact hgo below
      · exact .none
  · exact hgo opened

end Marks

/-- The source of a field ends at the same place. The first marks `p` are not looked at. -/
theorem rel_fieldSourceFrom {quote : Option (Char × Bool)}
    (hquote : ∀ q ∈ quote, isQuote q.1 = true) {p : List Char}
    (hp : ∀ c ∈ p, mayBeNameChar c = false) (hs : p <+: s)
    (opened done done' : List Char) (h : Reworded ν site s s') :
    Option.Rel (BodyAlike ν site s done done') (fieldSource p.length quote opened done s)
      (fieldSource p.length quote opened done' s') := by
  induction hn : s.length using Nat.strongRecOn
    generalizing quote p opened done done' site s s' with
  | _ n ih =>
    subst hn
    cases p with
    | cons c p =>
      obtain ⟨t, rfl⟩ := hs
      obtain ⟨t', rfl, ht⟩ := h.cons_mark (hp c List.mem_cons_self)
      refine rel_imp (ih (p ++ t).length (by simp) hquote
        (fun d hd => hp d (List.mem_cons_of_mem c hd)) (List.prefix_append p t) opened _ _ ht
        rfl) fun _ _ hr => ?_
      exact hr.mark (hp c List.mem_cons_self)
    | nil =>
    cases h with
    | nil => exact .none
    | @kept _ w s s' hw h =>
      have hshorter : s.length < (w ++ s).length := by
        simpa using List.length_pos_of_ne_nil hw.run.ne_nil
      rw [List.length_nil, fieldSource_word quote hquote opened hw.run.all,
        fieldSource_word quote hquote opened hw.run.all]
      exact rel_imp (ih s.length hshorter hquote (p := []) nofun List.nil_prefix _ _ _ h rfl)
        fun _ _ hr => hr.kept hw
    | @changed _ w w' s s' hw h =>
      have hshorter : s.length < (w ++ s).length := by
        simpa using List.length_pos_of_ne_nil hw.old.isRun.ne_nil
      rw [List.length_nil, fieldSource_word quote hquote opened hw.old.isRun.all,
        fieldSource_word quote hquote opened hw.new.isRun.all]
      exact rel_imp (ih s.length hshorter hquote (p := []) nofun List.nil_prefix _ _ _ h rfl)
        fun _ _ hr => hr.changed hw
    | @mark _ c s s' hc h =>
      -- what the reader does after this mark is the same, whatever it has opened by then
      have hon : GoesOn ν site c s s' done done' := fun quote hquote opened p hp hs =>
        rel_imp (ih s.length (by simp) hquote hp hs opened _ _ h rfl) fun _ _ hr => hr.mark hc
      cases quote with
      | some q => exact rel_fieldSource_quoted h hon (hquote q rfl)
      | none => exact rel_fieldSource_unquoted hc h hon

theorem rel_fieldSource (h : Reworded ν site s s') :
    Option.Rel (fun r r' => Reworded ν site r.1 r'.1 ∧ Reworded ν .plain r.2 r'.2)
      (fieldSource 0 none [] [] s) (fieldSource 0 none [] [] s') := by
  refine rel_imp (rel_fieldSourceFrom (by simp) (p := []) nofun List.nil_prefix [] [] [] h) ?_
  rintro r r' ⟨x, x', hx, hx', -, hreworded, hrest⟩
  rw [List.reverse_nil, List.nil_append] at hx hx'
  rw [hx, hx']
  exact ⟨hreworded, hrest⟩

theorem suffix_fieldText {isRaw outermost doubled : Bool} {text rest : List Char}
    (h : fieldText isRaw outermost skip done s = some (text, doubled, rest)) : rest <:+ s := by
  fun_induction fieldText isRaw outermost skip done s <;>
    grind [List.suffix_cons, List.IsSuffix.trans, List.tail_suffix]

/-- A text before a field ends at a brace, or where the format string ends. -/
theorem rest_fieldText {isRaw outermost : Bool} {text rest : List Char}
    (h : fieldText isRaw outermost skip done s = some (text, false, rest)) :
    rest = [] ∨ rest.head? = some '{' ∨ rest.head? = some '}' := by
  fun_induction fieldText isRaw outermost skip done s <;> grind

theorem suffix_fieldSource {quote : Option (Char × Bool)} {opened source rest : List Char}
    (h : fieldSource skip quote opened done s = some (source, rest)) : rest <:+ s := by
  fun_induction fieldSource skip quote opened done s <;>
    grind [List.suffix_cons, List.IsSuffix.trans]

/-! ### Fields -/

theorem isAsciiBlank_eq_false (hc : mayBeNameChar c = true) : isAsciiBlank c = false := by
  have hnot : c ∉ [' ', '\t', '\n', '\r', '\x0c', '\x0b'] :=
    Text.not_mem_of_others (by decide) hc
  simp only [List.mem_cons, not_or] at hnot
  simp [isAsciiBlank, hnot]

theorem Reworded.all_blank (h : Reworded ν site s s') :
    s.all isAsciiBlank = s'.all isAsciiBlank := by
  have hword {w : List Char} (hw : IsRun mayBeNameChar w) : w.all isAsciiBlank = false := by
    obtain ⟨c, v, rfl⟩ := List.exists_cons_of_ne_nil hw.ne_nil
    rw [List.all_cons, isAsciiBlank_eq_false (hw.all c List.mem_cons_self), Bool.false_and]
  induction h with
  | nil => rfl
  | mark _ _ ih => rw [List.all_cons, List.all_cons, ih]
  | kept hw _ ih => rw [List.all_append, List.all_append, ih]
  | changed hw _ ih =>
    rw [List.all_append, List.all_append, hword hw.old.isRun, hword hw.new.isRun, Bool.false_and,
      Bool.false_and]

theorem Reworded.blanks (h : Reworded ν site s s') :
    s.takeWhile isAsciiBlank = s'.takeWhile isAsciiBlank ∧
      Reworded ν .plain (s.drop (s.takeWhile isAsciiBlank).length)
        (s'.drop (s'.takeWhile isAsciiBlank).length) := by
  have hword {w : List Char} (hw : IsRun mayBeNameChar w) (x : List Char) :
      (w ++ x).takeWhile isAsciiBlank = [] := by
    obtain ⟨c, v, rfl⟩ := List.exists_cons_of_ne_nil hw.ne_nil
    simp [isAsciiBlank_eq_false (hw.all c List.mem_cons_self)]
  induction h with
  | nil => exact ⟨rfl, .nil _⟩
  | @mark site c s s' hc h ih =>
    rw [List.takeWhile_cons, List.takeWhile_cons]
    split
    · exact ⟨by rw [ih.1], ih.2⟩
    · have hall : Reworded ν site (c :: s) (c :: s') := .mark hc h
      exact ⟨rfl, hall.toPlain⟩
  | kept hw h _ =>
    rw [hword hw.run, hword hw.run]
    exact ⟨rfl, (Reworded.kept hw h).toPlain⟩
  | changed hw h _ =>
    rw [hword hw.old.isRun, hword hw.new.isRun]
    exact ⟨rfl, (Reworded.changed hw h).toPlain⟩

variable {source source' : List Char} {a a' : Cursor}

theorem shownSource_mark (source : List Char) {t : List Char} (h : a.rest = '=' :: t) :
    shownSource source a = (source ++ '=' :: t.takeWhile isAsciiBlank,
      a.skip ((t.takeWhile isAsciiBlank).length + 1)) := by
  unfold shownSource
  rw [h]
  rfl

theorem shownSource_none (source : List Char) (h : a.rest.head? ≠ some '=') :
    shownSource source a = ([], a) := by
  unfold shownSource
  split
  case h_1 rest heq => exact absurd (by rw [heq]; rfl) h
  case h_2 => rfl

theorem shownSource_alike (hsource : Reworded ν site source source')
    (h : Reworded ν .plain a.rest a'.rest) :
    TextLike ν (shownSource source a).1 (shownSource source' a').1 ∧
      Reworded ν .plain (shownSource source a).2.rest (shownSource source' a').2.rest := by
  by_cases hshown : a.rest.head? = some '='
  · obtain ⟨t, ht⟩ := List.head?_eq_some_iff.mp hshown
    obtain ⟨t', ht', hrest⟩ := (ht ▸ h).cons_mark (c := '=') (by decide)
    obtain ⟨hblanks, hdrop⟩ := hrest.blanks
    rw [shownSource_mark source ht, shownSource_mark source' ht', Cursor.rest_skip,
      Cursor.rest_skip, ht, ht', List.drop_succ_cons, List.drop_succ_cons]
    refine ⟨⟨?_, by simp⟩, hdrop⟩
    rintro rfl
    rw [hsource.eq_of_same, hblanks]
  · rw [shownSource_none source hshown,
      shownSource_none source' (mt (h.head?_eq_iff (by decide)).mpr hshown)]
    exact ⟨⟨fun _ => rfl, Iff.rfl⟩, h⟩

/-- Where a word goes on after a conversion, no field ends. -/
def Unended (x : Option (Option Char × Cursor)) : Prop :=
  ∀ r ∈ x, ¬ Apart mayBeNameChar r.2.rest

theorem head?_ne_of_not_apart (hs : ¬ Apart mayBeNameChar s) (hc : mayBeNameChar c = false) :
    s.head? ≠ some c := by
  intro hhead
  refine hs fun d hd => ?_
  cases hhead.symm.trans hd
  exact hc

theorem fieldConversion_mark {k : Char} {t : List Char} (h : a.rest = '!' :: k :: t) :
    fieldConversion a = if k = 's' ∨ k = 'r' ∨ k = 'a' then some (some k, a.skip 2) else none := by
  unfold fieldConversion
  rw [h]
  rfl

theorem fieldConversion_none (h : a.rest.head? ≠ some '!') :
    fieldConversion a = some (none, a) := by
  unfold fieldConversion
  split
  case h_1 heq => exact absurd (by rw [heq]; rfl) h
  case h_2 heq => exact absurd (by rw [heq]; rfl) h
  case h_3 => rfl

theorem unended_fieldConversion (hw : IsRun mayBeNameChar w)
    (hsite : Site.admits .conversion w = true) (ha : a.rest = '!' :: (w ++ s)) :
    Unended (fieldConversion a) := by
  intro r hr
  obtain ⟨k, v, rfl⟩ := List.exists_cons_of_ne_nil hw.ne_nil
  rw [fieldConversion_mark ha, Option.mem_def, Option.ite_none_right_eq_some] at hr
  obtain ⟨hk, hr⟩ := hr
  cases hr
  rw [Cursor.rest_skip, ha]
  cases v with
  | nil =>
    rcases hk with rfl | rfl | rfl <;> exact absurd hsite (by decide)
  | cons d v =>
    have hd := hw.all d (by simp)
    simp [hd]

/-- Two conversions are the same, or neither of them ends a field. -/
theorem rel_fieldConversion (h : Reworded ν .plain a.rest a'.rest) :
    Option.Rel (fun x y => x.1 = y.1 ∧ Reworded ν .plain x.2.rest y.2.rest) (fieldConversion a)
      (fieldConversion a') ∨ Unended (fieldConversion a) ∧ Unended (fieldConversion a') := by
  by_cases hmark : a.rest.head? = some '!'
  · obtain ⟨t, ht⟩ := List.head?_eq_some_iff.mp hmark
    obtain ⟨t', ht', hrest⟩ := (ht ▸ h).cons_mark (c := '!') (by decide)
    cases hrest with
    | nil =>
      left
      unfold fieldConversion
      rw [ht, ht']
      exact .none
    | @mark _ k s s' hk _ =>
      have hletter : ¬ (k = 's' ∨ k = 'r' ∨ k = 'a') := by
        rintro (rfl | rfl | rfl) <;> exact absurd hk (by decide)
      left
      rw [fieldConversion_mark ht, fieldConversion_mark ht', if_neg hletter, if_neg hletter]
      exact .none
    | @kept _ w s s' hw h =>
      -- a word that stays is one of the three letters, or no conversion ends with it
      by_cases hsite : Site.admits .conversion w = true
      · exact .inr ⟨unended_fieldConversion hw.run hsite ht,
          unended_fieldConversion hw.run hsite ht'⟩
      · have hletter : w = ['s'] ∨ w = ['r'] ∨ w = ['a'] := by
          simpa [Site.admits, ← or_iff_not_imp_left] using hsite
        left
        rcases hletter with rfl | rfl | rfl <;>
        · rw [fieldConversion_mark ht, fieldConversion_mark ht']
          refine .some ⟨rfl, ?_⟩
          rw [Cursor.rest_skip, Cursor.rest_skip, ht, ht']
          exact h.toPlain
    | changed hw _ =>
      exact .inr ⟨unended_fieldConversion hw.old.isRun hw.admits.1 ht,
        unended_fieldConversion hw.new.isRun hw.admits.2 ht'⟩
  · left
    rw [fieldConversion_none hmark,
      fieldConversion_none (mt (h.head?_eq_iff (by decide)).mpr hmark)]
    exact .some ⟨rfl, h⟩

/-! ### Parts -/

inductive PartLike (ν : NameLikeness) : FormatPart → FormatPart → Prop
  | text {s t : List Char} (h : TextLike ν s t) : PartLike ν (.text s) (.text t)
  | field {site : Site} {source source' : List Char} (hsource : Reworded ν site source source')
      (line column line' column' : Nat) (conversion : Option Char)
      {spec spec' : Option (List FormatPart)}
      (h : Option.Rel (List.Forall₂ (PartLike ν)) spec spec') :
      PartLike ν (.field source line column conversion spec)
        (.field source' line' column' conversion spec')

abbrev PartsLike (ν : NameLikeness) : List FormatPart → List FormatPart → Prop :=
  List.Forall₂ (PartLike ν)

def RestLike (ν : NameLikeness) (x y : List FormatPart × Cursor) : Prop :=
  PartsLike ν x.1 y.1 ∧ Reworded ν .plain x.2.rest y.2.rest

theorem fieldSpec_eq (parts : Cursor → Option (List FormatPart × Cursor)) (a : Cursor) :
    fieldSpec parts a = if a.rest.head? = some ':' ∧ a.rest.tail ≠ [] then
      (parts a.next).map fun r => (some r.1, r.2) else some (none, a) := by
  unfold fieldSpec
  split
  case h_1 heq => rw [heq, if_pos (by simp)]
  case h_2 hother =>
    rw [if_neg]
    rintro ⟨hhead, htail⟩
    obtain ⟨t, ht⟩ := List.head?_eq_some_iff.mp hhead
    rw [ht] at htail
    obtain ⟨c, t', rfl⟩ := List.exists_cons_of_ne_nil htail
    exact hother _ _ ht

theorem bind_unended {β : Type} {x : Option (Option Char × Cursor)} (h : Unended x)
    {f : Option Char × Cursor → Option β}
    (hf : ∀ r, ¬ Apart mayBeNameChar r.2.rest → f r = none) : x >>= f = none := by
  cases x with
  | none => rfl
  | some r => exact hf r (h r rfl)

theorem fieldSpec_unended (parts : Cursor → Option (List FormatPart × Cursor))
    (h : ¬ Apart mayBeNameChar a.rest) : fieldSpec parts a = some (none, a) := by
  rw [fieldSpec_eq, if_neg fun hcolon => head?_ne_of_not_apart h (by decide) hcolon.1]

section Fields

variable {parts parts' : Cursor → Option (List FormatPart × Cursor)}
  (hparts : ∀ a a', Reworded ν .plain a.rest a'.rest →
    Option.Rel (RestLike ν) (parts a) (parts' a'))
include hparts

theorem rel_fieldSpec (h : Reworded ν .plain a.rest a'.rest) :
    Option.Rel (fun x y => Option.Rel (PartsLike ν) x.1 y.1 ∧ Reworded ν .plain x.2.rest y.2.rest)
      (fieldSpec parts a) (fieldSpec parts' a') := by
  rw [fieldSpec_eq, fieldSpec_eq]
  by_cases hcolon : a.rest.head? = some ':'
  · obtain ⟨t, ht⟩ := List.head?_eq_some_iff.mp hcolon
    obtain ⟨t', ht', hrest⟩ := (ht ▸ h).cons_mark (c := ':') (by decide)
    simp only [ht, ht', List.head?_cons, List.tail_cons, true_and, ne_eq, hrest.eq_nil_iff]
    split
    · refine rel_map (hparts _ _ ?_) fun _ _ hr => ⟨.some hr.1, hr.2⟩
      rw [Cursor.rest_next, Cursor.rest_next, ht, ht']
      exact hrest.toPlain
    · exact .some ⟨.none, h⟩
  · rw [if_neg fun hspec => hcolon hspec.1,
      if_neg fun hspec => hcolon ((h.head?_eq_iff (by decide)).mpr hspec.1)]
    exact .some ⟨.none, h⟩

theorem rel_formatField (h : Reworded ν .plain a.rest a'.rest) :
    Option.Rel (fun x y => TextLike ν x.1 y.1 ∧ PartLike ν x.2.1 y.2.1 ∧
      Reworded ν .plain x.2.2.next.rest y.2.2.next.rest)
      (formatField parts a) (formatField parts' a') := by
  unfold formatField
  refine rel_bind (rel_mem (rel_fieldSource h)) ?_
  rintro ⟨source, rest⟩ ⟨source', rest'⟩ ⟨⟨hmem, hmem'⟩, hsource, hrest⟩
  dsimp only
  rw [← hsource.all_blank]
  split
  · exact .none
  rw [← Cursor.rest_skipTo (suffix_fieldSource hmem),
    ← Cursor.rest_skipTo (suffix_fieldSource hmem')] at hrest
  obtain ⟨hshown, hafter⟩ := shownSource_alike hsource hrest
  rcases rel_fieldConversion hafter with hconversion | ⟨hunended, hunended'⟩
  case inr =>
    -- neither conversion ends a field, so both of them fail at the closing brace
    rw [bind_unended hunended ?_, bind_unended hunended' ?_]
    · exact .none
    all_goals
      rintro ⟨conversion, d⟩ hd
      rw [fieldSpec_unended _ hd]
      exact if_neg (head?_ne_of_not_apart hd (by decide))
  refine rel_bind hconversion ?_
  rintro ⟨conversion, d⟩ ⟨_, d'⟩ ⟨rfl, hd⟩
  refine rel_bind (rel_fieldSpec hparts hd) ?_
  rintro ⟨spec, e⟩ ⟨spec', e'⟩ ⟨hspec, he⟩
  have hsome : spec.isSome = spec'.isSome := by
    cases hspec <;> rfl
  have hempty : (shownSource source (a.skipTo rest)).1.isEmpty =
      (shownSource source' (a'.skipTo rest')).1.isEmpty := by
    rw [Bool.eq_iff_iff, List.isEmpty_iff, List.isEmpty_iff]
    exact hshown.2
  dsimp only at he ⊢
  rw [hsome, hempty]
  simp only [← he.head?_eq_iff (c := '}') (by decide)]
  split
  case isTrue hclose =>
    obtain ⟨t, ht⟩ := List.head?_eq_some_iff.mp hclose
    obtain ⟨t', ht', hrest⟩ := (ht ▸ he).cons_mark (c := '}') (by decide)
    refine .some ⟨hshown, .field hsource _ _ _ _ _ hspec, ?_⟩
    rw [Cursor.rest_next, Cursor.rest_next, ht, ht']
    exact hrest.toPlain
  case isFalse => exact .none

end Fields

theorem rel_formatPartsFrom [Dialect] (isRaw : Bool) (fuel level : Nat)
    (h : Reworded ν .plain a.rest a'.rest) :
    Option.Rel (RestLike ν) (formatPartsFrom isRaw fuel level a)
      (formatPartsFrom isRaw fuel level a') := by
  induction fuel generalizing level a a' with
  | zero => exact .none
  | succ fuel ih =>
    unfold formatPartsFrom
    refine rel_bind (rel_mem (rel_fieldText isRaw (level == 0) h)) ?_
    rintro ⟨chars, doubled, rest⟩ ⟨chars', _, rest'⟩
      ⟨⟨hmem, hmem'⟩, ⟨site, hchars⟩, rfl, hrest⟩
    refine rel_bind (rel_unescape false isRaw hchars) fun text text' htext => ?_
    have hskip : Reworded ν .plain (a.skipTo rest).rest (a'.skipTo rest').rest := by
      rwa [Cursor.rest_skipTo (suffix_fieldText hmem),
        Cursor.rest_skipTo (suffix_fieldText hmem')]
    dsimp only at hrest ⊢
    cases doubled with
    | true =>
      exact rel_bind (ih level hskip) fun x y hxy => .some ⟨.cons (.text htext) hxy.1, hxy.2⟩
    | false =>
      have hbrace := rest_fieldText hmem
      simp only [Bool.false_eq_true, if_false, List.isEmpty_iff, ← hrest.eq_nil_iff,
        ← hrest.head?_eq_iff (c := '}') (by decide)]
      split
      · exact .some ⟨.cons (.text htext) .nil, hskip⟩
      split
      · exact .none
      rename_i hend _
      -- a field starts here
      have hopen : rest.head? = some '{' := by
        rcases hbrace with hnil | hopen | hclose
        · exact absurd (.inl hnil) hend
        · exact hopen
        · exact absurd (.inr hclose) hend
      have hnext : Reworded ν .plain (a.skipTo rest).next.rest (a'.skipTo rest').next.rest := by
        obtain ⟨t, rfl⟩ := List.head?_eq_some_iff.mp hopen
        obtain ⟨t', rfl, ht⟩ := hrest.cons_mark (by decide)
        rw [Cursor.rest_next, Cursor.rest_next, Cursor.rest_skipTo (suffix_fieldText hmem),
          Cursor.rest_skipTo (suffix_fieldText hmem')]
        exact ht.toPlain
      refine rel_bind (rel_formatField (fun _ _ => ih (level + 1)) hnext) ?_
      rintro ⟨shown, field, d⟩ ⟨shown', field', d'⟩ ⟨hshown, hfield, hd⟩
      refine rel_bind (ih level hd) fun x y hxy => .some ⟨?_, hxy.2⟩
      exact .cons (.text htext) (.cons (.text hshown) (.cons hfield hxy.1))

theorem rel_formatParts [Dialect] {s t : StringToken} (h : LiteralLike ν s t) :
    Option.Rel (PartsLike ν) (formatParts s) (formatParts t) := by
  obtain ⟨isBytes, isRaw, isFormat, body, line, column⟩ := s
  obtain ⟨isBytes', isRaw', isFormat', body', line', column'⟩ := t
  obtain ⟨hbytes, hraw, hformat, site, hbody⟩ := h
  dsimp only at hbytes hraw hformat hbody
  subst hraw
  have hfuel : marks body = marks body' := hbody.countP_marks
  have hparts : Option.Rel (RestLike ν)
      (formatPartsFrom isRaw (marks body + 2) 0 ⟨body, line, column⟩)
      (formatPartsFrom isRaw (marks body' + 2) 0 ⟨body', line', column'⟩) :=
    hfuel ▸ rel_formatPartsFrom isRaw (marks body + 2) 0 hbody.toPlain
  unfold formatParts
  dsimp only
  generalize formatPartsFrom isRaw (marks body + 2) 0 ⟨body, line, column⟩ = x at hparts ⊢
  generalize formatPartsFrom isRaw (marks body' + 2) 0 ⟨body', line', column'⟩ = y at hparts ⊢
  cases hparts with
  | none => exact .none
  | some h =>
    dsimp only
    simp only [List.isEmpty_iff, h.2.eq_nil_iff]
    split
    · exact .some h.1
    · exact .none

end Restyle.Syntax
