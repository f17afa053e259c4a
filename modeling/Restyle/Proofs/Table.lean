import Mathlib.Data.List.Nodup
import Restyle.Table

/-!
Laws of tables. A table that is built up by changes has every key once, so that looking a key up
and finding its entry are the same; of several values for one key the last one counts.
-/

namespace Restyle

namespace Table

variable {κ α : Type} [DecidableEq κ]

/-! ### Looking up -/

theorem lookup_cons_eq_ite (first : κ) (v : α) (rest : List (κ × α)) (k : κ) :
    ((first, v) :: rest).lookup k = if k = first then some v else rest.lookup k := by
  rw [List.lookup_cons]
  by_cases h : k = first
  · simp [h]
  · rw [beq_false_of_ne h, if_neg h]

theorem lookup_modifyEntries (key : κ) (default : α) (f : α → α) (entries : List (κ × α)) (k : κ) :
    (modifyEntries key default f entries).lookup k =
      if k = key then some (f ((entries.lookup key).getD default)) else entries.lookup k := by
  induction entries with
  | nil => exact lookup_cons_eq_ite key (f default) [] k
  | cons entry rest ih =>
    obtain ⟨first, v⟩ := entry
    by_cases hfirst : first = key
    · subst hfirst
      by_cases h : k = first <;> simp [modifyEntries, lookup_cons_eq_ite, h]
    · have hkey : key ≠ first := fun heq => hfirst heq.symm
      rw [modifyEntries, if_neg hfirst, lookup_cons_eq_ite, lookup_cons_eq_ite,
        lookup_cons_eq_ite, if_neg hkey, ih]
      by_cases h : k = first
      · rw [if_pos h, if_pos h, if_neg (h ▸ hfirst)]
      · rw [if_neg h, if_neg h]

theorem get?_modify (t : Table κ α) (key : κ) (default : α) (f : α → α) (k : κ) :
    (t.modify key default f).get? k =
      if k = key then some (f ((t.get? key).getD default)) else t.get? k :=
  lookup_modifyEntries key default f t.entries k

theorem get?_insert (t : Table κ α) (key : κ) (value : α) (k : κ) :
    (t.insert key value).get? k = if k = key then some value else t.get? k :=
  get?_modify t key value (fun _ => value) k

/-- Of several pairs with one key the last one counts. -/
theorem get?_insertAll (pairs : List (κ × α)) (t : Table κ α) (k : κ) :
    (pairs.foldl (fun t (k, v) => t.insert k v) t).get? k =
      (pairs.reverse.lookup k).or (t.get? k) := by
  induction pairs generalizing t with
  | nil => rfl
  | cons pair rest ih =>
    obtain ⟨key, value⟩ := pair
    rw [List.foldl_cons, ih, get?_insert, List.reverse_cons, List.lookup_append, Option.or_assoc,
      lookup_cons_eq_ite, List.lookup_nil]
    by_cases h : k = key <;> simp [h]

theorem get?_ofList (pairs : List (κ × α)) (k : κ) :
    (ofList pairs).get? k = pairs.reverse.lookup k := by
  rw [ofList, get?_insertAll, get?_empty, Option.or_none]

theorem mem_of_lookup {entries : List (κ × α)} {k : κ} {v : α} (h : entries.lookup k = some v) :
    (k, v) ∈ entries := by
  obtain ⟨pre, post, rfl, -⟩ := List.lookup_eq_some_iff.mp h
  exact List.mem_append_right pre List.mem_cons_self

theorem mem_of_get?_ofList {pairs : List (κ × α)} {k : κ} {v : α}
    (h : (ofList pairs).get? k = some v) : (k, v) ∈ pairs := by
  rw [get?_ofList] at h
  exact List.mem_reverse.mp (mem_of_lookup h)

/-- If all pairs with one key have the same value then looking the key up gives it. -/
theorem get?_ofList_of_mem {pairs : List (κ × α)} {k : κ} {v : α}
    (hmem : (k, v) ∈ pairs) (hsame : ∀ w, (k, w) ∈ pairs → w = v) :
    (ofList pairs).get? k = some v := by
  cases hget : (ofList pairs).get? k with
  | none =>
    rw [get?_ofList, List.lookup_eq_none_iff] at hget
    simpa using hget (k, v) (List.mem_reverse.mpr hmem)
  | some w => rw [hsame w (mem_of_get?_ofList hget)]

/-! ### Keys -/

theorem map_fst_modifyEntries (key : κ) (default : α) (f : α → α) (entries : List (κ × α)) :
    (modifyEntries key default f entries).map (·.1) =
      if key ∈ entries.map (·.1) then entries.map (·.1) else entries.map (·.1) ++ [key] := by
  induction entries with
  | nil => simp [modifyEntries]
  | cons entry rest ih =>
    obtain ⟨first, v⟩ := entry
    by_cases h : first = key
    · simp [modifyEntries, h]
    · have hne : key ≠ first := fun heq => h heq.symm
      simp only [modifyEntries, h, if_false, List.map_cons, ih, List.mem_cons, hne, false_or]
      split <;> rfl

theorem nodup_keys_modify {t : Table κ α} (h : t.keys.Nodup) (key : κ) (default : α)
    (f : α → α) : (t.modify key default f).keys.Nodup := by
  unfold keys modify
  rw [map_fst_modifyEntries]
  split
  case isTrue => exact h
  case isFalse hnew =>
    -- a new key comes last
    rw [List.nodup_append]
    refine ⟨h, List.nodup_singleton key, ?_⟩
    intro k hk l hl
    rw [List.mem_singleton.mp hl]
    rintro rfl
    exact hnew hk

theorem nodup_keys_insertAll (pairs : List (κ × α)) {t : Table κ α} (h : t.keys.Nodup) :
    (pairs.foldl (fun t (k, v) => t.insert k v) t).keys.Nodup := by
  induction pairs generalizing t with
  | nil => exact h
  | cons pair rest ih => exact ih (nodup_keys_modify h pair.1 pair.2 fun _ => pair.2)

theorem nodup_keys_ofList (pairs : List (κ × α)) : (ofList pairs).keys.Nodup :=
  nodup_keys_insertAll pairs List.nodup_nil

/-- Where every key stands once, an entry is what looking up its key gives. -/
theorem lookup_eq_some_iff_mem {entries : List (κ × α)} (h : (entries.map (·.1)).Nodup) {k : κ}
    {v : α} : entries.lookup k = some v ↔ (k, v) ∈ entries := by
  refine ⟨mem_of_lookup, ?_⟩
  intro hmem
  cases hlookup : entries.lookup k with
  | none =>
    have hne := List.lookup_eq_none_iff.mp hlookup (k, v) hmem
    simp at hne
  | some w =>
    have hpair := List.inj_on_of_nodup_map h (mem_of_lookup hlookup) hmem rfl
    rw [(Prod.mk.inj hpair).2]

theorem get?_eq_some_iff_mem {t : Table κ α} (h : t.keys.Nodup) {k : κ} {v : α} :
    t.get? k = some v ↔ (k, v) ∈ t.entries := lookup_eq_some_iff_mem h

/-- Pairs with different keys are all entries of their table. -/
theorem get?_ofList_eq_some_iff {pairs : List (κ × α)} (h : (pairs.map (·.1)).Nodup) {k : κ}
    {v : α} : (ofList pairs).get? k = some v ↔ (k, v) ∈ pairs := by
  have hreverse : (pairs.reverse.map (·.1)).Nodup := by
    rw [List.map_reverse]
    exact List.nodup_reverse.mpr h
  rw [get?_ofList, lookup_eq_some_iff_mem hreverse, List.mem_reverse]

/-- A table with the values of a function has them for the keys that it was made for. -/
theorem get?_ofList_map (ks : List κ) (f : κ → α) (k : κ) :
    (ofList (ks.map fun k => (k, f k))).get? k = if k ∈ ks then some (f k) else none := by
  have hlookup (ks : List κ) :
      (ks.map fun k => (k, f k)).lookup k = if k ∈ ks then some (f k) else none := by
    induction ks with
    | nil => rfl
    | cons first ks ih =>
      rw [List.map_cons, lookup_cons_eq_ite, ih]
      by_cases h : k = first <;> simp [h]
  rw [get?_ofList, ← List.map_reverse, hlookup]
  simp only [List.mem_reverse]

theorem get?_override (t : Table κ α) {u : Table κ α} (h : u.keys.Nodup) (k : κ) :
    (t.override u).get? k = (u.get? k).or (t.get? k) := by
  have hreverse : (u.entries.reverse.map (·.1)).Nodup := by
    rw [List.map_reverse]
    exact List.nodup_reverse.mpr h
  have hsame : u.entries.reverse.lookup k = u.get? k := by
    ext v
    rw [lookup_eq_some_iff_mem hreverse, List.mem_reverse, get?_eq_some_iff_mem h]
  rw [override, get?_insertAll, hsame]

end Table

namespace Index

variable {α : Type}

theorem all_add (t : Index α) (name : String) (value : α) (x : String) :
    all (add t name value) x = all t x ++ if name = x then [value] else [] := by
  unfold all add
  rw [Table.get?_modify]
  by_cases h : name = x
  · subst h
    simp
  · simp [h, Ne.symm h]

/-- Values that are added one after the other stand in this order under their names. -/
theorem all_addAll (nameOf : α → String) (values : List α) (t : Index α) (x : String) :
    all (values.foldl (fun t v => add t (nameOf v) v) t) x =
      all t x ++ values.filter (nameOf · = x) := by
  induction values generalizing t with
  | nil => simp
  | cons v rest ih =>
    rw [List.foldl_cons, ih, all_add]
    by_cases h : nameOf v = x <;> simp [h]

theorem nodup_keys_addAll (nameOf : α → String) (values : List α) (t : Index α)
    (h : t.keys.Nodup) : (values.foldl (fun t v => add t (nameOf v) v) t).keys.Nodup := by
  induction values generalizing t with
  | nil => exact h
  | cons v rest ih => exact ih _ (Table.nodup_keys_modify h _ _ _)

/-- The keys are the given names, in the order in which they come first. -/
structure InOrder (names keys : List String) : Prop where
  mem : ∀ x, x ∈ keys ↔ x ∈ names
  order : keys.Pairwise fun x y => names.idxOf x < names.idxOf y

theorem InOrder.nil : InOrder [] [] := ⟨by simp, .nil⟩

/-- A name that comes again changes nothing, and a new one comes last. -/
theorem InOrder.add {names keys : List String} (h : InOrder names keys) (x : String) :
    InOrder (names ++ [x]) (if x ∈ keys then keys else keys ++ [x]) := by
  have hplace : ∀ y ∈ keys, (names ++ [x]).idxOf y = names.idxOf y := by
    intro y hy
    rw [List.idxOf_append, if_pos ((h.mem y).mp hy)]
  have horder : keys.Pairwise fun y z => (names ++ [x]).idxOf y < (names ++ [x]).idxOf z := by
    refine h.order.imp_of_mem fun hy hz hlt => ?_
    rwa [hplace _ hy, hplace _ hz]
  split
  case isTrue hx =>
    refine ⟨fun y => ?_, horder⟩
    rw [List.mem_append, List.mem_singleton, ← h.mem]
    exact ⟨.inl, fun hy => hy.elim id fun heq => heq ▸ hx⟩
  case isFalse hx =>
    have hnew : x ∉ names := fun hmem => hx ((h.mem x).mpr hmem)
    refine ⟨fun y => ?_, List.pairwise_append.mpr ⟨horder, List.pairwise_singleton _ _, ?_⟩⟩
    · rw [List.mem_append, List.mem_append, h.mem]
    · intro y hy z hz
      rw [List.mem_singleton.mp hz, hplace y hy, List.idxOf_append, if_neg hnew]
      exact Nat.lt_add_left _ (List.idxOf_lt_length_of_mem ((h.mem y).mp hy))

theorem inOrder_addAll (nameOf : α → String) (values : List α) {names : List String}
    {t : Index α} (h : InOrder names t.keys) :
    InOrder (names ++ values.map nameOf)
      (Table.keys (values.foldl (fun t v => add t (nameOf v) v) t)) := by
  induction values generalizing names t with
  | nil => simpa using h
  | cons v rest ih =>
    have hkeys : (add t (nameOf v) v).keys =
        if nameOf v ∈ t.keys then t.keys else t.keys ++ [nameOf v] :=
      Table.map_fst_modifyEntries (nameOf v) [] (· ++ [v]) t.entries
    have hrest := ih (hkeys ▸ h.add (nameOf v))
    rwa [List.append_assoc, List.singleton_append] at hrest

theorem all_of_mem {t : Index α} (h : t.keys.Nodup) {x : String} {values : List α}
    (hmem : (x, values) ∈ t.entries) : all t x = values := by
  unfold all
  rw [(Table.get?_eq_some_iff_mem h).mpr hmem, Option.getD_some]

end Index

end Restyle
