import Mathlib.Data.List.Infix
import Restyle.Proofs.Attempt
import Restyle.Config.Check
import Restyle.Config.Load

/-!
Configurations whose file is read again and again. A document replaces the one before it as soon
as it could be read, and only then is it asked whether it obeys the schema. So a failed reload
leaves the configuration alone if the file could not be read, and does not if the document in it
does not obey. The main statement says this of whole histories: all failed reloads are harmless, or
equally all documents ever held obey, exactly if no document with a violation was ever read.
-/

namespace Restyle.Config

open Json
open Disk (Path)

section Reloads

variable [Validator]

/-! ### One reload -/

section Reload

variable {c : Config} {d : Disk} {v : Value} {f : Fault}

theorem reload_of_error (h : loadDocument d c.path = .error f) : c.reload d = (c, some f) := by
  rw [reload, h]

theorem reload_of_ok (h : loadDocument d c.path = .ok v) :
    c.reload d = ({ c with document := v }, (c.schema.violation? v).map .invalid) := by
  rw [reload, h]

@[simp] theorem path_reload (c : Config) (d : Disk) : (c.reload d).1.path = c.path := by
  cases h : loadDocument d c.path with
  | error f => rw [reload_of_error h]
  | ok v => rw [reload_of_ok h]

@[simp] theorem schema_reload (c : Config) (d : Disk) : (c.reload d).1.schema = c.schema := by
  cases h : loadDocument d c.path with
  | error f => rw [reload_of_error h]
  | ok v => rw [reload_of_ok h]

end Reload

/-! ### One reload of a valid configuration -/

def IsValid (c : Config) : Prop := Obeys c.schema c.document

/-- If a reload fails then the configuration is the one before it. -/
def IsHarmless (c : Config) (d : Disk) : Prop := (c.reload d).2 ≠ none → (c.reload d).1 = c

/-- A document that can be read on the disk obeys the schema. -/
def ReadsValid (c : Config) (d : Disk) : Prop :=
  ∀ v, loadDocument d c.path = .ok v → Obeys c.schema v

theorem isValid_of_open? {d : Disk} {schema : Schema} {path : Path} {c : Config}
    (h : open? d schema path = .ok c) : c.path = path ∧ c.schema = schema ∧ c.IsValid := by
  rw [open?] at h
  cases hload : loadDocument d path with
  | error f => simp [hload] at h
  | ok v =>
    cases hbad : schema.violation? v with
    | some bad => simp [hload, hbad] at h
    | none =>
      simp only [hload, hbad, Except.ok.injEq] at h
      subst h
      exact ⟨rfl, rfl, (schema.violation?_eq_none_iff v).mp hbad⟩

section Step

variable {c : Config} {d : Disk}

theorem isValid_reload_iff (hc : c.IsValid) : (c.reload d).1.IsValid ↔ c.ReadsValid d := by
  cases h : loadDocument d c.path with
  | error f => simp [reload_of_error h, ReadsValid, h, hc]
  | ok v => simp [reload_of_ok h, ReadsValid, h, IsValid]

/-- A reload of a valid configuration is harmless exactly if no document with a violation is
read: such a document is another one than the valid one that it replaces. -/
theorem isHarmless_iff (hc : c.IsValid) : c.IsHarmless d ↔ c.ReadsValid d := by
  cases h : loadDocument d c.path with
  | error f => simp [IsHarmless, reload_of_error h, ReadsValid, h]
  | ok v =>
    have hfails : (c.reload d).2 = none ↔ Obeys c.schema v := by
      rw [reload_of_ok h, Option.map_eq_none_iff, Schema.violation?_eq_none_iff]
    have hreads : c.ReadsValid d ↔ Obeys c.schema v := by simp [ReadsValid, h]
    rw [hreads, ← hfails]
    constructor
    · intro hharmless
      by_contra hbad
      have hsame : (c.reload d).1 = c := hharmless hbad
      rw [reload_of_ok h] at hsame
      have hdocument : v = c.document := congrArg Config.document hsame
      rw [hfails, hdocument] at hbad
      exact hbad hc
    · intro hgood hbad
      exact absurd hgood hbad

end Step

/-! ### Histories -/

def after (c : Config) (ds : List Disk) : Config := ds.foldl (fun c d => (c.reload d).1) c

/-- Something holds of every reload in a history. -/
def Throughout (P : Config → Disk → Prop) (c : Config) (ds : List Disk) : Prop :=
  ∀ before d rest, ds = before ++ d :: rest → P (c.after before) d

section Histories

variable {c : Config} {d : Disk} {ds : List Disk} {P : Config → Disk → Prop}

@[simp] theorem after_nil (c : Config) : c.after [] = c := rfl

@[simp] theorem after_cons (c : Config) (d : Disk) (ds : List Disk) :
    c.after (d :: ds) = (c.reload d).1.after ds := rfl

theorem after_concat (c : Config) (ds : List Disk) (d : Disk) :
    c.after (ds ++ [d]) = ((c.after ds).reload d).1 := by
  simp [after]

theorem throughout_cons :
    Throughout P c (d :: ds) ↔ P c d ∧ Throughout P (c.reload d).1 ds := by
  constructor
  · intro h
    refine ⟨h [] d ds rfl, ?_⟩
    intro before e rest hds
    exact h (d :: before) e rest (by rw [hds, List.cons_append])
  · rintro ⟨hfirst, hrest⟩ before e rest hds
    cases before with
    | nil =>
      obtain ⟨rfl, -⟩ := List.cons.inj hds
      exact hfirst
    | cons b before =>
      obtain ⟨rfl, htail⟩ := List.cons.inj hds
      exact hrest before e rest htail

/-- What a valid configuration keeps exactly if no document with a violation is read, a history
keeps exactly if none is ever read. -/
theorem throughout_iff (hP : ∀ c d, c.IsValid → (P c d ↔ c.ReadsValid d)) (hc : c.IsValid) :
    Throughout P c ds ↔ ∀ d ∈ ds, c.ReadsValid d := by
  induction ds generalizing c with
  | nil => simp [Throughout]
  | cons d ds ih =>
    rw [throughout_cons, hP c d hc, List.forall_mem_cons]
    apply and_congr_right
    intro hreads
    -- the next configuration is valid as well, and asks the same of what is read
    rw [ih ((isValid_reload_iff hc).mpr hreads)]
    simp [ReadsValid]

theorem forall_prefix_isValid_iff (hc : c.IsValid) :
    (∀ before, before <+: ds → (c.after before).IsValid) ↔
      Throughout (fun c d => (c.reload d).1.IsValid) c ds := by
  constructor
  · intro h before d rest hds
    have hprefix : before ++ [d] <+: ds := ⟨rest, by rw [hds, List.append_assoc]; rfl⟩
    simpa [after_concat] using h (before ++ [d]) hprefix
  · rintro h before ⟨rest, hds⟩
    rcases List.eq_nil_or_concat' before with rfl | ⟨earlier, d, rfl⟩
    · exact hc
    · rw [after_concat]
      exact h earlier d rest (by rw [← hds, List.append_assoc]; rfl)

end Histories

/-- In every history of a configuration that was opened, all failed reloads are harmless exactly if
no document with a violation was ever read, and then, and only then, every configuration held on
the way is valid. -/
theorem failed_reloads_harmless_iff {d₀ : Disk} {schema : Schema} {path : Path} {c : Config}
    (hopen : open? d₀ schema path = .ok c) (ds : List Disk) :
    (Throughout IsHarmless c ds ↔
        ∀ d ∈ ds, ∀ v, loadDocument d path = .ok v → Obeys schema v) ∧
      ((∀ before, before <+: ds → (c.after before).IsValid) ↔
        ∀ d ∈ ds, ∀ v, loadDocument d path = .ok v → Obeys schema v) := by
  obtain ⟨rfl, rfl, hc⟩ := isValid_of_open? hopen
  constructor
  · exact throughout_iff (fun _ _ => isHarmless_iff) hc
  · rw [forall_prefix_isValid_iff hc]
    exact throughout_iff (fun _ _ => isValid_reload_iff) hc

end Reloads

def modeDisk (mode : String) : Disk :=
  ⟨.dir .directory [("config.json", .file .file (Text.encode
    ("\x7b\"output\":\x7b\"mode\":\"".toList ++ mode.toList ++
      "\"\x7d,\"file_selection\":\x7b\x7d,\"naming_conventions\":\x7b\x7d,".toList ++
      "\"formatting_rules\":\x7b\x7d,\"enabled_rules\":\x7b\x7d\x7d".toList)))], false, some []⟩

theorem exists_open?_modeDisk :
    ∃ c, open? (modeDisk "in_place") .standard ⟨"", ["config.json"]⟩ = .ok c :=
  (exists_ok_of_any (p := fun _ => true) (by decide +kernel)).imp fun _ h => h.1

theorem exists_refused_modeDisk :
    ∃ v, loadDocument (modeDisk "elsewhere") ⟨"", ["config.json"]⟩ = .ok v ∧
      (Schema.standard.violation? v).isSome = true :=
  exists_ok_of_any (p := fun v => (Schema.standard.violation? v).isSome) (by decide +kernel)

theorem failed_reloads_harmless_iff_sample :
    ∃ c, open? (modeDisk "in_place") .standard ⟨"", ["config.json"]⟩ = .ok c ∧
      (Throughout IsHarmless c [modeDisk "new_files", modeDisk "elsewhere"] ↔
        ∀ d ∈ [modeDisk "new_files", modeDisk "elsewhere"], ∀ v,
          loadDocument d ⟨"", ["config.json"]⟩ = .ok v → Obeys Schema.standard v) ∧
      ((∀ before, before <+: [modeDisk "new_files", modeDisk "elsewhere"] →
          (c.after before).IsValid) ↔
        ∀ d ∈ [modeDisk "new_files", modeDisk "elsewhere"], ∀ v,
          loadDocument d ⟨"", ["config.json"]⟩ = .ok v → Obeys Schema.standard v) := by
  obtain ⟨c, hopen⟩ := exists_open?_modeDisk
  exact ⟨c, hopen, failed_reloads_harmless_iff hopen [modeDisk "new_files", modeDisk "elsewhere"]⟩

/-- A document that asks for a mode that there is not is refused, and stays all the same. -/
theorem refused_document_stays :
    ∃ c, open? (modeDisk "in_place") .standard ⟨"", ["config.json"]⟩ = .ok c ∧
      ¬ c.IsHarmless (modeDisk "elsewhere") ∧
      ¬ (c.reload (modeDisk "elsewhere")).1.IsValid := by
  obtain ⟨c, hopen⟩ := exists_open?_modeDisk
  obtain ⟨hpath, hschema, hc⟩ := isValid_of_open? hopen
  obtain ⟨v, hload, hrefused⟩ := exists_refused_modeDisk
  have hreads : ¬ c.ReadsValid (modeDisk "elsewhere") := by
    intro hreads
    have hobeys : Obeys Schema.standard v := hschema ▸ hreads v (hpath ▸ hload)
    rw [(Schema.standard.violation?_eq_none_iff v).mpr hobeys] at hrefused
    cases hrefused
  exact ⟨c, hopen, mt (isHarmless_iff hc).mp hreads, mt (isValid_reload_iff hc).mp hreads⟩

end Restyle.Config
