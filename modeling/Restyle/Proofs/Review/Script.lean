import Restyle.Proofs.Review.Consent

/-!
Reviews by script. The user answers every question on the console with a plain yes or no, as it
was decided beforehand for each group, and no write fails. Such a review visits all groups, and
its deeds are known one by one. The main statement is that there is one for every decision.
-/

namespace Restyle.Review

open Disk (Path)

def answerText (yes : Bool) : String := if yes then "y" else "n"

def plainVerdict (yes : Bool) : Verdict := if yes then .yes else .no

theorem verdict?_answerText (yes : Bool) :
    verdict? (answerText yes) = some (plainVerdict yes) := by
  cases yes <;> decide +kernel

/-- A user on the console is going to give these answers, and nothing stands from before. -/
structure State.Awaits (s : State) (answers : List Bool) : Prop where
  standing : s.standing = .start
  noWindows : s.desk.hasWindows = false
  input : s.desk.input = answers.map fun yes => some (answerText yes)

namespace State.Awaits

variable {s : State} {yes : Bool} {answers : List Bool}

theorem tell (h : s.Awaits answers) (lines : List String) : (s.tell lines).Awaits answers :=
  ⟨h.standing, h.noWindows, h.input⟩

theorem readVerdict (h : s.Awaits (yes :: answers)) :
    readVerdict s.desk.input =
      (.ok (plainVerdict yes), answers.map fun yes => some (answerText yes), [.question]) := by
  rw [h.input, List.map_cons]
  simp only [Review.readVerdict, verdict?_answerText]

theorem perform_askOnConsole (h : s.Awaits (yes :: answers)) (p : Path) (changes : List String) :
    ∃ s', perform (askOnConsole p changes) s = (.ok (plainVerdict yes), s') ∧
      Later s [.question, .answered p (plainVerdict yes)] s' ∧ s'.Awaits answers := by
  unfold askOnConsole
  rw [perform_say_bind, perform_get_bind]
  generalize ["", s!"📄 Apply changes to {p}?"] ++ changes.map (fun c => s!"  {c}") = lines
  dsimp only
  rw [perform_modify_bind, (h.tell lines).readVerdict]
  refine ⟨_, rfl, Later.of_tell ⟨_, rfl, rfl⟩, ?_⟩
  exact ⟨h.standing, h.noWindows, rfl⟩

theorem perform_ask (h : s.Awaits (yes :: answers)) (settings : Settings) (g : Group) :
    ∃ s', perform (ask settings g) s = (.ok (plainVerdict yes), s') ∧
      Later s [.question, .answered g.definition.path (plainVerdict yes)] s' ∧
      s'.Awaits answers := by
  unfold ask
  dsimp only
  rw [perform_say_bind, perform_get_bind]
  generalize [s!"🎨 Showing GUI for definition file: {g.definition.path.name}"] = lines
  have hconsole : (settings.showDiffs && (s.tell lines).desk.hasWindows) = false := by
    rw [(h.tell lines).noWindows, Bool.and_false]
  rw [if_neg (by simp [hconsole])]
  obtain ⟨t, hask, hlater, hawaits⟩ :=
    (h.tell lines).perform_askOnConsole g.definition.path g.announcement
  exact ⟨t, hask, hlater.of_tell, hawaits⟩

end State.Awaits

/-! ### Writing -/

def writtenFor (r : FileResult) : Event := .write r.path r.code true

namespace State.Awaits

variable {s : State} {answers : List Bool}

theorem perform_writeResult (h : s.Awaits answers) (r : FileResult) (isDefinition : Bool)
    (lines : List String) :
    ∃ w s', perform (say lines >>= fun _ => writeResult dryWrite r isDefinition) s =
        (.ok (.written r.path w isDefinition), s') ∧ w.outcome.isOk = true ∧
      Later s [writtenFor r] s' ∧ s'.Awaits answers := by
  rw [perform_say_bind]
  refine ⟨_, _, rfl, rfl, @Later.of_tell _ s _ lines ⟨_, rfl, rfl⟩, ?_⟩
  exact ⟨h.standing, h.noWindows, h.input⟩

theorem perform_applyDefinition (h : s.Awaits answers) (r : FileResult) :
    ∃ w s', perform (applyDefinition dryWrite r) s = (.ok (.written r.path w true), s') ∧
      w.outcome.isOk = true ∧ Later s [writtenFor r] s' ∧ s'.Awaits answers :=
  h.perform_writeResult r true _

theorem perform_applyUsage (h : s.Awaits answers) (r : FileResult) :
    ∃ w s', perform (applyUsage dryWrite r) s = (.ok (.written r.path w false), s') ∧
      w.outcome.isOk = true ∧ Later s [writtenFor r] s' ∧ s'.Awaits answers :=
  h.perform_writeResult r false _

theorem perform_mapM_applyUsage (h : s.Awaits answers) (rs : List FileResult) :
    ∃ os s', perform (rs.mapM (applyUsage dryWrite)) s = (.ok os, s') ∧
      Later s (rs.map writtenFor) s' ∧ s'.Awaits answers := by
  induction rs generalizing s with
  | nil => exact ⟨[], s, rfl, Later.refl s, h⟩
  | cons r rs ih =>
    obtain ⟨w, t, hw, -, hlater, ht⟩ := h.perform_applyUsage r
    obtain ⟨os, t', hrs, hlater', ht'⟩ := ih ht
    refine ⟨.written r.path w false :: os, t', ?_, hlater.trans hlater', ht'⟩
    rw [List.mapM_cons, perform_bind_ok hw, perform_bind_ok hrs]
    rfl

end State.Awaits

/-! ### Visits -/

/-- The deeds at a group about which the user decides. -/
def visitDeeds (g : Group) (yes : Bool) : List Event :=
  .question :: .answered g.definition.path (plainVerdict yes) ::
    if yes then (g.definition :: g.usages).map writtenFor else []

namespace State.Awaits

variable {s : State} {answers : List Bool}

theorem perform_reviewDefinition_yes (h : s.Awaits (true :: answers)) (settings : Settings)
    (g : Group) :
    ∃ w s', perform (reviewDefinition settings dryWrite g) s =
        (.ok (.written g.definition.path w true), s') ∧ w.outcome.isOk = true ∧
      Later s [.question, .answered g.definition.path .yes, writtenFor g.definition] s' ∧
      s'.Awaits answers := by
  obtain ⟨t, hask, hlater, ht⟩ := h.perform_ask settings g
  obtain ⟨w, t', hw, hok, hlater', ht'⟩ := ht.perform_applyDefinition g.definition
  refine ⟨w, t', ?_, hok, hlater.trans hlater', ht'⟩
  unfold reviewDefinition
  rw [perform_tryCatch]
  unfold decideDefinition
  dsimp only
  rw [perform_get_bind, h.standing, if_neg (by simp [Standing.start]),
    if_neg (by simp [Standing.start]), perform_bind_ok hask]
  dsimp only [plainVerdict]
  rw [if_pos rfl]
  dsimp only
  rw [hw]

theorem perform_reviewDefinition_no (h : s.Awaits (false :: answers)) (settings : Settings)
    (g : Group) :
    ∃ s', perform (reviewDefinition settings dryWrite g) s =
        (.ok (.leftOut g.definition.path), s') ∧
      Later s [.question, .answered g.definition.path .no] s' ∧ s'.Awaits answers := by
  obtain ⟨t, hask, hlater, ht⟩ := h.perform_ask settings g
  refine ⟨t.tell [s!"⏩ User skipped {g.definition.path.name}"], ?_,
    hlater.trans (later_tell t _), ht.tell _⟩
  unfold reviewDefinition
  rw [perform_tryCatch]
  unfold decideDefinition
  dsimp only
  rw [perform_get_bind, h.standing, if_neg (by simp [Standing.start]),
    if_neg (by simp [Standing.start]), perform_bind_ok hask]
  rfl

/-- All groups are visited, each with its own decision. -/
theorem perform_reviewGroups {script : List (Group × Bool)} (h : s.Awaits (script.map (·.2)))
    (settings : Settings) :
    ∃ os s', perform (reviewGroups settings dryWrite (script.map (·.1))) s = (.ok os, s') ∧
      Later s (script.flatMap fun v => visitDeeds v.1 v.2) s' := by
  induction script generalizing s with
  | nil => exact ⟨[], s, rfl, Later.refl s⟩
  | cons visit script ih =>
    obtain ⟨g, yes⟩ := visit
    have hquit : s.standing.quit = false := by rw [h.standing]; rfl
    cases yes with
    | true =>
      obtain ⟨w, t, hdef, hok, hlater, ht⟩ := perform_reviewDefinition_yes h settings g
      obtain ⟨os, u, hmap, hlater', hu⟩ := ht.perform_mapM_applyUsage g.usages
      have hfollow : perform (applyUsages dryWrite g (.written g.definition.path w true)) t =
          (.ok os, u) := by
        have hsuccess := success_written g.definition.path w true
        unfold applyUsages
        rw [hsuccess.1, hsuccess.2, hok]
        exact hmap
      obtain ⟨os', v, hrest, hlater''⟩ := ih hu
      exact ⟨_, v, perform_reviewGroups_next hquit hdef (isQuit_written _ w true) hfollow hrest,
        (hlater.trans hlater').trans hlater''⟩
    | false =>
      obtain ⟨t, hdef, hlater, ht⟩ := perform_reviewDefinition_no h settings g
      obtain ⟨os', v, hrest, hlater'⟩ := ih ht
      exact ⟨_, v, perform_reviewGroups_next hquit hdef rfl
        (perform_applyUsages_of_not dryWrite g rfl t) hrest, hlater.trans hlater'⟩

end State.Awaits

/-! ### Reviews -/

def scriptDesk (answers : List Bool) : Desk :=
  consoleDesk ⟨.dir .directory [], false, none⟩ (answers.map answerText)

theorem awaits_scriptDesk (answers : List Bool) :
    State.Awaits ⟨.start, scriptDesk answers⟩ answers :=
  ⟨rfl, rfl, by simp [scriptDesk, consoleDesk]⟩

/-- Whatever is decided about each group, there is a review in which the user decides so. -/
theorem exists_review_deciding (settings : Settings) (rs : List FileResult)
    (wants : Group → Bool) :
    ∃ desk es, (perform (reviewWith settings dryWrite rs) ⟨.start, desk⟩).2.desk.log =
        desk.log ++ es ∧
      deeds es = (groups (changed rs)).flatMap fun g => visitDeeds g (wants g) := by
  let script := (groups (changed rs)).map fun g => (g, wants g)
  have hgroups : script.map (·.1) = groups (changed rs) := by
    simp [script, Function.comp_def]
  have hdeeds : script.flatMap (fun v => visitDeeds v.1 v.2) =
      (groups (changed rs)).flatMap fun g => visitDeeds g (wants g) := by
    simp [script, List.flatMap_map]
  obtain ⟨lines, hreview⟩ := perform_reviewWith_of_groups settings dryWrite rs
    ⟨.start, scriptDesk (script.map (·.2))⟩
  obtain ⟨os, s', hrun, hlater⟩ :=
    ((awaits_scriptDesk (script.map (·.2))).tell lines).perform_reviewGroups settings
  rw [hgroups] at hrun
  obtain ⟨es, hlog, hes⟩ := hlater.of_tell
  refine ⟨scriptDesk (script.map (·.2)), es, ?_, hes.trans hdeeds⟩
  rw [hreview _ s' hrun]
  exact hlog

end Restyle.Review
