import Restyle.Proofs.Review.Quit
import Restyle.Proofs.Review.Script

/-!
Files that follow. A file follows every group whose names its changes mention, and it is written
as a whole with each of them that is applied. The main statements say for which results this does
no harm, whatever the user answers: a file is written at most once exactly if none follows two
groups, and the names of a group that is declined stay out of the other files exactly if no file
that follows another group changes them.
-/

namespace Restyle.Review

open Disk (Path)

variable {es : List Event} {st st' : Standing} {g : Group} {r : Except Stop (List Outcome)}
  {os : List Outcome} {p : Path} {gs : List Group} {rs : List FileResult}

/-! ### Writing once -/

def Group.calls (g : Group) : List (Path × Option String) := (g.definition :: g.usages).map callFor

theorem groupCalls_sublist (es : List Event) (g : Group) : (groupCalls es g).Sublist g.calls := by
  unfold groupCalls Group.calls
  rw [List.map_cons]
  apply List.Sublist.cons_cons
  split
  · exact List.Sublist.refl _
  · exact List.nil_sublist _

theorem Visit.calls_sublist (h : Visit g st es os st') : (Review.calls es).Sublist g.calls := by
  rw [h.seen.calls]
  split
  · exact groupCalls_sublist es g
  · exact List.nil_sublist _

theorem Consent.calls (h : Consent g st es st') : Review.calls es = [] := by
  cases h with
  | standing hall => rfl
  | given hopen prompted => exact prompted.calls

theorem Dissent.calls (h : Dissent g st es st') : Review.calls es = [] := by
  cases h with
  | standing hall hskip => rfl
  | given hopen prompted => exact prompted.calls

theorem Ending.calls (h : Ending g st es r st') : Review.calls es = [] := by
  cases h with
  | quit hopen prompted => exact prompted.calls
  | interrupted hopen prompted => exact prompted.calls

/-- Every group is written at most once, and in the order of the groups. -/
theorem Trace.calls_sublist (h : Trace st gs es r st') :
    (Review.calls es).Sublist (gs.flatMap Group.calls) := by
  induction h with
  | nil => exact List.Sublist.refl _
  | closed => exact List.nil_sublist _
  | last hopen ending =>
    rw [ending.calls]
    exact List.nil_sublist _
  | next hopen visit rest ih =>
    rw [calls_append, List.flatMap_cons]
    exact visit.calls_sublist.append ih

theorem map_fst_calls (g : Group) :
    g.calls.map (·.1) = g.definition.path :: g.usages.map (·.path) := by
  simp [Group.calls, callFor, Function.comp_def]

theorem nodup_group_paths (h : (rs.map (·.path)).Nodup) (hg : g ∈ groups rs) :
    (g.definition.path :: g.usages.map (·.path)).Nodup := by
  refine List.nodup_cons.mpr ⟨?_, ?_⟩
  · intro hmem
    obtain ⟨u, hu, hpath⟩ := List.mem_map.mp hmem
    exact (apart_groups h).separate g hg g hg u hu hpath
  · rcases List.mem_append.mp hg with hlinked | horphan
    · obtain ⟨r, -, rfl⟩ := List.mem_map.mp hlinked
      have hsub : ((rs.filter (!isDefinition ·)).filter (mentions · (changedNames r))).Sublist rs :=
        List.filter_sublist.trans List.filter_sublist
      exact (hsub.map _).nodup h
    · obtain ⟨r, -, rfl⟩ := List.mem_map.mp horphan
      exact List.nodup_nil

/-- Where all files of all groups are written, none is written twice exactly if no file follows
two groups. -/
theorem nodup_calls_iff (h : (rs.map (·.path)).Nodup) :
    (((groups rs).flatMap Group.calls).map (·.1)).Nodup ↔
      (groups rs).Pairwise fun g k => ∀ u ∈ g.usages, u ∉ k.usages := by
  have hapart := apart_groups h
  rw [List.map_flatMap, List.nodup_flatMap]
  simp only [map_fst_calls]
  constructor
  · rintro ⟨-, hdisjoint⟩
    refine hdisjoint.imp ?_
    intro g k hgk u hu hu'
    exact hgk (List.mem_cons_of_mem _ (List.mem_map_of_mem hu))
      (List.mem_cons_of_mem _ (List.mem_map_of_mem hu'))
  · intro hfollowers
    refine ⟨fun g hg => nodup_group_paths h hg, ?_⟩
    have hleaders := hapart.distinct
    rw [List.Nodup, List.pairwise_map] at hleaders
    refine (hleaders.and hfollowers).imp_of_mem ?_
    rintro g k hg hk ⟨hne, hapartUsages⟩ p hp hp'
    -- leaders differ from each other and from followers, which leaves two followers
    rcases List.mem_cons.mp hp with rfl | hp <;> rcases List.mem_cons.mp hp' with hp' | hp'
    · exact hne hp'
    · obtain ⟨u, hu, hpath⟩ := List.mem_map.mp hp'
      exact hapart.separate g hg k hk u hu hpath
    · obtain ⟨u, hu, hpath⟩ := List.mem_map.mp hp
      exact hapart.separate k hk g hg u hu (hpath.trans hp')
    · obtain ⟨u, hu, rfl⟩ := List.mem_map.mp hp
      obtain ⟨v, hv, hpath⟩ := List.mem_map.mp hp'
      have hsame : u = v := List.inj_on_of_nodup_map h (mem_of_mem_groups hg (.inr hu))
        (mem_of_mem_groups hk (.inr hv)) hpath.symm
      exact hapartUsages u hu (hsame ▸ hv)

theorem calls_visitDeeds (g : Group) (yes : Bool) :
    calls (visitDeeds g yes) = if yes then g.calls else [] := by
  cases yes with
  | false => rfl
  | true =>
    have hwritten (rs : List FileResult) : calls (rs.map writtenFor) = rs.map callFor := by
      simp [calls, List.filterMap_map, Function.comp_def, writtenFor, Event.call?, callFor]
    exact hwritten (g.definition :: g.usages)

/-- No review writes a file twice exactly if no file follows two groups. -/
theorem written_once_iff_followers_apart (rs : List FileResult)
    (hdistinct : (rs.map (·.path)).Nodup) :
    (∀ (settings : Settings) (write : Output.Writer) (s : State) (es : List Event),
        (perform (reviewWith settings write rs) s).2.desk.log = s.desk.log ++ es →
          ((calls es).map (·.1)).Nodup) ↔
      (groups (changed rs)).Pairwise fun g k => ∀ u ∈ g.usages, u ∉ k.usages := by
  have hchanged : ((changed rs).map (·.path)).Nodup :=
    (List.filter_sublist.map _).nodup hdistinct
  rw [← nodup_calls_iff hchanged]
  constructor
  · intro honce
    -- the user wants everything
    obtain ⟨desk, es, hlog, hdeeds⟩ := exists_review_deciding .usual rs fun _ => true
    have hcalls : calls es = (groups (changed rs)).flatMap Group.calls := by
      rw [← calls_deeds, hdeeds, calls, List.filterMap_flatMap]
      exact List.flatMap_congr fun g _ => calls_visitDeeds g true
    rw [← hcalls]
    exact honce .usual dryWrite ⟨.start, desk⟩ es hlog
  · intro hnodup settings write s es hlog
    obtain ⟨_, r, s', hrun, ⟨log, hlater, rfl⟩, htrace⟩ := perform_reviewWith settings write rs s
    rw [hrun] at hlog
    cases List.append_cancel_left (hlater.symm.trans hlog)
    have hsub := htrace.calls_sublist
    rw [calls_deeds] at hsub
    exact (hsub.map _).nodup hnodup

/-- Two files with new names of their own, and a file that uses both names. -/
def sharedResults : List FileResult :=
  sampleDefinitions ++
    [⟨⟨"", ["both.py"]⟩, true, "oldName(nextName())", some "old_name(next_name())",
      ["Renamed symbol 'oldName' to 'old_name' (cross-file)",
        "Renamed symbol 'nextName' to 'next_name' (cross-file)"], none⟩]

theorem written_once_iff_followers_apart_sample :
    (sharedResults.map (·.path)).Nodup ∧
      ((∀ (settings : Settings) (write : Output.Writer) (s : State) (es : List Event),
          (perform (reviewWith settings write sharedResults) s).2.desk.log = s.desk.log ++ es →
            ((calls es).map (·.1)).Nodup) ↔
        (groups (changed sharedResults)).Pairwise fun g k => ∀ u ∈ g.usages, u ∉ k.usages) :=
  have hdistinct : (sharedResults.map (·.path)).Nodup := by decide
  ⟨hdistinct, written_once_iff_followers_apart sharedResults hdistinct⟩

def sharedDisk : Disk :=
  ⟨.dir .directory
    [("first.py", .file .file (Text.encode "def oldName(): pass".toList)),
      ("second.py", .file .file (Text.encode "def nextName(): pass".toList)),
      ("both.py", .file .file (Text.encode "oldName(nextName())".toList))], false, some []⟩

/-- The review of the three files by a user who wants everything, under new names. -/
def doubleReview : Except Stop (List Outcome) × State :=
  perform (review { Settings.usual with mode := .newFiles } sharedResults)
    ⟨.start, consoleDesk sharedDisk ["y", "y"]⟩

/-- The file that follows both groups is written twice, and there are two new files for it. -/
theorem follower_written_twice :
    (calls doubleReview.2.desk.log).map (·.1) =
        [⟨"", ["first.py"]⟩, ⟨"", ["both.py"]⟩, ⟨"", ["second.py"]⟩, ⟨"", ["both.py"]⟩] ∧
      doubleReview.1.toOption.map (fun os => os.map (·.output)) =
        some [some ⟨"", ["first_formatted.py"]⟩, some ⟨"", ["both_formatted.py"]⟩,
          some ⟨"", ["second_formatted.py"]⟩, some ⟨"", ["both_formatted_1.py"]⟩] := by
  decide +kernel

/-! ### Names that are declined -/

/-- The user does not want the changes of the file at a path: an answer about the file says so, or
an outcome, which tells also of files left out by an earlier answer for all. -/
def Declined (es : List Event) (r : Except Stop (List Outcome)) (p : Path) : Prop :=
  (∃ all, (p, .decided false all) ∈ confirmations es) ∨
    ∃ os, r = .ok os ∧ ∃ o ∈ os, o.path = p ∧ o.skipped = true

theorem write_notMem_of_calls (h : calls es = []) (p : Path) (code : Option String) (ok : Bool) :
    .write p code ok ∉ es := by
  intro hmem
  have hcall : (p, code) ∈ calls es := List.mem_filterMap.mpr ⟨_, hmem, rfl⟩
  rw [h] at hcall
  cases hcall

theorem path_written (p : Path) (w : Output.WriteResult) (isDefinition : Bool) :
    (Outcome.written p w isDefinition).path = p := by
  rcases w with ⟨disk, f | target⟩ <;> rfl

theorem Followed.outcomes (h : Followed rs es os) :
    ∀ o ∈ os, o.skipped = false ∧ ∃ r ∈ rs, o.path = r.path := by
  induction h with
  | nil => simp
  | @cons r rs es os w rest ih =>
    intro o ho
    rcases List.mem_cons.mp ho with rfl | ho
    · exact ⟨(success_written _ w false).2, r, List.mem_cons_self, path_written _ w false⟩
    · obtain ⟨hskipped, r', hr', hpath⟩ := ih o ho
      exact ⟨hskipped, r', List.mem_cons_of_mem r hr', hpath⟩

theorem Applied.outcomes (h : Applied g es os) :
    ∀ o ∈ os, o.skipped = false ∧ ∃ r, (r = g.definition ∨ r ∈ g.usages) ∧ o.path = r.path := by
  intro o ho
  cases h with
  | failed w hw =>
    rw [List.mem_singleton.mp ho]
    exact ⟨(success_written _ w true).2, g.definition, .inl rfl, path_written _ w true⟩
  | done w hw rest =>
    rcases List.mem_cons.mp ho with rfl | ho
    · exact ⟨(success_written _ w true).2, g.definition, .inl rfl, path_written _ w true⟩
    · obtain ⟨hskipped, r, hr, hpath⟩ := rest.outcomes o ho
      exact ⟨hskipped, r, .inr hr, hpath⟩

theorem Visit.outcome_path (h : Visit g st es os st') :
    ∀ o ∈ os, ∃ r, (r = g.definition ∨ r ∈ g.usages) ∧ o.path = r.path := by
  intro o ho
  cases h with
  | applied consent applied => exact (applied.outcomes o ho).2
  | leftOut dissent =>
    rw [List.mem_singleton.mp ho]
    exact ⟨g.definition, .inl rfl, rfl⟩
  | ended hopen prompted =>
    rw [List.mem_singleton.mp ho]
    exact ⟨g.definition, .inl rfl, rfl⟩

theorem Visit.calls_of_declined (h : Visit g st es os st')
    (hdeclined : Declined es (.ok os) g.definition.path) : Review.calls es = [] := by
  cases h with
  | @applied es fs os st' consent applied =>
    exfalso
    rcases hdeclined with ⟨all, hconf⟩ | ⟨_, ⟨⟩, o, ho, -, hskipped⟩
    · rw [confirmations_append, applied.confirmations, List.append_nil] at hconf
      cases consent with
      | standing hall => cases hconf
      | given hopen prompted =>
        rw [prompted.confirmations] at hconf
        simp at hconf
    · rw [(applied.outcomes o ho).1] at hskipped
      cases hskipped
  | leftOut dissent => exact dissent.calls
  | ended hopen prompted => exact prompted.calls

/-- What is written at a visit is the file that leads, or one that follows it after it was
written. -/
theorem Visit.written (h : Visit g st es os st') {code : Option String} {ok : Bool}
    (hmem : .write p code ok ∈ es) :
    p = g.definition.path ∨
      (∃ u ∈ g.usages, p = u.path) ∧ .write g.definition.path g.definition.code true ∈ es := by
  cases h with
  | @applied es fs os st' consent applied =>
    have hfs : .write p code ok ∈ fs := by
      rcases List.mem_append.mp hmem with hmem | hmem
      · exact absurd hmem (write_notMem_of_calls consent.calls p code ok)
      · exact hmem
    cases applied with
    | failed w hw =>
      cases List.mem_singleton.mp hfs
      exact .inl rfl
    | done w hw rest =>
      rcases List.mem_cons.mp hfs with heq | hfollows
      · cases heq
        exact .inl rfl
      · obtain ⟨u, hu, ok', heq⟩ := rest.writes _ hfollows
        cases heq
        exact .inr ⟨⟨u, hu, rfl⟩, List.mem_append_right _ List.mem_cons_self⟩
  | leftOut dissent => exact absurd hmem (write_notMem_of_calls dissent.calls p code ok)
  | ended hopen prompted => exact absurd hmem (write_notMem_of_calls prompted.calls p code ok)

theorem Trace.outcome_path (h : Trace st gs es r st') (hr : r = .ok os) :
    ∀ o ∈ os, ∃ g ∈ gs, ∃ f, (f = g.definition ∨ f ∈ g.usages) ∧ o.path = f.path := by
  induction h generalizing os with
  | nil | closed =>
    cases hr
    simp
  | @last _ _ g _ _ _ hopen ending =>
    intro o ho
    cases ending with
    | quit hopen prompted =>
      cases hr
      rw [List.mem_singleton.mp ho]
      exact ⟨g, List.mem_cons_self, g.definition, .inl rfl, rfl⟩
    | interrupted hopen prompted => cases hr
  | @next _ _ _ g gs _ _ here r hopen visit rest ih =>
    cases r with
    | error e => cases hr
    | ok later =>
      cases hr
      intro o ho
      rcases List.mem_append.mp ho with ho | ho
      · exact ⟨g, List.mem_cons_self, visit.outcome_path o ho⟩
      · obtain ⟨k, hk, hpath⟩ := ih rfl o ho
        exact ⟨k, List.mem_cons_of_mem g hk, hpath⟩

theorem Trace.written (h : Trace st gs es r st') {code : Option String} {ok : Bool}
    (hmem : .write p code ok ∈ es) :
    ∃ g ∈ gs, p = g.definition.path ∨
      (∃ u ∈ g.usages, p = u.path) ∧ .write g.definition.path g.definition.code true ∈ es := by
  induction h with
  | nil | closed => cases hmem
  | last hopen ending => exact absurd hmem (write_notMem_of_calls ending.calls p code ok)
  | @next _ _ _ g gs es fs _ _ hopen visit rest ih =>
    rcases List.mem_append.mp hmem with hmem | hmem
    · refine ⟨g, List.mem_cons_self, ?_⟩
      rcases visit.written hmem with hleads | ⟨hfollows, hwritten⟩
      · exact .inl hleads
      · exact .inr ⟨hfollows, List.mem_append_left fs hwritten⟩
    · obtain ⟨k, hk, hwritten⟩ := ih hmem
      refine ⟨k, List.mem_cons_of_mem g hk, ?_⟩
      rcases hwritten with hleads | ⟨hfollows, hwritten⟩
      · exact .inl hleads
      · exact .inr ⟨hfollows, List.mem_append_right es hwritten⟩

theorem Silent.confirmation_notMem (h : Silent es p) (c : Confirmation) :
    (p, c) ∉ confirmations es := by
  intro hmem
  obtain ⟨e, he, hconf⟩ := List.mem_filterMap.mp hmem
  exact h e he (Event.path?_of_confirmation hconf)

theorem not_declined_of_silent (h : Silent es p) (hos : ∀ os, r = .ok os → ∀ o ∈ os, o.path ≠ p) :
    ¬ Declined es r p := by
  rintro (⟨all, hconf⟩ | ⟨os, hr, o, ho, hpath, -⟩)
  · exact h.confirmation_notMem _ hconf
  · exact hos os hr o ho hpath

theorem declined_append {fs : List Event} (h : Declined (es ++ fs) (r.map (os ++ ·)) p) :
    Declined es (.ok os) p ∨ Declined fs r p := by
  rcases h with ⟨all, hconf⟩ | ⟨_, hos, o, ho, htold⟩
  · rw [confirmations_append] at hconf
    rcases List.mem_append.mp hconf with hconf | hconf
    · exact .inl (.inl ⟨all, hconf⟩)
    · exact .inr (.inl ⟨all, hconf⟩)
  · cases r with
    | error e => cases hos
    | ok later =>
      cases hos
      rcases List.mem_append.mp ho with ho | ho
      · exact .inl (.inr ⟨os, rfl, o, ho, htold⟩)
      · exact .inr (.inr ⟨later, rfl, o, ho, htold⟩)

theorem Visit.not_declined {q : Path} (h : Visit g st es os st') (hdef : g.definition.path ≠ q)
    (huse : ∀ u ∈ g.usages, u.path ≠ q) : ¬ Declined es (.ok os) q := by
  apply not_declined_of_silent (h.silent hdef huse)
  rintro _ ⟨⟩ o ho
  obtain ⟨f, hf, heq⟩ := h.outcome_path o ho
  rw [heq]
  rcases hf with rfl | hf
  · exact hdef
  · exact huse f hf

theorem Trace.not_declined {q : Path} (h : Trace st gs es r st')
    (hdef : ∀ g ∈ gs, g.definition.path ≠ q) (huse : ∀ g ∈ gs, ∀ u ∈ g.usages, u.path ≠ q) :
    ¬ Declined es r q := by
  apply not_declined_of_silent (h.silent hdef huse)
  intro os hos o ho
  obtain ⟨g, hg, f, hf, heq⟩ := h.outcome_path hos o ho
  rw [heq]
  rcases hf with rfl | hf
  · exact hdef g hg
  · exact huse g hg f hf

theorem Trace.unwritten_of_declined (h : Trace st gs es r st') (hapart : Apart gs) (hg : g ∈ gs)
    (hdeclined : Declined es r g.definition.path) (code : Option String) (ok : Bool) :
    .write g.definition.path code ok ∉ es := by
  induction h with
  | nil => cases hg
  | closed => exact List.not_mem_nil
  | last hopen ending => exact write_notMem_of_calls ending.calls _ code ok
  | @next _ _ _ k gs es fs _ _ hopen visit rest ih =>
    intro hmem
    rcases List.mem_cons.mp hg with rfl | hg
    · -- nothing that comes later is about the visited group
      have hdef (l : Group) (hl : l ∈ gs) : l.definition.path ≠ g.definition.path :=
        (hapart.head_ne hl).symm
      have huse (l : Group) (hl : l ∈ gs) (u : FileResult) (hu : u ∈ l.usages) :
          u.path ≠ g.definition.path :=
        hapart.separate g List.mem_cons_self l (List.mem_cons_of_mem g hl) u hu
      have hhere := (declined_append hdeclined).resolve_right (rest.not_declined hdef huse)
      rcases List.mem_append.mp hmem with hmem | hmem
      · exact write_notMem_of_calls (visit.calls_of_declined hhere) _ code ok hmem
      · exact (rest.silent hdef huse).write_notMem code ok hmem
    · have hdef : k.definition.path ≠ g.definition.path := hapart.head_ne hg
      have huse (u : FileResult) (hu : u ∈ k.usages) : u.path ≠ g.definition.path :=
        hapart.separate g (List.mem_cons_of_mem k hg) k List.mem_cons_self u hu
      have hlater := (declined_append hdeclined).resolve_left (visit.not_declined hdef huse)
      rcases List.mem_append.mp hmem with hmem | hmem
      · exact (visit.silent hdef huse).write_notMem code ok hmem
      · exact ih hapart.tail hg hlater hmem

theorem declined_deeds : Declined (deeds es) r p ↔ Declined es r p := by
  unfold Declined confirmations
  rw [filterMap_deeds Event.confirmation? (fun _ => rfl) es]

/-- Files that failed are not left out. -/
theorem declined_of_failures (h : Declined es (r.map (failures rs ++ ·)) p) : Declined es r p := by
  rcases h with hconf | ⟨_, hos, o, ho, hpath, hskipped⟩
  · exact .inl hconf
  · cases r with
    | error e => cases hos
    | ok os =>
      cases hos
      rcases List.mem_append.mp ho with hfailed | ho
      · obtain ⟨f, -, rfl⟩ := List.mem_map.mp hfailed
        cases hskipped
      · exact .inr ⟨os, rfl, o, ho, hpath, hskipped⟩

theorem confirmation_mem_visitDeeds (g : Group) :
    (g.definition.path, .decided false false) ∈ confirmations (visitDeeds g false) :=
  List.mem_singleton.mpr rfl

theorem written_mem_visitDeeds {u : FileResult} (hu : u ∈ g.usages) :
    .write u.path u.code true ∈ visitDeeds g true :=
  List.mem_cons_of_mem _ (List.mem_cons_of_mem _
    (List.mem_map_of_mem (List.mem_cons_of_mem g.definition hu)))

/-- In no review a new name of a group that the user declines is written with a file that follows
some group, exactly if no file that follows one group changes a name of another one. -/
theorem declined_names_stay_iff (rs : List FileResult) (hdistinct : (rs.map (·.path)).Nodup) :
    (∀ (settings : Settings) (write : Output.Writer) (s : State) (es : List Event),
        (perform (reviewWith settings write rs) s).2.desk.log = s.desk.log ++ es →
          ∀ g ∈ groups (changed rs),
            Declined es (perform (reviewWith settings write rs) s).1 g.definition.path →
              ∀ k ∈ groups (changed rs), ∀ u ∈ k.usages, .write u.path u.code true ∈ es →
                ∀ x ∈ changedNames u, x ∉ g.names) ↔
      ∀ g ∈ groups (changed rs), ∀ k ∈ groups (changed rs), k ≠ g →
        ∀ u ∈ k.usages, ∀ x ∈ changedNames u, x ∉ g.names := by
  have hchanged : ((changed rs).map (·.path)).Nodup :=
    (List.filter_sublist.map _).nodup hdistinct
  have hapart := apart_groups hchanged
  constructor
  · intro hstay g hg k hk hne u hu
    -- the user wants one group and nothing else
    obtain ⟨desk, es, hlog, hdeeds⟩ := exists_review_deciding .usual rs fun l => decide (l = k)
    have hvisited {l : Group} {e : Event} (hl : l ∈ groups (changed rs))
        (he : e ∈ visitDeeds l (decide (l = k))) : e ∈ es := by
      have hmem : e ∈ deeds es := hdeeds ▸ List.mem_flatMap.mpr ⟨l, hl, he⟩
      exact (List.mem_filter.mp hmem).1
    apply hstay .usual dryWrite ⟨.start, desk⟩ es hlog g hg ?_ k hk u hu
    · apply hvisited hk
      rw [decide_eq_true rfl]
      exact written_mem_visitDeeds hu
    · refine .inl ⟨false, ?_⟩
      obtain ⟨e, he, hconf⟩ := List.mem_filterMap.mp (confirmation_mem_visitDeeds g)
      refine List.mem_filterMap.mpr ⟨e, hvisited hg ?_, hconf⟩
      rw [decide_eq_false hne.symm]
      exact he
  · intro hclear settings write s es hlog g hg hdeclined k hk u hu hwritten
    obtain ⟨_, r, s', hrun, ⟨log, hlater, rfl⟩, htrace⟩ := perform_reviewWith settings write rs s
    rw [hrun] at hlog hdeclined
    cases List.append_cancel_left (hlater.symm.trans hlog)
    have hunwritten := htrace.unwritten_of_declined hapart hg
      (declined_deeds.mpr (declined_of_failures hdeclined))
    obtain ⟨l, hl, hleads | ⟨⟨v, hv, hpath⟩, hleader⟩⟩ :=
      htrace.written ((write_mem_deeds es _ _ _).mpr hwritten)
    · exact absurd hleads (hapart.separate l hl k hk u hu)
    · -- the group with which the file was written is another one than the declined one
      have hne : l ≠ g := by
        rintro rfl
        exact hunwritten _ _ hleader
      have hsame : u = v := List.inj_on_of_nodup_map hchanged (mem_of_mem_groups hk (.inr hu))
        (mem_of_mem_groups hl (.inr hv)) hpath
      exact hclear g hg l hl hne u (hsame ▸ hv)

theorem declined_names_stay_iff_sample :
    (sharedResults.map (·.path)).Nodup ∧
      ((∀ (settings : Settings) (write : Output.Writer) (s : State) (es : List Event),
          (perform (reviewWith settings write sharedResults) s).2.desk.log = s.desk.log ++ es →
            ∀ g ∈ groups (changed sharedResults),
              Declined es (perform (reviewWith settings write sharedResults) s).1
                g.definition.path →
                ∀ k ∈ groups (changed sharedResults), ∀ u ∈ k.usages,
                  .write u.path u.code true ∈ es → ∀ x ∈ changedNames u, x ∉ g.names) ↔
        ∀ g ∈ groups (changed sharedResults), ∀ k ∈ groups (changed sharedResults), k ≠ g →
          ∀ u ∈ k.usages, ∀ x ∈ changedNames u, x ∉ g.names) :=
  have hdistinct : (sharedResults.map (·.path)).Nodup := by decide
  ⟨hdistinct, declined_names_stay_iff sharedResults hdistinct⟩

/-- The review of the three files by a user who wants the second one and not the first. -/
def partialReview : Except Stop (List Outcome) × State :=
  perform (review .usual sharedResults) ⟨.start, consoleDesk sharedDisk ["n", "y"]⟩

/-- The user declines the first file, and the file that follows both is written with the name that
the first one was to get. -/
theorem declined_name_written :
    deeds partialReview.2.desk.log =
        [.question, .answered ⟨"", ["first.py"]⟩ .no, .question,
          .answered ⟨"", ["second.py"]⟩ .yes,
          .write ⟨"", ["second.py"]⟩ (some "def next_name(): pass") true,
          .write ⟨"", ["both.py"]⟩ (some "old_name(next_name())") true] ∧
      (groups (changed sharedResults)).map (fun g => (g.definition.path, g.names)) =
        [(⟨"", ["first.py"]⟩, ["oldName"]), (⟨"", ["second.py"]⟩, ["nextName"])] ∧
      (sharedResults.map changedNames).getLast? = some ["oldName", "nextName"] := by
  decide +kernel

end Restyle.Review
